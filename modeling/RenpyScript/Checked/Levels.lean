import RenpyScript.Checked.Bytes
import RenpyScript.Layout.IndentStack

/-!
# Levels in a list that grows at its end

An indent stack as a list of widths that holds the top level as well, as its first one. Levels are opened and closed at
the end of the list, one at a time. The depth has no value if not even the top level is left.
-/

namespace RenpyScript

/-- Widths of the open levels, the outermost first. -/
structure LevelStack where
  widths : List Nat
deriving DecidableEq, Repr

/-- An operation on a stack. -/
inductive LevelMove where
  | push (width : Nat)
  | pop
  | dedentTo (width : Nat)
deriving DecidableEq, Repr

namespace LevelStack

def topLevel : LevelStack := ⟨[0]⟩

def current (s : LevelStack) : Nat :=
  s.widths.getLastD 0

/-- Number of open blocks. -/
def depth? (s : LevelStack) : Option Nat :=
  checkedSub s.widths.length 1

/-- Opens a block, unless `width` is no deeper than the innermost level, and tells whether it has. -/
def push (s : LevelStack) (width : Nat) : Bool × LevelStack :=
  if width ≤ s.current then (false, s) else (true, ⟨s.widths ++ [width]⟩)

/-- Closes the innermost level and gives its width, unless it is the only one. -/
def pop (s : LevelStack) : Option Nat × LevelStack :=
  if 1 < s.widths.length then (s.widths.getLast?, ⟨s.widths.dropLast⟩) else (none, s)

theorem length_pop_lt {s t : LevelStack} {w : Nat} (h : s.pop = (some w, t)) : t.widths.length < s.widths.length := by
  unfold pop at h
  split at h
  · next hlt =>
    obtain ⟨-, rfl⟩ := Prod.mk.inj h
    rw [List.length_dropLast]
    omega
  · cases h

/-- Closes levels while the innermost one is deeper than `width`, and counts them on. -/
def closeDeeper (width closed : Nat) (s : LevelStack) : Nat × LevelStack :=
  if width < s.current then
    match _h : s.pop with
    | (none, t) => (closed, t)
    | (some _, t) => closeDeeper width (closed + 1) t
  else (closed, s)
termination_by s.widths.length
decreasing_by exact length_pop_lt _h

/-- Closes every block deeper than `width`. -/
def dedentTo (s : LevelStack) (width : Nat) : Dedent × LevelStack :=
  let (closed, t) := closeDeeper width 0 s
  (if t.current = width then .exact closed else .inconsistent closed, t)

def move (s : LevelStack) : LevelMove → LevelStack
  | .push width => (s.push width).2
  | .pop => s.pop.2
  | .dedentTo width => (s.dedentTo width).2

/-- The stack after a sequence of operations. -/
def run (moves : List LevelMove) : LevelStack :=
  moves.foldl move topLevel

end LevelStack

end RenpyScript
