/-!
# Open indentation levels

An `IndentStack` holds the widths of the blocks that are open, the innermost first. The top level
has width zero and is never closed, so it is not stored.
-/

namespace RenpyScript

/-- Outcome of closing blocks down to a width. -/
inductive Dedent where
  /-- The width is that of a level still open; carries the number of blocks closed. -/
  | exact (closed : Nat)
  /-- The width lies between two levels; carries the number of blocks closed. -/
  | inconsistent (closed : Nat)
deriving DecidableEq, Repr

def Dedent.closed : Dedent → Nat
  | exact n => n
  | inconsistent n => n

/-- Whether the width met no open level. -/
def Dedent.isInconsistent : Dedent → Bool
  | exact _ => false
  | inconsistent _ => true

/-- Widths of the open blocks, the innermost first, without the top level. -/
structure IndentStack where
  widths : List Nat
deriving DecidableEq, Repr, Inhabited

namespace IndentStack

/-- The stack on which only the top level is open. -/
def empty : IndentStack := ⟨[]⟩

/-- Width of the innermost open level. -/
def current (s : IndentStack) : Nat :=
  s.widths.headD 0

/-- Number of open blocks. -/
def depth (s : IndentStack) : Nat :=
  s.widths.length

/-- Every open level from the innermost to the top level. -/
def levels (s : IndentStack) : List Nat :=
  s.widths ++ [0]

/-- Opens a block, unless `width` is no deeper than the innermost level. -/
def push? (s : IndentStack) (width : Nat) : Option IndentStack :=
  if s.current < width then some ⟨width :: s.widths⟩ else none

/-- Opens a block if that is possible and leaves the stack as it is otherwise. -/
def push (s : IndentStack) (width : Nat) : IndentStack :=
  (s.push? width).getD s

/-- Closes the innermost block and gives its width. -/
def pop? (s : IndentStack) : Option (Nat × IndentStack) :=
  match s.widths with
  | [] => none
  | w :: ws => some (w, ⟨ws⟩)

/-- Closes every block deeper than `width`. -/
def dedentTo (s : IndentStack) (width : Nat) : Dedent × IndentStack :=
  let kept : IndentStack := ⟨s.widths.dropWhile (width < ·)⟩
  let closed := s.depth - kept.depth
  (if kept.current = width then .exact closed else .inconsistent closed, kept)

end IndentStack

end RenpyScript
