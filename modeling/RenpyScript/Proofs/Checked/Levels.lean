import RenpyScript.Checked.Levels
import RenpyScript.Proofs.Layout.Stack

/-!
# Stacks of levels

Whatever is done to an indent stack, its widths begin with that of the top level and grow from there. So a dedent, which
only looks at the innermost levels, closes the levels above its width wherever they are, and it is exact if and only if
the width is one of the levels.
-/

namespace RenpyScript

namespace LevelStack

section
variable {s t : LevelStack} {width w : Nat}

lemma closeDeeper_of_le (h : s.current ≤ width) (n : Nat) : closeDeeper width n s = (n, s) := by
  rw [closeDeeper, if_neg (by omega)]

lemma closeDeeper_of_pop (h : width < s.current) (hpop : s.pop = (some w, t)) (n : Nat) :
    closeDeeper width n s = closeDeeper width (n + 1) t := by
  rw [closeDeeper, if_pos h]
  split
  · next hnone =>
    rw [hpop] at hnone
    cases hnone
  · next hsome =>
    rw [hpop] at hsome
    cases hsome
    rfl

end

end LevelStack

namespace IndentStack

def move (s : IndentStack) : LevelMove → IndentStack
  | .push width => s.push width
  | .pop => (s.pop?.map Prod.snd).getD s
  | .dedentTo width => (s.dedentTo width).2

/-- The stack after a sequence of operations. -/
def run (moves : List LevelMove) : IndentStack :=
  moves.foldl move empty

/-- The levels in the order in which they have been opened. -/
def stored (s : IndentStack) : LevelStack :=
  ⟨s.levels.reverse⟩

/-- The levels grow from the top level inwards. -/
def Inwards (s : IndentStack) : Prop :=
  s.levels.Pairwise (· > ·)

section
variable {s : IndentStack} {width : Nat}

/-! ## Both lists of widths -/

lemma stored_cons (w : Nat) (ws : List Nat) : stored ⟨w :: ws⟩ = ⟨(stored ⟨ws⟩).widths ++ [w]⟩ := by
  simp [stored, levels]

lemma length_stored (s : IndentStack) : s.stored.widths.length = s.depth + 1 := by
  simp [stored, levels, depth]

lemma current_stored (s : IndentStack) : s.stored.current = s.current := by
  obtain ⟨ws⟩ := s
  cases ws with
  | nil => rfl
  | cons w ws =>
    rw [stored_cons, LevelStack.current, List.getLastD_concat]
    rfl

lemma depth?_stored (s : IndentStack) : s.stored.depth? = some s.depth := by
  rw [LevelStack.depth?, length_stored, checkedSub, if_pos (by omega), Nat.add_sub_cancel]

lemma push_stored (s : IndentStack) (width : Nat) :
    s.stored.push width = ((s.push? width).isSome, (s.push width).stored) := by
  unfold LevelStack.push push push?
  rw [current_stored]
  by_cases hdeeper : s.current < width
  · rw [if_neg (by omega), if_pos hdeeper, Option.getD_some, stored_cons]
    rfl
  · rw [if_pos (by omega), if_neg hdeeper]
    rfl

lemma pop_stored (s : IndentStack) :
    s.stored.pop = (s.pop?.map Prod.fst, ((s.pop?.map Prod.snd).getD s).stored) := by
  obtain ⟨ws⟩ := s
  cases ws with
  | nil => rfl
  | cons w ws =>
    rw [LevelStack.pop, length_stored, if_pos (by simp [depth]), stored_cons, List.getLast?_concat,
      List.dropLast_concat]
    rfl

lemma closeDeeper_stored (s : IndentStack) (width n : Nat) : LevelStack.closeDeeper width n s.stored =
    (n + (s.depth - (s.dedentTo width).2.depth), (s.dedentTo width).2.stored) := by
  obtain ⟨ws⟩ := s
  induction ws generalizing n with
  | nil => exact LevelStack.closeDeeper_of_le (Nat.zero_le _) n
  | cons w ws ih =>
    have hcurrent := current_stored ⟨w :: ws⟩
    change _ = w at hcurrent
    have hle : (ws.dropWhile (width < ·)).length ≤ ws.length := (List.dropWhile_suffix _).length_le
    by_cases hdeeper : width < w
    · have hdedent : (dedentTo ⟨w :: ws⟩ width).2 = (dedentTo ⟨ws⟩ width).2 := by simp [dedentTo, hdeeper]
      have hpop : (stored ⟨w :: ws⟩).pop = (some w, stored ⟨ws⟩) := pop_stored ⟨w :: ws⟩
      rw [LevelStack.closeDeeper_of_pop (by omega) hpop, ih, hdedent]
      simp only [dedentTo, depth, List.length_cons, Prod.mk.injEq, and_true]
      omega
    · have hdedent : (dedentTo ⟨w :: ws⟩ width).2 = ⟨w :: ws⟩ := by simp [dedentTo, hdeeper]
      rw [LevelStack.closeDeeper_of_le (by omega), hdedent, Nat.sub_self, Nat.add_zero]

lemma dedentTo_stored (s : IndentStack) (width : Nat) :
    s.stored.dedentTo width = ((s.dedentTo width).1, (s.dedentTo width).2.stored) := by
  rw [LevelStack.dedentTo, closeDeeper_stored]
  dsimp only
  rw [current_stored, Nat.zero_add]
  rfl

lemma move_stored (s : IndentStack) (m : LevelMove) : s.stored.move m = (s.move m).stored := by
  cases m with
  | push width => rw [LevelStack.move, push_stored, move]
  | pop => rw [LevelStack.move, pop_stored, move]
  | dedentTo width => rw [LevelStack.move, dedentTo_stored, move]

/-- Both stacks do the same, whatever is done to them. -/
theorem run_stored (moves : List LevelMove) : LevelStack.run moves = (run moves).stored := by
  induction moves using List.reverseRecOn with
  | nil => rfl
  | append_singleton moves m ih =>
    rw [LevelStack.run, run, List.foldl_concat, List.foldl_concat, ← move_stored]
    exact congrArg (LevelStack.move · m) ih

/-! ## Levels grow inwards -/

lemma Inwards.of_suffix {t : IndentStack} (h : s.Inwards) (hsuffix : t.widths <:+ s.widths) : t.Inwards :=
  List.Pairwise.sublist (hsuffix.sublist.append_right [0]) h

lemma current_mem (s : IndentStack) : s.current ∈ s.levels := by
  obtain ⟨ws⟩ := s
  cases ws with
  | nil => exact List.mem_singleton_self 0
  | cons w ws => exact List.mem_cons_self ..

lemma Inwards.le_current (h : s.Inwards) {w : Nat} (hw : w ∈ s.levels) : w ≤ s.current :=
  headD_max h hw

lemma Inwards.push (h : s.Inwards) (width : Nat) : (s.push width).Inwards := by
  unfold Inwards levels
  rw [push_widths]
  split
  · next hdeeper =>
    rw [List.cons_append, List.pairwise_cons]
    refine ⟨fun w hw => ?_, h⟩
    have hle := h.le_current hw
    omega
  · exact h

lemma Inwards.move (h : s.Inwards) (m : LevelMove) : (s.move m).Inwards := by
  cases m with
  | push width => exact h.push width
  | pop =>
    obtain ⟨ws⟩ := s
    cases ws with
    | nil => exact h
    | cons w ws => exact h.of_suffix (List.suffix_cons w ws)
  | dedentTo width => exact h.of_suffix (List.dropWhile_suffix _)

lemma inwards_run (moves : List LevelMove) : (run moves).Inwards := by
  induction moves using List.reverseRecOn with
  | nil => exact List.pairwise_singleton _ _
  | append_singleton moves m ih =>
    rw [run, List.foldl_concat]
    exact ih.move m

/-! ## What a dedent closes -/

lemma Inwards.dedentTo_levels (h : s.Inwards) (width : Nat) :
    (s.dedentTo width).2.levels = s.levels.filter (· ≤ width) := by
  rw [levels, dedentTo_widths, dropWhile_deeper (List.pairwise_append.mp h).1, levels, List.filter_append]
  simp

lemma Inwards.dedentTo_closed (h : s.Inwards) (width : Nat) :
    (s.dedentTo width).1.closed = s.levels.countP (width < ·) := by
  rw [IndentStack.dedentTo_closed, dropWhile_deeper (List.pairwise_append.mp h).1, length_sub_filter, levels,
    List.countP_append, List.countP_eq_length_filter]
  simp

lemma Inwards.dedentTo_isInconsistent (h : s.Inwards) (width : Nat) :
    (s.dedentTo width).1.isInconsistent = false ↔ width ∈ s.levels := by
  have hkept : (s.dedentTo width).2.Inwards := h.of_suffix (List.dropWhile_suffix _)
  have hle : (s.dedentTo width).2.current ≤ width := headD_dropWhile_le width s.widths
  have hmem : width ∈ s.levels ↔ width ∈ (s.dedentTo width).2.levels := by simp [h.dedentTo_levels]
  rw [IndentStack.dedentTo_isInconsistent, decide_eq_false_iff_not, not_not, hmem]
  constructor
  · intro hcurrent
    have hinnermost := current_mem (s.dedentTo width).2
    rwa [hcurrent] at hinnermost
  · intro hwidth
    have hge := hkept.le_current hwidth
    omega

end

end IndentStack

/-- What is promised of a stack of levels. -/
structure LevelStack.Sound (s : LevelStack) : Prop where
  top : s.widths.head? = some 0
  rising : s.widths.Pairwise (· < ·)
  depth : s.depth? = some (s.widths.length - 1)
  /-- What is closed is a block, never the top level. -/
  popped : ∀ w, s.pop.1 = some w → 0 < w
  opens : ∀ width, (s.push width).2 ≠ s ↔ s.current < width
  kept : ∀ width, (s.dedentTo width).2.widths = s.widths.filter (· ≤ width)
  closed : ∀ width, (s.dedentTo width).1.closed = s.widths.countP (width < ·)
  exactly : ∀ width, (s.dedentTo width).1.isInconsistent = false ↔ width ∈ s.widths

namespace IndentStack

lemma push_stored_ne_iff (s : IndentStack) (width : Nat) : (s.stored.push width).2 ≠ s.stored ↔ s.current < width := by
  rw [push_stored]
  constructor
  · intro hne
    by_contra hle
    refine hne (congrArg stored ?_)
    rw [push, push?, if_neg hle, Option.getD_none]
  · intro hdeeper heq
    have hlength := congrArg (·.widths.length) heq
    simp only [length_stored, depth, push_widths, if_pos hdeeper, List.length_cons] at hlength
    omega

lemma Inwards.sound {s : IndentStack} (h : s.Inwards) : s.stored.Sound := by
  constructor
  case top => simp [stored, levels]
  case rising => exact List.pairwise_reverse.mpr h
  case depth => rw [depth?_stored, length_stored, Nat.add_sub_cancel]
  case popped =>
    intro w hw
    rw [pop_stored, Option.map_eq_some_iff] at hw
    obtain ⟨⟨v, t⟩, hpop, rfl⟩ := hw
    obtain ⟨ws⟩ := s
    cases ws with
    | nil => cases hpop
    | cons v ws =>
      cases hpop
      exact List.rel_of_pairwise_cons h (List.mem_append_right ws (List.mem_singleton_self 0))
  case opens =>
    intro width
    rw [push_stored_ne_iff, current_stored]
  case kept =>
    intro width
    rw [dedentTo_stored, stored, h.dedentTo_levels, stored, List.filter_reverse]
  case closed =>
    intro width
    rw [dedentTo_stored, h.dedentTo_closed, stored, List.countP_reverse]
  case exactly =>
    intro width
    rw [dedentTo_stored, h.dedentTo_isInconsistent, stored, List.mem_reverse]

end IndentStack

/-- After any sequence of operations the widths begin with that of the top level and grow. A push changes the stack if and
only if its width is deeper than the innermost level. A dedent closes the levels above its width and no others, tells
their number, and is exact if and only if the width was one of the levels. -/
theorem LevelStack.run_sound (moves : List LevelMove) :
    (run moves).Sound ∧ run moves = (IndentStack.run moves).stored := by
  have hstored := IndentStack.run_stored moves
  refine ⟨?_, hstored⟩
  rw [hstored]
  exact (IndentStack.inwards_run moves).sound

end RenpyScript
