import RenpyScript.Proofs.Layout.Stack
import RenpyScript.Proofs.Outline.Steps

/-!
# Levels of the open blocks

The indent stack and the open frames hold the same levels, and none of them is the top level. So a
dedent closes the frames that are deeper, and what a comment does depends on the width of the next
code line only.
-/

namespace RenpyScript

/-- Width of the next code line, zero if there is none. -/
def nextWidth (lines : List LogicalLine) : Nat :=
  (nextCodeIndent? lines).getD 0

section
variable {l : LogicalLine} {ls ms : List LogicalLine}

lemma nextCodeIndent?_code (h : l.kind = .code) : nextCodeIndent? (l :: ls) = some l.indent := by
  rw [nextCodeIndent?, List.find?_cons_of_pos (by simpa using h), Option.map_some]

lemma nextCodeIndent?_other (h : l.kind ≠ .code) : nextCodeIndent? (l :: ls) = nextCodeIndent? ls := by
  rw [nextCodeIndent?, List.find?_cons_of_neg (by simpa using h), nextCodeIndent?]

lemma nextWidth_code (h : l.kind = .code) : nextWidth (l :: ls) = l.indent := by
  rw [nextWidth, nextCodeIndent?_code h, Option.getD_some]

lemma nextWidth_other (h : l.kind ≠ .code) : nextWidth (l :: ls) = nextWidth ls := by
  rw [nextWidth, nextCodeIndent?_other h, nextWidth]

lemma nextWidth_append (h : nextWidth ms = 0) : nextWidth (ls ++ ms) = nextWidth ls := by
  induction ls with
  | nil => exact h
  | cons l ls ih =>
    rw [List.cons_append]
    by_cases hk : l.kind = .code
    · rw [nextWidth_code hk, nextWidth_code hk]
    · rw [nextWidth_other hk, nextWidth_other hk, ih]

lemma deeperFollows_eq (width : Nat) (ls : List LogicalLine) :
    deeperFollows width ls = decide (width < nextWidth ls) := by
  rw [deeperFollows, nextWidth]
  rcases nextCodeIndent? ls with _ | w
  · simp
  · simp

end

namespace Outline

/-- Levels of the open blocks, the innermost first. -/
def levels (o : Outline) : List Nat :=
  o.frames.map (·.level)

/-- The indent stack holds the levels of the open blocks, which are not the top level. -/
structure Levelled (o : Outline) : Prop where
  widths_eq : o.indents.widths = o.levels
  positive : ∀ w ∈ o.levels, 0 < w

section
variable {o : Outline}

lemma level_eq (o : Outline) : o.level = o.levels.headD 0 := by
  rw [level, levels, List.headD_eq_head?_getD, List.head?_map]

@[simp] lemma add_levels (o : Outline) (items : List Node) : (o.add items).levels = o.levels := by
  unfold levels Outline.add
  split
  · rfl
  · next h => simp [h]

lemma closeFrame_levels (o : Outline) : o.closeFrame.levels = o.levels.tail := by
  unfold closeFrame
  split
  · next h => simp [levels, h]
  · next h =>
    rw [add_levels]
    simp [levels, h]

lemma closeFrames_levels (k : Nat) (o : Outline) : (closeFrames k o).levels = o.levels.drop k := by
  induction k generalizing o with
  | zero => rfl
  | succ k ih => rw [closeFrames, ih, closeFrame_levels, List.drop_tail]

lemma dedent_indents (o : Outline) (width : Nat) :
    (o.dedent width).indents.widths = o.indents.widths.dropWhile (width < ·) := by
  unfold dedent
  rw [closeFrames_indents, IndentStack.dedentTo_widths]

lemma dedent_levels (h : o.indents.widths = o.levels) (width : Nat) :
    (o.dedent width).levels = o.levels.dropWhile (width < ·) := by
  unfold dedent
  rw [closeFrames_levels, IndentStack.dedentTo_closed, h]
  exact IndentStack.drop_eq_dropWhile _ o.levels

lemma Levelled.add (h : o.Levelled) (items : List Node) : (o.add items).Levelled := by
  constructor
  · rw [add_indents, add_levels, h.widths_eq]
  · rw [add_levels]
    exact h.positive

lemma Levelled.waitFor (h : o.Levelled) (awaiting : Awaiting) : (o.waitFor awaiting).Levelled :=
  ⟨h.widths_eq, h.positive⟩

lemma Levelled.resume (h : o.Levelled) (items : List Node) : (o.resume items).Levelled :=
  (h.waitFor .nothing).add items

lemma Levelled.dedent (h : o.Levelled) (width : Nat) : (o.dedent width).Levelled := by
  constructor
  · rw [dedent_indents, dedent_levels h.widths_eq, h.widths_eq]
  · rw [dedent_levels h.widths_eq]
    exact fun w hw => h.positive w ((List.dropWhile_suffix _).subset hw)

lemma Levelled.openFrame (h : o.Levelled) {line : LogicalLine} (opening : Option Opening)
    (hdeeper : o.level < line.indent) : (o.openFrame line opening).Levelled := by
  have hlevels : (o.openFrame line opening).levels = line.indent :: o.levels := rfl
  constructor
  · have hcurrent : o.indents.current < line.indent := by
      rwa [IndentStack.current, h.widths_eq, ← level_eq]
    have hpush : o.indents.push line.indent = ⟨line.indent :: o.indents.widths⟩ := by
      rw [IndentStack.push, IndentStack.push?, if_pos hcurrent, Option.getD_some]
    rw [hlevels, ← h.widths_eq]
    exact congrArg IndentStack.widths hpush
  · intro w hw
    rw [hlevels, List.mem_cons] at hw
    rcases hw with rfl | hw
    · omega
    · exact h.positive w hw

lemma dedent_level_le (h : o.Levelled) (width : Nat) : (o.dedent width).level ≤ width := by
  rw [level_eq, dedent_levels h.widths_eq]
  exact IndentStack.headD_dropWhile_le width o.levels

lemma dedent_misaligned (h : o.Levelled) {width : Nat} (hm : (o.dedent width).misaligned = true) :
    o.misaligned = true ∨ (o.dedent width).level < width := by
  have hle := dedent_level_le h width
  have hlevel : (o.dedent width).level = (o.indents.dedentTo width).2.current := by
    rw [level_eq, dedent_levels h.widths_eq, IndentStack.current, IndentStack.dedentTo_widths, h.widths_eq]
  unfold Outline.dedent at hm
  rw [closeFrames_misaligned, Bool.or_eq_true, IndentStack.dedentTo_isInconsistent, decide_eq_true_eq] at hm
  rcases hm with hm | hm
  · exact Or.inl hm
  · right
    rw [hlevel] at hle ⊢
    omega

lemma Levelled.closedTo (h : o.Levelled) (width : Nat) : (o.closedTo width).Levelled := by
  unfold Outline.closedTo
  split
  · exact h.dedent width
  · exact h

lemma closedTo_level_le (h : o.Levelled) (width : Nat) : (o.closedTo width).level ≤ width := by
  unfold Outline.closedTo
  split
  · exact dedent_level_le h width
  · omega

lemma Levelled.openedFor (h : o.Levelled) (line : LogicalLine) : (o.openedFor line).Levelled := by
  unfold Outline.openedFor
  split
  · next hopens =>
    simp only [Bool.and_eq_true, decide_eq_true_eq] at hopens
    exact h.openFrame none hopens.1
  · exact h

lemma openedFor_level_le {line : LogicalLine} (h : o.level ≤ line.indent) :
    (o.openedFor line).level ≤ line.indent := by
  unfold Outline.openedFor
  split
  · exact Nat.le_refl _
  · exact h

lemma commentCloses_eq (h : o.Levelled) (line : LogicalLine) (rest : List LogicalLine) :
    o.commentCloses line rest = decide (line.indent < o.level ∧ nextWidth rest < o.level) := by
  unfold commentCloses
  rcases hframes : o.frames with _ | ⟨f, fs⟩
  · simp [level, hframes]
  · have hlevel : o.level = f.level := by simp [level, hframes]
    have hpos : 0 < f.level := h.positive f.level (by simp [levels, hframes])
    rw [nextWidth, hlevel]
    rcases nextCodeIndent? rest with _ | w
    · simp [hpos]
    · simp only [Option.any_some, Option.getD_some, Bool.decide_and, ← Nat.not_le, decide_not]

end

end Outline

end RenpyScript
