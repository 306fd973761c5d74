import RenpyScript.Proofs.Outline.Levels

/-!
# Outlines and the lines ahead

If a line is misaligned or waits for its block, the next code line is deeper than the innermost block,
so at the end of a document neither can be the case. A step looks at the lines ahead only for the
width of the next code line, and it cannot tell a line of width zero from the end of the document.
-/

namespace RenpyScript

namespace Outline

/-- An outline in front of the lines ahead: what is misaligned or waits for a block belongs to a next
code line that is deeper than the open blocks. -/
structure Aligned (o : Outline) (ahead : List LogicalLine) : Prop extends Levelled o where
  settled : o.awaiting ≠ .nothing → o.misaligned = false
  deeper : o.misaligned = true ∨ (∃ opening, o.awaiting = .block opening) → o.level < nextWidth ahead

section
variable {o : Outline} {line : LogicalLine} {rest ahead : List LogicalLine}

lemma empty_aligned (ahead : List LogicalLine) : empty.Aligned ahead := by
  refine ⟨⟨rfl, ?_⟩, fun _ => rfl, ?_⟩
  · intro w hw
    simp [levels, empty] at hw
  · rintro (hm | ⟨opening, hopening⟩)
    · simp [empty] at hm
    · simp [empty] at hopening

lemma Aligned.congr {ahead' : List LogicalLine} (h : o.Aligned ahead)
    (hwidth : nextWidth ahead' = nextWidth ahead) : o.Aligned ahead' :=
  ⟨h.toLevelled, h.settled, fun hd => hwidth ▸ h.deeper hd⟩

lemma Levelled.aligned (h : o.Levelled) (hm : o.misaligned = false)
    (hblock : ∀ opening, o.awaiting = .block opening → o.level < nextWidth ahead) : o.Aligned ahead := by
  refine ⟨h, fun _ => hm, ?_⟩
  rintro (hm' | ⟨opening, hopening⟩)
  · rw [hm] at hm'
    exact absurd hm' Bool.false_ne_true
  · exact hblock opening hopening

lemma Levelled.aligned_nothing (h : o.Levelled) (hawaiting : o.awaiting = .nothing)
    (hdeeper : o.misaligned = true → o.level < nextWidth ahead) : o.Aligned ahead := by
  refine ⟨h, fun hne => absurd hawaiting hne, ?_⟩
  rintro (hm | ⟨opening, hopening⟩)
  · exact hdeeper hm
  · rw [hawaiting] at hopening
    cases hopening

lemma Levelled.add_aligned (h : o.Levelled) (hawaiting : o.awaiting = .nothing)
    (hdeeper : o.misaligned = true → o.level < nextWidth ahead) (items : List Node) :
    (o.add items).Aligned ahead := by
  apply (h.add items).aligned_nothing
  · rw [add_awaiting, hawaiting]
  · rw [add_misaligned, level_eq, add_levels, ← level_eq]
    exact hdeeper

lemma Levelled.addForm (h : o.Levelled) (hawaiting : o.awaiting = .nothing) (hm : o.misaligned = false)
    (hle : o.level ≤ line.indent) (misaligned : Bool) (form : Form) :
    (o.addForm line misaligned (deeperFollows line.indent rest) form).Aligned rest := by
  have hadd (items : List Node) : (o.add items).Aligned rest := by
    apply h.add_aligned hawaiting
    intro hm'
    rw [hm] at hm'
    exact absurd hm' Bool.false_ne_true
  cases form with
  | items nodes => exact hadd _
  | opens owner =>
    rw [Outline.addForm]
    split
    · next hdeeper =>
      rw [deeperFollows_eq, decide_eq_true_eq] at hdeeper
      exact (h.waitFor _).aligned hm (fun _ _ => Nat.lt_of_le_of_lt hle hdeeper)
    · exact hadd _
  | opensPython head =>
    refine (h.waitFor _).aligned hm ?_
    intro opening hopening
    cases hopening

lemma Levelled.addItem (h : o.Levelled) (hawaiting : o.awaiting = .nothing) (hle : o.level ≤ line.indent) :
    (o.addItem line rest).Aligned rest := by
  have hready : Levelled { o with misaligned := false } := ⟨h.widths_eq, h.positive⟩
  rw [addItem_eq]
  exact hready.addForm hawaiting rfl hle _ _

lemma Levelled.addCode (h : o.Levelled) (hawaiting : o.awaiting = .nothing) :
    (o.addCode line rest).Aligned rest := by
  have hclosed := h.closedTo line.indent
  have hopened := hclosed.openedFor line
  rw [addCode_eq]
  apply hopened.addItem
  · rw [openedFor_awaiting, closedTo_awaiting, hawaiting]
  · exact openedFor_level_le (closedTo_level_le h line.indent)

lemma Levelled.addComment (h : o.Levelled) (hawaiting : o.awaiting = .nothing)
    (hdeeper : o.misaligned = true → o.level < nextWidth rest) : (o.addComment line rest).Aligned rest := by
  rw [addComment_eq, commentCloses_eq h]
  split
  · next hcloses =>
    rw [decide_eq_true_eq] at hcloses
    apply (h.dedent _).add_aligned
    · rw [dedent_awaiting, hawaiting]
    · intro hm
      -- The dedent goes to the width of the next code line, so that line is deeper if it fits no level.
      rcases dedent_misaligned h hm with hm | hlt
      · have hlt := hdeeper hm
        omega
      · exact hlt
  · exact h.add_aligned hawaiting hdeeper _

lemma Levelled.place (h : o.Levelled) (hawaiting : o.awaiting = .nothing)
    (hdeeper : o.misaligned = true → o.level < nextWidth (line :: rest)) :
    (o.place line rest).Aligned rest := by
  unfold Outline.place
  split
  · next hkind =>
    rw [nextWidth_other (by simp [hkind])] at hdeeper
    exact h.aligned_nothing hawaiting hdeeper
  · next hkind =>
    rw [nextWidth_other (by simp [hkind])] at hdeeper
    exact h.addComment hawaiting hdeeper
  · exact h.addCode hawaiting

theorem Aligned.step (h : o.Aligned (line :: rest)) : (o.step line rest).Aligned rest := by
  have hlevelled := h.toLevelled
  cases hawaiting : o.awaiting with
  | nothing =>
    rw [step_nothing hawaiting]
    exact hlevelled.place hawaiting (fun hm => h.deeper (Or.inl hm))
  | block opening =>
    have hdeeper := h.deeper (Or.inr ⟨opening, hawaiting⟩)
    have hm := h.settled (by simp [hawaiting])
    rw [step_block hawaiting]
    split
    · next hkind =>
      rw [nextWidth_other (by simp [hkind])] at hdeeper
      exact hlevelled.aligned hm (fun _ _ => hdeeper)
    · next hkind =>
      rw [nextWidth_other (by simp [hkind])] at hdeeper
      exact (hlevelled.waitFor _).aligned hm (fun _ _ => hdeeper)
    · next hkind =>
      rw [nextWidth_code hkind] at hdeeper
      have hopened := (hlevelled.waitFor .nothing).openFrame (some opening) hdeeper
      exact hopened.addItem rfl (Nat.le_refl _)
  | python body =>
    have hm := h.settled (by simp [hawaiting])
    rw [step_python hawaiting]
    split
    · refine (hlevelled.waitFor _).aligned hm ?_
      intro opening hopening
      cases hopening
    · apply (hlevelled.resume body.close).place (resume_awaiting _ _)
      intro hm'
      rw [resume_misaligned, hm] at hm'
      exact absurd hm' Bool.false_ne_true

theorem Aligned.run {lines : List LogicalLine} (h : o.Aligned lines) : (o.run lines).Aligned [] := by
  induction lines generalizing o with
  | nil => exact h
  | cons line rest ih => exact ih h.step

end

/-! ## What a step sees of the lines ahead -/

section
variable {o : Outline} {line : LogicalLine} {rest rest' : List LogicalLine}

lemma deeperFollows_congr (h : nextWidth rest = nextWidth rest') (width : Nat) :
    deeperFollows width rest = deeperFollows width rest' := by
  rw [deeperFollows_eq, deeperFollows_eq, h]

lemma addItem_congr (h : nextWidth rest = nextWidth rest') : o.addItem line rest = o.addItem line rest' := by
  rw [addItem_eq, addItem_eq, formOf, formOf, deeperFollows_congr h]

lemma addCode_congr (h : nextWidth rest = nextWidth rest') : o.addCode line rest = o.addCode line rest' := by
  rw [addCode_eq, addCode_eq, addItem_congr h]

lemma addComment_congr (ho : o.Levelled) (h : nextWidth rest = nextWidth rest') :
    o.addComment line rest = o.addComment line rest' := by
  rw [addComment_eq, addComment_eq, commentCloses_eq ho, commentCloses_eq ho, ← nextWidth, ← nextWidth, h]

lemma place_congr (ho : o.Levelled) (h : nextWidth rest = nextWidth rest') :
    o.place line rest = o.place line rest' := by
  unfold Outline.place
  rw [addComment_congr ho h, addCode_congr h]

lemma holds_congr (body : PythonBody) (h : nextWidth rest = nextWidth rest') :
    body.holds line rest = body.holds line rest' := by
  unfold PythonBody.holds
  rw [deeperFollows_congr h]

lemma step_congr (ho : o.Levelled) (h : nextWidth rest = nextWidth rest') :
    o.step line rest = o.step line rest' := by
  cases hawaiting : o.awaiting with
  | nothing => rw [step_nothing hawaiting, step_nothing hawaiting, place_congr ho h]
  | block opening => rw [step_block hawaiting, step_block hawaiting, addItem_congr h]
  | python body =>
    rw [step_python hawaiting, step_python hawaiting, holds_congr body h, place_congr (ho.resume body.close) h]

/-- Lines that a line of width zero follows are added as if they were the last ones. -/
theorem run_append {lines ahead : List LogicalLine} (ho : o.Aligned lines) (h : nextWidth ahead = 0) :
    o.run (lines ++ ahead) = (o.run lines).run ahead := by
  induction lines generalizing o with
  | nil => rfl
  | cons line rest ih =>
    have hstep : o.step line (rest ++ ahead) = o.step line rest :=
      step_congr ho.toLevelled (nextWidth_append h)
    rw [List.cons_append, Outline.run, Outline.run, hstep]
    exact ih ho.step

end

/-! ## The end of a document -/

section
variable {o : Outline} {line : LogicalLine} {rest : List LogicalLine}

lemma step_blank (hkind : line.kind = .blank) : o.step line rest = o := by
  cases hawaiting : o.awaiting with
  | nothing => rw [step_nothing hawaiting, place, hkind]
  | block opening => rw [step_block hawaiting, hkind]
  | python body =>
    have hholds : body.holds line rest = true := by rw [PythonBody.holds, hkind]
    have hadd : body.add line = body := by rw [PythonBody.add, hkind]
    rw [step_python hawaiting, if_pos hholds, hadd, ← hawaiting, waitFor]

lemma nextWidth_nonblank (lines : List LogicalLine) :
    nextWidth (lines.filter (·.kind ≠ .blank)) = nextWidth lines := by
  induction lines with
  | nil => rfl
  | cons line rest ih =>
    by_cases hblank : line.kind = .blank
    · rw [List.filter_cons_of_neg (by simp [hblank]), nextWidth_other (by simp [hblank]), ih]
    · rw [List.filter_cons_of_pos (by simp [hblank])]
      by_cases hcode : line.kind = .code
      · rw [nextWidth_code hcode, nextWidth_code hcode]
      · rw [nextWidth_other hcode, nextWidth_other hcode, ih]

theorem run_nonblank {lines : List LogicalLine} (h : o.Aligned lines) :
    o.run (lines.filter (·.kind ≠ .blank)) = o.run lines := by
  induction lines generalizing o with
  | nil => rfl
  | cons line rest ih =>
    by_cases hblank : line.kind = .blank
    · have hrest : o.Aligned rest := h.congr (nextWidth_other (by simp [hblank])).symm
      rw [List.filter_cons_of_neg (by simp [hblank]), Outline.run, step_blank hblank, ih hrest]
    · have hstep : o.step line (rest.filter (·.kind ≠ .blank)) = o.step line rest :=
        step_congr h.toLevelled (nextWidth_nonblank rest)
      rw [List.filter_cons_of_pos (by simp [hblank]), Outline.run, Outline.run, hstep, ih h.step]

def ended (items : List Node) : Outline :=
  { empty with items }

lemma closeFrames_with (k : Nat) (o : Outline) (indents : IndentStack) (misaligned : Bool) :
    closeFrames k { o with indents, misaligned } = { closeFrames k o with indents, misaligned } := by
  induction k generalizing o with
  | zero => rfl
  | succ k ih =>
    have hclose : closeFrame { o with indents, misaligned } = { o.closeFrame with indents, misaligned } := by
      obtain ⟨_, frames, items, awaiting, _⟩ := o
      rcases frames with _ | ⟨f, _ | ⟨g, gs⟩⟩
      · rfl
      · rfl
      · rfl
    rw [closeFrames, closeFrames, hclose, ih]

/-- Closing all blocks for a line of width zero is what is done at the end of a document. -/
lemma dedent_zero (h : o.Levelled) (hawaiting : o.awaiting = .nothing) (hm : o.misaligned = false) :
    o.dedent 0 = ended o.finish := by
  have hnil : o.indents.widths.dropWhile (0 < ·) = [] := by
    rw [h.widths_eq, List.dropWhile_eq_nil_iff]
    exact fun w hw => decide_eq_true (h.positive w hw)
  have hindents : (o.indents.dedentTo 0).2 = .empty := congrArg IndentStack.mk hnil
  have hclosed : (o.indents.dedentTo 0).1.closed = o.frames.length := by
    rw [IndentStack.dedentTo_closed, hnil, h.widths_eq, List.length_nil, Nat.sub_zero, levels, List.length_map]
  have hinconsistent : (o.indents.dedentTo 0).1.isInconsistent = false := by
    rw [IndentStack.dedentTo_isInconsistent, hindents]
    rfl
  have hdedent : o.dedent 0 = closeFrames o.frames.length { o with indents := .empty, misaligned := false } := by
    unfold dedent
    dsimp only
    rw [hindents, hclosed, hinconsistent, hm]
    rfl
  -- The outlines differ in their widths only, which closing a frame does not look at.
  have hframes := closeFrames_all o
  have hready := closeFrames_awaiting o o.frames.length
  rw [hdedent, closeFrames_with, finish, endAwaiting, hawaiting]
  dsimp only
  rw [hawaiting] at hready
  generalize closeFrames o.frames.length o = closed at hframes hready ⊢
  obtain ⟨indents, frames, items, awaiting, misaligned⟩ := closed
  obtain rfl : frames = [] := hframes
  obtain rfl : awaiting = .nothing := hready
  rfl

lemma closedTo_zero (h : o.Levelled) (hawaiting : o.awaiting = .nothing) (hm : o.misaligned = false) :
    o.closedTo 0 = ended o.finish := by
  rw [← dedent_zero h hawaiting hm]
  unfold closedTo
  split
  · rfl
  · next hlevel =>
    obtain ⟨⟨widths⟩, frames, items, awaiting, misaligned⟩ := o
    cases frames with
    | nil =>
      obtain rfl : widths = [] := h.widths_eq
      obtain rfl : misaligned = false := hm
      rfl
    | cons f fs =>
      have hpos := h.positive f.level (by simp [levels])
      exact absurd hpos hlevel

lemma addCode_zero (h : o.Levelled) (hawaiting : o.awaiting = .nothing) (hm : o.misaligned = false)
    (hindent : line.indent = 0) : o.addCode line rest = (ended o.finish).addItem line rest := by
  have hopened : (ended o.finish).openedFor line = ended o.finish := by
    rw [openedFor, hindent]
    rfl
  rw [addCode_eq, hindent, closedTo_zero h hawaiting hm, hopened]

lemma ended_levelled (items : List Node) : (ended items).Levelled :=
  ⟨rfl, fun w hw => by simp [levels, ended, empty] at hw⟩

lemma step_ended (items : List Node) (hkind : line.kind = .code) (hindent : line.indent = 0) :
    (ended items).step line rest = (ended items).addItem line rest := by
  rw [step_nothing rfl, place, hkind, addCode_zero (ended_levelled items) rfl rfl hindent]
  rfl

/-- A code line of width zero finds the outline as if the document before it had ended. -/
lemma step_code_zero (h : o.Aligned []) (hkind : line.kind = .code) (hindent : line.indent = 0) :
    o.step line rest = (ended o.finish).step line rest := by
  have hm : o.misaligned = false := by
    rw [← Bool.not_eq_true]
    exact fun hm => absurd (h.deeper (Or.inl hm)) (by simp [nextWidth, nextCodeIndent?])
  have hlevelled := h.toLevelled
  rw [step_ended _ hkind hindent]
  cases hawaiting : o.awaiting with
  | nothing =>
    rw [step_nothing hawaiting, place, hkind]
    exact addCode_zero hlevelled hawaiting hm hindent
  | block opening =>
    exact absurd (h.deeper (Or.inr ⟨opening, hawaiting⟩)) (by simp [nextWidth, nextCodeIndent?])
  | python body =>
    have hholds : body.holds line rest = false := by simp [PythonBody.holds, hkind, hindent]
    have hfinish : (o.resume body.close).finish = o.finish := by
      rw [finish, finish, endAwaiting_nothing (resume_awaiting _ _), endAwaiting_python hawaiting]
    rw [step_python hawaiting, if_neg (by simp [hholds]), place, hkind, ← hfinish]
    exact addCode_zero (hlevelled.resume body.close) (resume_awaiting _ _)
      (by rw [resume_misaligned, hm]) hindent

/-- Whether the first line that is not blank is code of width zero. -/
def BeginsAtTop (lines : List LogicalLine) : Prop :=
  ∃ l, lines.find? (·.kind ≠ .blank) = some l ∧ l.kind = .code ∧ l.indent = 0

/-- Lines that begin at the top level are added as if the document before them had ended. -/
theorem run_beginsAtTop {lines : List LogicalLine} (h : o.Aligned []) (hl : BeginsAtTop lines) :
    o.run lines = (ended o.finish).run lines := by
  induction lines with
  | nil =>
    obtain ⟨l, hl, -⟩ := hl
    simp at hl
  | cons line rest ih =>
    rw [Outline.run, Outline.run]
    by_cases hblank : line.kind = .blank
    · rw [step_blank hblank, step_blank hblank]
      apply ih
      rw [BeginsAtTop, List.find?_cons_of_neg (by simp [hblank])] at hl
      exact hl
    · obtain ⟨l, hl, hkind, hindent⟩ := hl
      rw [List.find?_cons_of_pos (by simp [hblank]), Option.some.injEq] at hl
      subst hl
      rw [step_code_zero h hkind hindent]

lemma nextWidth_beginsAtTop {lines : List LogicalLine} (hl : BeginsAtTop lines) : nextWidth lines = 0 := by
  induction lines with
  | nil => rfl
  | cons line rest ih =>
    by_cases hblank : line.kind = .blank
    · rw [nextWidth_other (by simp [hblank])]
      apply ih
      rw [BeginsAtTop, List.find?_cons_of_neg (by simp [hblank])] at hl
      exact hl
    · obtain ⟨l, hl, hkind, hindent⟩ := hl
      rw [List.find?_cons_of_pos (by simp [hblank]), Option.some.injEq] at hl
      subst hl
      rw [nextWidth_code hkind, hindent]

end

end Outline

end RenpyScript
