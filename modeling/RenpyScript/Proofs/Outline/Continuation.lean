import RenpyScript.Proofs.Outline.Alignment

/-!
# Outlines that lead to the same document

An outline and the lines ahead of it determine the document. What is done before the next line is read, such as
closing the blocks that this line is not part of, makes no difference if the line would have done it.
-/

namespace RenpyScript

namespace Outline

/-- The items of the whole document are what the lines from `i` on make of the outline. -/
structure Continues (ls : List LogicalLine) (o : Outline) (i : Nat) : Prop where
  aligned : o.Aligned (ls.drop i)
  finish : (o.run (ls.drop i)).finish = itemsOf ls

section
variable {ls : List LogicalLine} {o o' : Outline} {i : Nat} {line : LogicalLine}

lemma drop_of_getElem? (h : ls[i]? = some line) : ls.drop i = line :: ls.drop (i + 1) := by
  obtain ⟨hi, rfl⟩ := List.getElem?_eq_some_iff.mp h
  exact List.drop_eq_getElem_cons hi

lemma continues_empty (ls : List LogicalLine) : Continues ls empty 0 :=
  ⟨empty_aligned _, rfl⟩

namespace Continues

lemma step (h : Continues ls o i) (hline : ls[i]? = some line) : Continues ls (o.step line (ls.drop (i + 1))) (i + 1) := by
  obtain ⟨haligned, hfinish⟩ := h
  rw [drop_of_getElem? hline] at haligned hfinish
  exact ⟨haligned.step, hfinish⟩

lemma of_step (h : Continues ls o i) (hline : ls[i]? = some line) (ho : o'.Aligned (ls.drop i))
    (hstep : o'.step line (ls.drop (i + 1)) = o.step line (ls.drop (i + 1))) : Continues ls o' i := by
  refine ⟨ho, ?_⟩
  have hfinish := h.finish
  rw [drop_of_getElem? hline, Outline.run] at hfinish ⊢
  rw [hstep, hfinish]

lemma blank (h : Continues ls o i) (hline : ls[i]? = some line) (hkind : line.kind = .blank) : Continues ls o (i + 1) := by
  have hstep := h.step hline
  rwa [step_blank hkind] at hstep

/-! ## Blocks -/

lemma dedent_aligned (h : Continues ls o i) (hawaiting : o.awaiting = .nothing) (hlt : nextWidth (ls.drop i) < o.level) :
    (o.dedent (nextWidth (ls.drop i))).Aligned (ls.drop i) := by
  refine (h.aligned.toLevelled.dedent _).aligned_nothing (by rw [dedent_awaiting, hawaiting]) ?_
  intro hm
  rcases dedent_misaligned h.aligned.toLevelled hm with hm | hdeeper
  · have hdeeper := h.aligned.deeper (.inl hm)
    omega
  · exact hdeeper

lemma dedent_code (h : Continues ls o i) (hawaiting : o.awaiting = .nothing) (hline : ls[i]? = some line)
    (hkind : line.kind = .code) (hlt : line.indent < o.level) : Continues ls (o.dedent line.indent) i := by
  have hwidth : nextWidth (ls.drop i) = line.indent := by rw [drop_of_getElem? hline, nextWidth_code hkind]
  have haligned := h.dedent_aligned hawaiting (hwidth ▸ hlt)
  rw [hwidth] at haligned
  refine h.of_step hline haligned ?_
  have hle := dedent_level_le h.aligned.toLevelled line.indent
  rw [step_nothing hawaiting, step_nothing (by rw [dedent_awaiting, hawaiting]), place, place, hkind]
  dsimp only
  rw [addCode_eq, addCode_eq, closedTo, closedTo, if_neg (Nat.not_lt.mpr hle), if_pos hlt]

lemma dedent_comment (h : Continues ls o i) (hawaiting : o.awaiting = .nothing) (hline : ls[i]? = some line)
    (hkind : line.kind = .comment) (hcloses : o.commentCloses line (ls.drop (i + 1)) = true) :
    Continues ls (o.dedent (nextWidth (ls.drop (i + 1)))) i := by
  have hlevelled := h.aligned.toLevelled
  have hwidth : nextWidth (ls.drop i) = nextWidth (ls.drop (i + 1)) := by
    rw [drop_of_getElem? hline, nextWidth_other (by simp [hkind])]
  have hlt := hcloses
  rw [commentCloses_eq hlevelled, decide_eq_true_eq] at hlt
  have haligned := h.dedent_aligned hawaiting (hwidth ▸ hlt.2)
  rw [hwidth] at haligned
  refine h.of_step hline haligned ?_
  have hle := dedent_level_le hlevelled (nextWidth (ls.drop (i + 1)))
  have hstays : (o.dedent (nextWidth (ls.drop (i + 1)))).commentCloses line (ls.drop (i + 1)) = false := by
    rw [commentCloses_eq (hlevelled.dedent _), decide_eq_false_iff_not]
    omega
  rw [step_nothing hawaiting, step_nothing (by rw [dedent_awaiting, hawaiting]), place, place, hkind]
  dsimp only
  rw [addComment_eq, addComment_eq, hstays, hcloses]
  rfl

lemma comment (h : Continues ls o i) (hawaiting : o.awaiting = .nothing) (hline : ls[i]? = some line)
    (hkind : line.kind = .comment) (hstays : o.commentCloses line (ls.drop (i + 1)) = false) :
    Continues ls (o.add [line.commentNode]) (i + 1) := by
  have hstep := h.step hline
  rw [step_nothing hawaiting, place, hkind] at hstep
  dsimp only at hstep
  rwa [addComment_eq, hstays] at hstep

lemma openFrame_of_step (h : Continues ls o i) (hline : ls[i]? = some line) (hkind : line.kind = .code)
    {opening : Option Opening} (hlevelled : o'.Levelled) (hawaiting : o'.awaiting = .nothing)
    (hm : o'.misaligned = false) (hlt : o'.level < line.indent)
    (hstep : o.step line (ls.drop (i + 1)) = (o'.openFrame line opening).addItem line (ls.drop (i + 1))) :
    Continues ls (o'.openFrame line opening) i := by
  have hlevel : (o'.openFrame line opening).level = line.indent := rfl
  refine h.of_step hline ?_ ?_
  · refine (hlevelled.openFrame opening hlt).aligned_nothing hawaiting fun hm' => ?_
    rw [show (o'.openFrame line opening).misaligned = o'.misaligned from rfl, hm] at hm'
    cases hm'
  · have hnothing : (o'.openFrame line opening).awaiting = .nothing := hawaiting
    rw [step_nothing hnothing, place, hkind, hstep]
    dsimp only
    rw [addCode_eq, closedTo, hlevel, if_neg (Nat.lt_irrefl _), openedFor, hlevel]
    simp

lemma openFrame (h : Continues ls o i) (hawaiting : o.awaiting = .nothing) (hline : ls[i]? = some line)
    (hkind : line.kind = .code) (hm : o.misaligned = false) (hlt : o.level < line.indent) :
    Continues ls (o.openFrame line none) i := by
  refine h.openFrame_of_step hline hkind h.aligned.toLevelled hawaiting hm hlt ?_
  rw [step_nothing hawaiting, place, hkind]
  dsimp only
  rw [addCode_eq, closedTo, if_neg (by omega), openedFor, if_pos (by simp [hlt, hm])]

lemma item (h : Continues ls o i) (hawaiting : o.awaiting = .nothing) (hline : ls[i]? = some line)
    (hkind : line.kind = .code) (hle : o.level ≤ line.indent) (hstays : ¬(o.level < line.indent ∧ o.misaligned = false)) :
    Continues ls (o.addItem line (ls.drop (i + 1))) (i + 1) := by
  have hstep := h.step hline
  rw [step_nothing hawaiting, place, hkind] at hstep
  dsimp only at hstep
  rwa [addCode_eq, closedTo, if_neg (by omega), openedFor, if_neg (by simpa using hstays)] at hstep

/-! ## Lines that wait -/

lemma block_comment {opening : Opening} (h : Continues ls (o.waitFor (.block opening)) i) (hline : ls[i]? = some line)
    (hkind : line.kind = .comment) : Continues ls (o.waitFor (.block (opening.addComment line.commentNode))) (i + 1) := by
  have hstep := h.step hline
  rw [step_block rfl, hkind] at hstep
  exact hstep

lemma block_code {opening : Opening} (h : Continues ls (o.waitFor (.block opening)) i) (hline : ls[i]? = some line)
    (hkind : line.kind = .code) : Continues ls ((o.waitFor .nothing).openFrame line (some opening)) i := by
  have hdeeper := h.aligned.deeper (.inr ⟨opening, rfl⟩)
  rw [drop_of_getElem? hline, nextWidth_code hkind] at hdeeper
  refine h.openFrame_of_step hline hkind (h.aligned.toLevelled.waitFor .nothing) rfl ?_ hdeeper ?_
  · exact h.aligned.settled (fun hnothing => by cases hnothing)
  · rw [step_block rfl, hkind]
    rfl

lemma python_line {body : PythonBody} (h : Continues ls (o.waitFor (.python body)) i) (hline : ls[i]? = some line)
    (hholds : body.holds line (ls.drop (i + 1)) = true) : Continues ls (o.waitFor (.python (body.add line))) (i + 1) := by
  have hstep := h.step hline
  rw [step_python rfl, if_pos hholds] at hstep
  exact hstep

lemma python_aligned {body : PythonBody} (h : Continues ls (o.waitFor (.python body)) i) (items : List Node) :
    ((o.waitFor .nothing).add items).Aligned (ls.drop i) := by
  have hm : o.misaligned = false := h.aligned.settled (fun hnothing => by cases hnothing)
  refine (h.aligned.toLevelled.resume items).aligned_nothing (resume_awaiting _ _) fun hm' => ?_
  rw [resume_misaligned] at hm'
  exact absurd (hm.symm.trans hm') (by decide)

lemma python_close {body : PythonBody} (h : Continues ls (o.waitFor (.python body)) i) (hline : ls[i]? = some line)
    (hholds : body.holds line (ls.drop (i + 1)) = false) : Continues ls ((o.waitFor .nothing).add body.close) i := by
  refine h.of_step hline (h.python_aligned _) ?_
  have hpython : (o.waitFor (.python body)).awaiting = .python body := rfl
  have hnothing : ((o.waitFor .nothing).add body.close).awaiting = .nothing := resume_awaiting _ _
  rw [step_python hpython, if_neg (by simp [hholds]), step_nothing hnothing]
  rfl

/-! ## The end of the document -/

lemma drop_end (hi : ls.length ≤ i) : ls.drop i = [] :=
  List.drop_eq_nil_iff.mpr hi

lemma python_end {body : PythonBody} (h : Continues ls (o.waitFor (.python body)) i) (hi : ls.length ≤ i) :
    Continues ls ((o.waitFor .nothing).add body.close) i := by
  refine ⟨h.python_aligned _, ?_⟩
  have hpython : (o.waitFor (.python body)).awaiting = .python body := rfl
  have hnothing : ((o.waitFor .nothing).add body.close).awaiting = .nothing := resume_awaiting _ _
  have hfinish := h.finish
  rw [drop_end hi, Outline.run, Outline.finish, endAwaiting_python hpython] at hfinish
  rw [drop_end hi, Outline.run, Outline.finish, endAwaiting_nothing hnothing]
  exact hfinish

lemma items_eq (h : Continues ls o i) (hi : ls.length ≤ i) (hawaiting : o.awaiting = .nothing) (hframes : o.frames = []) :
    o.items = itemsOf ls := by
  have hfinish := h.finish
  rw [drop_end hi, Outline.run, Outline.finish, endAwaiting_nothing hawaiting, hframes] at hfinish
  exact hfinish

/-- At the end of the document blocks are closed by themselves. -/
lemma closeFrame (h : Continues ls o i) (hi : ls.length ≤ i) (hawaiting : o.awaiting = .nothing) {w : Nat} {indents : IndentStack}
    (hpop : o.indents.pop? = some (w, indents)) : Continues ls { o with indents }.closeFrame i := by
  obtain ⟨haligned, hfinish⟩ := h
  rw [drop_end hi] at haligned
  rw [drop_end hi, Outline.run, Outline.finish, endAwaiting_nothing hawaiting] at hfinish
  have hwidths : o.indents.widths = w :: indents.widths := by
    unfold IndentStack.pop? at hpop
    split at hpop
    · cases hpop
    · next heq =>
      obtain ⟨rfl, rfl⟩ := Prod.mk.inj (Option.some.inj hpop)
      exact heq
  have hlevels : o.levels = w :: indents.widths := haligned.widths_eq ▸ hwidths
  have hm : o.misaligned = false := by
    rw [← Bool.not_eq_true]
    exact fun hm => absurd (haligned.deeper (.inl hm)) (by simp [nextWidth, nextCodeIndent?])
  have hclosed : { o with indents }.closeFrame = { o.closeFrame with indents } := by
    have hwith := closeFrames_with 1 o indents o.misaligned
    rw [closeFrames, closeFrames, closeFrames, closeFrames] at hwith
    rw [hwith, ← closeFrame_misaligned]
  have hframes : o.frames.length = o.closeFrame.frames.length + 1 := by
    have hlength := congrArg List.length hlevels
    rw [closeFrame_frames_length]
    simp only [levels, List.length_map, List.length_cons] at hlength
    omega
  have hnothing : { o with indents }.closeFrame.awaiting = .nothing := by rw [closeFrame_awaiting, hawaiting]
  have hleft : { o with indents }.closeFrame.levels = indents.widths := by
    rw [closeFrame_levels, show levels { o with indents } = o.levels from rfl, hlevels, List.tail_cons]
  refine ⟨?_, ?_⟩
  · rw [drop_end hi]
    refine Levelled.aligned ⟨?_, ?_⟩ (by rw [closeFrame_misaligned, hm]) ?_
    · rw [closeFrame_indents, hleft]
    · rw [hleft]
      exact fun v hv => haligned.positive v (hlevels ▸ List.mem_cons_of_mem w hv)
    · intro opening hopening
      rw [hnothing] at hopening
      cases hopening
  · have hwith := closeFrames_with o.closeFrame.frames.length o.closeFrame indents o.closeFrame.misaligned
    rw [drop_end hi, Outline.run, Outline.finish, endAwaiting_nothing hnothing, hclosed, hwith, ← hfinish, hframes]
    rfl

end Continues

end

end Outline

end RenpyScript
