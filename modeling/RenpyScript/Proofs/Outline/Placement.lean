import RenpyScript.Parser
import RenpyScript.Proofs.Layout.Lines
import RenpyScript.Proofs.Line.Form
import RenpyScript.Proofs.Outline.Steps

/-!
# Outlines leave nothing out

`o.Placed cs` says that the outline `o` holds all of the text `cs` that has been read: what is
finished, then for each open block the line it belongs to and its items, then what the last line
waits for. Adding a line keeps this, whatever blocks it opens and closes, and so the finished items
of a document are laid in its text.
-/

namespace RenpyScript

open Node

/-! ## What an outline holds of a text -/

/-- The line in front of a block is laid in the text; a block by itself has a gap in front. -/
inductive OpeningPlaced (pos : Nat) (cs : List Char) : Option Opening → Prop
  | none (gap : OnlyGap isGap cs) : OpeningPlaced pos cs none
  | some {opening : Opening} (laid : Laid isGap pos cs opening.owner.head)
      (nonempty : opening.owner.head ≠ []) (kind : opening.owner.kind ≠ .string) :
      OpeningPlaced pos cs (some opening)

/-- Finished items, and behind them the open blocks, the innermost last. -/
inductive FramesPlaced (items : List Node) : List Frame → List Char → Prop
  | nil {cs : List Char} (laid : Laid isGap 0 cs items) : FramesPlaced items [] cs
  | cons {f : Frame} {fs : List Frame} {outer head body : List Char}
      (outside : FramesPlaced items fs outer) (opening : OpeningPlaced (byteLength outer) head f.opening)
      (start : f.start = byteLength (outer ++ head)) (laid : Laid isGap f.start body f.items) :
      FramesPlaced items (f :: fs) (outer ++ head ++ body)

/-- What the last line waits for. -/
inductive AwaitingPlaced (pos : Nat) : List Char → Awaiting → Prop
  | nothing : AwaitingPlaced pos [] .nothing
  | block {cs : List Char} {opening : Opening} (placed : OpeningPlaced pos cs (some opening)) :
      AwaitingPlaced pos cs (.block opening)
  | python {cs : List Char} {body : PythonBody} (laid : Laid isGap pos cs body.children)
      (nonempty : body.children ≠ []) : AwaitingPlaced pos cs (.python body)

namespace Outline

/-- The finished items and the open blocks hold the text. -/
def Holds (o : Outline) (cs : List Char) : Prop :=
  FramesPlaced o.items o.frames cs

/-- The outline holds the text, the last part of it in what the last line waits for. -/
def Placed (o : Outline) (cs : List Char) : Prop :=
  ∃ done waiting, cs = done ++ waiting ∧ o.Holds done ∧
    AwaitingPlaced (byteLength done) waiting o.awaiting

variable {o : Outline} {cs ds : List Char} {ns : List Node}

lemma holds_empty : empty.Holds [] :=
  .nil (laid_nil.mpr .nil)

lemma placed_empty : empty.Placed [] :=
  ⟨[], [], rfl, holds_empty, .nothing⟩

lemma Holds.placed (h : o.Holds cs) (hawaiting : o.awaiting = .nothing) : o.Placed cs :=
  ⟨cs, [], by simp, h, hawaiting ▸ .nothing⟩

/-! ## Adding and closing -/

lemma Holds.add (h : o.Holds cs) (hl : Laid isGap (byteLength cs) ds ns) : (o.add ns).Holds (cs ++ ds) := by
  unfold Holds Outline.add at *
  split
  · next hframes =>
    rw [hframes] at h ⊢
    cases h with
    | nil laid => exact .nil (laid.append (by simpa using hl))
  · next f fs hframes =>
    rw [hframes] at h
    cases h with
    | cons outside opening start laid =>
      rw [List.append_assoc]
      refine .cons outside opening start (laid.append ?_)
      rwa [start, ← byteLength_append]

lemma Holds.gap_after (h : o.Holds cs) (hg : OnlyGap isGap ds) : o.Holds (cs ++ ds) := by
  have hadd := h.add (laid_nil.mpr hg)
  rwa [add_nil] at hadd

end Outline

lemma settle_laid {misaligned : Bool} {pos : Nat} {cs : List Char} {ns : List Node} {start : Nat}
    (h : Laid isGap pos cs ns) (hstart : ns = [] → start = pos) :
    Laid isGap pos cs (settle misaligned start ns) := by
  unfold settle
  split
  · split
    · next n =>
      split
      · exact h
      · exact h.branch (by decide) hstart
    · exact h.branch (by decide) hstart
  · exact h

lemma Owner.close_laid {owner : Owner} {pos start : Nat} {cs ds : List Char} {block : Node}
    (hk : owner.kind ≠ .string) (hhead : Laid isGap pos cs owner.head)
    (hblock : Laid isGap (pos + byteLength cs) ds [block]) :
    Laid isGap pos (cs ++ ds) [owner.close start block] := by
  have hchildren := hhead.append (hblock.under .body)
  have hnode : Laid isGap pos (cs ++ ds) [.branch owner.kind (owner.head ++ [block.under .body]) start] :=
    hchildren.branch hk (by simp)
  unfold Owner.close
  split
  · exact hnode
  · exact hnode.branch (by decide) (by simp)

lemma Opening.close_laid {opening : Opening} {pos : Nat} {cs ds : List Char} {block : Node}
    (hk : opening.owner.kind ≠ .string) (hhead : Laid isGap pos cs opening.owner.head)
    (hblock : Laid isGap (pos + byteLength cs) ds [block]) :
    Laid isGap pos (cs ++ ds) (opening.close block) :=
  settle_laid (Owner.close_laid hk hhead hblock) (by simp)

lemma Opening.closeWithout_laid {opening : Opening} {pos : Nat} {cs : List Char}
    (h : OpeningPlaced pos cs (some opening)) : Laid isGap pos cs opening.closeWithout := by
  obtain - | ⟨hl, hne, hk⟩ := h
  have hlast := List.getLast?_eq_some_getLast hne
  -- The missing block stands where the last node ends, in front of the gap behind that node.
  obtain ⟨core, after, rfl, hg, hcore, hstop⟩ := hl.tight_right hlast
  have habsent : Laid isGap (pos + byteLength core) [] [.absent .block (pos + byteLength core)] :=
    (fills_absent .block _).laid
  have hclosed := Opening.close_laid hk hcore (habsent.gap_after hg)
  rw [← hstop] at hclosed
  rw [closeWithout, Owner.headEnd, hlast]
  exact hclosed

lemma PythonBody.close_laid {body : PythonBody} {pos : Nat} {cs : List Char}
    (hl : Laid isGap pos cs body.children) (hne : body.children ≠ []) : Laid isGap pos cs body.close := by
  have hlast := List.getLast?_eq_some_getLast hne
  apply settle_laid _ (by simp)
  split
  · exact hl.branch (by decide) (fun hnil => absurd hnil hne)
  · rw [childrenEnd, hlast]
    exact (hl.append_absent .pythonExpression hlast).branch (by decide) (by simp)

lemma Frame.close_laid {f : Frame} {pos : Nat} {head body : List Char}
    (hopening : OpeningPlaced pos head f.opening) (hstart : f.start = pos + byteLength head)
    (hl : Laid isGap f.start body f.items) : Laid isGap pos (head ++ body) f.close := by
  rw [hstart] at hl
  have hblock : Laid isGap (pos + byteLength head) body [.branch .block f.items f.start] :=
    hl.branch (by decide) (fun _ => hstart)
  unfold Frame.close
  split
  · next hnone =>
    rw [hnone] at hopening
    obtain hg | - := hopening
    exact hblock.gap_before hg
  · next opening hsome =>
    rw [hsome] at hopening
    obtain - | ⟨hhead, -, hk⟩ := hopening
    exact Opening.close_laid hk hhead hblock

namespace Outline
variable {o : Outline} {cs ds : List Char} {ns : List Node}

lemma Holds.closeFrame (h : o.Holds cs) : o.closeFrame.Holds cs := by
  unfold Outline.closeFrame
  split
  · exact h
  · next f fs hframes =>
    unfold Holds at h
    rw [hframes] at h
    cases h with
    | @cons _ _ outer _ _ outside opening start laid =>
      have houter : Holds { o with frames := fs } outer := outside
      rw [List.append_assoc]
      apply houter.add
      exact Frame.close_laid opening (by rw [start, byteLength_append]) laid

lemma Holds.closeFrames (k : Nat) (h : o.Holds cs) : (closeFrames k o).Holds cs := by
  induction k generalizing o with
  | zero => exact h
  | succ k ih => exact ih h.closeFrame

lemma Holds.dedent (width : Nat) (h : o.Holds cs) : (o.dedent width).Holds cs :=
  Holds.closeFrames _ h

lemma Holds.openFrame {line : LogicalLine} {opening : Option Opening} {head : List Char}
    (h : o.Holds cs) (hopening : OpeningPlaced (byteLength cs) head opening)
    (hstart : line.start = byteLength (cs ++ head)) : (o.openFrame line opening).Holds (cs ++ head) := by
  have hlaid : Laid isGap line.start [] [] := laid_nil.mpr .nil
  have hframe := FramesPlaced.cons (f := ⟨line.indent, line.start, [], opening⟩) h hopening hstart hlaid
  rwa [List.append_nil] at hframe

/-! ## Adding a line -/

variable {line : LogicalLine} {rest : List LogicalLine}

lemma commentNode_laid (line : LogicalLine) :
    Laid isGap line.start line.content [line.commentNode] :=
  (fills_leaf .comment line.start line.content).laid

lemma Holds.addComment (h : o.Holds cs) (hstart : line.start = byteLength cs) :
    (o.addComment line rest).Holds (cs ++ line.content) := by
  have hcomment := commentNode_laid line
  rw [hstart] at hcomment
  rw [addComment_eq]
  apply Holds.add _ hcomment
  split
  · exact h.dedent _
  · exact h

lemma formOf_laidOn (o : Outline) (line : LogicalLine) (rest : List LogicalLine) :
    (o.formOf line rest).LaidOn line.start line.content := by
  unfold formOf
  split
  · exact Form.topLevel_laidOn _ line.unread
  · exact Form.nested_laidOn line.unread

lemma Holds.addForm {form : Form} {misaligned bodyFollows : Bool} (h : o.Holds cs)
    (hawaiting : o.awaiting = .nothing) (hstart : line.start = byteLength cs)
    (hform : form.LaidOn (byteLength cs) line.content) :
    (o.addForm line misaligned bodyFollows form).Placed (cs ++ line.content) := by
  cases hform with
  | items laid =>
    have hsettled : Laid isGap (byteLength cs) line.content (settle misaligned line.start _) :=
      settle_laid laid (fun _ => hstart)
    exact (h.add hsettled).placed (by rw [add_awaiting, hawaiting])
  | @opens owner laid nonempty kind =>
    have hopening : OpeningPlaced (byteLength cs) line.content (some ⟨owner, line.start, misaligned⟩) :=
      .some laid nonempty kind
    rw [Outline.addForm]
    split
    · exact ⟨cs, line.content, rfl, h, .block hopening⟩
    · exact (h.add (Opening.closeWithout_laid hopening)).placed (by rw [add_awaiting, hawaiting])
  | opensPython laid nonempty =>
    exact ⟨cs, line.content, rfl, h, .python laid nonempty⟩

lemma Holds.addItem (h : o.Holds cs) (hawaiting : o.awaiting = .nothing)
    (hstart : line.start = byteLength cs) : (o.addItem line rest).Placed (cs ++ line.content) := by
  have hready : Holds { o with misaligned := false } cs := h
  rw [addItem_eq]
  exact hready.addForm hawaiting hstart (hstart ▸ formOf_laidOn o line rest)

lemma Holds.addCode (h : o.Holds cs) (hawaiting : o.awaiting = .nothing)
    (hstart : line.start = byteLength cs) : (o.addCode line rest).Placed (cs ++ line.content) := by
  have hclosed : (o.closedTo line.indent).Holds cs := by
    unfold closedTo
    split
    · exact h.dedent _
    · exact h
  have hopened : ((o.closedTo line.indent).openedFor line).Holds cs := by
    unfold openedFor
    split
    · simpa using hclosed.openFrame (.none .nil) (by simpa using hstart)
    · exact hclosed
  rw [addCode_eq]
  exact hopened.addItem (by rw [openedFor_awaiting, closedTo_awaiting, hawaiting]) hstart

lemma Holds.place (h : o.Holds cs) (hawaiting : o.awaiting = .nothing)
    (hstart : line.start = byteLength cs) : (o.place line rest).Placed (cs ++ line.content) := by
  unfold Outline.place
  split
  · next hkind =>
    rw [LogicalLine.kind_eq_blank_iff.mp hkind, List.append_nil]
    exact h.placed hawaiting
  · exact (h.addComment hstart).placed (by rw [addComment_awaiting, hawaiting])
  · exact h.addCode hawaiting hstart

lemma python_add_laid {body : PythonBody} {pos : Nat} (hl : Laid isGap pos cs body.children)
    (hstart : line.start = pos + byteLength cs) :
    Laid isGap pos (cs ++ line.content) (body.add line).children := by
  unfold PythonBody.add
  split
  · next hkind =>
    rw [LogicalLine.kind_eq_blank_iff.mp hkind, List.append_nil]
    exact hl
  · exact hl.append (hstart ▸ commentNode_laid line)
  · exact hl.append (hstart ▸ Unread.expressionPieces_laid line.unread .pythonExpression)

lemma python_add_ne_nil {body : PythonBody} (hne : body.children ≠ []) (line : LogicalLine) :
    (body.add line).children ≠ [] := by
  unfold PythonBody.add
  split
  · exact hne
  · simp
  · simp [hne]

lemma Holds.waitFor (h : o.Holds cs) (awaiting : Awaiting) : (o.waitFor awaiting).Holds cs :=
  h

lemma Holds.resume {items : List Node} (h : o.Holds cs) (hl : Laid isGap (byteLength cs) ds items) :
    (o.resume items).Holds (cs ++ ds) :=
  (h.waitFor .nothing).add hl

theorem Placed.step (h : o.Placed cs) (hstart : line.start = byteLength cs) :
    (o.step line rest).Placed (cs ++ line.content) := by
  obtain ⟨done, waiting, rfl, hdone, hwaiting⟩ := h
  rw [byteLength_append] at hstart
  generalize hawaiting : o.awaiting = awaiting at hwaiting
  cases hwaiting with
  | nothing =>
    rw [step_nothing hawaiting, List.append_nil]
    exact hdone.place hawaiting (by simpa using hstart)
  | @block waiting opening placed =>
    obtain - | ⟨hl, hne, hk⟩ := placed
    rw [step_block hawaiting]
    split
    · next hkind =>
      rw [LogicalLine.kind_eq_blank_iff.mp hkind, List.append_nil]
      exact ⟨done, waiting, rfl, hdone, hawaiting ▸ .block (.some hl hne hk)⟩
    · refine ⟨done, waiting ++ line.content, by simp, hdone, .block (.some ?_ (by simp [Opening.addComment]) hk)⟩
      exact hl.append (hstart ▸ commentNode_laid line)
    · have hready := hdone.waitFor .nothing
      have hopened := hready.openFrame (.some hl hne hk) (by rw [hstart, byteLength_append])
      exact hopened.addItem rfl (by rw [hstart, byteLength_append])
  | @python waiting body laid nonempty =>
    rw [step_python hawaiting]
    split
    · refine ⟨done, waiting ++ line.content, by simp, hdone, .python ?_ ?_⟩
      · exact python_add_laid laid hstart
      · exact python_add_ne_nil nonempty line
    · have hresumed := hdone.resume (PythonBody.close_laid laid nonempty)
      exact hresumed.place (resume_awaiting _ _) (by rw [hstart, byteLength_append])

/-! ## Whole documents -/

lemma Placed.gap_after (h : o.Placed cs) (hg : OnlyGap isGap ds) : o.Placed (cs ++ ds) := by
  obtain ⟨done, waiting, rfl, hdone, hwaiting⟩ := h
  generalize hawaiting : o.awaiting = awaiting at hwaiting
  cases hwaiting with
  | nothing => simpa using (hdone.gap_after hg).placed hawaiting
  | block placed =>
    obtain - | ⟨hl, hne, hk⟩ := placed
    exact ⟨done, _, List.append_assoc .., hdone, hawaiting ▸ .block (.some (hl.gap_after hg) hne hk)⟩
  | python laid nonempty =>
    exact ⟨done, _, List.append_assoc .., hdone, hawaiting ▸ .python (laid.gap_after hg) nonempty⟩

lemma Placed.addLine {row : Nat} {before spaces terminator : List Char} (h : o.Placed cs)
    (hline : LineAt (byteLength cs) row line before spaces terminator) :
    (o.step line rest).Placed (cs ++ (before ++ line.content ++ spaces ++ terminator)) := by
  have hbefore : OnlyGap isGap before :=
    hline.onlyIndentation.mono fun _ hc => isGap_of_isBlank (isBlank_of_isIndentation hc)
  have hspaces : OnlyGap isGap spaces :=
    hline.onlyPadding.mono fun _ hc => isGap_of_isBlank (isBlank_of_isLinePadding hc)
  have hterminator : OnlyGap isGap terminator := by
    rcases hline.terminator_eq with rfl | rfl
    · exact .nil
    · intro c hc
      obtain rfl := List.mem_singleton.mp hc
      decide
  have hstart : line.start = byteLength (cs ++ before) := by
    rw [byteLength_append, hline.start_eq]
  have hstep : (o.step line rest).Placed (cs ++ before ++ line.content) := (h.gap_after hbefore).step hstart
  simpa using hstep.gap_after (hspaces.append hterminator)

theorem Placed.run {row : Nat} {rest : List Char} {lines : List LogicalLine} (h : o.Placed cs)
    (ht : Tiles (byteLength cs) row rest lines) : (o.run lines).Placed (cs ++ rest) := by
  generalize hpos : byteLength cs = pos at ht
  induction ht generalizing o cs with
  | nil =>
    rw [List.append_nil]
    exact h
  | @cons pos row l ls before spaces terminator rest line last tiles ih =>
    subst hpos
    rw [Outline.run, ← List.append_assoc]
    exact ih (h.addLine line) (by rw [line.lineEnd_eq_add, byteLength_append])

lemma Placed.endAwaiting (h : o.Placed cs) : o.endAwaiting.Holds cs := by
  obtain ⟨done, waiting, rfl, hdone, hwaiting⟩ := h
  generalize hawaiting : o.awaiting = awaiting at hwaiting
  cases hwaiting with
  | nothing =>
    rw [endAwaiting_nothing hawaiting, List.append_nil]
    exact hdone
  | block placed =>
    rw [endAwaiting_block hawaiting]
    exact hdone.resume (Opening.closeWithout_laid placed)
  | python laid nonempty =>
    rw [endAwaiting_python hawaiting]
    exact hdone.resume (PythonBody.close_laid laid nonempty)

theorem Placed.finish (h : o.Placed cs) : Laid isGap 0 cs o.finish := by
  have hclosed := h.endAwaiting.closeFrames o.endAwaiting.frames.length
  unfold Holds at hclosed
  rw [closeFrames_all] at hclosed
  obtain hl | - := hclosed
  exact hl

theorem itemsOf_laid {row : Nat} {lines : List LogicalLine} (hmark : OnlyGap isGap cs)
    (ht : Tiles (byteLength cs) row ds lines) : Laid isGap 0 (cs ++ ds) (itemsOf lines) :=
  ((placed_empty.gap_after hmark).run ht).finish

end Outline

lemma onlyGap_mark {mark : List Char} (h : mark = [] ∨ mark = ['\ufeff']) : OnlyGap isGap mark := by
  rcases h with rfl | rfl
  · exact .nil
  · intro c hc
    obtain rfl := List.mem_singleton.mp hc
    decide

/-- The root of a tree holds its whole text, and its children are laid in it. -/
theorem Tree.parse_laid (text : String) :
    Laid isGap 0 text.toList (Tree.parse text).root.children := by
  obtain ⟨mark, rest, htext, hmark, ht⟩ := LogicalLine.scan_tiles text.toList
  change Laid isGap 0 text.toList (Outline.itemsOf (LogicalLine.scan text.toList))
  rw [htext] at ht ⊢
  exact Outline.itemsOf_laid (onlyGap_mark hmark) ht

end RenpyScript
