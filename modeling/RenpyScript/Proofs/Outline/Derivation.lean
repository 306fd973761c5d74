import RenpyScript.Parser
import RenpyScript.Proofs.Line.Derivation
import RenpyScript.Proofs.Outline.Steps

/-!
# Trees are grammatical

`o.Grammatical` says that all that the outline `o` holds is derived by the grammar as far as it goes:
finished items are items of their level, and what is still open lacks its end only. Adding a line keeps
this, whatever blocks it opens and closes.
-/

namespace RenpyScript

open Node Production

/-- The kinds of items at the top level, if no block is open, or in a block. -/
def itemKinds (frames : List Frame) : List Kind :=
  if frames.isEmpty then Kind.topItems else Kind.blockItems

/-- A line that waits for its block, among items of the given kinds. -/
structure Opening.Grammatical (kinds : List Kind) (o : Opening) : Prop where
  kind : o.owner.kind = .header ∧ Kind.header ∈ kinds ∨
    o.owner.kind ∈ [Kind.controlStatement, .defineStatement, .renpyStatement]
  begins : o.owner.Begins

/-- A Python block with some of its body, which lacks an expression unless there is code. -/
def PythonBody.Grammatical (p : PythonBody) : Prop :=
  if p.hasCode then
    ∀ more, Derives (child .pythonExpression).star more → Derives Kind.pythonBlock.production (p.children ++ more)
  else BeginsPython p.children

/-- Open blocks, each with the line it belongs to. -/
inductive FramesGrammatical : List Frame → Prop
  | nil : FramesGrammatical []
  | cons {f : Frame} {fs : List Frame} (items : ∀ n ∈ f.items, n.IsItem Kind.blockItems)
      (opening : ∀ o ∈ f.opening, o.Grammatical (itemKinds fs)) (outside : FramesGrammatical fs) :
      FramesGrammatical (f :: fs)

/-- What the last line waits for. -/
inductive Awaiting.Grammatical (kinds : List Kind) : Awaiting → Prop
  | nothing : Grammatical kinds .nothing
  | block {opening : Opening} (opening_grammatical : opening.Grammatical kinds) : Grammatical kinds (.block opening)
  | python {body : PythonBody} (body_grammatical : body.Grammatical) : Grammatical kinds (.python body)

/-- Everything in the outline is derived by the grammar as far as it goes. -/
structure Outline.Grammatical (o : Outline) : Prop where
  frames : FramesGrammatical o.frames
  items : ∀ n ∈ o.items, n.IsItem Kind.topItems
  awaiting : o.awaiting.Grammatical (itemKinds o.frames)

/-! ## Closing -/

section
variable {frames : List Frame} {kinds : List Kind} {ns : List Node}

lemma mem_itemKinds (kind : Kind) (htop : kind ∈ Kind.topItems) (hblock : kind ∈ Kind.blockItems)
    (frames : List Frame) : kind ∈ itemKinds frames := by
  unfold itemKinds
  split
  · exact htop
  · exact hblock

lemma mem_errorItems {kind : Kind} (h : kind ∈ itemKinds frames) : kind ∈ Kind.topItems ++ Kind.blockItems := by
  unfold itemKinds at h
  split at h
  · exact List.mem_append_left _ h
  · exact List.mem_append_right _ h

lemma settle_isItem (hns : ∀ n ∈ ns, n.IsItem (itemKinds frames)) (misaligned : Bool) (start : Nat) :
    ∀ n ∈ settle misaligned start ns, n.IsItem (itemKinds frames) := by
  have hchildren : Derives Kind.error.production ns :=
    derives_items fun n hn => (hns n hn).mono fun _ => mem_errorItems
  have herror : (branch .error ns start).IsItem (itemKinds frames) :=
    ⟨hchildren.branch rfl start, Or.inr ⟨rfl, mem_itemKinds .error (by decide) (by decide) frames⟩⟩
  unfold settle
  split
  · split
    · split
      · exact hns
      · simpa using herror
    · simpa using herror
  · exact hns

lemma Opening.Grammatical.close {o : Opening} {block : Node} (h : o.Grammatical (itemKinds frames))
    (hblock : Derives (child .block) [block]) : ∀ n ∈ o.close block, n.IsItem (itemKinds frames) := by
  apply settle_isItem
  have hchildren := h.begins.2 [] block (derives_nil Language.nil_mem_one) hblock
  rw [List.append_nil] at hchildren
  have hnode := hchildren.branch h.begins.1 o.start
  unfold Owner.close
  rw [List.forall_mem_singleton]
  split
  · next hheader =>
    have hmem : Kind.header ∈ itemKinds frames := by
      rcases h.kind with ⟨-, hmem⟩ | hstatement
      · exact hmem
      · simp [hheader] at hstatement
    exact ⟨hnode, Or.inr ⟨rfl, hheader ▸ hmem⟩⟩
  · next hheader =>
    have hkind := h.kind.resolve_left fun h => hheader h.1
    have hcomment : o.owner.kind ≠ .comment := by
      intro hcomment
      simp [hcomment] at hkind
    have hstatement := mem_itemKinds .statement (by decide) (by decide) frames
    exact Unread.isItem_statement hstatement (derives_child hnode hcomment rfl) hkind o.start

lemma Opening.Grammatical.closeWithout {o : Opening} (h : o.Grammatical (itemKinds frames)) :
    ∀ n ∈ o.closeWithout, n.IsItem (itemKinds frames) :=
  h.close (derives_child (grammatical_absent .block (Language.nil_mem_kstar _) rfl _) (by simp [absent]) rfl)

lemma Opening.Grammatical.addComment {o : Opening} {comment : Node} (h : o.Grammatical kinds)
    (hcomment : Derives 1 [comment]) : (o.addComment comment).Grammatical kinds := by
  refine ⟨h.kind, h.begins.1, fun comments block hcomments hblock => ?_⟩
  have hall := h.begins.2 ([comment] ++ comments) block (hcomment.comments hcomments) hblock
  simpa [Opening.addComment] using hall

lemma PythonBody.Grammatical.extend {p : PythonBody} (h : p.Grammatical)
    (hns : ∀ n ∈ ns, n.IsItem [.pythonExpression]) :
    PythonBody.Grammatical { p with
      children := p.children ++ ns
      hasCode := p.hasCode || ns.any (·.kind = .pythonExpression) } := by
  unfold PythonBody.Grammatical at h ⊢
  dsimp only
  simp only [List.append_assoc]
  by_cases hcode : p.hasCode = true
  · rw [if_pos hcode] at h
    rw [if_pos (by simp [hcode])]
    exact fun more hmore => h _ ((derives_star hns).star_append hmore)
  · rw [if_neg hcode] at h
    by_cases hsome : ∃ n ∈ ns, n.kind = .pythonExpression
    · rw [if_pos (by simpa using Or.inr hsome)]
      have hplus := derives_plus hns (hsome.imp fun n hn => ⟨hn.1, by simp [hn.2]⟩)
      intro more hmore
      exact h _ ((hplus.append hmore).assoc.mul_mono (by simp))
    · rw [if_neg (by simpa [hcode] using hsome)]
      have hcomments : Derives 1 ns := derives_one fun n hn => by
        have hkind : n.kind ≠ .pythonExpression := fun hkind => hsome ⟨n, hn, hkind⟩
        exact ⟨by simpa [hkind] using (hns n hn).comment_or, (hns n hn).grammatical⟩
      intro body hbody
      simpa using h _ (hbody.after_comments hcomments)

lemma PythonBody.Grammatical.close {p : PythonBody} (h : p.Grammatical) (frames : List Frame) :
    ∀ n ∈ p.close, n.IsItem (itemKinds frames) := by
  apply settle_isItem
  have hmem := mem_itemKinds .pythonBlock (by decide) (by decide) frames
  have hchildren : Derives Kind.pythonBlock.production
      (if p.hasCode then p.children else p.children ++ [absent .pythonExpression p.childrenEnd]) := by
    unfold PythonBody.Grammatical at h
    split
    · next hcode =>
      rw [if_pos hcode] at h
      simpa using h [] (derives_nil (Language.nil_mem_kstar _))
    · next hcode =>
      rw [if_neg hcode] at h
      apply h
      have hitem : (absent .pythonExpression p.childrenEnd).IsItem [.pythonExpression] :=
        ⟨grammatical_absent .pythonExpression rfl rfl _, Or.inr ⟨rfl, by simp [absent]⟩⟩
      exact derives_plus (by simpa using hitem) ⟨_, List.mem_singleton_self _, by simp [absent]⟩
  rw [List.forall_mem_singleton]
  exact ⟨hchildren.branch rfl p.start, Or.inr ⟨rfl, hmem⟩⟩

lemma Frame.close_isItem {f : Frame} (hitems : ∀ n ∈ f.items, n.IsItem Kind.blockItems)
    (hopening : ∀ o ∈ f.opening, o.Grammatical (itemKinds frames)) :
    ∀ n ∈ f.close, n.IsItem (itemKinds frames) := by
  have hchildren : Derives Kind.block.production f.items := derives_items hitems
  have hblock : Derives (child .block) [branch .block f.items f.start] :=
    derives_child (hchildren.branch rfl f.start) (by simp [branch]) rfl
  unfold Frame.close
  split
  · rw [List.forall_mem_singleton]
    exact hblock.isItem_of_child (mem_itemKinds .block (by decide) (by decide) frames)
  · next o ho => exact (hopening o ho).close hblock

end

namespace Outline
variable {o : Outline} {line : LogicalLine} {rest : List LogicalLine} {ns : List Node}

lemma empty_grammatical : empty.Grammatical :=
  ⟨.nil, by simp [empty], .nothing⟩

lemma itemKinds_add (o : Outline) (ns : List Node) : itemKinds (o.add ns).frames = itemKinds o.frames := by
  unfold itemKinds Outline.add
  split
  · rfl
  · next h => simp [h]

lemma Grammatical.add (h : o.Grammatical) (hns : ∀ n ∈ ns, n.IsItem (itemKinds o.frames)) :
    (o.add ns).Grammatical := by
  have hawaiting : (o.add ns).awaiting.Grammatical (itemKinds (o.add ns).frames) := by
    rw [add_awaiting, itemKinds_add]
    exact h.awaiting
  refine ⟨?_, ?_, hawaiting⟩
  · have hframes := h.frames
    unfold Outline.add
    split
    · exact hframes
    · next f fs hf =>
      rw [hf] at hframes hns
      cases hframes with
      | cons items opening outside => exact .cons (List.forall_mem_append.mpr ⟨items, hns⟩) opening outside
  · unfold Outline.add
    split
    · next hf =>
      rw [hf] at hns
      exact List.forall_mem_append.mpr ⟨h.items, hns⟩
    · exact h.items

lemma Grammatical.closeFrame (h : o.Grammatical) (hawaiting : o.awaiting = .nothing) :
    o.closeFrame.Grammatical := by
  have hframes := h.frames
  unfold Outline.closeFrame
  split
  · exact h
  · next f fs hf =>
    rw [hf] at hframes
    cases hframes with
    | cons items opening outside =>
      have houter : Grammatical { o with frames := fs } := by
        refine ⟨outside, h.items, ?_⟩
        change o.awaiting.Grammatical _
        rw [hawaiting]
        exact .nothing
      exact houter.add (Frame.close_isItem items opening)

lemma Grammatical.closeFrames (k : Nat) (h : o.Grammatical) (hawaiting : o.awaiting = .nothing) :
    (closeFrames k o).Grammatical := by
  induction k generalizing o with
  | zero => exact h
  | succ k ih => exact ih (h.closeFrame hawaiting) (by rw [closeFrame_awaiting, hawaiting])

lemma Grammatical.dedent (h : o.Grammatical) (hawaiting : o.awaiting = .nothing) (width : Nat) :
    (o.dedent width).Grammatical := by
  rw [dedent_eq]
  exact Grammatical.closeFrames _ ⟨h.frames, h.items, h.awaiting⟩ hawaiting

lemma Grammatical.openFrame (h : o.Grammatical) (hawaiting : o.awaiting = .nothing) (line : LogicalLine)
    {opening : Option Opening} (hopening : ∀ a ∈ opening, a.Grammatical (itemKinds o.frames)) :
    (o.openFrame line opening).Grammatical := by
  refine ⟨.cons (by simp) hopening h.frames, h.items, ?_⟩
  change o.awaiting.Grammatical _
  rw [hawaiting]
  exact .nothing

lemma Grammatical.waitFor {awaiting : Awaiting} (h : o.Grammatical)
    (hawaiting : awaiting.Grammatical (itemKinds o.frames)) : (o.waitFor awaiting).Grammatical :=
  ⟨h.frames, h.items, hawaiting⟩

lemma Grammatical.resume (h : o.Grammatical) (hns : ∀ n ∈ ns, n.IsItem (itemKinds o.frames)) :
    (o.resume ns).Grammatical :=
  (h.waitFor .nothing).add hns

/-! ## Adding a line -/

lemma commentNode_grammatical (line : LogicalLine) : line.commentNode.Grammatical :=
  grammatical_leaf .comment rfl line.span

lemma commentNode_derives (line : LogicalLine) : Derives 1 [line.commentNode] :=
  derives_one (by simpa using ⟨rfl, commentNode_grammatical line⟩)

lemma Grammatical.addComment (h : o.Grammatical) (hawaiting : o.awaiting = .nothing) :
    (o.addComment line rest).Grammatical := by
  rw [addComment_eq]
  have hclosed : (if o.commentCloses line rest then o.dedent ((nextCodeIndent? rest).getD 0) else o).Grammatical := by
    split
    · exact h.dedent hawaiting _
    · exact h
  exact hclosed.add (by simpa using isItem_of_comment rfl (commentNode_grammatical line))

lemma formOf_grammatical (o : Outline) (line : LogicalLine) (rest : List LogicalLine) :
    (o.formOf line rest).Grammatical (itemKinds o.frames) := by
  unfold formOf itemKinds
  split
  · exact Form.topLevel_grammatical _ _
  · exact Form.nested_grammatical _

lemma Grammatical.addForm {form : Form} {misaligned bodyFollows : Bool} (h : o.Grammatical)
    (hform : form.Grammatical (itemKinds o.frames)) : (o.addForm line misaligned bodyFollows form).Grammatical := by
  have hopens : ∀ owner : Owner, Opening.Grammatical (itemKinds o.frames) ⟨owner, line.start, misaligned⟩ →
      (o.addForm line misaligned bodyFollows (.opens owner)).Grammatical := by
    intro owner howner
    unfold Outline.addForm
    dsimp only
    split
    · exact h.waitFor (.block howner)
    · exact h.add howner.closeWithout
  cases hform with
  | items isItem => exact h.add (settle_isItem isItem misaligned line.start)
  | opensHeader kind mem begins => exact hopens _ ⟨Or.inl ⟨kind, mem⟩, begins⟩
  | opensStatement kind begins => exact hopens _ ⟨Or.inr kind, begins⟩
  | opensPython begins => exact h.waitFor (.python begins)

lemma Grammatical.addItem (h : o.Grammatical) : (o.addItem line rest).Grammatical := by
  have hready : Grammatical { o with misaligned := false } := ⟨h.frames, h.items, h.awaiting⟩
  rw [addItem_eq]
  exact hready.addForm (formOf_grammatical o line rest)

lemma Grammatical.addCode (h : o.Grammatical) (hawaiting : o.awaiting = .nothing) :
    (o.addCode line rest).Grammatical := by
  have hclosed : (o.closedTo line.indent).Grammatical := by
    unfold closedTo
    split
    · exact h.dedent hawaiting _
    · exact h
  have hopened : ((o.closedTo line.indent).openedFor line).Grammatical := by
    unfold openedFor
    split
    · exact hclosed.openFrame (by rw [closedTo_awaiting, hawaiting]) line (by simp)
    · exact hclosed
  rw [addCode_eq]
  exact hopened.addItem

lemma Grammatical.place (h : o.Grammatical) (hawaiting : o.awaiting = .nothing) :
    (o.place line rest).Grammatical := by
  unfold Outline.place
  split
  · exact h
  · exact h.addComment hawaiting
  · exact h.addCode hawaiting

lemma python_add_grammatical {body : PythonBody} (h : body.Grammatical) (line : LogicalLine) :
    (body.add line).Grammatical := by
  unfold PythonBody.add
  split
  · exact h
  · have hcomment : ∀ n ∈ [line.commentNode], n.IsItem [.pythonExpression] := by
      simpa using isItem_of_comment rfl (commentNode_grammatical line)
    have hall := h.extend hcomment
    rwa [show [line.commentNode].any (·.kind = .pythonExpression) = false from rfl, Bool.or_false] at hall
  · have hleaf : [] ∈ Kind.pythonExpression.production.matches' := rfl
    exact h.extend (Unread.expressionPieces_isItem hleaf (by decide) (by simp) line.unread)

theorem Grammatical.step (h : o.Grammatical) : (o.step line rest).Grammatical := by
  have hawaiting := h.awaiting
  generalize ha : o.awaiting = awaiting at hawaiting
  cases hawaiting with
  | nothing =>
    rw [step_nothing ha]
    exact h.place ha
  | block opening_grammatical =>
    rw [step_block ha]
    split
    · exact h
    · exact h.waitFor (.block (opening_grammatical.addComment (commentNode_derives line)))
    · have hready := h.waitFor .nothing
      refine (hready.openFrame rfl line fun a ha => ?_).addItem
      obtain rfl := Option.mem_some_iff.mp ha
      exact opening_grammatical
  | python body_grammatical =>
    rw [step_python ha]
    split
    · exact h.waitFor (.python (python_add_grammatical body_grammatical line))
    · exact (h.resume (body_grammatical.close _)).place (resume_awaiting _ _)

/-! ## Whole documents -/

theorem Grammatical.run (h : o.Grammatical) (lines : List LogicalLine) : (o.run lines).Grammatical := by
  induction lines generalizing o with
  | nil => exact h
  | cons line rest ih => exact ih h.step

lemma Grammatical.endAwaiting (h : o.Grammatical) : o.endAwaiting.Grammatical := by
  have hawaiting := h.awaiting
  generalize ha : o.awaiting = awaiting at hawaiting
  cases hawaiting with
  | nothing =>
    rw [endAwaiting_nothing ha]
    exact h
  | block opening_grammatical =>
    rw [endAwaiting_block ha]
    exact h.resume opening_grammatical.closeWithout
  | python body_grammatical =>
    rw [endAwaiting_python ha]
    exact h.resume (body_grammatical.close _)

lemma endAwaiting_awaiting (o : Outline) : o.endAwaiting.awaiting = .nothing := by
  unfold Outline.endAwaiting
  split
  · next h => exact h
  · rw [add_awaiting]
  · rw [add_awaiting]

theorem Grammatical.finish (h : o.Grammatical) : ∀ n ∈ o.finish, n.IsItem Kind.topItems :=
  (h.endAwaiting.closeFrames _ (endAwaiting_awaiting o)).items

lemma Grammatical.root (h : o.Grammatical) (span : Span) : Node.Grammatical ⟨none, .sourceFile, span, false, o.finish⟩ := by
  have hroot : Derives Kind.sourceFile.production o.finish := derives_items h.finish
  rw [grammatical_iff]
  exact ⟨⟨hroot.slots_mem, fun h => absurd h Bool.false_ne_true, fun h => absurd h Bool.false_ne_true⟩,
    hroot.grammatical⟩

end Outline

namespace Tree

/-- Every node of a tree has the children that the grammar gives to its kind, in any script. -/
theorem parse_grammatical (text : String) : (parse text).root.Grammatical :=
  (Outline.empty_grammatical.run (LogicalLine.scan text.toList)).root _

end Tree

end RenpyScript
