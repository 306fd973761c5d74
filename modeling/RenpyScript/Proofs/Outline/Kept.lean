import RenpyScript.Proofs.Line.Tokens
import RenpyScript.Proofs.Outline.Placement

/-!
# Outlines lose no nodes

`o.Keeps n` says that the node `n` is among those that the outline `o` holds, or below one of them. Blocks
that are closed put what they hold under other nodes, so whatever an outline keeps is in the document in the end.
-/

namespace RenpyScript

open Node

/-- The nodes of the line that waits for a block, or of the body that is being read. -/
def Awaiting.nodes : Awaiting → List Node
  | .nothing => []
  | .block opening => opening.owner.head
  | .python body => body.children

/-- The nodes of a block, and of the line that it belongs to. -/
def Frame.nodes (f : Frame) : List Node :=
  (f.opening.map (·.owner.head)).getD [] ++ f.items

/-! ## What closing keeps -/

section
variable {n : Node} {ns ms : List Node}

lemma mem_preorderAll_branch {kind : Kind} {fallback : Nat} (h : n ∈ preorderAll ns) :
    n ∈ preorderAll [.branch kind ns fallback] := by
  rw [preorderAll_eq] at h
  exact mem_preorderAll.mpr ⟨_, List.mem_singleton_self _, (Node.branch kind ns fallback).children_subset_preorder h⟩

lemma mem_preorderAll_settle {misaligned : Bool} {start : Nat} (h : n ∈ preorderAll ns) :
    n ∈ preorderAll (settle misaligned start ns) := by
  unfold settle
  split
  · split
    · split
      · exact h
      · exact mem_preorderAll_branch h
    · exact mem_preorderAll_branch h
  · exact h

lemma Owner.mem_preorder_close {owner : Owner} {start : Nat} {block : Node}
    (h : n ∈ preorderAll (owner.head ++ block.children)) : n ∈ preorderAll [owner.close start block] := by
  have hnode : n ∈ preorderAll [.branch owner.kind (owner.head ++ [block.under .body]) start] := by
    apply mem_preorderAll_branch
    rw [preorderAll_append, List.mem_append] at h ⊢
    refine h.imp_right fun h => mem_preorderAll.mpr ⟨_, List.mem_singleton_self _, ?_⟩
    rw [preorderAll_eq] at h
    exact (block.under .body).children_subset_preorder h
  unfold Owner.close
  split
  · exact hnode
  · exact mem_preorderAll_branch hnode

lemma Opening.mem_preorder_close {opening : Opening} {block : Node}
    (h : n ∈ preorderAll (opening.owner.head ++ block.children)) : n ∈ preorderAll (opening.close block) :=
  mem_preorderAll_settle (Owner.mem_preorder_close h)

lemma Opening.mem_preorder_closeWithout {opening : Opening} (h : n ∈ preorderAll opening.owner.head) :
    n ∈ preorderAll opening.closeWithout := by
  apply Opening.mem_preorder_close
  rw [preorderAll_append]
  exact List.mem_append_left _ h

lemma PythonBody.mem_preorder_close {body : PythonBody} (h : n ∈ preorderAll body.children) :
    n ∈ preorderAll body.close := by
  apply mem_preorderAll_settle
  apply mem_preorderAll_branch
  split
  · exact h
  · rw [preorderAll_append]
    exact List.mem_append_left _ h

lemma Frame.mem_preorder_close {f : Frame} (h : n ∈ preorderAll f.nodes) : n ∈ preorderAll f.close := by
  unfold Frame.nodes at h
  unfold Frame.close
  split
  · next hnone =>
    rw [hnone] at h
    exact mem_preorderAll_branch h
  · next opening hsome =>
    rw [hsome] at h
    exact Opening.mem_preorder_close h

end

namespace Outline

/-- The node is one that the outline holds, or it is below one. -/
inductive Keeps (o : Outline) (n : Node) : Prop
  | item (h : n ∈ preorderAll o.items)
  | frame {f : Frame} (hf : f ∈ o.frames) (h : n ∈ preorderAll f.nodes)
  | awaiting (h : n ∈ preorderAll o.awaiting.nodes)

section
variable {o : Outline} {n : Node} {ns : List Node} {line : LogicalLine} {rest : List LogicalLine}

lemma Keeps.add (h : o.Keeps n) (ns : List Node) : (o.add ns).Keeps n := by
  unfold Outline.add
  split
  · next hframes =>
    cases h with
    | item h => exact .item (preorderAll_append .. ▸ List.mem_append_left _ h)
    | frame hf h => exact .frame hf h
    | awaiting h => exact .awaiting h
  · next f fs hframes =>
    cases h with
    | item h => exact .item h
    | awaiting h => exact .awaiting h
    | @frame g hg h =>
      rw [hframes] at hg
      rcases List.mem_cons.mp hg with rfl | hg
      · refine .frame (List.mem_cons_self ..) ?_
        rw [Frame.nodes] at h ⊢
        rw [← List.append_assoc, preorderAll_append]
        exact List.mem_append_left _ h
      · exact .frame (List.mem_cons_of_mem _ hg) h

lemma keeps_add (o : Outline) (h : n ∈ preorderAll ns) : (o.add ns).Keeps n := by
  unfold Outline.add
  split
  · exact .item (preorderAll_append .. ▸ List.mem_append_right _ h)
  · refine .frame (List.mem_cons_self ..) ?_
    rw [Frame.nodes, ← List.append_assoc, preorderAll_append]
    exact List.mem_append_right _ h

lemma Keeps.closeFrame (h : o.Keeps n) : o.closeFrame.Keeps n := by
  unfold Outline.closeFrame
  split
  · exact h
  · next f fs hframes =>
    cases h with
    | item h =>
      apply Keeps.add
      exact .item h
    | awaiting h =>
      apply Keeps.add
      exact .awaiting h
    | @frame g hg h =>
      rw [hframes] at hg
      rcases List.mem_cons.mp hg with rfl | hg
      · exact keeps_add _ (Frame.mem_preorder_close h)
      · apply Keeps.add
        exact .frame hg h

lemma Keeps.closeFrames (k : Nat) (h : o.Keeps n) : (Outline.closeFrames k o).Keeps n := by
  induction k generalizing o with
  | zero => exact h
  | succ k ih => exact ih h.closeFrame

lemma Keeps.congr {o' : Outline} (h : o.Keeps n) (hitems : o'.items = o.items) (hframes : o'.frames = o.frames)
    (hawaiting : o'.awaiting = o.awaiting) : o'.Keeps n := by
  cases h with
  | item h => exact .item (hitems ▸ h)
  | frame hf h => exact .frame (hframes ▸ hf) h
  | awaiting h => exact .awaiting (hawaiting ▸ h)

lemma Keeps.dedent (width : Nat) (h : o.Keeps n) : (o.dedent width).Keeps n :=
  Keeps.closeFrames _ (h.congr rfl rfl rfl)

lemma Keeps.openFrame (opening : Option Opening) (h : o.Keeps n) : (o.openFrame line opening).Keeps n := by
  cases h with
  | item h => exact .item h
  | frame hf h => exact .frame (List.mem_cons_of_mem _ hf) h
  | awaiting h => exact .awaiting h

lemma Keeps.waitFor {awaiting : Awaiting} (h : o.Keeps n)
    (hawaiting : n ∈ preorderAll o.awaiting.nodes → n ∈ preorderAll awaiting.nodes) :
    (o.waitFor awaiting).Keeps n := by
  cases h with
  | item h => exact .item h
  | frame hf h => exact .frame hf h
  | awaiting h => exact .awaiting (hawaiting h)

lemma Keeps.resume (h : o.Keeps n) (hawaiting : n ∈ preorderAll o.awaiting.nodes → n ∈ preorderAll ns) :
    (o.resume ns).Keeps n := by
  unfold Outline.resume
  cases h with
  | item h =>
    apply Keeps.add
    exact .item h
  | frame hf h =>
    apply Keeps.add
    exact .frame hf h
  | awaiting h => exact keeps_add _ (hawaiting h)

lemma not_mem_awaiting (h : o.awaiting = .nothing) : n ∉ preorderAll o.awaiting.nodes := by
  rw [h]
  exact List.not_mem_nil

/-! ## Adding a line -/

lemma Keeps.addForm {misaligned bodyFollows : Bool} (form : Form) (hnothing : o.awaiting = .nothing)
    (h : o.Keeps n) : (o.addForm line misaligned bodyFollows form).Keeps n := by
  have hother (awaiting : Awaiting) : (o.waitFor awaiting).Keeps n :=
    h.waitFor fun hn => absurd hn (not_mem_awaiting hnothing)
  unfold Outline.addForm
  split
  · exact h.add _
  · split
    · exact hother _
    · exact h.add _
  · exact hother _

lemma keeps_addForm {misaligned bodyFollows : Bool} {form : Form} (h : n ∈ preorderAll form.nodes) :
    (o.addForm line misaligned bodyFollows form).Keeps n := by
  unfold Outline.addForm
  split
  · exact keeps_add o (mem_preorderAll_settle h)
  · split
    · exact .awaiting h
    · exact keeps_add o (Opening.mem_preorder_closeWithout h)
  · exact .awaiting h

lemma Keeps.addItem (hnothing : o.awaiting = .nothing) (h : o.Keeps n) : (o.addItem line rest).Keeps n := by
  rw [addItem_eq]
  exact Keeps.addForm _ hnothing (h.congr rfl rfl rfl)

lemma Keeps.closedTo (width : Nat) (h : o.Keeps n) : (o.closedTo width).Keeps n := by
  unfold Outline.closedTo
  split
  · exact h.dedent width
  · exact h

lemma Keeps.openedFor (h : o.Keeps n) : (o.openedFor line).Keeps n := by
  unfold Outline.openedFor
  split
  · exact h.openFrame none
  · exact h

lemma Keeps.addComment (h : o.Keeps n) : (o.addComment line rest).Keeps n := by
  rw [addComment_eq]
  split
  · exact (h.dedent _).add _
  · exact h.add _

lemma Keeps.place (hnothing : o.awaiting = .nothing) (h : o.Keeps n) : (o.place line rest).Keeps n := by
  unfold Outline.place
  split
  · exact h
  · exact h.addComment
  · rw [addCode_eq]
    exact Keeps.addItem (by rw [openedFor_awaiting, closedTo_awaiting, hnothing]) (h.closedTo _).openedFor

lemma mem_preorderAll_add {body : PythonBody} (line : LogicalLine) (h : n ∈ preorderAll body.children) :
    n ∈ preorderAll (body.add line).children := by
  unfold PythonBody.add
  split
  · exact h
  · exact preorderAll_append .. ▸ List.mem_append_left _ h
  · exact preorderAll_append .. ▸ List.mem_append_left _ h

/-- Whatever is kept is kept when a line is added. -/
theorem Keeps.step (h : o.Keeps n) : (o.step line rest).Keeps n := by
  cases hawaiting : o.awaiting with
  | nothing =>
    rw [step_nothing hawaiting]
    exact h.place hawaiting
  | block opening =>
    rw [step_block hawaiting]
    split
    · exact h
    · refine h.waitFor fun hn => ?_
      rw [hawaiting] at hn
      exact preorderAll_append .. ▸ List.mem_append_left _ hn
    · refine Keeps.addItem rfl ?_
      cases h with
      | item h => exact .item h
      | frame hf h => exact .frame (List.mem_cons_of_mem _ hf) h
      | awaiting h =>
        rw [hawaiting] at h
        exact .frame (List.mem_cons_self ..) (preorderAll_append .. ▸ List.mem_append_left _ h)
  | python body =>
    rw [step_python hawaiting]
    split
    · refine h.waitFor fun hn => ?_
      rw [hawaiting] at hn
      exact mem_preorderAll_add line hn
    · refine Keeps.place (resume_awaiting _ _) (h.resume fun hn => ?_)
      rw [hawaiting] at hn
      exact PythonBody.mem_preorder_close hn

theorem Keeps.run (lines : List LogicalLine) (h : o.Keeps n) : (o.run lines).Keeps n := by
  induction lines generalizing o with
  | nil => exact h
  | cons line rest ih => exact ih h.step

lemma Keeps.endAwaiting (h : o.Keeps n) : o.endAwaiting.Keeps n := by
  cases hawaiting : o.awaiting with
  | nothing =>
    rw [endAwaiting_nothing hawaiting]
    exact h
  | block opening =>
    rw [endAwaiting_block hawaiting]
    refine h.resume fun hn => ?_
    rw [hawaiting] at hn
    exact Opening.mem_preorder_closeWithout hn
  | python body =>
    rw [endAwaiting_python hawaiting]
    refine h.resume fun hn => ?_
    rw [hawaiting] at hn
    exact PythonBody.mem_preorder_close hn

/-- At the end no block is open and nothing is awaited, so what is kept is in the document. -/
theorem Keeps.finish (h : o.Keeps n) : n ∈ preorderAll o.finish := by
  have hclosed := h.endAwaiting.closeFrames o.endAwaiting.frames.length
  have hnothing : o.endAwaiting.awaiting = .nothing := by
    unfold Outline.endAwaiting
    split
    · next h => exact h
    · rw [add_awaiting]
    · rw [add_awaiting]
  cases hclosed with
  | item h => exact h
  | frame hf h =>
    rw [closeFrames_all] at hf
    cases hf
  | awaiting h => exact absurd h (not_mem_awaiting (by rw [closeFrames_awaiting, hnothing]))

/-! ## What a line adds -/

lemma formOf_beginsIn (o : Outline) {line : LogicalLine} (rest : List LogicalLine) {c : Char}
    (h : line.unread.peek? = some c) : line.unread.BeginsIn (o.formOf line rest).nodes := by
  unfold formOf
  split
  · exact Form.topLevel_beginsIn _ h
  · exact Form.nested_beginsIn h

lemma keeps_addItem (o : Outline) (rest : List LogicalLine) {c : Char} (h : line.unread.peek? = some c) :
    ∃ n, line.unread.FirstToken n ∧ (o.addItem line rest).Keeps n := by
  rw [addItem_eq]
  obtain ⟨n, hn, htoken⟩ := o.formOf_beginsIn rest h
  exact ⟨n, htoken, keeps_addForm hn⟩

lemma keeps_place (o : Outline) (rest : List LogicalLine) {c : Char} (hcode : line.kind = .code)
    (h : line.unread.peek? = some c) : ∃ n, line.unread.FirstToken n ∧ (o.place line rest).Keeps n := by
  unfold place
  rw [hcode]
  exact keeps_addItem _ rest h

/-- A line of code adds its first token, whatever the outline is waiting for. -/
theorem keeps_step (o : Outline) (rest : List LogicalLine) {c : Char} (hcode : line.kind = .code)
    (h : line.unread.peek? = some c) : ∃ n, line.unread.FirstToken n ∧ (o.step line rest).Keeps n := by
  cases hawaiting : o.awaiting with
  | nothing =>
    rw [step_nothing hawaiting]
    exact keeps_place o rest hcode h
  | block opening =>
    rw [step_block hawaiting, hcode]
    exact keeps_addItem _ rest h
  | python body =>
    rw [step_python hawaiting]
    split
    · obtain ⟨n, hn, htoken⟩ := Unread.expressionPieces_beginsIn .pythonExpression h
      refine ⟨n, htoken, .awaiting ?_⟩
      change n ∈ preorderAll (body.add line).children
      rw [PythonBody.add, hcode]
      exact preorderAll_append .. ▸ List.mem_append_right _ hn
    · exact keeps_place _ rest hcode h

/-- Every line of code has its first token in the document. -/
theorem firstToken_mem_itemsOf {lines : List LogicalLine} (hline : line ∈ lines) {c : Char} (hcode : line.kind = .code)
    (h : line.unread.peek? = some c) : ∃ n ∈ preorderAll (itemsOf lines), line.unread.FirstToken n := by
  have hrun : ∀ o : Outline, ∃ n, line.unread.FirstToken n ∧ (o.run lines).Keeps n := by
    induction lines with
    | nil => cases hline
    | cons first rest ih =>
      intro o
      rcases List.mem_cons.mp hline with rfl | hline
      · obtain ⟨n, htoken, hkeeps⟩ := keeps_step o rest hcode h
        exact ⟨n, htoken, hkeeps.run rest⟩
      · exact ih hline (o.step first rest)
  obtain ⟨n, htoken, hkeeps⟩ := hrun empty
  exact ⟨n, hkeeps.finish, htoken⟩

end

end Outline

end RenpyScript
