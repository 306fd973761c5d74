import RenpyScript.Proofs.Outline.Alike

/-!
# Indentation is only compared

Lines with the same contents say the same, wherever they stand in their texts. So two documents with the
same lines, but for a change of widths that keeps their order, have outlines that stay alike.
-/

namespace RenpyScript

open Node

/-- The same line with another indentation. -/
structure LogicalLine.Reindented (f : Nat → Nat) (s : Set Nat) (l l' : LogicalLine) : Prop where
  content : l'.content = l.content
  indent : l'.indent = f l.indent
  mem : l.indent ∈ s

def LogicalLine.StandsIn (text : List Char) (l : LogicalLine) : Prop :=
  ∃ as bs, text = as ++ l.content ++ bs ∧ l.start = byteLength as

namespace LogicalLine
variable {f : Nat → Nat} {s : Set Nat} {text text' : List Char} {l l' : LogicalLine}

lemma unread_eq_shift (l : LogicalLine) : l.unread = Unread.shift l.start ⟨0, l.content⟩ := by
  rw [Unread.shift, Nat.zero_add]
  rfl

lemma commentNode_eq_shift (l : LogicalLine) :
    [l.commentNode] = [Node.leaf .comment (.covering 0 l.content)].map (Node.shift l.start) := by
  rw [List.map_cons, List.map_nil, ← leaf_shift, ← Span.covering_shift, Nat.zero_add]
  rfl

lemma Reindented.alike (h : l.Reindented f s l') (hin : l.StandsIn text) (hin' : l'.StandsIn text') :
    l.Alike f s text text' l' := by
  obtain ⟨as, bs, htext, hstart⟩ := hin
  obtain ⟨as', bs', htext', hstart'⟩ := hin'
  have hcontent := h.content
  rw [hcontent] at htext'
  have hcomment : Laid isGap 0 l.content [.leaf .comment (.covering 0 l.content)] :=
    (fills_leaf .comment 0 l.content).laid
  -- Both lines are read as if they stood at offset zero, and their nodes are moved from there.
  refine ⟨by rw [kind, kind, hcontent], h.indent, h.mem, ?_, fun bodyFollows => ?_, ?_, ?_⟩
  · rw [commentNode_eq_shift, commentNode_eq_shift, hcontent, hstart, hstart']
    exact sameShapes_shift htext htext' hcomment
  · rw [unread_eq_shift, unread_eq_shift, hcontent, hstart, hstart', Form.topLevel_shift, Form.topLevel_shift]
    exact (Form.topLevel_laidOn _ ⟨0, l.content⟩).alike htext htext'
  · rw [unread_eq_shift, unread_eq_shift, hcontent, hstart, hstart', Form.nested_shift, Form.nested_shift]
    exact (Form.nested_laidOn ⟨0, l.content⟩).alike htext htext'
  · rw [unread_eq_shift, unread_eq_shift, hcontent, hstart, hstart', Unread.expressionPieces_shift,
      Unread.expressionPieces_shift]
    exact sameShapes_shift htext htext' (Unread.expressionPieces_laid ⟨0, l.content⟩ .pythonExpression)

lemma reindented_alike {ls ls' : List LogicalLine} (h : List.Forall₂ (Reindented f s) ls ls')
    (hin : ∀ l ∈ ls, l.StandsIn text) (hin' : ∀ l ∈ ls', l.StandsIn text') :
    List.Forall₂ (Alike f s text text') ls ls' := by
  induction h with
  | nil => exact .nil
  | cons hline _ ih =>
    obtain ⟨hl, hin⟩ := List.forall_mem_cons.mp hin
    obtain ⟨hl', hin'⟩ := List.forall_mem_cons.mp hin'
    exact .cons (hline.alike hl hl') (ih hin hin')

end LogicalLine

end RenpyScript
