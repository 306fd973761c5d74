import RenpyScript.Proofs.Outline.Placement
import RenpyScript.Proofs.Tree.Places

/-!
# Trees of scripts are well formed

What every tree that comes out of the parser has in common, whatever the script: its nodes are nested
and in order, and together they cover the script.
-/

namespace RenpyScript

namespace Tree

def places (t : Tree) : Set Place :=
  (Place.root t.root).below

/-- The root covers the text, every other node is a child of one place only, and everywhere the
children lie inside their parent in order. -/
structure WellFormed (t : Tree) : Prop where
  /-- Spans lie in the text and end between characters; children are nested and in order. -/
  inText : ∀ p ∈ t.places, Node.InText t.text.toList p.node
  root_span : t.root.span = ⟨0, byteLength t.text.toList⟩
  /-- A place other than the root stands once in the children of its parent and in no others. -/
  oneParent : ∀ p ∈ t.places, p ≠ .root t.root →
    ∃ q ∈ t.places, p.parent? = some q ∧ ∃ i, ∀ q' i', q'.child? i' = some p ↔ q' = q ∧ i' = i
  nodeCount_eq : t.nodeCount = t.places.ncard

lemma parse_fills (text : String) : (parse text).root.Fills 0 text.toList := by
  rw [Node.fills_iff]
  refine ⟨?_, Or.inr ?_⟩
  · simp [parse, Node.root, Span.covering]
  · simpa [parse, Node.root, Node.gapIn] using parse_laid text

lemma parse_inText (text : String) {n : Node} (hn : n ∈ (parse text).root.preorder) :
    Node.InText text.toList n := by
  have hfills : (parse text).root.Fills (byteLength []) text.toList := parse_fills text
  simpa using hfills.inText_of_mem [] hn

theorem parse_wellFormed (text : String) : (parse text).WellFormed := by
  refine ⟨fun p hp => ?_, rfl, fun p hp hroot => ?_, ?_⟩
  · exact parse_inText text (Place.node_mem_preorder hp)
  · exact Place.exists_unique_parent hp hroot
  · exact (Place.ncard_below _).symm

/-- No text is lost: what lies neither in a node without children nor in a string is white space. -/
theorem parse_covers (text : String) (i : Fin text.toList.length) :
    (∃ n ∈ Node.preorderAll (parse text).root.children, (n.children = [] ∨ n.kind = .string) ∧
        n.Covers (byteLength (text.toList.take i)) text.toList[i]) ∨
      isBlank text.toList[i] = true ∨ isWhiteSpace text.toList[i] = true := by
  have hsplit : text.toList = text.toList.take i ++ text.toList[i] :: text.toList.drop (i + 1) := by
    rw [Fin.getElem_fin, List.cons_getElem_drop_succ, List.take_append_drop]
  rcases (parse_laid text).covers hsplit (fun n _ pos as bs hf => hf.covers) with hg | ⟨m, hm, ht, hc⟩
  · right
    simpa [isGap] using hg
  · left
    rw [Nat.zero_add] at hc
    exact ⟨m, by rwa [Node.preorderAll_eq], ht, hc⟩

end Tree

end RenpyScript
