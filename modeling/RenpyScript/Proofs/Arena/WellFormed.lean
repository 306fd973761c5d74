import RenpyScript.Proofs.Arena.Places

/-!
# Well-formed entries

The entries that a parse leaves behind are those of one tree. Every node but the root is a child of the node that it
has for its parent, once, and of no other, and nothing is left of what has been rolled back. Children lie in their
parent one behind the other, and all of them lie in the text.
-/

namespace RenpyScript

namespace Arena

/-- Every node lies in its parent, and behind the children in front of it. -/
structure Laid (a : Arena) : Prop where
  nested : ∀ {i k c : Nat} {e f : Entry}, a.child? i k = some (some c) → a.nodes[i]? = some e → a.nodes[c]? = some f →
    e.span.start ≤ f.span.start ∧ f.span.stop ≤ e.span.stop
  ordered : ∀ {i j k c d : Nat} {f g : Entry}, j < k → a.child? i j = some (some c) → a.child? i k = some (some d) →
    a.nodes[c]? = some f → a.nodes[d]? = some g → f.span.stop ≤ g.span.start

/-- The entries are those of one tree, which is laid out over a text. -/
structure WellFormed (a : Arena) (text : List Char) : Prop extends a.Laid where
  /-- Spans lie in the text and end between characters. -/
  inText : ∀ e ∈ a.nodes, e.span.start ≤ e.span.stop ∧ e.span.stop ≤ byteLength text ∧
    IsBoundary text e.span.start ∧ IsBoundary text e.span.stop
  root : ∃ e, a.nodes[a.root]? = some e ∧ e.span = ⟨0, byteLength text⟩ ∧ e.parent = none
  /-- A node other than the root stands once in the children of its parent and in no others. -/
  oneParent : ∀ i < a.nodes.length, i ≠ a.root →
    ∃ p k, a.parent? i = some (some p) ∧ ∀ p' k', a.child? p' k' = some (some i) ↔ p' = p ∧ k' = k
  /-- The nodes in the subtree of the root have an entry each, and there is no other entry. -/
  within_iff : ∀ i, a.Within a.root i ↔ i < a.nodes.length
  length_eq : a.nodes.length = {i | a.Within a.root i}.ncard

section
variable {a : Arena} {text : String} {i : Nat}

lemma Whole.exists_parent (h : a.Whole) (hi : i < a.nodes.length) (hroot : i ≠ a.root) :
    ∃ p k, a.parent? i = some (some p) ∧ ∀ p' k', a.child? p' k' = some (some i) ↔ p' = p ∧ k' = k := by
  rcases (h.reached i hi).cases_parent with rfl | ⟨p, k, -, get⟩
  · exact absurd rfl hroot
  · refine ⟨p, k, h.linked.parent?_child get, fun p' k' => ⟨fun get' => h.linked.child_unique get' get, ?_⟩⟩
    rintro ⟨rfl, rfl⟩
    exact get

lemma Whole.ncard_within (h : a.Whole) : {i | a.Within a.root i}.ncard = a.nodes.length := by
  have hset : {i | a.Within a.root i} = (Finset.range a.nodes.length : Set Nat) := by
    ext i
    rw [Finset.mem_coe, Finset.mem_range]
    exact h.within_iff
  rw [hset, Set.ncard_coe_finset, Finset.card_range]

lemma represents_laid (h : a.Represents (Tree.parse text)) : a.Laid := by
  refine ⟨?_, ?_⟩
  · intro i k c e f hc he hf
    obtain ⟨x, hx, hin⟩ := exists_inText h he
    obtain ⟨y, hy, hc'⟩ := hx.child hc
    rw [hx.span_eq he, hc'.span_eq hf]
    exact hin.nested y (List.mem_of_getElem? hy)
  · intro i j k c d f g hjk hc hd hf hg
    obtain ⟨e, he, -⟩ := child?_eq_some_iff.mp hc
    obtain ⟨x, hx, hin⟩ := exists_inText h he
    obtain ⟨y, hy, hc'⟩ := hx.child hc
    obtain ⟨z, hz, hd'⟩ := hx.child hd
    obtain ⟨hj, rfl⟩ := List.getElem?_eq_some_iff.mp hy
    obtain ⟨hk, rfl⟩ := List.getElem?_eq_some_iff.mp hz
    rw [hc'.span_eq hf, hd'.span_eq hg]
    exact List.pairwise_iff_getElem.mp hin.ordered j k hj hk hjk

lemma represents_wellFormed (h : a.Represents (Tree.parse text)) : a.WellFormed text.toList := by
  refine ⟨represents_laid h, ?_, ?_, fun i => h.exists_parent, fun i => h.within_iff, h.ncard_within.symm⟩
  · intro e he
    obtain ⟨i, hi⟩ := List.mem_iff_getElem?.mp he
    obtain ⟨n, hn, hin⟩ := exists_inText h hi
    rw [hn.span_eq hi]
    exact ⟨hin.start_le_stop, hin.stop_le, hin.start_boundary, hin.stop_boundary⟩
  · obtain ⟨is, hget⟩ := h.denotes.get
    exact ⟨_, hget, rfl, rfl⟩

end

end Arena

/-- A descent leaves well-formed entries behind on every text, whatever it has rolled back. They are those of the tree of
the text, which is well formed too, and as many as that has nodes. -/
theorem Descent.parse_leaves_tree (text : String) : ∃ r, parse text.toList = some r ∧ r.arena.WellFormed text.toList ∧
    r.arena.Represents (Tree.parse text) ∧ r.arena.nodes.length = (Tree.parse text).nodeCount ∧
    (Tree.parse text).WellFormed := by
  obtain ⟨r, hparse, h⟩ := parse_represents text
  refine ⟨r, hparse, Arena.represents_wellFormed h, h, ?_, Tree.parse_wellFormed text⟩
  rw [← h.length_preorder, Node.length_preorder, Tree.nodeCount]

end RenpyScript
