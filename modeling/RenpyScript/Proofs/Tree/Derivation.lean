import RenpyScript.Grammar.Production
import RenpyScript.Proofs.Tree.Placement

/-!
# Derivations

`Derives p ns` says that the nodes `ns`, without the comments among them, are a sequence of children
that the production `p` allows, and that the grammar allows every node in and below them. Sequences
are put together as productions are. Comments derive the empty sequence, so they may stand anywhere.
-/

namespace RenpyScript

open RegularExpression
open scoped Computability

namespace Production
variable {p q : Production} {w : List Slot}

lemma mem_sum_matches' {ps : List Production} : w ∈ ps.sum.matches' ↔ ∃ p ∈ ps, w ∈ p.matches' := by
  induction ps with
  | nil => simp
  | cons p ps ih => rw [List.sum_cons, matches'_add, Language.mem_add, ih, List.exists_mem_cons_iff]

lemma mem_star_matches' (h : ∀ s ∈ w, [s] ∈ p.matches') : w ∈ p.star.matches' := by
  rw [matches'_star, Language.mem_kstar]
  refine ⟨w.map ([·]), (List.flatMap_singleton' w).symm, fun y hy => ?_⟩
  obtain ⟨s, hs, rfl⟩ := List.mem_map.mp hy
  exact h s hs

lemma append_mem_star_matches' {v : List Slot} (hv : v ∈ p.matches') (hw : w ∈ p.star.matches') :
    v ++ w ∈ p.star.matches' := by
  rw [matches'_star] at hw ⊢
  exact (mul_kstar_le_kstar : p.matches' * p.matches'∗ ≤ p.matches'∗) (Language.append_mem_mul hv hw)

end Production

open Production

namespace Node

/-- The node and all nodes below it have the children that the grammar gives them. -/
def Grammatical (n : Node) : Prop :=
  ∀ m ∈ n.preorder, m.Conforms

/-- The nodes are a sequence of children of the production and comments, and everything below them is
grammatical. -/
structure Derives (p : Production) (ns : List Node) : Prop where
  slots_mem : slots ns ∈ p.matches'
  grammatical : ∀ n ∈ ns, n.Grammatical

section
variable {n : Node} {ns ms : List Node} {kind : Kind} {p q : Production}

lemma grammatical_iff : n.Grammatical ↔ n.Conforms ∧ ∀ c ∈ n.children, c.Grammatical := by
  unfold Grammatical
  rw [preorder_eq, List.forall_mem_cons, List.forall_mem_flatMap]

lemma slots_append (ns ms : List Node) : slots (ns ++ ms) = slots ns ++ slots ms := by
  rw [slots, List.filter_append, List.map_append, slots, slots]

lemma slots_cons_of_ne (h : n.kind ≠ .comment) (ns : List Node) : slots (n :: ns) = n.slot :: slots ns := by
  simp [slots, extra, h]

lemma slots_cons_comment (h : n.kind = .comment) (ns : List Node) : slots (n :: ns) = slots ns := by
  simp [slots, extra, h]

lemma mem_slots {s : Slot} : s ∈ slots ns ↔ ∃ n ∈ ns, n.kind ≠ .comment ∧ n.slot = s := by
  simp [slots, extra, and_assoc]

/-! ## Nodes -/

lemma Grammatical.under (h : n.Grammatical) (field : Field) : (n.under field).Grammatical := by
  rw [grammatical_iff] at h ⊢
  exact ⟨⟨h.1.slots_mem, h.1.token, h.1.missing⟩, h.2⟩

lemma grammatical_leaf (kind : Kind) (h : [] ∈ kind.production.matches') (span : Span) : (leaf kind span).Grammatical := by
  rw [grammatical_iff]
  exact ⟨⟨h, fun _ => rfl, fun hm => absurd hm Bool.false_ne_true⟩, by simp [leaf]⟩

lemma grammatical_absent (kind : Kind) (h : [] ∈ kind.production.matches') (hkind : kind.mayBeMissing = true) (offset : Nat) :
    (absent kind offset).Grammatical := by
  rw [grammatical_iff]
  exact ⟨⟨h, fun _ => rfl, fun _ => ⟨rfl, hkind⟩⟩, by simp [absent]⟩

lemma Derives.branch (h : Derives kind.production ns) (hkind : kind.isToken = false) (fallback : Nat) :
    (branch kind ns fallback).Grammatical := by
  rw [grammatical_iff]
  refine ⟨⟨h.slots_mem, fun htoken => ?_, fun hm => absurd hm Bool.false_ne_true⟩, h.grammatical⟩
  rw [Node.branch, hkind] at htoken
  exact absurd htoken Bool.false_ne_true

/-! ## Sequences -/

lemma derives_nil (h : [] ∈ p.matches') : Derives p [] :=
  ⟨h, by simp⟩

lemma Derives.append (h : Derives p ns) (h' : Derives q ms) : Derives (p * q) (ns ++ ms) := by
  refine ⟨?_, fun n hn => ?_⟩
  · rw [slots_append]
    exact Language.append_mem_mul h.slots_mem h'.slots_mem
  · rcases List.mem_append.mp hn with hn | hn
    · exact h.grammatical n hn
    · exact h'.grammatical n hn

lemma Derives.comments (h : Derives p ns) (h' : Derives 1 ms) : Derives p (ns ++ ms) := by
  obtain ⟨hslots, hgrammatical⟩ := h.append h'
  rw [matches'_mul, matches'_epsilon, mul_one] at hslots
  exact ⟨hslots, hgrammatical⟩

lemma Derives.after_comments (h : Derives p ns) (h' : Derives 1 ms) : Derives p (ms ++ ns) := by
  obtain ⟨hslots, hgrammatical⟩ := h'.append h
  rw [matches'_mul, matches'_epsilon, one_mul] at hslots
  exact ⟨hslots, hgrammatical⟩

lemma Derives.assoc {r : Production} (h : Derives (p * q * r) ns) : Derives (p * (q * r)) ns := by
  obtain ⟨hslots, hgrammatical⟩ := h
  rw [matches'_mul, matches'_mul, mul_assoc] at hslots
  exact ⟨hslots, hgrammatical⟩

lemma Derives.left (h : Derives p ns) (q : Production) : Derives (p + q) ns :=
  ⟨Or.inl h.slots_mem, h.grammatical⟩

lemma Derives.right (p : Production) (h : Derives q ns) : Derives (p + q) ns :=
  ⟨Or.inr h.slots_mem, h.grammatical⟩

lemma derives_optional_nil (p : Production) : Derives (Production.optional p) [] :=
  (derives_nil (p := 1) Language.nil_mem_one).left p

lemma Derives.optional (h : Derives p ns) : Derives (Production.optional p) ns :=
  h.right 1

lemma Derives.mul_mono {r : Production} (h : Derives (p * q) ns) (hle : ∀ w ∈ q.matches', w ∈ r.matches') :
    Derives (p * r) ns := by
  obtain ⟨⟨v, hv, w, hw, hslots⟩, hgrammatical⟩ := h
  exact ⟨⟨v, hv, w, hle w hw, hslots⟩, hgrammatical⟩

lemma Derives.of_sum {ps : List Production} (h : Derives p ns) (hp : p ∈ ps) : Derives ps.sum ns :=
  ⟨mem_sum_matches'.mpr ⟨p, hp, h.slots_mem⟩, h.grammatical⟩

lemma derives_one (h : ∀ n ∈ ns, n.kind = .comment ∧ n.Grammatical) : Derives 1 ns := by
  refine ⟨?_, fun n hn => (h n hn).2⟩
  have hslots : slots ns = [] := by
    rw [List.eq_nil_iff_forall_not_mem]
    intro s hs
    obtain ⟨n, hn, hkind, -⟩ := mem_slots.mp hs
    exact hkind (h n hn).1
  exact hslots

lemma derives_child (hn : n.Grammatical) (hkind : n.kind ≠ .comment) (hfield : n.field = none) :
    Derives (child n.kind) [n] := by
  refine ⟨?_, by simpa using hn⟩
  rw [slots_cons_of_ne hkind, slot, hfield]
  rfl

lemma derives_childUnder (hn : n.Grammatical) (hkind : n.kind ≠ .comment) (field : Field) :
    Derives (childUnder field n.kind) [n.under field] := by
  have hunder : (n.under field).kind ≠ .comment := hkind
  refine ⟨?_, by simpa using hn.under field⟩
  rw [slots_cons_of_ne hunder]
  rfl

lemma Derives.childUnder (h : Derives (child kind) [n]) (field : Field) :
    Derives (childUnder field kind) [n.under field] := by
  have hslots : slots [n] = [⟨none, kind⟩] := h.slots_mem
  have hkind : n.kind ≠ .comment := by
    intro hcomment
    rw [slots_cons_comment hcomment] at hslots
    simp [slots] at hslots
  rw [slots_cons_of_ne hkind, List.cons.injEq, slot, Slot.mk.injEq] at hslots
  rw [← hslots.1.2]
  exact derives_childUnder (h.grammatical n (by simp)) hkind field

lemma Derives.star_append (h : Derives p.star ns) (h' : Derives p.star ms) : Derives p.star (ns ++ ms) := by
  obtain ⟨hslots, hgrammatical⟩ := h.append h'
  rw [matches'_mul, matches'_star, kstar_mul_kstar] at hslots
  exact ⟨by rwa [matches'_star], hgrammatical⟩

lemma Derives.flatMap {α : Type} {nodes : α → List Node} {as : List α}
    (h : ∀ a ∈ as, Derives p (nodes a)) : Derives p.star (as.flatMap nodes) := by
  induction as with
  | nil => exact derives_nil (Language.nil_mem_kstar _)
  | cons a as ih =>
    obtain ⟨hslots, hgrammatical⟩ := h a (by simp)
    have htail := ih fun b hb => h b (List.mem_cons_of_mem a hb)
    rw [List.flatMap_cons]
    refine ⟨?_, fun n hn => ?_⟩
    · rw [slots_append]
      exact append_mem_star_matches' hslots htail.slots_mem
    · rcases List.mem_append.mp hn with hn | hn
      · exact hgrammatical n hn
      · exact htail.grammatical n hn

end

/-! ## Items -/

/-- The node is one of the items of the given kinds, or a comment. -/
structure IsItem (kinds : List Kind) (n : Node) : Prop where
  grammatical : n.Grammatical
  comment_or : n.kind = .comment ∨ n.field = none ∧ n.kind ∈ kinds

section
variable {n : Node} {ns : List Node} {kinds : List Kind} {kind : Kind}

lemma IsItem.mono {kinds' : List Kind} (h : n.IsItem kinds) (hle : ∀ k ∈ kinds, k ∈ kinds') : n.IsItem kinds' :=
  ⟨h.grammatical, h.comment_or.imp_right fun h => ⟨h.1, hle _ h.2⟩⟩

lemma isItem_of_comment (h : n.kind = .comment) (hn : n.Grammatical) : n.IsItem kinds :=
  ⟨hn, Or.inl h⟩

lemma Derives.isItem (h : Derives 1 ns) : ∀ n ∈ ns, n.IsItem kinds := by
  intro n hn
  refine isItem_of_comment ?_ (h.grammatical n hn)
  by_contra hkind
  have hmem := mem_slots.mpr ⟨n, hn, hkind, rfl⟩
  rw [show slots ns = [] from h.slots_mem] at hmem
  simp at hmem

lemma Derives.isItem_of_child (h : Derives (child kind) [n]) (hkind : kind ∈ kinds) : n.IsItem kinds := by
  obtain ⟨hslots, hgrammatical⟩ := h
  refine ⟨hgrammatical n (by simp), or_iff_not_imp_left.mpr fun hcomment => ?_⟩
  rw [slots_cons_of_ne hcomment] at hslots
  have hslot : n.slot = ⟨none, kind⟩ := (List.cons.inj hslots).1
  rw [slot, Slot.mk.injEq] at hslot
  exact ⟨hslot.1, hslot.2 ▸ hkind⟩

lemma slots_isItem (h : ∀ n ∈ ns, n.IsItem kinds) {s : Slot} (hs : s ∈ slots ns) :
    s.field = none ∧ s.kind ∈ kinds := by
  obtain ⟨n, hn, hkind, rfl⟩ := mem_slots.mp hs
  exact (h n hn).comment_or.resolve_left hkind

lemma mem_child_matches' {s : Slot} (hfield : s.field = none) : [s] ∈ (child s.kind).matches' := by
  obtain ⟨field, kind⟩ := s
  obtain rfl : field = none := hfield
  rfl

lemma derives_items (h : ∀ n ∈ ns, n.IsItem kinds) : Derives (childOf kinds).star ns := by
  refine ⟨mem_star_matches' fun s hs => ?_, fun n hn => (h n hn).grammatical⟩
  obtain ⟨hfield, hkind⟩ := slots_isItem h hs
  exact mem_sum_matches'.mpr ⟨child s.kind, List.mem_map_of_mem hkind, mem_child_matches' hfield⟩

lemma derives_star (h : ∀ n ∈ ns, n.IsItem [kind]) : Derives (child kind).star ns := by
  refine ⟨mem_star_matches' fun s hs => ?_, fun n hn => (h n hn).grammatical⟩
  obtain ⟨hfield, hkind⟩ := slots_isItem h hs
  rw [← List.mem_singleton.mp hkind]
  exact mem_child_matches' hfield

lemma derives_plus (h : ∀ n ∈ ns, n.IsItem [kind]) (hsome : ∃ n ∈ ns, n.kind ≠ .comment) :
    Derives (child kind * (child kind).star) ns := by
  induction ns with
  | nil => simp at hsome
  | cons n ns ih =>
    obtain ⟨hn, hns⟩ := List.forall_mem_cons.mp h
    by_cases hkind : n.kind = .comment
    · have hrest : ∃ m ∈ ns, m.kind ≠ .comment := by simpa [hkind] using hsome
      obtain ⟨hslots, hgrammatical⟩ := ih hns hrest
      exact ⟨by rwa [slots_cons_comment hkind], List.forall_mem_cons.mpr ⟨hn.grammatical, hgrammatical⟩⟩
    · obtain ⟨hfield, hmem⟩ := hn.comment_or.resolve_left hkind
      have hchild := derives_child hn.grammatical hkind hfield
      rw [List.mem_singleton.mp hmem] at hchild
      exact hchild.append (derives_star hns)

end

end Node

end RenpyScript
