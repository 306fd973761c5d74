import RenpyScript.Proofs.Arena.Linked

/-!
# Coherent accesses

In entries that are linked, and that are all below the root, the accesses to relatives fit together: what is found
among the children of a node finds that node as its parent, and its neighbours there as its siblings.
-/

namespace RenpyScript

/-! ## Filters and searches without failures -/

section
variable {α : Type} {l : List α} {f : α → Option Bool} {p : α → Bool}

lemma findM?_eq_some (h : ∀ x ∈ l, f x = some (p x)) : l.findM? f = some (l.find? p) := by
  induction l with
  | nil => rfl
  | cons x l ih =>
    rw [List.forall_mem_cons] at h
    rw [List.findM?, h.1, Option.bind_eq_bind, Option.bind_some, List.find?_cons]
    cases p x with
    | true => rfl
    | false => exact ih h.2

lemma filterAuxM_eq_some (h : ∀ x ∈ l, f x = some (p x)) (acc : List α) :
    l.filterAuxM f acc = some ((l.filter p).reverse ++ acc) := by
  induction l generalizing acc with
  | nil => rfl
  | cons x l ih =>
    rw [List.forall_mem_cons] at h
    rw [List.filterAuxM, h.1, Option.bind_eq_bind, Option.bind_some, ih h.2, List.filter_cons]
    cases p x <;> simp

lemma filterM_eq_some (h : ∀ x ∈ l, f x = some (p x)) : l.filterM f = some (l.filter p) := by
  rw [List.filterM, filterAuxM_eq_some h]
  simp

end

namespace Arena

/-! ## Names -/

/-- Whether the node at an index is named. Without an entry it is not. -/
def isNamed (a : Arena) (i : Nat) : Bool :=
  (a.named? i).getD false

/-- The child of `n` at the position `k` is `c`, which is named. -/
def NamedAt (a : Arena) (n k c : Nat) : Prop :=
  a.child? n k = some (some c) ∧ a.named? c = some true

/-- The named child of `n` that comes first behind the position `i`, if there is one. -/
def NextNamed (a : Arena) (n i : Nat) : Option Nat → Prop
  | none => ∀ j d, i < j → ¬a.NamedAt n j d
  | some d => ∃ j, i < j ∧ a.NamedAt n j d ∧ ∀ k d', i < k → k < j → ¬a.NamedAt n k d'

/-- The named child of `n` that comes last in front of the position `i`, if there is one. -/
def PrevNamed (a : Arena) (n i : Nat) : Option Nat → Prop
  | none => ∀ j d, j < i → ¬a.NamedAt n j d
  | some d => ∃ j, j < i ∧ a.NamedAt n j d ∧ ∀ k d', j < k → k < i → ¬a.NamedAt n k d'

section
variable {a : Arena} {i j k n c d : Nat} {is : List Nat} {e : Entry}

lemma named?_of_lt (hi : i < a.nodes.length) : a.named? i = some (a.isNamed i) := by
  obtain ⟨e, he⟩ := get_of_lt hi
  rw [isNamed, named?, he]
  rfl

lemma named?_children (hlinked : Linked a.nodes) (he : a.nodes[n]? = some e) :
    ∀ c ∈ e.children, a.named? c = some (a.isNamed c) := by
  intro c hc
  exact named?_of_lt ((hlinked.below n e he c hc).trans (lt_of_get he))

lemma namedAt_iff (hlinked : Linked a.nodes) (he : a.nodes[n]? = some e) :
    a.NamedAt n k c ↔ e.children[k]? = some c ∧ a.isNamed c = true := by
  have hchild : a.child? n k = some (some c) ↔ e.children[k]? = some c := by
    rw [child?_eq_some_iff]
    simp [he]
  rw [NamedAt, hchild]
  refine and_congr_right fun hc => ?_
  rw [named?_children hlinked he c (List.mem_of_getElem? hc), Option.some.injEq]

lemma namedChildren?_eq (hlinked : Linked a.nodes) (he : a.nodes[n]? = some e) :
    a.namedChildren? n = some (e.children.filter a.isNamed) := by
  rw [namedChildren?, he, Option.bind_eq_bind, Option.bind_some, filterM_eq_some (named?_children hlinked he)]

/-! ## Siblings -/

lemma nextSibling?_eq (hs : a.siblings? c = some (some (k, is))) : a.nextSibling? c = some is[k + 1]? := by
  rw [nextSibling?, hs]
  rfl

lemma prevSibling?_eq (hs : a.siblings? c = some (some (k, is))) :
    a.prevSibling? c = some (if k = 0 then none else is[k - 1]?) := by
  rw [prevSibling?, hs]
  rfl

lemma nextNamedSibling?_eq (hs : a.siblings? c = some (some (k, is)))
    (hnamed : ∀ c ∈ is, a.named? c = some (a.isNamed c)) :
    a.nextNamedSibling? c = some ((is.drop (k + 1)).find? a.isNamed) := by
  rw [nextNamedSibling?, hs, Option.bind_eq_bind, Option.bind_some]
  exact findM?_eq_some fun c hc => hnamed c (List.mem_of_mem_drop hc)

lemma prevNamedSibling?_eq (hs : a.siblings? c = some (some (k, is)))
    (hnamed : ∀ c ∈ is, a.named? c = some (a.isNamed c)) :
    a.prevNamedSibling? c = some ((is.take k).reverse.find? a.isNamed) := by
  rw [prevNamedSibling?, hs, Option.bind_eq_bind, Option.bind_some]
  dsimp only
  rw [filterM_eq_some fun c hc => hnamed c (List.mem_of_mem_take hc), Option.bind_eq_bind, Option.bind_some,
    List.getLast?_eq_head?_reverse, ← List.filter_reverse, List.head?_filter]
  rfl

lemma siblings?_of_parent?_none (h : a.parent? c = some none) : a.siblings? c = some none := by
  rw [siblings?, h]
  rfl

lemma noSiblings (hs : a.siblings? c = some none) : a.nextSibling? c = some none ∧ a.prevSibling? c = some none ∧
    a.nextNamedSibling? c = some none ∧ a.prevNamedSibling? c = some none := by
  refine ⟨?_, ?_, ?_, ?_⟩
  · rw [nextSibling?, hs]
    rfl
  · rw [prevSibling?, hs]
    rfl
  · rw [nextNamedSibling?, hs]
    rfl
  · rw [prevNamedSibling?, hs]
    rfl

lemma nextNamed_find? (hlinked : Linked a.nodes) (he : a.nodes[n]? = some e) (i : Nat) :
    a.NextNamed n i ((e.children.drop (i + 1)).find? a.isNamed) := by
  cases hfind : (e.children.drop (i + 1)).find? a.isNamed with
  | none =>
    intro j d hij hj
    obtain ⟨hget, hnamed⟩ := (namedAt_iff hlinked he).mp hj
    refine List.find?_eq_none.mp hfind d (List.mem_of_getElem? (i := j - (i + 1)) ?_) hnamed
    rw [List.getElem?_drop, Nat.add_sub_cancel' hij, hget]
  | some d =>
    obtain ⟨hnamed, m, hm, rfl, hbefore⟩ := List.find?_eq_some_iff_getElem.mp hfind
    refine ⟨i + 1 + m, by omega, (namedAt_iff hlinked he).mpr ⟨?_, hnamed⟩, ?_⟩
    · rw [← List.getElem?_drop, List.getElem?_eq_getElem hm]
    · intro k d' hik hk hd'
      obtain ⟨hget, hnamed'⟩ := (namedAt_iff hlinked he).mp hd'
      have hlt : k - (i + 1) < m := by omega
      have hget' : (e.children.drop (i + 1))[k - (i + 1)]? = some d' := by
        rw [List.getElem?_drop, Nat.add_sub_cancel' hik, hget]
      have hnot := hbefore _ hlt
      rw [(List.getElem?_eq_some_iff.mp hget').2, hnamed'] at hnot
      cases hnot

lemma prevNamed_find? (hlinked : Linked a.nodes) (he : a.nodes[n]? = some e) (hi : i ≤ e.children.length) :
    a.PrevNamed n i ((e.children.take i).reverse.find? a.isNamed) := by
  -- The child at a position in front of `i`, counted from `i` downwards.
  have hfront : ∀ {j d : Nat}, j < i → e.children[j]? = some d → (e.children.take i).reverse[i - 1 - j]? = some d := by
    intro j d hj hget
    rw [List.getElem?_reverse (by rw [List.length_take]; omega), List.length_take, Nat.min_eq_left hi,
      show i - 1 - (i - 1 - j) = j by omega, List.getElem?_take_of_lt hj, hget]
  cases hfind : (e.children.take i).reverse.find? a.isNamed with
  | none =>
    intro j d hj hd
    obtain ⟨hget, hnamed⟩ := (namedAt_iff hlinked he).mp hd
    exact List.find?_eq_none.mp hfind d (List.mem_of_getElem? (hfront hj hget)) hnamed
  | some d =>
    obtain ⟨hnamed, m, hm, rfl, hbefore⟩ := List.find?_eq_some_iff_getElem.mp hfind
    have hmi : m < i := by
      rw [List.length_reverse, List.length_take] at hm
      omega
    refine ⟨i - 1 - m, by omega, (namedAt_iff hlinked he).mpr ⟨?_, hnamed⟩, ?_⟩
    · have hlt : i - 1 - m < e.children.length := by omega
      have hget := hfront (j := i - 1 - m) (by omega) (List.getElem?_eq_getElem hlt)
      rw [show i - 1 - (i - 1 - m) = m by omega, List.getElem?_eq_getElem hm] at hget
      rw [hget, List.getElem?_eq_getElem hlt]
    · intro k d' hk hki hd'
      obtain ⟨hget, hnamed'⟩ := (namedAt_iff hlinked he).mp hd'
      have hnot := hbefore (i - 1 - k) (by omega)
      rw [(List.getElem?_eq_some_iff.mp (hfront hki hget)).2, hnamed'] at hnot
      cases hnot

/-! ## Named children -/

/-- The named children stand at increasing positions. -/
lemma exists_positions (hlinked : Linked a.nodes) (he : a.nodes[n]? = some e) : ∃ ks : List Nat, ks.Pairwise (· < ·) ∧
    (∀ k, k ∈ ks ↔ ∃ c, a.NamedAt n k c) ∧ ∀ j, a.namedChild? n j = ks[j]?.elim (some none) (a.child? n) := by
  refine ⟨e.children.findIdxs a.isNamed, List.pairwise_findIdxs, ?_, ?_⟩
  · intro k
    rw [List.mem_findIdxs_iff_exists_getElem_pos]
    constructor
    · rintro ⟨hk, hnamed⟩
      exact ⟨_, (namedAt_iff hlinked he).mpr ⟨List.getElem?_eq_getElem hk, hnamed⟩⟩
    · rintro ⟨c, hc⟩
      obtain ⟨hget, hnamed⟩ := (namedAt_iff hlinked he).mp hc
      obtain ⟨hk, rfl⟩ := List.getElem?_eq_some_iff.mp hget
      exact ⟨hk, hnamed⟩
  · intro j
    have hlength : (e.children.filter a.isNamed).length = (e.children.findIdxs a.isNamed).length := by
      rw [List.length_findIdxs, List.countP_eq_length_filter]
    have hnamed : a.namedChild? n j = some (e.children.filter a.isNamed)[j]? := by
      rw [namedChild?, namedChildren?_eq hlinked he]
      rfl
    rw [hnamed]
    rcases Nat.lt_or_ge j (e.children.filter a.isNamed).length with hj | hj
    · rw [List.getElem?_eq_getElem hj, List.getElem_filter_eq_getElem_getElem_findIdxs,
        List.getElem?_eq_getElem (hlength ▸ hj)]
      exact (child?_eq_some_iff.mpr ⟨e, he, List.getElem?_eq_getElem _⟩).symm
    · rw [List.getElem?_eq_none hj, List.getElem?_eq_none (hlength ▸ hj)]
      rfl

end

/-! ## Coherence -/

/-- A node is the parent of each of its children, and the siblings of a child are the children of its parent around
it. The root alone has no parent, and it has no siblings. -/
structure Coherent (a : Arena) : Prop where
  parent : ∀ {n i c : Nat}, a.child? n i = some (some c) → a.parent? c = some (some n)
  nextSibling : ∀ {n i c : Nat}, a.child? n i = some (some c) → a.nextSibling? c = a.child? n (i + 1)
  prevSibling : ∀ {n i c : Nat}, a.child? n i = some (some c) →
    a.prevSibling? c = if i = 0 then some none else a.child? n (i - 1)
  nextNamedSibling : ∀ {n i c : Nat}, a.child? n i = some (some c) →
    ∃ o, a.nextNamedSibling? c = some o ∧ a.NextNamed n i o
  prevNamedSibling : ∀ {n i c : Nat}, a.child? n i = some (some c) →
    ∃ o, a.prevNamedSibling? c = some o ∧ a.PrevNamed n i o
  namedChild : ∀ n < a.nodes.length, ∃ ks : List Nat, ks.Pairwise (· < ·) ∧ (∀ k, k ∈ ks ↔ ∃ c, a.NamedAt n k c) ∧
    ∀ j, a.namedChild? n j = ks[j]?.elim (some none) (a.child? n)
  parentless : ∀ i, a.parent? i = some none ↔ i = a.root
  alone : a.nextSibling? a.root = some none ∧ a.prevSibling? a.root = some none ∧
    a.nextNamedSibling? a.root = some none ∧ a.prevNamedSibling? a.root = some none

lemma Whole.coherent {a : Arena} (h : a.Whole) : a.Coherent := by
  have hsiblings : ∀ {n i c : Nat}, a.child? n i = some (some c) →
      ∃ e, a.nodes[n]? = some e ∧ a.siblings? c = some (some (i, e.children)) ∧ i < e.children.length := by
    intro n i c hc
    obtain ⟨e, he, hget⟩ := child?_eq_some_iff.mp hc
    exact ⟨e, he, h.linked.siblings?_child hc he, (List.getElem?_eq_some_iff.mp hget).1⟩
  refine ⟨h.linked.parent?_child, ?_, ?_, ?_, ?_, ?_, ?_, noSiblings (siblings?_of_parent?_none h.root)⟩
  · intro n i c hc
    obtain ⟨e, he, hs, -⟩ := hsiblings hc
    rw [nextSibling?_eq hs]
    exact (child?_eq_some_iff.mpr ⟨e, he, rfl⟩).symm
  · intro n i c hc
    obtain ⟨e, he, hs, -⟩ := hsiblings hc
    rw [prevSibling?_eq hs]
    split
    · rfl
    · exact (child?_eq_some_iff.mpr ⟨e, he, rfl⟩).symm
  · intro n i c hc
    obtain ⟨e, he, hs, -⟩ := hsiblings hc
    exact ⟨_, nextNamedSibling?_eq hs (named?_children h.linked he), nextNamed_find? h.linked he i⟩
  · intro n i c hc
    obtain ⟨e, he, hs, hi⟩ := hsiblings hc
    exact ⟨_, prevNamedSibling?_eq hs (named?_children h.linked he), prevNamed_find? h.linked he hi.le⟩
  · intro n hn
    obtain ⟨e, he⟩ := get_of_lt hn
    exact exists_positions h.linked he
  · intro i
    constructor
    · intro hparent
      have hi : i < a.nodes.length := by
        rw [parent?, Option.bind_eq_bind, Option.bind_eq_some_iff] at hparent
        obtain ⟨e, he, -⟩ := hparent
        exact lt_of_get he
      cases h.reached i hi with
      | refl => rfl
      | child _ get =>
        rw [h.linked.parent?_child get] at hparent
        cases hparent
    · rintro rfl
      exact h.root

end Arena

end RenpyScript
