import RenpyScript.Checked.Arena
import RenpyScript.Proofs.Checked.Parse

/-!
# Linked entries

Children come before their parents and refer to them. So the subtrees of two nodes are apart unless one of them is
below the other, and a list of the nodes of a subtree in document order has each of them once. In the entries that a
parse leaves behind there is nothing besides the subtree of the root.
-/

namespace RenpyScript

namespace Arena

/-- The node `m` is in the subtree of `n`. -/
inductive Within (a : Arena) (n : Nat) : Nat → Prop
  | refl : Within a n n
  | child {m k c : Nat} (above : Within a n m) (get : a.child? m k = some (some c)) : Within a n c

/-- The nodes of the subtrees of some nodes in document order, each before the nodes below it. -/
inductive Preorder (a : Arena) : List Nat → List Nat → Prop
  | nil : Preorder a [] []
  | cons {i : Nat} {is l l' : List Nat} {e : Entry} (get : a.nodes[i]? = some e) (below : Preorder a e.children l)
      (rest : Preorder a is l') : Preorder a (i :: is) (i :: l ++ l')

/-- The entry at an index is that of a node, and the entries below it are those of the nodes below the node. -/
def Holds (a : Arena) (table : LineTable) (i : Nat) (n : Node) : Prop :=
  ∃ parent field, Denotes table a.nodes parent field i n

/-- The entries are linked, and all of them are in the subtree of the root, which has no parent. -/
structure Whole (a : Arena) : Prop where
  linked : Linked a.nodes
  root : a.parent? a.root = some none
  reached : ∀ i < a.nodes.length, a.Within a.root i

section
variable {a : Arena} {k n c : Nat} {e : Entry}

lemma child?_eq_some_iff {o : Option Nat} : a.child? n k = some o ↔ ∃ e, a.nodes[n]? = some e ∧ e.children[k]? = o := by
  rw [child?, Option.bind_eq_bind, Option.bind_eq_some_iff]
  simp only [Option.pure_def, Option.some.injEq]

lemma mem_children (h : a.child? n k = some (some c)) : ∃ e, a.nodes[n]? = some e ∧ c ∈ e.children := by
  obtain ⟨e, he, hc⟩ := child?_eq_some_iff.mp h
  exact ⟨e, he, List.mem_of_getElem? hc⟩

lemma exists_child (he : a.nodes[n]? = some e) (hc : c ∈ e.children) : ∃ k, a.child? n k = some (some c) := by
  obtain ⟨k, hk⟩ := List.mem_iff_getElem?.mp hc
  exact ⟨k, child?_eq_some_iff.mpr ⟨e, he, hk⟩⟩

lemma get_of_lt (h : n < a.nodes.length) : ∃ e, a.nodes[n]? = some e :=
  ⟨_, List.getElem?_eq_getElem h⟩

lemma lt_of_get (h : a.nodes[n]? = some e) : n < a.nodes.length :=
  (List.getElem?_eq_some_iff.mp h).1

end

end Arena

/-! ## Children and parents -/

namespace Linked
open Arena

section
variable {a : Arena} {k k' n n' c : Nat} {e : Entry}

lemma child_lt (h : Linked a.nodes) (hc : a.child? n k = some (some c)) : c < n := by
  obtain ⟨e, he, hmem⟩ := mem_children hc
  exact h.below n e he c hmem

lemma parent?_child (h : Linked a.nodes) (hc : a.child? n k = some (some c)) : a.parent? c = some (some n) := by
  obtain ⟨e, he, hmem⟩ := mem_children hc
  obtain ⟨e', he', hparent⟩ := h.parent n e he c hmem
  rw [parent?, he', Option.bind_eq_bind, Option.bind_some, hparent]
  rfl

lemma child_unique (h : Linked a.nodes) (hc : a.child? n k = some (some c)) (hc' : a.child? n' k' = some (some c)) :
    n = n' ∧ k = k' := by
  have hparent := h.parent?_child hc
  rw [h.parent?_child hc', Option.some.injEq, Option.some.injEq] at hparent
  subst hparent
  obtain ⟨e, he, hk⟩ := child?_eq_some_iff.mp hc
  obtain ⟨e', he', hk'⟩ := child?_eq_some_iff.mp hc'
  rw [he, Option.some.injEq] at he'
  subst he'
  exact ⟨rfl, (List.getElem?_inj (List.getElem?_eq_some_iff.mp hk).1 (h.nodup n' e he)).mp (hk.trans hk'.symm)⟩

lemma siblings?_child (h : Linked a.nodes) (hc : a.child? n k = some (some c)) (he : a.nodes[n]? = some e) :
    a.siblings? c = some (some (k, e.children)) := by
  obtain ⟨e', he', hk⟩ := child?_eq_some_iff.mp hc
  rw [he, Option.some.injEq] at he'
  subst he'
  obtain ⟨hlt, rfl⟩ := List.getElem?_eq_some_iff.mp hk
  have hidx : e.children.idxOf? e.children[k] = some k := by
    rw [List.idxOf?_eq_some_iff]
    refine ⟨hlt, rfl, ?_⟩
    intro j hj heq
    exact absurd ((List.getElem_inj (h.nodup n e he)).mp heq) (Nat.ne_of_lt hj)
  rw [siblings?, h.parent?_child hc, Option.bind_eq_bind, Option.bind_some]
  dsimp only
  rw [he, Option.bind_eq_bind, Option.bind_some, hidx]
  rfl

end

end Linked

/-! ## Subtrees -/

namespace Arena

section
variable {a : Arena} {i j n m c d x : Nat} {is l : List Nat} {e : Entry}

lemma Within.trans (h : a.Within n m) (h' : a.Within m x) : a.Within n x := by
  induction h' with
  | refl => exact h
  | child _ get ih => exact ih.child get

lemma Within.cases_child (h : a.Within n m) : n = m ∨ ∃ k c, a.child? n k = some (some c) ∧ a.Within c m := by
  induction h with
  | refl => exact .inl rfl
  | @child m k c _ get ih =>
    rcases ih with rfl | ⟨k', c', hc', hwithin⟩
    · exact .inr ⟨k, c, get, .refl⟩
    · exact .inr ⟨k', c', hc', hwithin.child get⟩

lemma Within.cases_parent (h : a.Within n m) : n = m ∨ ∃ p k, a.Within n p ∧ a.child? p k = some (some m) := by
  cases h with
  | refl => exact .inl rfl
  | child above get => exact .inr ⟨_, _, above, get⟩

lemma Within.le (hlinked : Linked a.nodes) (h : a.Within n m) : m ≤ n := by
  induction h with
  | refl => exact Nat.le_refl _
  | child _ get ih => exact (hlinked.child_lt get).le.trans ih

lemma Within.lt_length (hlinked : Linked a.nodes) (h : a.Within n m) (hn : n < a.nodes.length) : m < a.nodes.length :=
  (h.le hlinked).trans_lt hn

lemma Within.comparable (hlinked : Linked a.nodes) (h : a.Within n x) (h' : a.Within m x) :
    a.Within n m ∨ a.Within m n := by
  induction h with
  | refl => exact .inr h'
  | @child y k c above get ih =>
    cases h' with
    | refl => exact .inl (above.child get)
    | child above' get' =>
      obtain ⟨rfl, -⟩ := hlinked.child_unique get get'
      exact ih above'

lemma not_within_sibling (hlinked : Linked a.nodes) (hc : a.child? n i = some (some c))
    (hd : a.child? n j = some (some d)) (hne : c ≠ d) : ¬a.Within c d := by
  intro h
  cases h with
  | refl => exact hne rfl
  | child above get =>
    obtain ⟨rfl, -⟩ := hlinked.child_unique get hd
    exact absurd (above.le hlinked) (Nat.not_le.mpr (hlinked.child_lt hc))

lemma Whole.root_lt (h : a.Whole) : a.root < a.nodes.length := by
  obtain ⟨e, he, -⟩ := Option.bind_eq_some_iff.mp h.root
  exact lt_of_get he

lemma Whole.child?_ne_root (h : a.Whole) {k : Nat} : a.child? n k ≠ some (some a.root) := by
  intro get
  have hparent := h.linked.parent?_child get
  rw [h.root] at hparent
  cases hparent

lemma Whole.within_iff (h : a.Whole) : a.Within a.root i ↔ i < a.nodes.length :=
  ⟨fun hwithin => hwithin.lt_length h.linked h.root_lt, h.reached i⟩

lemma Whole.eq_root (h : a.Whole) (hn : a.Within n a.root) : n = a.root := by
  rcases hn.cases_parent with rfl | ⟨p, k, -, get⟩
  · rfl
  · exact absurd get h.child?_ne_root

/-! ## Document order -/

lemma exists_preorder (hlinked : Linked a.nodes) (is : List Nat) (h : ∀ i ∈ is, i < a.nodes.length) :
    ∃ l, a.Preorder is l := by
  -- The children of a node are before it, so the induction is on a bound of the nodes.
  suffices hbound : ∀ b, b ≤ a.nodes.length → ∀ is, (∀ i ∈ is, i < b) → ∃ l, a.Preorder is l from
    hbound _ (Nat.le_refl _) is h
  intro b
  induction b using Nat.strong_induction_on with
  | _ b ih =>
    intro hb is
    induction is with
    | nil => exact fun _ => ⟨[], .nil⟩
    | cons i is ihrest =>
      intro his
      rw [List.forall_mem_cons] at his
      have hi := his.1.trans_le hb
      obtain ⟨e, he⟩ := get_of_lt hi
      obtain ⟨l, hl⟩ := ih i his.1 hi.le e.children (hlinked.below i e he)
      obtain ⟨l', hl'⟩ := ihrest his.2
      exact ⟨_, .cons he hl hl'⟩

lemma Preorder.mem_iff (h : a.Preorder is l) : x ∈ l ↔ ∃ i ∈ is, a.Within i x := by
  induction h with
  | nil => simp
  | @cons i is l l' e get below rest ih ih' =>
    rw [List.cons_append, List.mem_cons, List.mem_append, ih, ih', List.exists_mem_cons_iff]
    constructor
    · rintro (rfl | ⟨c, hc, hwithin⟩ | hrest)
      · exact .inl .refl
      · obtain ⟨k, hk⟩ := exists_child get hc
        exact .inl ((Within.refl.child hk).trans hwithin)
      · exact .inr hrest
    · rintro (hwithin | hrest)
      · rcases hwithin.cases_child with rfl | ⟨k, c, hc, hwithin⟩
        · exact .inl rfl
        · obtain ⟨e', he', hmem⟩ := mem_children hc
          rw [get, Option.some.injEq] at he'
          exact .inr (.inl ⟨c, he' ▸ hmem, hwithin⟩)
      · exact .inr (.inr hrest)

/-- Subtrees that are apart have no node in common. -/
lemma Preorder.nodup (hlinked : Linked a.nodes) (h : a.Preorder is l)
    (hapart : is.Pairwise fun i j => ¬a.Within i j ∧ ¬a.Within j i) : l.Nodup := by
  induction h with
  | nil => exact List.nodup_nil
  | @cons i is l l' e get below rest ih ih' =>
    rw [List.pairwise_cons] at hapart
    have hsiblings : e.children.Pairwise fun i j => ¬a.Within i j ∧ ¬a.Within j i := by
      refine (hlinked.nodup i e get).imp_of_mem ?_
      intro c d hc hd hne
      obtain ⟨k, hk⟩ := exists_child get hc
      obtain ⟨k', hk'⟩ := exists_child get hd
      exact ⟨not_within_sibling hlinked hk hk' hne, not_within_sibling hlinked hk' hk hne.symm⟩
    have hdeeper : ∀ x ∈ l, a.Within i x ∧ x < i := by
      intro x hx
      obtain ⟨c, hc, hwithin⟩ := below.mem_iff.mp hx
      obtain ⟨k, hk⟩ := exists_child get hc
      exact ⟨(Within.refl.child hk).trans hwithin, (hwithin.le hlinked).trans_lt (hlinked.child_lt hk)⟩
    have hother : ∀ x ∈ l', ¬a.Within i x := by
      intro x hx hwithin
      obtain ⟨j, hj, hwithin'⟩ := rest.mem_iff.mp hx
      rcases hwithin.comparable hlinked hwithin' with hij | hji
      · exact (hapart.1 j hj).1 hij
      · exact (hapart.1 j hj).2 hji
    rw [List.cons_append, List.nodup_cons, List.mem_append, not_or, List.nodup_append']
    refine ⟨⟨fun hi => absurd (hdeeper i hi).2 (Nat.lt_irrefl i), fun hi => hother i hi .refl⟩, ih hsiblings,
      ih' hapart.2, ?_⟩
    intro x hx hx'
    exact hother x hx' (hdeeper x hx).1

lemma Preorder.nodup_single (hlinked : Linked a.nodes) (h : a.Preorder [n] l) : l.Nodup :=
  h.nodup hlinked (List.pairwise_singleton _ _)

lemma Preorder.mem_single (h : a.Preorder [n] l) : x ∈ l ↔ a.Within n x := by
  rw [h.mem_iff, List.exists_mem_cons_iff]
  simp

lemma Preorder.subset_range (hlinked : Linked a.nodes) (h : a.Preorder [n] l) (hn : n < a.nodes.length) :
    l ⊆ List.range a.nodes.length := by
  intro x hx
  exact List.mem_range.mpr ((h.mem_single.mp hx).lt_length hlinked hn)

lemma Whole.preorder_perm (h : a.Whole) (hl : a.Preorder [a.root] l) : l.Perm (List.range a.nodes.length) := by
  rw [List.perm_ext_iff_of_nodup (hl.nodup_single h.linked) List.nodup_range]
  intro i
  rw [hl.mem_single, h.within_iff, List.mem_range]

/-! ## Nodes of a tree -/

lemma Holds.get {table : LineTable} {m : Node} (h : a.Holds table i m) :
    ∃ e, a.nodes[i]? = some e ∧ e.kind = m.kind ∧ e.span = m.span := by
  obtain ⟨parent, field, hdenotes⟩ := h
  obtain ⟨is, hget⟩ := hdenotes.get
  exact ⟨_, hget, rfl, rfl⟩

lemma Holds.children {table : LineTable} {m : Node} (h : a.Holds table i m) (he : a.nodes[i]? = some e) :
    List.Forall₂ (a.Holds table) e.children m.children := by
  obtain ⟨parent, field, hentry, hlength, hchildren⟩ := h
  rw [he, Option.some.injEq] at hentry
  subst hentry
  rw [List.forall₂_iff_get]
  refine ⟨hlength, fun k hk hk' => ⟨_, _, hchildren k _ _ (List.getElem?_eq_getElem hk) (List.getElem?_eq_getElem hk')⟩⟩

lemma Preorder.holds {table : LineTable} {ns : List Node} (h : a.Preorder is l)
    (hholds : List.Forall₂ (a.Holds table) is ns) : List.Forall₂ (a.Holds table) l (Node.preorderAll ns) := by
  induction h generalizing ns with
  | nil =>
    cases hholds
    exact .nil
  | @cons i is l l' e get below rest ih ih' =>
    obtain _ | @⟨_, n, _, ns, hn, hns⟩ := hholds
    rw [Node.preorderAll, Node.preorder_eq, ← Node.preorderAll_eq]
    exact List.rel_append (.cons hn (ih (hn.children get))) (ih' hns)

lemma within_of_length (hlinked : Linked a.nodes) {table : LineTable} {n : Node}
    (hdenotes : Denotes table a.nodes none none a.root n) (hlength : a.nodes.length = n.preorder.length)
    (hi : i < a.nodes.length) : a.Within a.root i := by
  obtain ⟨is, hroot⟩ := hdenotes.get
  obtain ⟨l, hl⟩ := exists_preorder hlinked [a.root] (by simpa using lt_of_get hroot)
  have hcount := (hl.holds (.cons ⟨none, none, hdenotes⟩ .nil)).length_eq
  rw [Node.preorderAll_eq, List.flatMap_singleton, ← hlength] at hcount
  have hsubset := hl.subset_range hlinked (lt_of_get hroot)
  have hperm : l.Perm (List.range a.nodes.length) :=
    ((hl.nodup_single hlinked).subperm hsubset).perm_of_length_le (by rw [List.length_range, hcount])
  exact hl.mem_single.mp (hperm.mem_iff.mpr (List.mem_range.mpr hi))

end

/-- The entries are those of the nodes of a tree, one for each node. -/
structure Represents (a : Arena) (t : Tree) : Prop extends a.Whole where
  denotes : Denotes (.ofText t.text.toList) a.nodes none none a.root t.root

lemma Represents.length_preorder {a : Arena} {t : Tree} (h : a.Represents t) :
    t.root.preorder.length = a.nodes.length := by
  obtain ⟨l, hl⟩ := exists_preorder h.linked [a.root] (by simpa using h.root_lt)
  have hholds := hl.holds (.cons ⟨none, none, h.denotes⟩ .nil)
  rw [Node.preorderAll_eq, List.flatMap_singleton] at hholds
  rw [← hholds.length_eq, (h.preorder_perm hl).length_eq, List.length_range]

end Arena

/-- A descent leaves the entries of the tree of the text behind, whatever it has rolled back. -/
theorem Descent.parse_represents (text : String) :
    ∃ r, parse text.toList = some r ∧ r.arena.Represents (Tree.parse text) := by
  obtain ⟨r, hparse, hlinked, hdenotes, hlength⟩ := parse_linked text.toList
  refine ⟨r, hparse, ⟨⟨hlinked, ?_, fun i hi => Arena.within_of_length hlinked hdenotes hlength hi⟩, hdenotes⟩⟩
  obtain ⟨is, hroot⟩ := hdenotes.get
  change r.arena.nodes[r.arena.root]? = _ at hroot
  rw [Arena.parent?, hroot]
  rfl

end RenpyScript
