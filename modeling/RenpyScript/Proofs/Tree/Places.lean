import Mathlib.Data.Set.Card
import RenpyScript.Proofs.Tree.Placement
import RenpyScript.Tree.Place

/-!
# Places of a tree

A node may occur in a tree more than once, so what is counted are the places that can be reached
from the root. A place other than the root is a child of one place only, the one above it.
-/

namespace RenpyScript

namespace Place

/-- The places that can be reached from a place by going down. -/
def below (p : Place) : Set Place :=
  {q | ∃ path, p.descend? path = some q}

section
variable {p q : Place} {i : Nat}

lemma child?_eq_some_iff : p.child? i = some q ↔
    p.node.children[i]? = some q.node ∧ q.above = (p.node, i) :: p.above := by
  obtain ⟨n, above⟩ := q
  unfold child?
  rw [Option.map_eq_some_iff]
  constructor
  · rintro ⟨c, hc, heq⟩
    obtain ⟨rfl, rfl⟩ := Place.mk.inj heq
    exact ⟨hc, rfl⟩
  · rintro ⟨hc, habove⟩
    obtain rfl : above = (p.node, i) :: p.above := habove
    exact ⟨n, hc, rfl⟩

lemma descend?_concat (p : Place) (path : List Nat) (i : Nat) :
    p.descend? (path ++ [i]) = (p.descend? path).bind fun q => q.child? i := by
  induction path generalizing p with
  | nil => simp [descend?]
  | cons j path ih =>
    rw [List.cons_append, descend?, descend?, Option.bind_assoc]
    congr
    funext c
    exact ih c

lemma descend?_above {path : List Nat} (h : p.descend? path = some q) : p.above <:+ q.above := by
  induction path generalizing p with
  | nil =>
    rw [descend?, Option.some.injEq] at h
    rw [h]
  | cons i path ih =>
    rw [descend?, Option.bind_eq_some_iff] at h
    obtain ⟨c, hc, hq⟩ := h
    obtain ⟨-, habove⟩ := child?_eq_some_iff.mp hc
    exact (habove ▸ List.suffix_cons (p.node, i) p.above).trans (ih hq)

lemma above_of_mem_below (h : q ∈ p.below) : p.above <:+ q.above := by
  obtain ⟨path, hpath⟩ := h
  exact descend?_above hpath

lemma parent?_of_child? (h : p.child? i = some q) : q.parent? = some p := by
  obtain ⟨-, habove⟩ := child?_eq_some_iff.mp h
  rw [parent?, habove]

lemma exists_unique_parent {n : Node} (hq : q ∈ (root n).below) (hroot : q ≠ root n) :
    ∃ p ∈ (root n).below, q.parent? = some p ∧
      ∃ i, ∀ p' i', p'.child? i' = some q ↔ p' = p ∧ i' = i := by
  obtain ⟨path, hpath⟩ := hq
  rcases List.eq_nil_or_concat path with rfl | ⟨init, i, rfl⟩
  · rw [descend?, Option.some.injEq] at hpath
    exact absurd hpath.symm hroot
  · rw [List.concat_eq_append, descend?_concat, Option.bind_eq_some_iff] at hpath
    obtain ⟨p, hp, hchild⟩ := hpath
    refine ⟨p, ⟨init, hp⟩, parent?_of_child? hchild, i, fun p' i' => ⟨fun h => ?_, ?_⟩⟩
    · obtain ⟨-, habove⟩ := child?_eq_some_iff.mp hchild
      obtain ⟨-, habove'⟩ := child?_eq_some_iff.mp h
      have hp' := parent?_of_child? h
      rw [parent?_of_child? hchild, Option.some.injEq] at hp'
      rw [habove, List.cons.injEq, Prod.mk.injEq] at habove'
      exact ⟨hp'.symm, habove'.1.2.symm⟩
    · rintro ⟨rfl, rfl⟩
      exact hchild

end

/-! ## Counting places -/

mutual
/-- The places of the subtree, each before its children. -/
def preorderFrom (above : List (Node × Nat)) : Node → List Place
  | ⟨field, kind, span, missing, children⟩ =>
    let n : Node := ⟨field, kind, span, missing, children⟩
    ⟨n, above⟩ :: preorderAmong n above 0 children

/-- The places of the subtrees of the children from index `i` on. -/
def preorderAmong (parent : Node) (above : List (Node × Nat)) (i : Nat) : List Node → List Place
  | [] => []
  | c :: cs => preorderFrom ((parent, i) :: above) c ++ preorderAmong parent above (i + 1) cs
end

lemma preorderFrom_eq (above : List (Node × Nat)) (n : Node) :
    preorderFrom above n = ⟨n, above⟩ :: preorderAmong n above 0 n.children := by
  obtain ⟨field, kind, span, missing, children⟩ := n
  rw [preorderFrom]

mutual
theorem length_preorderFrom (above : List (Node × Nat)) :
    ∀ n : Node, (preorderFrom above n).length = n.count
  | ⟨field, kind, span, missing, children⟩ => by
    rw [preorderFrom, Node.count, List.length_cons, length_preorderAmong, Nat.add_comm]

theorem length_preorderAmong (parent : Node) (above : List (Node × Nat)) (i : Nat) :
    ∀ ns : List Node, (preorderAmong parent above i ns).length = Node.countAll ns
  | [] => by rw [preorderAmong, Node.countAll, List.length_nil]
  | n :: ns => by
    rw [preorderAmong, Node.countAll, List.length_append, length_preorderFrom, length_preorderAmong]
end

mutual
theorem map_node_preorderFrom (above : List (Node × Nat)) :
    ∀ n : Node, (preorderFrom above n).map (·.node) = n.preorder
  | ⟨field, kind, span, missing, children⟩ => by
    rw [preorderFrom, Node.preorder, List.map_cons, map_node_preorderAmong]

theorem map_node_preorderAmong (parent : Node) (above : List (Node × Nat)) (i : Nat) :
    ∀ ns : List Node, (preorderAmong parent above i ns).map (·.node) = Node.preorderAll ns
  | [] => by rw [preorderAmong, Node.preorderAll, List.map_nil]
  | n :: ns => by
    rw [preorderAmong, Node.preorderAll, List.map_append, map_node_preorderFrom, map_node_preorderAmong]
end

lemma mem_preorderAmong {parent : Node} {above : List (Node × Nat)} {q : Place} {ns : List Node}
    {i : Nat} : q ∈ preorderAmong parent above i ns ↔
      ∃ j c, ns[j]? = some c ∧ q ∈ preorderFrom ((parent, i + j) :: above) c := by
  induction ns generalizing i with
  | nil => simp [preorderAmong]
  | cons n ns ih =>
    rw [preorderAmong, List.mem_append, ih]
    constructor
    · rintro (hq | ⟨j, c, hc, hq⟩)
      · exact ⟨0, n, rfl, hq⟩
      · refine ⟨j + 1, c, hc, ?_⟩
        rwa [Nat.add_right_comm] at hq
    · rintro ⟨_ | j, c, hc, hq⟩
      · obtain rfl : n = c := by simpa using hc
        exact Or.inl hq
      · refine Or.inr ⟨j, c, hc, ?_⟩
        rwa [Nat.add_right_comm]

lemma mem_preorderFrom {above : List (Node × Nat)} {q : Place} {n : Node} :
    q ∈ preorderFrom above n ↔ q ∈ below ⟨n, above⟩ := by
  induction n using Node.childInduction generalizing above with
  | step n ih =>
    rw [preorderFrom_eq, List.mem_cons, mem_preorderAmong]
    constructor
    · rintro (rfl | ⟨j, c, hc, hq⟩)
      · exact ⟨[], rfl⟩
      · obtain ⟨path, hpath⟩ := (ih c (List.mem_of_getElem? hc)).mp hq
        rw [Nat.zero_add] at hpath
        refine ⟨j :: path, ?_⟩
        rwa [descend?, child?, hc, Option.map_some, Option.bind_some]
    · rintro ⟨_ | ⟨j, path⟩, hpath⟩
      · exact Or.inl (by simpa [descend?] using hpath.symm)
      · rw [descend?, Option.bind_eq_some_iff] at hpath
        obtain ⟨c, hc, hq⟩ := hpath
        obtain ⟨hmem, habove⟩ := child?_eq_some_iff.mp hc
        obtain ⟨m, mabove⟩ := c
        obtain rfl : mabove = (n, j) :: above := habove
        refine Or.inr ⟨j, m, hmem, ?_⟩
        rw [Nat.zero_add]
        exact (ih m (List.mem_of_getElem? hmem)).mpr ⟨path, hq⟩

lemma nodup_preorderAmong {parent : Node} {above : List (Node × Nat)} {ns : List Node} (i : Nat)
    (h : ∀ n ∈ ns, ∀ above, (preorderFrom above n).Nodup) : (preorderAmong parent above i ns).Nodup := by
  induction ns generalizing i with
  | nil =>
    rw [preorderAmong]
    exact List.nodup_nil
  | cons n ns ih =>
    rw [preorderAmong, List.nodup_append']
    refine ⟨h n (by simp) _, ih (i + 1) (fun m hm => h m (List.mem_cons_of_mem n hm)), ?_⟩
    intro q hq hq'
    obtain ⟨j, c, -, hqc⟩ := mem_preorderAmong.mp hq'
    have hsuffix := above_of_mem_below (mem_preorderFrom.mp hq)
    have hsuffix' := above_of_mem_below (mem_preorderFrom.mp hqc)
    have hsame := (List.suffix_of_suffix_length_le hsuffix hsuffix' (by simp)).eq_of_length (by simp)
    have hindex : i = i + 1 + j := by simpa using hsame
    omega

lemma nodup_preorderFrom (above : List (Node × Nat)) (n : Node) : (preorderFrom above n).Nodup := by
  induction n using Node.childInduction generalizing above with
  | step n ih =>
    rw [preorderFrom_eq, List.nodup_cons]
    refine ⟨fun hself => ?_, nodup_preorderAmong 0 ih⟩
    obtain ⟨j, c, -, hq⟩ := mem_preorderAmong.mp hself
    have hlength := (above_of_mem_below (mem_preorderFrom.mp hq)).length_le
    simp at hlength

/-- There are as many places below a root as the tree has nodes. -/
theorem ncard_below (n : Node) : (root n).below.ncard = n.count := by
  classical
  have hset : (root n).below = ((preorderFrom [] n).toFinset : Set Place) := by
    ext q
    rw [List.coe_toFinset]
    exact mem_preorderFrom.symm
  rw [hset, Set.ncard_coe_finset, List.toFinset_card_of_nodup (nodup_preorderFrom [] n),
    length_preorderFrom]

lemma node_mem_preorder {p q : Place} (h : q ∈ p.below) : q.node ∈ p.node.preorder := by
  obtain ⟨path, hpath⟩ := h
  induction path generalizing p with
  | nil =>
    rw [descend?, Option.some.injEq] at hpath
    rw [← hpath, Node.preorder_eq]
    exact List.mem_cons_self
  | cons i path ih =>
    rw [descend?, Option.bind_eq_some_iff] at hpath
    obtain ⟨c, hc, hq⟩ := hpath
    obtain ⟨hmem, -⟩ := child?_eq_some_iff.mp hc
    rw [Node.preorder_eq]
    exact List.mem_cons_of_mem _ (List.mem_flatMap.mpr ⟨c.node, List.mem_of_getElem? hmem, ih hq⟩)

end Place

lemma Node.length_preorder (n : Node) : n.preorder.length = n.count := by
  rw [← Place.map_node_preorderFrom [], List.length_map, Place.length_preorderFrom]

end RenpyScript
