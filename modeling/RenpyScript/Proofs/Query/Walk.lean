import Mathlib.Data.List.Sort
import RenpyScript.Proofs.Tree.Places
import RenpyScript.Query.Walk

/-!
# What a query finds

The cursor of a query moves between siblings and up and down, and skips the subtrees of nodes that lie outside
the range. `Cursor.keptFrom` lists the nodes that are still to come at any point of the walk: a move of the
cursor takes the first of them away and leaves the others as they are. So the matches are found at the places of
the subtree in document order, and captures are these matches' captures in a stable order.
-/

namespace RenpyScript

namespace Node

mutual
/-- The nodes of a subtree in document order, without the subtrees of nodes that `keep` refuses. -/
def preorderWhere (keep : Node → Bool) : Node → List Node
  | ⟨field, kind, span, missing, children⟩ =>
    let n : Node := ⟨field, kind, span, missing, children⟩
    if keep n then n :: preorderAllWhere keep children else []

/-- The nodes of several subtrees, as in `preorderWhere`. -/
def preorderAllWhere (keep : Node → Bool) : List Node → List Node
  | [] => []
  | n :: ns => n.preorderWhere keep ++ preorderAllWhere keep ns
end

section
variable {keep : Node → Bool} {n : Node}

lemma preorderWhere_eq (keep : Node → Bool) (n : Node) :
    n.preorderWhere keep = if keep n then n :: preorderAllWhere keep n.children else [] := by
  obtain ⟨field, kind, span, missing, children⟩ := n
  rw [preorderWhere]

lemma preorderWhere_of_not_keep (h : ¬keep n = true) : n.preorderWhere keep = [] := by
  rw [preorderWhere_eq, if_neg h]

lemma preorderAllWhere_drop {ns : List Node} {i : Nat} (h : ns[i]? = some n) :
    preorderAllWhere keep (ns.drop i) =
      n.preorderWhere keep ++ preorderAllWhere keep (ns.drop (i + 1)) := by
  obtain ⟨hi, hn⟩ := List.getElem?_eq_some_iff.mp h
  rw [List.drop_eq_getElem_cons hi, preorderAllWhere, hn]

lemma preorderAllWhere_drop_of_none {ns : List Node} {i : Nat} (h : ns[i]? = none) :
    preorderAllWhere keep (ns.drop i) = [] := by
  rw [List.drop_eq_nil_of_le (List.getElem?_eq_none_iff.mp h), preorderAllWhere]

end

end Node

/-! ## The nodes still to come -/

namespace Cursor

/-- The nodes to come to behind the subtree of the last node of a trail: later siblings of that node and of the
nodes above it, with what is below them. -/
def keptBehind (keep : Node → Bool) (start : Node) : List (Node × Nat) → List Node
  | [] => []
  | (_, i) :: up =>
    Node.preorderAllWhere keep ((endOf start up).children.drop (i + 1)) ++ keptBehind keep start up

/-- The nodes to come to from the current node on. -/
def keptFrom (keep : Node → Bool) (c : Cursor) : List Node :=
  c.node.preorderWhere keep ++ keptBehind keep c.start c.trail

section
variable {keep : Node → Bool} {c d p : Cursor}

lemma keptFrom_nextSibling? (h : c.nextSibling? = some d) :
    d.keptFrom keep = keptBehind keep c.start c.trail := by
  obtain ⟨start, trail⟩ := c
  cases trail with
  | nil => simp [nextSibling?] at h
  | cons step up =>
    rw [nextSibling?, Option.map_eq_some_iff] at h
    obtain ⟨n, hn, rfl⟩ := h
    have hsibling : (endOf start up).children[step.2 + 1]? = some n := hn
    rw [keptBehind, Node.preorderAllWhere_drop hsibling, List.append_assoc]
    rfl

lemma keptBehind_parent? (hnext : c.nextSibling? = none) (h : c.parent? = some p) :
    keptBehind keep p.start p.trail = keptBehind keep c.start c.trail := by
  obtain ⟨start, trail⟩ := c
  cases trail with
  | nil => simp [parent?] at h
  | cons step up =>
    rw [nextSibling?, Option.map_eq_none_iff] at hnext
    rw [parent?, Option.some.injEq] at h
    rw [← h, keptBehind, Node.preorderAllWhere_drop_of_none hnext, List.nil_append]

lemma keptBehind_of_parent?_none (h : c.parent? = none) : keptBehind keep c.start c.trail = [] := by
  obtain ⟨start, trail⟩ := c
  cases trail with
  | nil => rfl
  | cons step up => simp [parent?] at h

lemma keptFrom_firstChild? (h : c.firstChild? = some d) (hc : keep c.node = true) :
    c.keptFrom keep = c.node :: d.keptFrom keep := by
  rw [firstChild?, Option.map_eq_some_iff] at h
  obtain ⟨n, hn, rfl⟩ := h
  have hchild : c.node.children[0]? = some n := List.head?_eq_getElem? ▸ hn
  rw [keptFrom, Node.preorderWhere_eq, if_pos hc, ← c.node.children.drop_zero,
    Node.preorderAllWhere_drop hchild, List.cons_append, List.append_assoc]
  rfl

lemma keptFrom_of_firstChild?_none (h : c.firstChild? = none) (hc : keep c.node = true) :
    c.keptFrom keep = c.node :: keptBehind keep c.start c.trail := by
  rw [firstChild?, Option.map_eq_none_iff, List.head?_eq_none_iff] at h
  rw [keptFrom, Node.preorderWhere_eq, if_pos hc, h, Node.preorderAllWhere, List.cons_append,
    List.nil_append]

lemma keptFrom_acrossWhere? (keep : Node → Bool) (c : Cursor) :
    (c.acrossWhere? keep).elim [] (keptFrom keep) = keptBehind keep c.start c.trail := by
  fun_induction acrossWhere? keep c with
  | case1 c d hnext hkeep => exact keptFrom_nextSibling? hnext
  | case2 c d hnext hkeep ih =>
    rw [ih, ← keptFrom_nextSibling? hnext, keptFrom, Node.preorderWhere_of_not_keep hkeep,
      List.nil_append]
  | case3 c hnext p hup ih => rw [ih, keptBehind_parent? hnext hup]
  | case4 c hnext hup => exact (keptBehind_of_parent?_none hup).symm

lemma keep_of_acrossWhere? (h : c.acrossWhere? keep = some d) : keep d.node = true := by
  fun_induction acrossWhere? keep c with
  | case1 c e hnext hkeep =>
    obtain rfl : e = d := Option.some.inj h
    exact hkeep
  | case2 c e hnext hkeep ih => exact ih h
  | case3 c hnext p hup ih => exact ih h
  | case4 => exact absurd h (by simp)

lemma keptFrom_nextWhere? (hc : keep c.node = true) :
    c.keptFrom keep = c.node :: (c.nextWhere? keep).elim [] (keptFrom keep) := by
  rw [nextWhere?]
  cases hfirst : c.firstChild? with
  | none =>
    rw [keptFrom_acrossWhere?]
    exact keptFrom_of_firstChild?_none hfirst hc
  | some d =>
    rw [keptFrom_firstChild? hfirst hc]
    dsimp only
    by_cases hd : keep d.node = true
    · rw [if_pos hd, Option.elim_some]
    · rw [if_neg hd, keptFrom_acrossWhere?, keptFrom, Node.preorderWhere_of_not_keep hd, List.nil_append]

lemma keep_of_nextWhere? (h : c.nextWhere? keep = some d) : keep d.node = true := by
  rw [nextWhere?] at h
  split at h
  next e hfirst =>
    split at h
    · obtain rfl : e = d := Option.some.inj h
      assumption
    · exact keep_of_acrossWhere? h
  next => exact keep_of_acrossWhere? h

end

end Cursor

namespace Query

variable [RegexEngine]

lemma collect_eq (q : Query) (source : ByteArray) (range : Option Span) (found : List Match) (c : Cursor)
    (hc : c.node.intersects range = true) : q.collect source range found c =
      found ++ (c.keptFrom (·.intersects range)).flatMap (q.matchesAt source) := by
  fun_induction collect q source range found c with
  | case1 found c found' d hnext ih =>
    rw [ih (Cursor.keep_of_nextWhere? hnext), Cursor.keptFrom_nextWhere? hc, hnext, Option.elim_some,
      List.flatMap_cons, List.append_assoc]
  | case2 found c found' hnext =>
    rw [Cursor.keptFrom_nextWhere? hc, hnext, Option.elim_none, List.flatMap_cons, List.flatMap_nil,
      List.append_nil]

lemma matchesIn_eq (q : Query) (source : ByteArray) (range : Option Span) (n : Node) :
    q.matchesIn source range n = (n.preorderWhere (·.intersects range)).flatMap (q.matchesAt source) := by
  rw [matchesIn]
  by_cases hn : n.intersects range = true
  · rw [if_pos hn, collect_eq q source range [] (Cursor.on n) hn, List.nil_append]
    simp only [Cursor.keptFrom, Cursor.on, Cursor.node, Cursor.endOf, Cursor.keptBehind, List.append_nil]
  · rw [if_neg hn, Node.preorderWhere_eq, if_neg hn, List.flatMap_nil]

end Query

/-! ## Places -/

namespace Place

/-- Whether `keep` accepts the node and all nodes above it. -/
def kept (keep : Node → Bool) (p : Place) : Bool :=
  keep p.node && p.above.all fun a => keep a.1

section
variable (keep : Node → Bool)

lemma filter_kept_preorderAmong (parent : Node) (above : List (Node × Nat)) (i : Nat) (ns : List Node)
    (h : ∀ n ∈ ns, ∀ above, ((preorderFrom above n).filter (kept keep)).map (·.node) =
      if above.all (fun a => keep a.1) then n.preorderWhere keep else []) :
    ((preorderAmong parent above i ns).filter (kept keep)).map (·.node) =
      if keep parent && above.all (fun a => keep a.1) then Node.preorderAllWhere keep ns else [] := by
  induction ns generalizing i with
  | nil => simp [preorderAmong, Node.preorderAllWhere]
  | cons n ns ih =>
    rw [preorderAmong, List.filter_append, List.map_append, h n (by simp),
      ih (i + 1) (fun m hm => h m (List.mem_cons_of_mem n hm)), List.all_cons, Node.preorderAllWhere]
    split
    · rfl
    · rw [List.append_nil]

lemma filter_kept_preorderFrom (above : List (Node × Nat)) (n : Node) :
    ((preorderFrom above n).filter (kept keep)).map (·.node) =
      if above.all (fun a => keep a.1) then n.preorderWhere keep else [] := by
  induction n using Node.childInduction generalizing above with
  | step n ih =>
    rw [preorderFrom_eq, List.filter_cons, kept, apply_ite (List.map _), List.map_cons,
      filter_kept_preorderAmong keep n above 0 n.children ih, Node.preorderWhere_eq]
    cases keep n <;> cases above.all fun a => keep a.1 <;> rfl

end

end Place

namespace Query

section
variable [RegexEngine]

/-- The matches in a subtree, each with the place of the node it was matched at. -/
def placedMatches (q : Query) (source : ByteArray) (n : Node) : List (Place × Match) :=
  (Place.preorderFrom [] n).flatMap fun p => (q.matchesAt source p.node).map (p, ·)

lemma mem_placedMatches {q : Query} {source : ByteArray} {n : Node} {x : Place × Match}
    (h : x ∈ q.placedMatches source n) : x.1 ∈ (Place.root n).below := by
  obtain ⟨p, hp, hx⟩ := List.mem_flatMap.mp h
  obtain ⟨m, -, rfl⟩ := List.mem_map.mp hx
  exact Place.mem_preorderFrom.mp hp

lemma filter_placedMatches (q : Query) (source : ByteArray) (n : Node) (keep : Place → Bool) :
    ((q.placedMatches source n).filter fun x => keep x.1).map (·.2) =
      (((Place.preorderFrom [] n).filter keep).map (·.node)).flatMap (q.matchesAt source) := by
  rw [placedMatches]
  induction Place.preorderFrom [] n with
  | nil => rfl
  | cons p ps ih =>
    rw [List.flatMap_cons, List.filter_append, List.map_append, ih, List.filter_map, List.filter_cons]
    cases hkeep : keep p with
    | false => simp [hkeep, Function.comp_def]
    | true => simp [hkeep, Function.comp_def]

lemma matchesIn_eq_filter (q : Query) (source : ByteArray) (range : Option Span) (n : Node) :
    q.matchesIn source range n =
      ((q.placedMatches source n).filter fun x => x.1.kept (·.intersects range)).map (·.2) := by
  rw [filter_placedMatches, Place.filter_kept_preorderFrom, List.all_nil, if_pos rfl, matchesIn_eq]

lemma matchesIn_none (q : Query) (source : ByteArray) (n : Node) :
    q.matchesIn source none n = (q.placedMatches source n).map (·.2) := by
  rw [matchesIn_eq_filter, List.filter_eq_self.mpr]
  intro x hx
  rw [Place.kept, Bool.and_eq_true_iff, List.all_eq_true]
  exact ⟨rfl, fun a ha => rfl⟩

end

/-- The captures of matches, each as its match, its position in the match and the capture itself. -/
def positions (ms : List Match) : List (Match × Nat × Capture) :=
  ms.flatMap fun m => m.captures.zipIdx.map fun c => (m, c.2, c.1)

end Query

/-- `ys` are the `xs` in the order of their keys, and those with one key as they were. -/
structure StableSort {α : Type} (key : α → Nat) (xs ys : List α) : Prop where
  perm : ys.Perm xs
  sorted : ys.Pairwise fun a b => key a ≤ key b
  stable : ∀ k, (ys.filter fun a => key a = k) = xs.filter fun a => key a = k

lemma stableSort_mergeSort {α : Type} (key : α → Nat) (xs : List α) :
    StableSort key xs (xs.mergeSort fun a b => key a ≤ key b) := by
  have htrans : ∀ a b c : α, decide (key a ≤ key b) = true → decide (key b ≤ key c) = true →
      decide (key a ≤ key c) = true := by
    intro a b c hab hbc
    simp only [decide_eq_true_eq] at hab hbc ⊢
    exact hab.trans hbc
  have htotal : ∀ a b : α, (decide (key a ≤ key b) || decide (key b ≤ key a)) = true := by
    intro a b
    simpa using Nat.le_total (key a) (key b)
  have hperm := List.mergeSort_perm xs fun a b => key a ≤ key b
  refine ⟨hperm, ?_, fun k => ?_⟩
  · exact (List.pairwise_mergeSort htrans htotal xs).imp of_decide_eq_true
  · have hequal : (xs.filter fun a => key a = k).Pairwise fun a b => decide (key a ≤ key b) = true := by
      rw [List.pairwise_filter]
      exact List.pairwise_of_forall_mem_list fun a _ b _ ha hb => by simp_all
    -- The elements of one key are a sublist of the sorted list, and there are as many of them in both.
    have hsub := (List.sublist_mergeSort htrans htotal hequal List.filter_sublist).filter
      fun a => decide (key a = k)
    rw [List.filter_filter] at hsub
    simp only [Bool.and_self] at hsub
    exact (hsub.eq_of_length ((hperm.filter _).length_eq.symm)).symm

namespace Query

/-- A query without a range finds what its patterns find at each place of the subtree, once, in document order
and then in the order of the patterns. Its captures are in the order in which they begin. -/
theorem matches_unrestricted [RegexEngine] (q : Query) (source : ByteArray) (n : Node) :
    (q.matchesIn source none n = (Place.preorderFrom [] n).flatMap fun p =>
      q.patterns.zipIdx.flatMap fun pattern =>
        ((if pattern.1.root.role.fits p.node then pattern.1.root.solutions p.node else []).filter
          fun captures => pattern.1.predicates.all (·.holds source captures)).map (⟨pattern.2, ·⟩)) ∧
    (Place.preorderFrom [] n).Nodup ∧
    (∀ p, p ∈ Place.preorderFrom [] n ↔ p ∈ (Place.root n).below) ∧
    (Place.preorderFrom [] n).map (·.node) = n.preorder ∧
    StableSort (fun x => x.2.2.node.span.start) (positions (q.matchesIn source none n))
      (q.capturesIn source none n) := by
  refine ⟨?_, Place.nodup_preorderFrom [] n, fun p => Place.mem_preorderFrom,
    Place.map_node_preorderFrom [] n, stableSort_mergeSort _ _⟩
  rw [matchesIn_none, placedMatches, List.map_flatMap]
  congr
  funext p
  rw [List.map_map, matchesAt]
  simp only [Function.comp_def, List.map_id']
  congr
  funext pattern
  rw [QueryPattern.matchesAt]
  split
  · rfl
  · rw [List.filter_nil]

end Query

end RenpyScript
