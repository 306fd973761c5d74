import RenpyScript.Proofs.Query.Walk
import RenpyScript.Proofs.Tree.WellFormed
import RenpyScript.Regex.Engine

/-!
# Queries in a range

A range leaves the matches at nodes that lie in it, for the nodes above such a node lie in it too. The exception
are empty nodes where the range begins: a node above that is not empty may end there, so that the walk does not
come to them.
-/

namespace RenpyScript

namespace Place

def Enclosed (p : Place) : Prop :=
  ∀ a ∈ p.above, a.1.span.start ≤ p.node.span.start ∧ p.node.span.stop ≤ a.1.span.stop

section
variable {text : List Char} {p q : Place} {i : Nat}

lemma Enclosed.child? (hp : p.Enclosed) (htext : p.node.InText text) (h : p.child? i = some q) :
    q.Enclosed := by
  obtain ⟨hmem, habove⟩ := child?_eq_some_iff.mp h
  have hnested := htext.nested q.node (List.mem_of_getElem? hmem)
  intro a ha
  rw [habove] at ha
  rcases List.mem_cons.mp ha with rfl | ha
  · exact hnested
  · exact ⟨(hp a ha).1.trans hnested.1, hnested.2.trans (hp a ha).2⟩

lemma Enclosed.descend? {path : List Nat} (hp : p.Enclosed)
    (htext : ∀ n ∈ p.node.preorder, n.InText text) (h : p.descend? path = some q) : q.Enclosed := by
  induction path generalizing p with
  | nil =>
    rw [Place.descend?, Option.some.injEq] at h
    rwa [← h]
  | cons i path ih =>
    rw [Place.descend?, Option.bind_eq_some_iff] at h
    obtain ⟨c, hc, hq⟩ := h
    obtain ⟨hmem, -⟩ := child?_eq_some_iff.mp hc
    rw [Node.preorder_eq] at htext
    apply ih (hp.child? (htext p.node List.mem_cons_self) hc) _ hq
    intro n hn
    exact htext n (List.mem_cons_of_mem _ (List.mem_flatMap.mpr ⟨c.node, List.mem_of_getElem? hmem, hn⟩))

lemma enclosed_of_mem_below {n : Node} (htext : ∀ m ∈ n.preorder, m.InText text)
    (h : p ∈ (root n).below) : p.Enclosed := by
  obtain ⟨path, hpath⟩ := h
  exact Enclosed.descend? (fun a ha => absurd ha List.not_mem_nil) htext hpath

end

end Place

/-! ## Where the walk is cut off -/

namespace Node

section
variable {r : Span} {m n : Node}

lemma intersects_some : n.intersects (some r) = true ↔ n.span.start < r.stop ∧
    (r.start < n.span.stop ∨ n.span.start = n.span.stop ∧ r.start ≤ n.span.start) := by
  simp [intersects]

/-- Whether the node is not empty and ends where the range begins. -/
def endsAt (r : Span) (n : Node) : Bool :=
  n.span.start < r.start && n.span.stop = r.start

lemma endsAt_iff : n.endsAt r = true ↔ n.span.start < r.start ∧ n.span.stop = r.start := by
  simp [endsAt]

lemma not_intersects_of_endsAt (h : m.endsAt r = true) : ¬m.intersects (some r) = true := by
  rw [endsAt_iff] at h
  rw [intersects_some]
  omega

lemma intersects_of_covers (hstart : m.span.start ≤ n.span.start) (hstop : n.span.stop ≤ m.span.stop)
    (h : n.intersects (some r) = true) (hends : ¬m.endsAt r = true) : m.intersects (some r) = true := by
  rw [intersects_some] at h ⊢
  rw [endsAt_iff] at hends
  omega

lemma span_of_endsAt (hstop : n.span.stop ≤ m.span.stop) (h : n.intersects (some r) = true)
    (hends : m.endsAt r = true) : n.span = ⟨r.start, r.start⟩ := by
  rw [intersects_some] at h
  rw [endsAt_iff] at hends
  obtain ⟨field, kind, ⟨start, stop⟩, missing, children⟩ := n
  simp only [Span.mk.injEq] at h hstop ⊢
  omega

end

end Node

namespace Place

/-- Whether the node is empty where the range begins and a node above it that is not empty ends there. -/
def cutOff (r : Span) (p : Place) : Bool :=
  p.node.span = ⟨r.start, r.start⟩ && p.above.any fun a => a.1.endsAt r

lemma Enclosed.kept_iff {p : Place} {r : Span} (hp : p.Enclosed) :
    p.kept (·.intersects (some r)) = (p.node.intersects (some r) && !p.cutOff r) := by
  rw [Bool.eq_iff_iff, kept, cutOff, Bool.and_eq_true_iff, Bool.and_eq_true_iff, List.all_eq_true,
    Bool.not_eq_true', Bool.and_eq_false_iff, List.any_eq_false, decide_eq_false_iff_not]
  constructor
  · rintro ⟨hnode, habove⟩
    exact ⟨hnode, Or.inr fun a ha hends => Node.not_intersects_of_endsAt hends (habove a ha)⟩
  · -- A node above lies in the range unless it ends where the range begins; then the node would be cut off.
    rintro ⟨hnode, hkept⟩
    refine ⟨hnode, fun a ha => ?_⟩
    apply Node.intersects_of_covers (hp a ha).1 (hp a ha).2 hnode
    intro hends
    rcases hkept with hspan | habove
    · exact hspan (Node.span_of_endsAt (hp a ha).2 hnode hends)
    · exact habove a ha hends

end Place

namespace Query

/-- In a tree, a range leaves the matches at nodes that lie in it and are not cut off, in their order. -/
theorem matches_in_range [RegexEngine] (text : String) {n : Node} (hn : n ∈ (Tree.parse text).root.preorder) (q : Query)
    (source : ByteArray) (r : Span) :
    q.matchesIn source none n = (q.placedMatches source n).map (·.2) ∧
      q.matchesIn source (some r) n = ((q.placedMatches source n).filter fun x =>
        x.1.node.intersects (some r) && !x.1.cutOff r).map (·.2) := by
  refine ⟨matchesIn_none q source n, ?_⟩
  rw [matchesIn_eq_filter]
  congr 1
  apply List.filter_congr
  intro x hx
  have htext : ∀ m ∈ n.preorder, m.InText text.toList := fun m hm =>
    Tree.parse_inText text (Node.mem_preorder_trans hn hm)
  exact (Place.enclosed_of_mem_below htext (mem_placedMatches hx)).kept_iff

/-- The query that captures the nodes of one rule. -/
def capturing [RegexEngine] (k : Kind) : Query :=
  ⟨[⟨.node (.rule k) [] ⟨none, [0], .one⟩, [], 0⟩], ["node"]⟩

theorem matches_in_range_absent :
    (Tree.parse "define x =\n").root ∈ (Tree.parse "define x =\n").root.preorder ∧
      (capturing .pythonExpression).matchesIn .empty none (Tree.parse "define x =\n").root =
        ((capturing .pythonExpression).placedMatches .empty (Tree.parse "define x =\n").root).map (·.2) ∧
      (capturing .pythonExpression).matchesIn .empty (some ⟨10, 20⟩) (Tree.parse "define x =\n").root =
        (((capturing .pythonExpression).placedMatches .empty (Tree.parse "define x =\n").root).filter
          fun x => x.1.node.intersects (some ⟨10, 20⟩) && !x.1.cutOff ⟨10, 20⟩).map (·.2) := by
  have hroot : (Tree.parse "define x =\n").root ∈ (Tree.parse "define x =\n").root.preorder := by
    rw [Node.preorder_eq]
    exact List.mem_cons_self
  exact ⟨hroot, matches_in_range "define x =\n" hroot (capturing .pythonExpression) .empty ⟨10, 20⟩⟩

/-- The absent expression lies where the range begins, but the statement that lacks it ends there. So it is
not found. -/
theorem matches_in_range_cut_off :
    (capturing .pythonExpression).matchesIn .empty (some ⟨10, 20⟩) (Tree.parse "define x =\n").root ≠
      (((capturing .pythonExpression).placedMatches .empty (Tree.parse "define x =\n").root).filter
        fun x => x.1.node.intersects (some ⟨10, 20⟩)).map (·.2) := by
  intro h
  exact absurd (congrArg List.length h) (by decide +kernel)

end Query

end RenpyScript
