import RenpyScript.Query.Match
import RenpyScript.Tree.Cursor

/-!
# Running a query

A cursor walks a subtree, and the matches are collected where it stands. It does not go into the subtree
of a node that lies outside the range. `Cursor.left` counts the nodes that the walk may still come to.
-/

namespace RenpyScript

namespace Cursor

/-- Number of nodes behind the subtree of the last node of a trail. -/
def behind (start : Node) : List (Node × Nat) → Nat
  | [] => 0
  | (_, i) :: up => Node.countAll ((endOf start up).children.drop (i + 1)) + behind start up

def left (c : Cursor) : Nat :=
  c.node.count + behind c.start c.trail

theorem behind_cons (start n : Node) (i : Nat) (up : List (Node × Nat)) : behind start ((n, i) :: up) =
    Node.countAll ((endOf start up).children.drop (i + 1)) + behind start up := by
  rw [behind]

theorem count_eq (n : Node) : n.count = 1 + Node.countAll n.children := by
  obtain ⟨field, kind, span, missing, children⟩ := n
  rw [Node.count]

theorem countAll_drop {ns : List Node} {n : Node} {i : Nat} (h : ns[i]? = some n) :
    Node.countAll (ns.drop i) = n.count + Node.countAll (ns.drop (i + 1)) := by
  obtain ⟨hi, hn⟩ := List.getElem?_eq_some_iff.mp h
  rw [List.drop_eq_getElem_cons hi, Node.countAll, hn]

theorem left_of_firstChild? {c d : Cursor} (h : c.firstChild? = some d) : d.left < c.left := by
  obtain ⟨start, trail⟩ := c
  rw [firstChild?, Option.map_eq_some_iff] at h
  obtain ⟨n, hn, rfl⟩ := h
  have hchild : (endOf start trail).children[0]? = some n := List.head?_eq_getElem? ▸ hn
  have hdrop := countAll_drop hchild
  rw [List.drop_zero] at hdrop
  change n.count + behind start ((n, 0) :: trail) < (endOf start trail).count + behind start trail
  rw [behind_cons, count_eq (endOf start trail)]
  omega

theorem left_of_nextSibling? {c d : Cursor} (h : c.nextSibling? = some d) :
    d.left = behind c.start c.trail ∧ d.trail.length = c.trail.length := by
  obtain ⟨start, trail⟩ := c
  cases trail with
  | nil => simp [nextSibling?] at h
  | cons step up =>
    rw [nextSibling?, Option.map_eq_some_iff] at h
    obtain ⟨n, hn, rfl⟩ := h
    have hsibling : (endOf start up).children[step.2 + 1]? = some n := hn
    have hdrop := countAll_drop hsibling
    refine ⟨?_, rfl⟩
    change n.count + behind start ((n, step.2 + 1) :: up) = behind start ((step.1, step.2) :: up)
    rw [behind_cons, behind_cons]
    omega

theorem behind_of_parent? {c p : Cursor} (h : c.parent? = some p) :
    behind p.start p.trail ≤ behind c.start c.trail ∧ p.trail.length < c.trail.length := by
  obtain ⟨start, trail⟩ := c
  cases trail with
  | nil => simp [parent?] at h
  | cons step up =>
    rw [parent?, Option.some.injEq] at h
    subst h
    simp only [behind, List.length_cons]
    omega

/-- Moves to the next node that `keep` accepts without going down: the next such sibling, of the node or of
the nearest one above that has one. -/
def acrossWhere? (keep : Node → Bool) (c : Cursor) : Option Cursor :=
  match _hnext : c.nextSibling? with
  | some d => if keep d.node then some d else d.acrossWhere? keep
  | none =>
    match _hup : c.parent? with
    | some p => p.acrossWhere? keep
    | none => none
termination_by behind c.start c.trail + c.trail.length
decreasing_by
  · have hleft := left_of_nextSibling? _hnext
    have hcount := count_eq d.node
    rw [left] at hleft
    omega
  · have hbehind := behind_of_parent? _hup
    omega

/-- Moves to the next node that `keep` accepts in document order. The children of the current node are come
to, those of a node that `keep` refuses are not. -/
def nextWhere? (keep : Node → Bool) (c : Cursor) : Option Cursor :=
  match c.firstChild? with
  | some d => if keep d.node then some d else d.acrossWhere? keep
  | none => c.acrossWhere? keep

theorem left_of_acrossWhere? {keep : Node → Bool} {c d : Cursor} (h : c.acrossWhere? keep = some d) :
    d.left ≤ behind c.start c.trail := by
  fun_induction acrossWhere? keep c with
  | case1 c e hnext hkeep =>
    obtain rfl : e = d := Option.some.inj h
    exact Nat.le_of_eq (left_of_nextSibling? hnext).1
  | case2 c e hnext hkeep ih =>
    have hleft := left_of_nextSibling? hnext
    have hd := ih h
    rw [left] at hleft
    omega
  | case3 c hnext p hup ih => exact Nat.le_trans (ih h) (behind_of_parent? hup).1
  | case4 => exact absurd h (by simp)

theorem left_of_nextWhere? {keep : Node → Bool} {c d : Cursor} (h : c.nextWhere? keep = some d) :
    d.left < c.left := by
  have hcount := count_eq c.node
  rw [nextWhere?] at h
  split at h
  next e hfirst =>
    have hleft := left_of_firstChild? hfirst
    split at h
    · obtain rfl : e = d := Option.some.inj h
      exact hleft
    · have hd := left_of_acrossWhere? h
      rw [left.eq_def e] at hleft
      omega
  next =>
    have hd := left_of_acrossWhere? h
    rw [left.eq_def c]
    omega

end Cursor

namespace Query

variable [RegexEngine]

/-- Adds the matches at the nodes from the current one on to those found before it. -/
def collect (q : Query) (source : ByteArray) (range : Option Span) (found : List Match) (c : Cursor) :
    List Match :=
  let found := found ++ q.matchesAt source c.node
  match _hnext : c.nextWhere? (·.intersects range) with
  | some d => q.collect source range found d
  | none => found
termination_by c.left
decreasing_by exact Cursor.left_of_nextWhere? _hnext

/-- The matches in a subtree, at the nodes that lie in the range, in document order. The texts that
predicates compare are cut from `source`. -/
def matchesIn (q : Query) (source : ByteArray) (range : Option Span) (n : Node) : List Match :=
  if n.intersects range then q.collect source range [] (Cursor.on n) else []

/-- The captures in a subtree, each as its match, its position in the match and the capture itself, in the order
in which the captured nodes begin. -/
def capturesIn (q : Query) (source : ByteArray) (range : Option Span) (n : Node) :
    List (Match × Nat × Capture) :=
  ((q.matchesIn source range n).flatMap fun m => m.captures.zipIdx.map fun c => (m, c.2, c.1)).mergeSort
    fun a b => a.2.2.node.span.start ≤ b.2.2.node.span.start

end Query

end RenpyScript
