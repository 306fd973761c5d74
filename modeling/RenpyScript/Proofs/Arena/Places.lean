import RenpyScript.Proofs.Arena.Navigation
import RenpyScript.Proofs.Tree.WellFormed

/-!
# Indices and places

An index of a finished tree stands for a place of the tree it represents: that which the same way down from the root
leads to. Every index stands for one place and every place has one index. An access to the entries answers with the
index of the place that the move in the tree leads to.
-/

namespace RenpyScript

/-! ## Lists and options that are related -/

section
variable {α β : Type*} {R : α → β → Prop} {l : List α} {l' : List β} {x : α} {y : β}

lemma rel_cases {o : Option α} {o' : Option β} (h : Option.Rel R o o') :
    (o = none ∧ o' = none) ∨ ∃ x y, o = some x ∧ o' = some y ∧ R x y := by
  cases h with
  | none => exact .inl ⟨rfl, rfl⟩
  | some h => exact .inr ⟨_, _, rfl, rfl, h⟩

lemma exists_of_rel_left {o : Option β} (h : Option.Rel R (some x) o) : ∃ y, o = some y ∧ R x y := by
  cases h with
  | some h => exact ⟨_, rfl, h⟩

lemma exists_of_rel_right {o : Option α} (h : Option.Rel R o (some y)) : ∃ x, o = some x ∧ R x y := by
  cases h with
  | some h => exact ⟨_, rfl, h⟩

lemma rel_getElem? (h : List.Forall₂ R l l') (k : Nat) : Option.Rel R l[k]? l'[k]? := by
  induction h generalizing k with
  | nil => exact .none
  | cons hd _ ih =>
    cases k with
    | zero => exact .some hd
    | succ k => exact ih k

lemma rel_find? {p : α → Bool} {q : β → Bool} (h : List.Forall₂ R l l') (hpq : ∀ x y, R x y → p x = q y) :
    Option.Rel R (l.find? p) (l'.find? q) := by
  induction h with
  | nil => exact .none
  | @cons x y l l' hd _ ih =>
    rw [List.find?_cons, List.find?_cons, hpq x y hd]
    cases q y with
    | true => exact .some hd
    | false => exact ih

end

namespace Place

lemma children_eq (p : Place) : p.children = p.node.children.mapIdx fun k n => ⟨n, (p.node, k) :: p.above⟩ := by
  have htaken : ∀ m, (List.range m).filterMap p.child? =
      (p.node.children.mapIdx fun k n => (⟨n, (p.node, k) :: p.above⟩ : Place)).take m := by
    intro m
    induction m with
    | zero => rfl
    | succ m ih =>
      rw [List.range_succ, List.filterMap_append, ih, List.take_add_one, List.getElem?_mapIdx]
      cases hn : p.node.children[m]? <;> simp [child?, hn]
  rw [children, htaken, List.take_of_length_le (List.length_mapIdx ..).le]

lemma length_children (p : Place) : p.children.length = p.node.children.length := by
  rw [children_eq, List.length_mapIdx]

lemma getElem?_children (p : Place) (k : Nat) : p.children[k]? = p.child? k := by
  rw [children_eq, List.getElem?_mapIdx]
  rfl

end Place

/-! ## What an index stands for -/

namespace Arena

/-- The index `i` is that of the place `p` of the tree with the given root: the same way down leads to both. -/
inductive Stands (a : Arena) (root : Node) : Nat → Place → Prop
  | root : Stands a root a.root (.root root)
  | child {i k c : Nat} {p q : Place} (above : Stands a root i p) (get : a.child? i k = some (some c))
      (get' : p.child? k = some q) : Stands a root c q

/-- An access has a value, the index of the given place, if there is one. -/
def Answers (a : Arena) (root : Node) (answer : Option (Option Nat)) (place : Option Place) : Prop :=
  ∃ o, answer = some o ∧ Option.Rel (a.Stands root) o place

section
variable {a : Arena} {t : Tree} {i j k c : Nat} {p q : Place} {e : Entry}

lemma Holds.child {table : LineTable} {n : Node} (h : a.Holds table i n) (hc : a.child? i k = some (some c)) :
    ∃ m, n.children[k]? = some m ∧ a.Holds table c m := by
  obtain ⟨e, he, hget⟩ := child?_eq_some_iff.mp hc
  have hrel := rel_getElem? (h.children he) k
  rw [hget] at hrel
  exact exists_of_rel_left hrel

lemma Holds.span_eq {table : LineTable} {n : Node} (h : a.Holds table i n) (he : a.nodes[i]? = some e) :
    e.span = n.span := by
  obtain ⟨e', he', -, hspan⟩ := h.get
  rw [he, Option.some.injEq] at he'
  rw [he', hspan]

lemma Stands.holds (h : a.Represents t) (hi : a.Stands t.root i p) : a.Holds (.ofText t.text.toList) i p.node := by
  induction hi with
  | root => exact ⟨none, none, h.denotes⟩
  | child _ get get' ih =>
    obtain ⟨n, hn, hc⟩ := ih.child get
    rw [(Place.child?_eq_some_iff.mp get').1, Option.some.injEq] at hn
    rwa [hn]

lemma Stands.get (h : a.Represents t) (hi : a.Stands t.root i p) :
    ∃ e, a.nodes[i]? = some e ∧ e.kind = p.node.kind ∧ e.span = p.node.span :=
  (hi.holds h).get

lemma Stands.lt_length (h : a.Represents t) (hi : a.Stands t.root i p) : i < a.nodes.length := by
  obtain ⟨e, he, -⟩ := hi.get h
  exact lt_of_get he

lemma Stands.mem_places (hi : a.Stands t.root i p) : p ∈ t.places := by
  induction hi with
  | root => exact ⟨[], rfl⟩
  | @child i k c p q _ _ get' ih =>
    obtain ⟨path, hpath⟩ := ih
    refine ⟨path ++ [k], ?_⟩
    rw [Place.descend?_concat, hpath, Option.bind_some, get']

lemma Stands.children (h : a.Represents t) (hi : a.Stands t.root i p) (he : a.nodes[i]? = some e) :
    List.Forall₂ (a.Stands t.root) e.children p.children := by
  have hlengths : e.children.length = p.children.length := by
    rw [p.length_children, ((hi.holds h).children he).length_eq]
  rw [List.forall₂_iff_get]
  refine ⟨hlengths, fun k hk hk' => .child hi (child?_eq_some_iff.mpr ⟨e, he, List.getElem?_eq_getElem hk⟩) ?_⟩
  rw [← Place.getElem?_children, List.getElem?_eq_getElem hk']
  rfl

/-! ## One place for each index -/

lemma exists_place (h : a.Represents t) (hi : i < a.nodes.length) : ∃ p, a.Stands t.root i p := by
  have hreached := h.reached i hi
  induction hreached with
  | refl => exact ⟨_, .root⟩
  | @child m k c above get ih =>
    obtain ⟨e, he, hc⟩ := child?_eq_some_iff.mp get
    obtain ⟨p, hp⟩ := ih (lt_of_get he)
    have hrel := rel_getElem? (hp.children h he) k
    rw [hc] at hrel
    obtain ⟨q, -, hq⟩ := exists_of_rel_left hrel
    exact ⟨q, hq⟩

lemma exists_inText {text : String} (h : a.Represents (Tree.parse text)) (he : a.nodes[i]? = some e) :
    ∃ n, a.Holds (.ofText text.toList) i n ∧ n.InText text.toList := by
  obtain ⟨p, hp⟩ := exists_place h (lt_of_get he)
  exact ⟨p.node, hp.holds h, Tree.parse_inText text (Place.node_mem_preorder hp.mem_places)⟩

lemma exists_index (h : a.Represents t) (hp : p ∈ t.places) : ∃ i, a.Stands t.root i p := by
  obtain ⟨path, hpath⟩ := hp
  induction path using List.reverseRecOn generalizing p with
  | nil =>
    obtain rfl := Option.some.inj hpath
    exact ⟨_, .root⟩
  | append_singleton path k ih =>
    rw [Place.descend?_concat, Option.bind_eq_some_iff] at hpath
    obtain ⟨q, hq, hchild⟩ := hpath
    obtain ⟨i, hi⟩ := ih hq
    obtain ⟨e, he, -⟩ := hi.get h
    have hrel := rel_getElem? (hi.children h he) k
    rw [Place.getElem?_children, hchild] at hrel
    obtain ⟨c, -, hc⟩ := exists_of_rel_right hrel
    exact ⟨c, hc⟩

lemma Stands.place_unique (h : a.Represents t) (hp : a.Stands t.root i p) (hq : a.Stands t.root i q) : p = q := by
  induction hp generalizing q with
  | root =>
    cases hq with
    | root => rfl
    | child _ get => exact absurd get h.child?_ne_root
  | child _ get get' ih =>
    cases hq with
    | root => exact absurd get h.child?_ne_root
    | child above get'' get''' =>
      obtain ⟨rfl, rfl⟩ := h.linked.child_unique get get''
      rw [ih above, get'''] at get'
      exact (Option.some.inj get').symm

lemma Stands.index_unique (hi : a.Stands t.root i p) (hj : a.Stands t.root j p) : i = j := by
  induction hi generalizing j with
  | root =>
    generalize hp : Place.root t.root = p at hj
    cases hj with
    | root => rfl
    | child _ _ get' =>
      rw [← hp] at get'
      cases (Place.child?_eq_some_iff.mp get').2
  | @child i k c p q _ get get' ih =>
    cases hj with
    | root => cases (Place.child?_eq_some_iff.mp get').2
    | child above get'' get''' =>
      have habove := (Place.child?_eq_some_iff.mp get').2
      have hparent := Place.parent?_of_child? get'
      rw [Place.parent?_of_child? get'''] at hparent
      obtain rfl := Option.some.inj hparent
      rw [(Place.child?_eq_some_iff.mp get''').2, List.cons.injEq, Prod.mk.injEq] at habove
      obtain ⟨⟨-, rfl⟩, -⟩ := habove
      obtain rfl := ih above
      rw [get, Option.some.injEq, Option.some.injEq] at get''
      exact get''

/-! ## Accesses and moves -/

lemma Stands.answers_parent (h : a.Represents t) (hi : a.Stands t.root i p) :
    a.Answers t.root (a.parent? i) p.parent? := by
  cases hi with
  | root => exact ⟨none, h.root, .none⟩
  | child above get get' =>
    rw [Place.parent?_of_child? get']
    exact ⟨_, h.linked.parent?_child get, .some above⟩

lemma Stands.answers_child (h : a.Represents t) (hi : a.Stands t.root i p) (k : Nat) :
    a.Answers t.root (a.child? i k) (p.child? k) := by
  obtain ⟨e, he, -⟩ := hi.get h
  refine ⟨_, child?_eq_some_iff.mpr ⟨e, he, rfl⟩, ?_⟩
  rw [← Place.getElem?_children]
  exact rel_getElem? (hi.children h he) k

lemma Stands.named?_eq (h : a.Represents t) (hi : a.Stands t.root i p) : a.named? i = some p.node.named := by
  obtain ⟨e, he, hkind, -⟩ := hi.get h
  rw [named?, he, Node.named, ← hkind]
  rfl

lemma Stands.isNamed_eq (h : a.Represents t) (hi : a.Stands t.root i p) : a.isNamed i = p.node.named := by
  rw [isNamed, hi.named?_eq h, Option.getD_some]

lemma Stands.answers_namedChild (h : a.Represents t) (hi : a.Stands t.root i p) (k : Nat) :
    a.Answers t.root (a.namedChild? i k) (p.namedChild? k) := by
  obtain ⟨e, he, -⟩ := hi.get h
  have hfiltered : List.Forall₂ (a.Stands t.root) (e.children.filter a.isNamed) p.namedChildren := by
    refine List.rel_filter ?_ (hi.children h he)
    intro j q hj
    dsimp only
    rw [hj.isNamed_eq h]
  refine ⟨_, ?_, rel_getElem? hfiltered k⟩
  rw [namedChild?, namedChildren?_eq h.linked he]
  rfl

lemma Stands.siblings (h : a.Represents t) (hi : a.Stands t.root i p) :
    (a.siblings? i = some none ∧ p.siblings? = none) ∨ ∃ k is ps, a.siblings? i = some (some (k, is)) ∧
      p.siblings? = some (k, ps) ∧ List.Forall₂ (a.Stands t.root) is ps ∧
      ∀ c ∈ is, a.named? c = some (a.isNamed c) := by
  cases hi with
  | root => exact .inl ⟨by rw [siblings?, h.root]; rfl, rfl⟩
  | child above get get' =>
    obtain ⟨e, he, hc⟩ := child?_eq_some_iff.mp get
    refine .inr ⟨_, e.children, _, h.linked.siblings?_child get he, ?_, above.children h he,
      named?_children h.linked he⟩
    rw [Place.siblings?, (Place.child?_eq_some_iff.mp get').2]

lemma Stands.answers_nextSibling (h : a.Represents t) (hi : a.Stands t.root i p) :
    a.Answers t.root (a.nextSibling? i) p.nextSibling? := by
  rcases hi.siblings h with ⟨hs, hs'⟩ | ⟨k, is, ps, hs, hs', hrel, -⟩
  · rw [Place.nextSibling?, hs']
    exact ⟨none, (noSiblings hs).1, .none⟩
  · rw [Place.nextSibling?, hs']
    exact ⟨_, nextSibling?_eq hs, rel_getElem? hrel (k + 1)⟩

lemma Stands.answers_prevSibling (h : a.Represents t) (hi : a.Stands t.root i p) :
    a.Answers t.root (a.prevSibling? i) p.prevSibling? := by
  rcases hi.siblings h with ⟨hs, hs'⟩ | ⟨k, is, ps, hs, hs', hrel, -⟩
  · rw [Place.prevSibling?, hs']
    exact ⟨none, (noSiblings hs).2.1, .none⟩
  · rw [Place.prevSibling?, hs', Option.bind_some]
    refine ⟨_, prevSibling?_eq hs, ?_⟩
    dsimp only
    split
    · exact .none
    · exact rel_getElem? hrel (k - 1)

lemma Stands.answers_nextNamedSibling (h : a.Represents t) (hi : a.Stands t.root i p) :
    a.Answers t.root (a.nextNamedSibling? i) p.nextNamedSibling? := by
  rcases hi.siblings h with ⟨hs, hs'⟩ | ⟨k, is, ps, hs, hs', hrel, hnamed⟩
  · rw [Place.nextNamedSibling?, hs']
    exact ⟨none, (noSiblings hs).2.2.1, .none⟩
  · rw [Place.nextNamedSibling?, hs']
    exact ⟨_, nextNamedSibling?_eq hs hnamed, rel_find? (List.forall₂_drop _ hrel) fun j q hj => hj.isNamed_eq h⟩

lemma Stands.answers_prevNamedSibling (h : a.Represents t) (hi : a.Stands t.root i p) :
    a.Answers t.root (a.prevNamedSibling? i) p.prevNamedSibling? := by
  rcases hi.siblings h with ⟨hs, hs'⟩ | ⟨k, is, ps, hs, hs', hrel, hnamed⟩
  · rw [Place.prevNamedSibling?, hs']
    exact ⟨none, (noSiblings hs).2.2.2, .none⟩
  · rw [Place.prevNamedSibling?, hs']
    exact ⟨_, prevNamedSibling?_eq hs hnamed,
      rel_find? (List.rel_reverse (List.forall₂_take _ hrel)) fun j q hj => hj.isNamed_eq h⟩

end

/-- Indices and places correspond one to one, with the same data, and an access answers with the place that the move
in the tree leads to. -/
structure Follows (a : Arena) (t : Tree) : Prop where
  place : ∀ i < a.nodes.length, ∃! p, p ∈ t.places ∧ a.Stands t.root i p
  index : ∀ p ∈ t.places, ∃! i, i < a.nodes.length ∧ a.Stands t.root i p
  node : ∀ {i p}, a.Stands t.root i p → a.Holds (.ofText t.text.toList) i p.node
  parent : ∀ {i p}, a.Stands t.root i p → a.Answers t.root (a.parent? i) p.parent?
  child : ∀ {i p}, a.Stands t.root i p → ∀ k, a.Answers t.root (a.child? i k) (p.child? k)
  namedChild : ∀ {i p}, a.Stands t.root i p → ∀ k, a.Answers t.root (a.namedChild? i k) (p.namedChild? k)
  nextSibling : ∀ {i p}, a.Stands t.root i p → a.Answers t.root (a.nextSibling? i) p.nextSibling?
  prevSibling : ∀ {i p}, a.Stands t.root i p → a.Answers t.root (a.prevSibling? i) p.prevSibling?
  nextNamedSibling : ∀ {i p}, a.Stands t.root i p → a.Answers t.root (a.nextNamedSibling? i) p.nextNamedSibling?
  prevNamedSibling : ∀ {i p}, a.Stands t.root i p → a.Answers t.root (a.prevNamedSibling? i) p.prevNamedSibling?

lemma Represents.follows {a : Arena} {t : Tree} (h : a.Represents t) : a.Follows t := by
  refine ⟨fun i hi => ?_, fun p hp => ?_, Stands.holds h, Stands.answers_parent h, Stands.answers_child h,
    Stands.answers_namedChild h, Stands.answers_nextSibling h, Stands.answers_prevSibling h,
    Stands.answers_nextNamedSibling h, Stands.answers_prevNamedSibling h⟩
  · obtain ⟨p, hp⟩ := exists_place h hi
    exact ⟨p, ⟨hp.mem_places, hp⟩, fun q hq => hq.2.place_unique h hp⟩
  · obtain ⟨i, hi⟩ := exists_index h hp
    exact ⟨i, ⟨hi.lt_length h, hi⟩, fun j hj => hj.2.index_unique hi⟩

end Arena

/-- In what a descent leaves behind, parents, children and siblings fit together, and the accesses to them answer as
the moves in the tree of the text do. -/
theorem Descent.parse_coherent (text : String) :
    ∃ r, parse text.toList = some r ∧ r.arena.Coherent ∧ r.arena.Follows (Tree.parse text) := by
  obtain ⟨r, hparse, h⟩ := parse_represents text
  exact ⟨r, hparse, h.coherent, h.follows⟩

end RenpyScript
