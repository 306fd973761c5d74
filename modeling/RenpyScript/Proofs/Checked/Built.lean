import RenpyScript.Proofs.Checked.Builder

/-!
# What has been built

`Built b b' cs ns` says that between `b` and `b'` the nodes `ns` have been built, as the children `cs`, and
nothing besides. Nothing that was there before has changed, so that a rollback from `b'` leads back to `b`. Since
only nodes without a parent are adopted, entries stay linked: children and parents refer to each other.
-/

namespace RenpyScript

/-- The children of an entry come before it, each once, and have it for their parent. -/
structure Linked (nodes : List Entry) : Prop where
  below : ∀ (i : Nat) (e : Entry), nodes[i]? = some e → ∀ c ∈ e.children, c < i
  nodup : ∀ (i : Nat) (e : Entry), nodes[i]? = some e → e.children.Nodup
  parent : ∀ (i : Nat) (e : Entry), nodes[i]? = some e → ∀ c ∈ e.children, ∃ e', nodes[c]? = some e' ∧ e'.parent = some i

lemma linked_nil : Linked [] :=
  ⟨by simp, by simp, by simp⟩

/-- Another entry behind linked ones, some of which may have got it for their parent. -/
lemma Linked.concat {nodes nodes' : List Entry} {e : Entry} (h : Linked nodes) (hkeeps : Keeps nodes (nodes' ++ [e]))
    (hlength : nodes'.length = nodes.length)
    (hold : ∀ (i : Nat) (e' : Entry), nodes'[i]? = some e' → ∃ e₀ : Entry, nodes[i]? = some e₀ ∧ e'.children = e₀.children)
    (hnodup : e.children.Nodup)
    (hnew : ∀ c ∈ e.children, ∃ e', nodes'[c]? = some e' ∧ e'.parent = some nodes.length) : Linked (nodes' ++ [e]) := by
  have hget : ∀ (i : Nat) (e' : Entry), (nodes' ++ [e])[i]? = some e' →
      (∃ e₀ : Entry, nodes[i]? = some e₀ ∧ e'.children = e₀.children) ∨ (i = nodes.length ∧ e' = e) := by
    intro i e' he'
    rcases Nat.lt_or_ge i nodes'.length with hi | hi
    · rw [List.getElem?_append_left hi] at he'
      exact .inl (hold i e' he')
    · have hlt := (List.getElem?_eq_some_iff.mp he').1
      rw [List.length_append, List.length_singleton] at hlt
      obtain rfl : i = nodes'.length := by omega
      rw [List.getElem?_concat_length, Option.some.injEq] at he'
      exact .inr ⟨hlength, he'.symm⟩
  refine ⟨?_, ?_, ?_⟩
  · intro i e' he' c hc
    rcases hget i e' he' with ⟨e₀, he₀, hchildren⟩ | ⟨rfl, rfl⟩
    · exact h.below i e₀ he₀ c (hchildren ▸ hc)
    · obtain ⟨e'', he'', -⟩ := hnew c hc
      exact hlength ▸ (List.getElem?_eq_some_iff.mp he'').1
  · intro i e' he'
    rcases hget i e' he' with ⟨e₀, he₀, hchildren⟩ | ⟨-, rfl⟩
    · exact hchildren ▸ h.nodup i e₀ he₀
    · exact hnodup
  · intro i e' he' c hc
    rcases hget i e' he' with ⟨e₀, he₀, hchildren⟩ | ⟨rfl, rfl⟩
    · obtain ⟨e'', he'', hparent⟩ := h.parent i e₀ he₀ c (hchildren ▸ hc)
      exact ⟨e'', hkeeps c e'' he'' (by simp [hparent]), hparent⟩
    · obtain ⟨e'', he'', hparent⟩ := hnew c hc
      refine ⟨e'', ?_, hparent⟩
      rw [List.getElem?_append_left (List.getElem?_eq_some_iff.mp he'').1, he'']

/-- An entry may change as long as it keeps its relatives. -/
lemma Linked.set {nodes : List Entry} {i : Nat} {e e' : Entry} (h : Linked nodes) (he : nodes[i]? = some e)
    (hchildren : e'.children = e.children) (hparent : e'.parent = e.parent) : Linked (nodes.set i e') := by
  have hget : ∀ (k : Nat) (f : Entry), (nodes.set i e')[k]? = some f →
      ∃ f₀ : Entry, nodes[k]? = some f₀ ∧ f.children = f₀.children := by
    intro k f hf
    rcases eq_or_ne i k with rfl | hne
    · rw [List.getElem?_set_self (List.getElem?_eq_some_iff.mp he).1, Option.some.injEq] at hf
      exact ⟨e, he, hf ▸ hchildren⟩
    · rw [List.getElem?_set_ne hne] at hf
      exact ⟨f, hf, rfl⟩
  refine ⟨?_, ?_, ?_⟩
  · intro k f hf
    obtain ⟨f₀, hf₀, heq⟩ := hget k f hf
    exact heq ▸ h.below k f₀ hf₀
  · intro k f hf
    obtain ⟨f₀, hf₀, heq⟩ := hget k f hf
    exact heq ▸ h.nodup k f₀ hf₀
  · intro k f hf c hc
    obtain ⟨f₀, hf₀, heq⟩ := hget k f hf
    obtain ⟨d, hd, hdparent⟩ := h.parent k f₀ hf₀ c (heq ▸ hc)
    rcases eq_or_ne i c with rfl | hne
    · rw [he, Option.some.injEq] at hd
      exact ⟨e', List.getElem?_set_self (List.getElem?_eq_some_iff.mp he).1, hparent.trans (hd ▸ hdparent)⟩
    · exact ⟨d, (List.getElem?_set_ne hne).trans hd, hdparent⟩

namespace TreeBuilder

/-- The nodes of a builder are still there, and as they were. -/
structure Extends (b b' : TreeBuilder) : Prop where
  text : b'.text = b.text
  nodes : b.nodes <+: b'.nodes

/-- The nodes built since `b` are `ns`, which have no parents so far, and the nodes below them. -/
structure Built (b b' : TreeBuilder) (cs : List Child) (ns : List Node) : Prop extends Extends b b' where
  nodup : (cs.map Child.index).Nodup
  fresh : ∀ c ∈ cs, b.nodes.length ≤ c.index
  denotes : List.Forall₂ (fun c n => c.field = n.field ∧
    Denotes (.ofText b.text) b'.nodes none none c.index n) cs ns
  kinds : ((b'.nodes.drop b.nodes.length).map Entry.kind).Perm ((Node.preorderAll ns).map Node.kind)
  linked : Linked b.nodes → Linked b'.nodes

section
variable {b b' b'' b₀ : TreeBuilder} {c d : Child} {cs ds ts : List Child} {n m : Node} {ns ms ls : List Node} {kind : Kind}

lemma Extends.refl (b : TreeBuilder) : Extends b b :=
  ⟨rfl, List.prefix_refl _⟩

lemma Extends.trans (h : Extends b b') (h' : Extends b' b'') : Extends b b'' :=
  ⟨h'.text.trans h.text, h.nodes.trans h'.nodes⟩

lemma Extends.rollback (h : Extends b b') : b'.rollback b.checkpoint = b := by
  rw [TreeBuilder.rollback, checkpoint, ← List.prefix_iff_eq_take.mp h.nodes, h.text]

namespace Built

lemma refl (b : TreeBuilder) : Built b b [] [] :=
  ⟨.refl b, List.nodup_nil, by simp, .nil, by simp [Node.preorderAll], id⟩

lemma length_eq (h : Built b b' cs ns) : cs.length = ns.length :=
  h.denotes.length_eq

lemma get (h : Built b b' cs ns) (hc : c ∈ cs) :
    ∃ n is, b'.nodes[c.index]? = some (Node.entry (.ofText b.text) n none none is) := by
  have hall : ∀ c ∈ cs, ∃ n is, b'.nodes[c.index]? = some (Node.entry (.ofText b.text) n none none is) := by
    refine ((List.forall₂_and_left cs ns).mp (h.denotes.imp fun c n hn => ⟨?_, hn⟩)).1
    exact ⟨n, hn.2.get⟩
  exact hall c hc

lemma index_lt (h : Built b b' cs ns) (hc : c ∈ cs) : c.index < b'.nodes.length := by
  obtain ⟨n, is, hget⟩ := h.get hc
  exact (List.getElem?_eq_some_iff.mp hget).1

lemma append (h : Built b b' cs ns) (h' : Built b' b'' ds ms) : Built b b'' (cs ++ ds) (ns ++ ms) := by
  have hle : b.nodes.length ≤ b'.nodes.length := h.nodes.length_le
  refine ⟨h.toExtends.trans h'.toExtends, ?_, ?_, ?_, ?_, h'.linked ∘ h.linked⟩
  · rw [List.map_append]
    refine h.nodup.append h'.nodup ?_
    intro i hi hi'
    obtain ⟨c, hc, rfl⟩ := List.mem_map.mp hi
    obtain ⟨d, hd, hcd⟩ := List.mem_map.mp hi'
    have hlt := h.index_lt hc
    have hge := h'.fresh d hd
    omega
  · intro c hc
    rcases List.mem_append.mp hc with hc | hc
    · exact h.fresh c hc
    · exact hle.trans (h'.fresh c hc)
  · refine List.rel_append (h.denotes.imp fun c n hn => ⟨hn.1, hn.2.mono h'.nodes⟩) ?_
    exact h.text ▸ h'.denotes
  · -- What is new since `b` is what was new in `b'`, and what has come since.
    obtain ⟨more, hmore⟩ := h'.nodes
    have hdrop : b''.nodes.drop b.nodes.length =
        b'.nodes.drop b.nodes.length ++ b''.nodes.drop b'.nodes.length := by
      rw [← hmore, List.drop_append_of_le_length hle, List.drop_append_of_le_length (Nat.le_refl _),
        List.drop_length, List.nil_append]
    rw [hdrop, List.map_append, Node.preorderAll_eq, List.flatMap_append, List.map_append, ← Node.preorderAll_eq,
      ← Node.preorderAll_eq]
    exact h.kinds.append h'.kinds

lemma under (field : Field) (h : Built b b' cs ns) :
    Built b b' (cs.map fun c => ⟨c.index, some field⟩) (ns.map (·.under field)) := by
  refine ⟨h.toExtends, ?_, ?_, ?_, ?_, h.linked⟩
  · rw [List.map_map]
    exact h.nodup
  · intro c hc
    obtain ⟨d, hd, rfl⟩ := List.mem_map.mp hc
    exact h.fresh d hd
  · rw [List.forall₂_map_left_iff, List.forall₂_map_right_iff]
    exact h.denotes.imp fun c n hn => ⟨rfl, hn.2.under field⟩
  · have hkinds : (Node.preorderAll (ns.map (·.under field))).map Node.kind =
        (Node.preorderAll ns).map Node.kind := by
      rw [Node.preorderAll_eq, Node.preorderAll_eq, List.flatMap_map, List.map_flatMap, List.map_flatMap]
      refine List.flatMap_congr fun n _ => ?_
      rw [Node.preorder_eq, Node.preorder_eq]
      rfl
    rw [hkinds]
    exact h.kinds

end Built

/-! ## Leaves -/

lemma leafData_eq (b : TreeBuilder) (kind : Kind) (span : Span) : b.leafData kind span =
    some ⟨kind, none, span, (LineTable.ofText b.text).point span.start, (LineTable.ofText b.text).point span.stop,
      none, [], false, false, kind = .error⟩ := by
  rw [leafData, point?_eq, point?_eq]
  rfl

lemma built_push (b : TreeBuilder) {n : Node} (hfield : n.field = none) (hchildren : n.children = []) :
    Built b (b.push (n.entry (.ofText b.text) none none [])).2 [.plain b.nodes.length] [n] := by
  refine ⟨⟨rfl, List.prefix_append _ _⟩, List.nodup_singleton _, by simp [Child.plain], ?_, ?_, ?_⟩
  · refine .cons ⟨hfield.symm, ?_⟩ .nil
    refine .intro ?_ (by rw [hchildren, List.length_nil]; rfl) (by simp)
    exact List.getElem?_concat_length
  · simp [push, Node.preorderAll_eq, Node.preorder_eq, hchildren, Node.entry]
  · intro hlinked
    exact hlinked.concat (.of_extends (List.prefix_append _ _)) rfl (fun i e he => ⟨e, he, rfl⟩) List.nodup_nil
      (fun c hc => by cases hc)

lemma leaf_built (b : TreeBuilder) (hkind : kind ≠ .comment) (span : Span) :
    ∃ i b', b.leaf kind span = some (i, b') ∧ Built b b' [.plain i] [.leaf kind span] := by
  have hentry : (Node.leaf kind span).entry (.ofText b.text) none none [] =
      ⟨kind, none, span, (LineTable.ofText b.text).point span.start, (LineTable.ofText b.text).point span.stop,
        none, [], false, false, kind = .error⟩ := by
    simp [Node.entry, Node.leaf, Node.hasError_eq, Node.extra, hkind]
  refine ⟨_, _, ?_, b.built_push (n := .leaf kind span) rfl rfl⟩
  rw [leaf, leafData_eq, hentry]
  rfl

lemma comment_built (b : TreeBuilder) (span : Span) :
    ∃ i b', b.extra .comment span = some (i, b') ∧ Built b b' [.plain i] [.leaf .comment span] := by
  refine ⟨_, _, ?_, b.built_push (n := .leaf .comment span) rfl rfl⟩
  rw [extra, leafData_eq]
  simp [Node.entry, Node.leaf, Node.hasError_eq, Node.extra, push]

lemma missing_built (b : TreeBuilder) (hkind : kind ≠ .comment) (offset : Nat) :
    ∃ i b', b.missing kind offset = some (i, b') ∧ Built b b' [.plain i] [.absent kind offset] := by
  refine ⟨_, _, ?_, b.built_push (n := .absent kind offset) rfl rfl⟩
  rw [missing, leafData_eq]
  simp [Node.entry, Node.absent, Node.hasError_eq, Node.extra, hkind, push]

/-! ## Nodes over others -/

lemma forall₂_ends {R : Child → Node → Prop} (h : List.Forall₂ R cs ns) : (cs = [] ∧ ns = []) ∨
    ∃ c n, cs.head? = some c ∧ ns.head? = some n ∧ R c n ∧
      ∃ d m, cs.getLast? = some d ∧ ns.getLast? = some m ∧ R d m := by
  induction h with
  | nil => exact .inl ⟨rfl, rfl⟩
  | @cons c n cs ns hn _ ih =>
    refine .inr ⟨c, n, rfl, rfl, hn, ?_⟩
    rcases ih with ⟨rfl, rfl⟩ | ⟨-, -, -, -, -, d, m, hd, hm, hdm⟩
    · exact ⟨c, n, rfl, rfl, hn⟩
    · exact ⟨d, m, by rw [List.getLast?_cons, hd]; rfl, by rw [List.getLast?_cons, hm]; rfl, hdm⟩

lemma forall₂_getElem? {R : Child → Node → Prop} {k : Nat} (h : List.Forall₂ R cs ns) (hc : cs[k]? = some c)
    (hn : ns[k]? = some n) : R c n := by
  obtain ⟨hk, rfl⟩ := List.getElem?_eq_some_iff.mp hc
  obtain ⟨hk', rfl⟩ := List.getElem?_eq_some_iff.mp hn
  exact (List.forall₂_iff_get.mp h).2 k hk hk'

lemma hull_eq {table : LineTable} (h : List.Forall₂ (fun c n => c.field = n.field ∧
      Denotes table b.nodes none none c.index n) cs ns) (fallback : Nat) :
    b.hull cs fallback = some (Node.hull ns fallback) := by
  rcases forall₂_ends h with ⟨rfl, rfl⟩ | ⟨c, n, hc, hn, hcn, d, m, hd, hm, hdm⟩
  · rfl
  · obtain ⟨is, hfirst⟩ := hcn.2.get
    obtain ⟨js, hlast⟩ := hdm.2.get
    rw [hull, Node.hull, hc, hd, hn, hm]
    dsimp only
    rw [hfirst, Option.bind_eq_bind, Option.bind_some, hlast, Option.bind_some]
    rfl

lemma any_hasError {table : LineTable} (h : List.Forall₂ (fun c n => c.field = n.field ∧
      Denotes table b.nodes none none c.index n) cs ns) :
    (cs.any fun c => b.nodes[c.index]?.any Entry.hasError) = ns.any Node.hasError := by
  induction h with
  | nil => rfl
  | cons hn _ ih =>
    obtain ⟨is, hget⟩ := hn.2.get
    rw [List.any_cons, List.any_cons, ih, hget]
    rfl

namespace Built

variable {nodes : List Entry}

lemma split (h : Built b₀ b (cs ++ ts) (ns ++ ms)) (hlength : cs.length = ns.length) :
    List.Forall₂ (fun c n => c.field = n.field ∧ Denotes (.ofText b₀.text) b.nodes none none c.index n) cs ns ∧
      List.Forall₂ (fun c n => c.field = n.field ∧ Denotes (.ofText b₀.text) b.nodes none none c.index n) ts ms := by
  have hcs := List.forall₂_take_append _ _ _ h.denotes
  have hts := List.forall₂_drop_append _ _ _ h.denotes
  rw [← hlength, List.take_left] at hcs
  rw [← hlength, List.drop_left] at hts
  exact ⟨hcs, hts⟩

lemma keeps_adopts (h : Built b₀ b (cs ++ ts) (ns ++ ms)) (hadopts : Adopts b.nodes.length cs b.nodes nodes) (e : Entry) :
    Keeps b.nodes (nodes ++ [e]) := by
  intro i e' he hp
  rw [hadopts.getElem?_other ?_ (List.getElem?_eq_some_iff.mp he).1, he]
  intro hi
  obtain ⟨c, hc, rfl⟩ := List.mem_map.mp hi
  obtain ⟨n, is, hget⟩ := h.get (List.mem_append_left ts hc)
  rw [he, Option.some.injEq] at hget
  rw [hget] at hp
  exact hp rfl

lemma prefix_adopts (h : Built b₀ b (cs ++ ts) (ns ++ ms)) (hadopts : Adopts b.nodes.length cs b.nodes nodes) (e : Entry) :
    b₀.nodes <+: nodes ++ [e] := by
  rw [List.prefix_iff_getElem?]
  intro i hi
  have hle := h.nodes.length_le
  rw [hadopts.getElem?_other ?_ (by omega)]
  · exact List.prefix_iff_getElem?.mp h.nodes i hi
  · intro hmem
    obtain ⟨c, hc, rfl⟩ := List.mem_map.mp hmem
    have hfresh := h.fresh c (List.mem_append_left ts hc)
    omega

lemma denotes_branch (h : Built b₀ b (cs ++ ts) (ns ++ ms)) (hlength : cs.length = ns.length)
    (hadopts : Adopts b.nodes.length cs b.nodes nodes) (kind : Kind) (fallback : Nat) :
    Denotes (.ofText b₀.text) (nodes ++ [(Node.branch kind ns fallback).entry (.ofText b₀.text) none none
      (cs.map Child.index)]) none none b.nodes.length (.branch kind ns fallback) := by
  refine .intro (by rw [← hadopts.length_eq, List.getElem?_concat_length]) ?_ ?_
  · rw [List.length_map, hlength]
    rfl
  intro k j m hj hm
  rw [List.getElem?_map, Option.map_eq_some_iff] at hj
  obtain ⟨c, hc, rfl⟩ := hj
  obtain ⟨hfield, hdenotes⟩ := forall₂_getElem? (h.split hlength).1 hc hm
  refine hdenotes.adopted (h.keeps_adopts hadopts _) ?_
  intro e he
  rw [hadopts.getElem?_child (List.mem_of_getElem? hc) he, hfield]
  rfl

lemma denotes_behind (h : Built b₀ b (cs ++ ts) (ns ++ ms)) (hlength : cs.length = ns.length)
    (hadopts : Adopts b.nodes.length cs b.nodes nodes) (e : Entry) :
    List.Forall₂ (fun c n => c.field = n.field ∧ Denotes (.ofText b₀.text) (nodes ++ [e]) none none c.index n) ts ms := by
  have hnodup := h.nodup
  rw [List.map_append, List.nodup_append] at hnodup
  refine ((List.forall₂_and_left ts ms).mpr ⟨fun _ h => h, (h.split hlength).2⟩).imp ?_
  rintro c n ⟨hc, hfield, hdenotes⟩
  refine ⟨hfield, hdenotes.adopted (h.keeps_adopts hadopts e) ?_⟩
  intro e' he
  have hmem : c.index ∉ cs.map Child.index :=
    fun hi => hnodup.2.2 c.index hi c.index (List.mem_map_of_mem hc) rfl
  obtain ⟨is, hget⟩ := hdenotes.get
  rw [hadopts.getElem?_other hmem (h.index_lt (List.mem_append_right cs hc)), he]
  rw [he, Option.some.injEq] at hget
  rw [hget]
  rfl

lemma kinds_adopts (h : Built b₀ b (cs ++ ts) (ns ++ ms)) (hadopts : Adopts b.nodes.length cs b.nodes nodes) {e : Entry}
    (he : e.kind = kind) (fallback : Nat) : (((nodes ++ [e]).drop b₀.nodes.length).map Entry.kind).Perm
      ((Node.preorderAll (.branch kind ns fallback :: ms)).map Node.kind) := by
  have hkinds : ((nodes ++ [e]).drop b₀.nodes.length).map Entry.kind =
      (b.nodes.drop b₀.nodes.length).map Entry.kind ++ [kind] := by
    have hle := h.nodes.length_le
    rw [← he, List.drop_append_of_le_length (hadopts.length_eq ▸ hle), List.map_append, List.map_drop, hadopts.kinds,
      List.map_drop]
    rfl
  have hpre : (Node.preorderAll (.branch kind ns fallback :: ms)).map Node.kind =
      kind :: (Node.preorderAll (ns ++ ms)).map Node.kind := by
    simp [Node.preorderAll_eq, Node.preorder_eq, Node.branch]
  rw [hkinds, hpre]
  exact (List.perm_append_singleton _ _).trans (h.kinds.cons kind)

lemma linked_adopts (h : Built b₀ b (cs ++ ts) (ns ++ ms)) (hadopts : Adopts b.nodes.length cs b.nodes nodes) {e : Entry}
    (he : e.children = cs.map Child.index) (hlinked : Linked b₀.nodes) : Linked (nodes ++ [e]) := by
  have hnodup := h.nodup
  rw [List.map_append, List.nodup_append] at hnodup
  refine (h.linked hlinked).concat (h.keeps_adopts hadopts e) hadopts.length_eq ?_ (he ▸ hnodup.1) ?_
  · intro i e' he'
    by_cases hi : i ∈ cs.map Child.index
    · obtain ⟨c, hc, rfl⟩ := List.mem_map.mp hi
      obtain ⟨n, is, hget⟩ := h.get (List.mem_append_left ts hc)
      rw [hadopts.children c hc _ hget, Option.some.injEq] at he'
      exact ⟨_, hget, he' ▸ rfl⟩
    · exact ⟨e', hadopts.others i hi ▸ he', rfl⟩
  · intro i hi
    rw [he] at hi
    obtain ⟨c, hc, rfl⟩ := List.mem_map.mp hi
    obtain ⟨n, is, hget⟩ := h.get (List.mem_append_left ts hc)
    exact ⟨_, hadopts.children c hc _ hget, rfl⟩

/-- A node over the first ones of what has been built. -/
lemma node (h : Built b₀ b (cs ++ ts) (ns ++ ms)) (hlength : cs.length = ns.length) (hkind : kind ≠ .comment)
    (fallback : Nat) : ∃ i b', b.node kind cs fallback = some (i, b') ∧
      Built b₀ b' (.plain i :: ts) (.branch kind ns fallback :: ms) := by
  have hcs := (h.split hlength).1
  have hnodup := h.nodup
  rw [List.map_append, List.nodup_append] at hnodup
  obtain ⟨nodes, hadopts, hadopt⟩ :=
    adopt_eq b.nodes.length (fun c hc => h.index_lt (List.mem_append_left ts hc)) hnodup.1
  refine ⟨b.nodes.length, ⟨b.text, nodes ++ [_]⟩, ?_, ⟨h.text, h.prefix_adopts hadopts _⟩, ?_, ?_,
    .cons ⟨rfl, h.denotes_branch hlength hadopts kind fallback⟩ (h.denotes_behind hlength hadopts _),
    h.kinds_adopts hadopts rfl fallback, h.linked_adopts hadopts rfl⟩
  · simp only [TreeBuilder.node, hull_eq hcs, leafData_eq, hadopt, any_hasError hcs, Option.bind_eq_bind,
      Option.bind_some, push, hadopts.length_eq]
    simp [Node.entry, Node.branch, Node.hasError_eq, Node.extra, hkind, h.text]
  · rw [List.map_cons, List.nodup_cons]
    refine ⟨?_, hnodup.2.1⟩
    intro hmem
    obtain ⟨c, hc, heq⟩ := List.mem_map.mp hmem
    exact absurd heq (Nat.ne_of_lt (h.index_lt (List.mem_append_right cs hc)))
  · intro c hc
    rcases List.mem_cons.mp hc with rfl | hc
    · exact h.nodes.length_le
    · exact h.fresh c (List.mem_append_right cs hc)

end Built

/-! ## The root -/

lemma point_zero (cs : List Char) : (LineTable.ofText cs).point 0 = ⟨0, 0⟩ := by
  obtain ⟨before, start, after, -, hle, hbefore, -, hpoint⟩ := starts_split cs 0
  obtain rfl : start = 0 := by omega
  have hnil : before = [] := List.eq_nil_iff_forall_not_mem.mpr fun s hs => absurd (hbefore s hs) (Nat.not_lt_zero s)
  rw [hpoint, hnil]
  rfl

/-- The root of a document spans the whole text. -/
lemma Built.finish {text : List Char} (h : Built (.empty text) b cs ns) : ∃ i b', b.finish cs = some (i, b') ∧
    Denotes (.ofText text) b'.nodes none none i (.root ns text) ∧
    b'.nodes.length = (Node.root ns text).preorder.length := by
  obtain ⟨i, b', hnode, hbuilt⟩ := Built.node (show Built _ b (cs ++ []) (ns ++ []) by simpa using h) h.length_eq
    (show Kind.sourceFile ≠ .comment by decide) 0
  obtain ⟨-, hdenotes⟩ := forall₂_getElem? (k := 0) hbuilt.denotes rfl rfl
  have htext : b'.text = text := hbuilt.text
  obtain ⟨entry, length, children⟩ := hdenotes
  change b'.nodes[i]? = some (Node.entry (.ofText text) _ _ _ _) at entry
  have hlt := (List.getElem?_eq_some_iff.mp entry).1
  rw [TreeBuilder.finish, hnode, Option.bind_eq_bind, Option.bind_some]
  dsimp only
  rw [htext, point?_eq, Option.bind_eq_bind, Option.bind_some, entry, Option.bind_eq_bind,
    Option.bind_some, htext]
  refine ⟨_, _, rfl, .intro ?_ length ?_, ?_⟩
  · rw [List.getElem?_set_self hlt]
    simp [Node.entry, Node.root, Node.branch, Node.hasError_eq, Node.extra, point_zero]
  · intro k j m hj hm
    refine (children k j m hj hm).keeps ?_ (by simp)
    intro i' e he hp
    rw [List.getElem?_set_ne ?_, he]
    rintro rfl
    rw [he, Option.some.injEq] at entry
    rw [entry] at hp
    exact hp rfl
  · have hsize : (Node.preorderAll [.branch .sourceFile ns 0]).length = (Node.root ns text).preorder.length := by
      rw [Node.preorderAll_eq, List.flatMap_singleton, Node.preorder_eq, Node.preorder_eq (Node.root ns text)]
      rfl
    have hlength := hbuilt.kinds.length_eq
    rw [List.length_map, List.length_map, hsize] at hlength
    rw [← hlength, List.length_set]
    rfl

lemma Built.finish_linked {text : List Char} {i : Nat} (h : Built (.empty text) b cs ns) (hfinish : b.finish cs = some (i, b')) :
    Linked b'.nodes := by
  obtain ⟨j, b'', hnode, hbuilt⟩ := Built.node (show Built _ b (cs ++ []) (ns ++ []) by simpa using h) h.length_eq
    (show Kind.sourceFile ≠ .comment by decide) 0
  have hlinked := hbuilt.linked linked_nil
  rw [TreeBuilder.finish, hnode, Option.bind_eq_bind, Option.bind_some] at hfinish
  simp only [Option.bind_eq_bind, Option.bind_eq_some_iff] at hfinish
  obtain ⟨stopPoint, -, e, he, heq⟩ := hfinish
  obtain ⟨rfl, rfl⟩ := Prod.mk.inj (Option.some.inj heq)
  exact hlinked.set he rfl rfl

end

end TreeBuilder

/-! ## Looking at nodes -/

lemma Denotes.kindOf {table : LineTable} {b : TreeBuilder} {n : Node} {parent : Option Nat} {field : Option Field} {i : Nat}
    (h : Denotes table b.nodes parent field i n) : b.kindOf i = some n.kind := by
  obtain ⟨is, hget⟩ := h.get
  rw [TreeBuilder.kindOf, hget]
  rfl

lemma Denotes.endOf {table : LineTable} {b : TreeBuilder} {n : Node} {parent : Option Nat} {field : Option Field} {i : Nat}
    (h : Denotes table b.nodes parent field i n) : b.endOf i = some n.span.stop := by
  obtain ⟨is, hget⟩ := h.get
  rw [TreeBuilder.endOf, hget]
  rfl

end RenpyScript
