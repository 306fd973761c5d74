import RenpyScript.Proofs.Line.Derivation

/-!
# Compound nodes begin lines

Headers, Python blocks and the statements that may have a block are the compound nodes of a script. What a line
says by itself has one of them at most, and it begins with that: nothing else in the line is compound or holds a
compound node.
-/

namespace RenpyScript

open Node Production

/-- Kinds of nodes that may hold a block, or lines of Python, of their own. -/
def Kind.isCompound : Kind → Bool
  | .header | .pythonBlock | .renpyStatement | .controlStatement => true
  | _ => false

namespace Node

/-- Neither the node nor one below it is compound. -/
def Simple (n : Node) : Prop :=
  ∀ m ∈ n.preorder, m.kind.isCompound = false

section
variable {n : Node} {ns : List Node} {kind : Kind} {kinds : List Kind}

lemma simple_iff : n.Simple ↔ n.kind.isCompound = false ∧ ∀ c ∈ n.children, c.Simple := by
  unfold Simple
  rw [preorder_eq, List.forall_mem_cons, List.forall_mem_flatMap]

lemma Simple.under (h : n.Simple) (field : Field) : (n.under field).Simple := by
  rw [simple_iff] at h ⊢
  exact h

lemma simple_under (h : ∀ n ∈ ns, n.Simple) (field : Field) : ∀ n ∈ ns.map (·.under field), n.Simple :=
  List.forall_mem_map.mpr fun n hn => (h n hn).under field

lemma simple_leaf (h : kind.isCompound = false) (span : Span) : (leaf kind span).Simple :=
  simple_iff.mpr ⟨h, by simp [leaf]⟩

lemma simple_absent (h : kind.isCompound = false) (offset : Nat) : (absent kind offset).Simple :=
  simple_iff.mpr ⟨h, by simp [absent]⟩

lemma simple_branch (h : kind.isCompound = false) (hns : ∀ n ∈ ns, n.Simple) (fallback : Nat) :
    (branch kind ns fallback).Simple :=
  simple_iff.mpr ⟨h, hns⟩

lemma isCompound_of_isToken (h : kind.isToken = true) : kind.isCompound = false := by
  cases kind with
  | header | pythonBlock | renpyStatement | controlStatement => exact absurd h Bool.false_ne_true
  | _ => rfl

lemma Grammatical.simple (h : n.Grammatical) (hkind : n.kind.isToken = true) : n.Simple := by
  have hnil := (grammatical_iff.mp h).1.token hkind
  exact simple_iff.mpr ⟨isCompound_of_isToken hkind, by simp [hnil]⟩

lemma IsItem.simple (h : n.IsItem kinds) (hkinds : ∀ k ∈ kinds, k.isToken = true) : n.Simple := by
  refine h.grammatical.simple ?_
  rcases h.comment_or with hcomment | ⟨-, hkind⟩
  · rw [hcomment]
    rfl
  · exact hkinds n.kind hkind

lemma Derives.simple_token (h : Derives (child kind) [n]) (hkind : kind.isToken = true) : n.Simple :=
  (h.isItem_of_child (List.mem_singleton_self kind)).simple fun _ hk => List.mem_singleton.mp hk ▸ hkind

end

end Node

namespace Unread

def YieldsSimple (read? : Unread → Option (Node × Unread)) : Prop :=
  ∀ u n v, read? u = some (n, v) → n.Simple

section
variable {read? read?' : Unread → Option (Node × Unread)} {kind : Kind} {u v : Unread} {n : Node}

lemma YieldsNode.simple (h : YieldsNode (child kind) read?) (hkind : kind.isToken = true) : YieldsSimple read? :=
  fun u n v hread => (h u n v hread).simple_token hkind

lemma YieldsSimple.orElse (h : YieldsSimple read?) (h' : YieldsSimple read?') :
    YieldsSimple fun u => read? u <|> read?' u := by
  intro u n v hread
  rcases hr : read? u with _ | ⟨m, w⟩
  · exact h' u n v (by simpa [hr] using hread)
  · exact h u n v (by simpa [hr] using hread)

lemma YieldsSimple.many (h : YieldsSimple read?) (u : Unread) : ∀ n ∈ (Unread.many read? u).1, n.Simple :=
  forall_mem_many h u

lemma YieldsSimple.optional (h : YieldsSimple read?) (u : Unread) : ∀ n ∈ (Unread.optional read? u).1, n.Simple := by
  rw [Unread.optional]
  rcases hr : read? u with _ | ⟨n, v⟩
  · simp
  · simpa using h u n v hr

/-! ## Tokens, strings and arguments -/

lemma simple_keyword {inClass : Keyword → Bool} (h : u.keyword? inClass = some (n, v)) : n.Simple := by
  obtain ⟨k, -, hderives⟩ := keyword?_yields h
  exact hderives.simple_token rfl

lemma simple_of_finish? {comments : List Node} (h : u.finish? = some comments) : ∀ n ∈ comments, n.Simple := by
  intro n hn
  have hitem : n.IsItem [] := (finish?_derives h).isItem n hn
  exact hitem.simple (by simp)

lemma yieldsSimple_comment? : YieldsSimple comment? := by
  intro u n v h
  have hitem : n.IsItem [] := comment?_isItem h
  exact hitem.simple (by simp)

lemma yieldsSimple_trimmedToken? {length : List Char → Nat} {trim : Char → Bool} (h : kind.isCompound = false) :
    YieldsSimple (trimmedToken? kind length trim) := by
  intro u n v hread
  obtain ⟨-, rfl, -⟩ := trimmedToken?_eq_some_iff.mp hread
  exact simple_leaf h _

lemma yieldsSimple_char? {c : Char} (h : kind.isCompound = false) : YieldsSimple (char? c kind) := by
  intro u n v hread
  obtain ⟨-, rfl, -⟩ := token?_eq_some_iff.mp hread
  exact simple_leaf h _

end

end Unread

lemma Delimiter.isCompound_kind (d : Delimiter) : d.kind.isCompound = false := by
  unfold Delimiter.kind
  split
  · split
    · rfl
    · rfl
  · split
    · rfl
    · rfl

namespace Unread

lemma yieldsSimple_string? : YieldsSimple string? := by
  intro u n v h
  obtain ⟨d, -, rfl, -⟩ := string?_eq_some_iff.mp h
  have hopening : (u.openingDelimiter d).Simple := simple_leaf d.isCompound_kind _
  have hescapes : ∀ n ∈ (StringBody.read d (u.insideString d).pos (u.insideString d).rest).escapes, n.Simple :=
    fun n hn => (StringBody.read_isItem d _ _ n hn).simple (by decide)
  have hclosing : (u.closingDelimiter d).Simple := by
    unfold closingDelimiter
    split
    · exact simple_leaf d.isCompound_kind _
    · exact simple_absent d.isCompound_kind _
  refine simple_branch rfl (fun n hn => ?_) _
  rcases List.mem_append.mp hn with hn | hn
  · rcases List.mem_cons.mp hn with rfl | hn
    · exact hopening
    · exact hescapes n hn
  · rwa [List.mem_singleton.mp hn]

lemma simple_of_commaName? {u v : Unread} {ns : List Node} (h : u.commaName? = some (ns, v)) : ∀ n ∈ ns, n.Simple := by
  simp only [commaName?, Option.bind_eq_bind, Option.bind_eq_some_iff, Option.pure_def,
    Option.some.injEq, Prod.mk.injEq, Prod.exists] at h
  obtain ⟨comma, u₁, hcomma, name, u₂, hname, rfl, rfl⟩ := h
  have hcomma := yieldsSimple_char? rfl u comma u₁ hcomma
  have hname := yields_name?.simple rfl u₁ name u₂ hname
  simp [hcomma, hname]

lemma yieldsSimple_arguments? : YieldsSimple arguments? := by
  intro u n v h
  simp only [arguments?, Option.bind_eq_bind, Option.bind_eq_some_iff, Option.pure_def,
    Prod.exists] at h
  obtain ⟨opening, u₁, hopening, h⟩ := h
  have hopening := yieldsSimple_char? rfl u opening u₁ hopening
  split at h
  · next closing u₂ hclosing =>
    obtain ⟨rfl, rfl⟩ : _ ∧ _ := by simpa using h
    have hclosing := yieldsSimple_char? rfl u₁ closing u₂ hclosing
    exact simple_branch rfl (by simp [hopening, hclosing]) _
  · simp only [Option.bind_eq_some_iff, Option.some.injEq, Prod.mk.injEq, Prod.exists] at h
    obtain ⟨first, u₂, hfirst, closing, u₄, hclosing, rfl, rfl⟩ := h
    have hfirst := yields_name?.simple rfl u₁ first u₂ hfirst
    have hmore : ∀ n ∈ (many commaName? u₂).1.flatten, n.Simple :=
      List.forall_mem_flatten.mpr (forall_mem_many (fun _ _ _ => simple_of_commaName?) u₂)
    have hclosing := yieldsSimple_char? rfl _ closing u₄ hclosing
    refine simple_branch rfl ?_ _
    simp only [List.forall_mem_append, List.forall_mem_cons]
    exact ⟨⟨hopening, hfirst, hmore⟩, hclosing, by simp⟩

lemma yieldsSimple_argument? : YieldsSimple argument? :=
  yieldsSimple_string?.orElse
    (yieldsSimple_arguments?.orElse ((yields_number?.simple rfl).orElse (yields_name?.simple rfl)))

end Unread

/-! ## Forms -/

/-- Only the first item of a line may be compound, or have a child that is; neither has compound nodes below. -/
inductive Form.Shallow : Form → Prop
  | simple {nodes : List Node} (nodes_simple : ∀ n ∈ nodes, n.Simple) : Shallow (.items nodes)
  | statement {node : Node} {comments : List Node} (children_simple : ∀ c ∈ node.children, c.Simple)
      (comments_simple : ∀ n ∈ comments, n.Simple) : Shallow (Unread.statementItems node comments)
  | opens {owner : Owner} (head_simple : ∀ n ∈ owner.head, n.Simple) (kind : owner.kind.isCompound = true) :
      Shallow (.opens owner)
  | opensPython {head : List Node} (head_simple : ∀ n ∈ head, n.Simple) : Shallow (.opensPython head)

namespace Unread
variable {u v : Unread}

lemma optionalArguments?_simple {args : List Node} (h : u.optionalArguments? = some (args, v)) :
    ∀ n ∈ args, n.Simple := by
  unfold optionalArguments? at h
  split at h
  · simp only [Option.map_eq_some_iff, Prod.mk.injEq, Prod.exists] at h
    obtain ⟨n, w, hread, rfl, rfl⟩ := h
    simpa using yieldsSimple_arguments? u n w hread
  · obtain ⟨rfl, rfl⟩ : _ ∧ _ := by simpa using h
    simp

lemma headerColon?_simple {bodyFollows : Bool} {headEnd : Nat} {colon : Node}
    (h : u.headerColon? bodyFollows headEnd = some (colon, v)) : colon.Simple :=
  (headerColon?_derives h).simple_token rfl

lemma header?_shallow {bodyFollows : Bool} {owner : Owner} (h : u.header? bodyFollows = some owner) :
    (Form.opens owner).Shallow := by
  simp only [header?, Option.bind_eq_bind, Option.bind_eq_some_iff, Option.pure_def,
    Option.some.injEq, Prod.exists] at h
  obtain ⟨keyword, u₁, hkeyword, args, u₄, hargs, colon, u₅, hcolon, comments, hfinish, rfl⟩ := h
  have hkeyword := (simple_keyword hkeyword).under .keyword
  have hpriority := simple_under ((yields_number?.simple rfl).optional u₁) .priority
  have hname := simple_under ((yields_dottedName?.simple rfl).optional (optional number? u₁).2) .identifier
  have hargs := simple_under (optionalArguments?_simple hargs) .args
  have hcolon := headerColon?_simple hcolon
  refine .opens ?_ rfl
  simp only [List.forall_mem_append, List.forall_mem_cons]
  exact ⟨⟨⟨⟨hkeyword, hpriority⟩, hname⟩, hargs⟩, hcolon, simple_of_finish? hfinish⟩

lemma pythonModifier_simple (u : Unread) : ∀ n ∈ u.pythonModifier.1, n.Simple := by
  unfold pythonModifier
  split
  · simp
  · next keyword v hkeyword =>
    have hpriority := simple_under ((yields_number?.simple rfl).optional v) .priority
    exact List.forall_mem_cons.mpr ⟨(simple_keyword hkeyword).under .keyword, hpriority⟩

lemma pythonBlock?_shallow {head : List Node} (h : u.pythonBlock? = some head) :
    (Form.opensPython head).Shallow := by
  simp only [pythonBlock?, Option.bind_eq_bind, Option.bind_eq_some_iff, Option.pure_def,
    Option.some.injEq, Prod.exists] at h
  obtain ⟨python, u₂, hpython, colon, u₄, hcolon, comments, hfinish, rfl⟩ := h
  have hpython := simple_keyword hpython
  have hnames := (yields_name?.simple rfl).many u₂
  have hcolon := yieldsSimple_char? rfl _ colon u₄ hcolon
  refine .opensPython ?_
  simp only [List.forall_mem_append, List.forall_mem_cons]
  exact ⟨⟨u.pythonModifier_simple, hpython, hnames⟩, hcolon, simple_of_finish? hfinish⟩

/-! ## Statements -/

lemma controlStatement?_shallow {form : Form} (h : u.controlStatement? = some form) : form.Shallow := by
  simp only [controlStatement?, Option.bind_eq_bind, Option.bind_eq_some_iff, Option.pure_def,
    Prod.exists] at h
  obtain ⟨keyword, u₁, hkeyword, whole, u₂, hwhole, comments, hfinish, h⟩ := h
  have hkeyword := (simple_keyword hkeyword).under .keyword
  have hcomments := simple_of_finish? hfinish
  split at h
  · split at h
    · simp at h
    · obtain rfl := (Option.some.injEq _ _).mp h
      refine .opens ?_ rfl
      simp only [List.forall_mem_cons]
      exact ⟨hkeyword, simple_leaf rfl _, simple_leaf rfl _, hcomments⟩
  · obtain rfl := (Option.some.injEq _ _).mp h
    have hwhole := yields_expression?.simple rfl u₁ whole u₂ hwhole
    refine .statement ?_ hcomments
    simpa [branch] using ⟨hkeyword, hwhole⟩

lemma expressionOrAbsent_simple (pos : Nat) (u : Unread) : (u.expressionOrAbsent pos).1.Simple :=
  (expressionOrAbsent_derives pos u).simple_token rfl

lemma defineStatement?_shallow {form : Form} (h : u.defineStatement? = some form) : form.Shallow := by
  simp only [defineStatement?, Option.bind_eq_bind, Option.bind_eq_some_iff, Option.pure_def,
    Option.some.injEq, Prod.exists] at h
  obtain ⟨keyword, u₁, hkeyword, name, u₂, hname, equals, u₃, hequals, comments, hfinish, rfl⟩ := h
  have hkeyword := (simple_keyword hkeyword).under .keyword
  have hname := yields_dottedName?.simple rfl u₁ name u₂ hname
  have hequals := yieldsSimple_char? rfl u₂ equals u₃ hequals
  refine .statement ?_ (simple_of_finish? hfinish)
  simpa [branch] using ⟨hkeyword, hname, hequals, expressionOrAbsent_simple _ u₃⟩

lemma renpyStatement?_shallow {form : Form} (h : u.renpyStatement? = some form) : form.Shallow := by
  simp only [renpyStatement?, Option.bind_eq_bind, Option.bind_eq_some_iff, Option.pure_def,
    Prod.exists] at h
  obtain ⟨keyword, u₁, hkeyword, h⟩ := h
  have hkeyword := (simple_keyword hkeyword).under .keyword
  have hhead := List.forall_mem_cons.mpr ⟨hkeyword, yieldsSimple_argument?.many u₁⟩
  split at h
  · next colon u₃ hcolon =>
    simp only [Option.bind_eq_some_iff, Option.some.injEq] at h
    obtain ⟨comments, hfinish, rfl⟩ := h
    have hcolon := yieldsSimple_char? rfl _ colon u₃ hcolon
    refine .opens (List.forall_mem_append.mpr ⟨hhead, ?_⟩) rfl
    exact List.forall_mem_cons.mpr ⟨hcolon, simple_of_finish? hfinish⟩
  · simp only [Option.bind_eq_some_iff] at h
    obtain ⟨comments, hfinish, h⟩ := h
    split at h
    · simp at h
    · obtain rfl := (Option.some.injEq _ _).mp h
      exact .statement hhead (simple_of_finish? hfinish)

lemma statement?_shallow {form : Form} (h : u.statement? = some form) : form.Shallow := by
  simp only [statement?, Option.orElse_eq_orElse, Option.orElse_eq_or, Option.or_eq_some_iff] at h
  rcases h with h | ⟨-, h | ⟨-, h⟩⟩
  · exact controlStatement?_shallow h
  · exact defineStatement?_shallow h
  · exact renpyStatement?_shallow h

/-! ## Lines of Python and dialogue -/

lemma pythonInline?_simple {nodes : List Node} (h : u.pythonInline? = some nodes) : ∀ n ∈ nodes, n.Simple := by
  simp only [pythonInline?, Option.bind_eq_bind, Option.bind_eq_some_iff, Option.pure_def,
    Option.some.injEq, Prod.exists] at h
  obtain ⟨dollar, u₁, hdollar, comments, hfinish, rfl⟩ := h
  have hdollar := yieldsSimple_char? rfl u dollar u₁ hdollar
  have hchildren := List.forall_mem_cons.mpr
    ⟨hdollar, List.forall_mem_singleton.mpr (expressionOrAbsent_simple dollar.span.stop u₁)⟩
  exact List.forall_mem_cons.mpr ⟨simple_branch rfl hchildren _, simple_of_finish? hfinish⟩

lemma strings?_simple {nodes : List Node} (h : u.strings? = some nodes) : ∀ n ∈ nodes, n.Simple := by
  simp only [strings?] at h
  split at h
  · simp at h
  · obtain ⟨comments, hfinish, rfl⟩ := Option.map_eq_some_iff.mp h
    exact List.forall_mem_append.mpr ⟨yieldsSimple_string?.many u, simple_of_finish? hfinish⟩

lemma expressionPieces_simple {kind : Kind} (hkind : kind.isCompound = false) (u : Unread) :
    ∀ n ∈ u.expressionPieces kind, n.Simple :=
  ((yieldsSimple_trimmedToken? hkind).orElse yieldsSimple_comment?).many u

lemma yieldsSimple_dialoguePiece? : YieldsSimple dialoguePiece? := by
  intro u n v h
  unfold dialoguePiece? at h
  split at h
  · simp at h
  · exact yieldsSimple_comment? u n v h
  · exact yieldsSimple_string? u n v h
  · exact yieldsSimple_char? rfl u n v h
  · exact yields_pythonRun?.simple rfl u n v h

lemma yieldsSimple_singleQuoted? : YieldsSimple singleQuoted? := by
  intro u n v h
  unfold singleQuoted? at h
  split at h
  · exact yieldsSimple_string? u n v h
  · simp at h

lemma dialogue_simple (u : Unread) : ∀ n ∈ u.dialogue, n.Simple :=
  List.forall_mem_append.mpr ⟨yieldsSimple_singleQuoted?.optional u, yieldsSimple_dialoguePiece?.many _⟩

end Unread

namespace Form

lemma shallow_getD {o : Option Form} {last : Form} (h : ∀ form, o = some form → form.Shallow)
    (hlast : last.Shallow) : (o.getD last).Shallow := by
  cases o with
  | none => exact hlast
  | some form => exact h form rfl

theorem topLevel_shallow (bodyFollows : Bool) (u : Unread) : (topLevel bodyFollows u).Shallow := by
  unfold topLevel
  refine shallow_getD ?_ (.simple (Unread.expressionPieces_simple rfl u))
  intro form h
  simp only [Option.orElse_eq_orElse, Option.orElse_eq_or, Option.or_eq_some_iff,
    Option.map_eq_some_iff] at h
  rcases h with ⟨head, h, rfl⟩ | ⟨-, ⟨owner, h, rfl⟩ | ⟨-, h | ⟨-, nodes, h, rfl⟩⟩⟩
  · exact Unread.pythonBlock?_shallow h
  · exact Unread.header?_shallow h
  · exact Unread.statement?_shallow h
  · exact .simple (Unread.strings?_simple h)

theorem nested_shallow (u : Unread) : (nested u).Shallow := by
  unfold nested
  refine shallow_getD ?_ (.simple u.dialogue_simple)
  intro form h
  simp only [Option.orElse_eq_orElse, Option.orElse_eq_or, Option.or_eq_some_iff,
    Option.map_eq_some_iff] at h
  rcases h with ⟨head, h, rfl⟩ | ⟨-, ⟨nodes, h, rfl⟩ | ⟨-, h⟩⟩
  · exact Unread.pythonBlock?_shallow h
  · exact .simple (Unread.pythonInline?_simple h)
  · exact Unread.statement?_shallow h

end Form

end RenpyScript
