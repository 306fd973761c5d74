import RenpyScript.Proofs.Line.Form
import RenpyScript.Proofs.Tree.Derivation

/-!
# Lines are grammatical

What a line says by itself is derived by the grammar as far as it goes: complete nodes are items of the
level that the line stands on, a node that lacks its block lacks nothing else, and a Python block lacks
nothing but expressions.
-/

namespace RenpyScript

open Node Production

/-! ## Strings -/

lemma Delimiter.nil_mem_production (d : Delimiter) : [] ∈ d.kind.production.matches' := by
  unfold Delimiter.kind
  split
  · split
    · rfl
    · rfl
  · split
    · rfl
    · rfl

lemma Delimiter.mayBeMissing_kind (d : Delimiter) : d.kind.mayBeMissing = true := by
  unfold Delimiter.kind
  split
  · split
    · rfl
    · rfl
  · split
    · rfl
    · rfl

lemma Delimiter.derives_string {d : Delimiter} {ns : List Node} (h : Derives (Production.quoted d.kind) ns) :
    Derives Kind.string.production ns := by
  unfold Delimiter.kind at h
  split at h
  · split at h
    · exact (h.right _).left _
    · exact ((h.left _).left _).left _
  · split at h
    · exact h.right _
    · exact ((h.right _).left _).left _

namespace StringBody

lemma isItem_escape (kind : Kind) (h : [] ∈ kind.production.matches') (pos : Nat)
    (hkind : kind ∈ [Kind.escapeSequence, .escapeInterpolation]) :
    (leaf kind ⟨pos, pos + 2⟩).IsItem [.escapeSequence, .escapeInterpolation] :=
  ⟨grammatical_leaf _ h _, Or.inr ⟨rfl, hkind⟩⟩

lemma read_isItem (d : Delimiter) (pos : Nat) (cs : List Char) :
    ∀ n ∈ (read d pos cs).escapes, n.IsItem [.escapeSequence, .escapeInterpolation] := by
  fun_induction read d pos cs with
  | case1 | case2 | case3 | case4 | case8 | case9 => simp
  | case5 pos e cs he ih => exact List.forall_mem_cons.mpr ⟨isItem_escape .escapeSequence rfl pos (by simp), ih⟩
  | case6 pos e cs he ih => exact ih
  | case7 pos c e cs hc hdouble ih =>
    exact List.forall_mem_cons.mpr ⟨isItem_escape .escapeInterpolation rfl pos (by simp), ih⟩
  | case10 pos c e cs hc hdouble hd hn ih => exact ih

end StringBody

namespace Unread

/-! ## Readers -/

def Yields {α : Type} (p : Production) (nodes : α → List Node) (read? : Unread → Option (α × Unread)) : Prop :=
  ∀ u a v, read? u = some (a, v) → Derives p (nodes a)

/-- Whatever node is read derives the production. -/
abbrev YieldsNode (p : Production) (read? : Unread → Option (Node × Unread)) : Prop :=
  Yields p (fun n => [n]) read?

section
variable {α : Type} {nodes : α → List Node} {p : Production} {read? read?' : Unread → Option (α × Unread)}

lemma Yields.orElse (h : Yields p nodes read?) (h' : Yields p nodes read?') :
    Yields p nodes (fun u => read? u <|> read?' u) := by
  intro u a v hread
  rcases hr : read? u with _ | ⟨b, w⟩
  · exact h' u a v (by simpa [hr] using hread)
  · exact h u a v (by simpa [hr] using hread)

lemma Yields.mem_many (h : Yields p nodes read?) (u : Unread) : ∀ a ∈ (many read? u).1, Derives p (nodes a) :=
  forall_mem_many h u

lemma Yields.many (h : Yields p nodes read?) (u : Unread) :
    Derives p.star ((Unread.many read? u).1.flatMap nodes) :=
  Derives.flatMap (h.mem_many u)

end

section
variable {p : Production} {u v : Unread} {n : Node} {kind : Kind} {length : List Char → Nat}
  {trim : Char → Bool} {read? : Unread → Option (Node × Unread)}

lemma YieldsNode.many (h : YieldsNode p read?) (u : Unread) : Derives p.star (Unread.many read? u).1 := by
  simpa using Yields.many h u

lemma YieldsNode.optional_under (h : YieldsNode (child kind) read?) (field : Field) (u : Unread) :
    Derives (Production.optional (childUnder field kind)) ((optional read? u).1.map (·.under field)) := by
  rw [Unread.optional]
  rcases hr : read? u with _ | ⟨n, v⟩
  · exact derives_optional_nil _
  · exact ((h u n v hr).childUnder field).optional

lemma yields_token? (h : [] ∈ kind.production.matches') (hkind : kind ≠ .comment) :
    YieldsNode (child kind) (token? kind length) := by
  intro u n v hread
  obtain ⟨-, rfl, -⟩ := token?_eq_some_iff.mp hread
  exact derives_child (grammatical_leaf _ h _) hkind rfl

lemma yields_trimmedToken? (h : [] ∈ kind.production.matches') (hkind : kind ≠ .comment) :
    YieldsNode (child kind) (trimmedToken? kind length trim) := by
  intro u n v hread
  obtain ⟨-, rfl, -⟩ := trimmedToken?_eq_some_iff.mp hread
  exact derives_child (grammatical_leaf _ h _) hkind rfl

lemma yields_name? : YieldsNode (child .identifier) name? :=
  yields_token? rfl (by decide)

lemma yields_dottedName? : YieldsNode (child .identifier) dottedName? :=
  yields_token? rfl (by decide)

lemma yields_number? : YieldsNode (child .number) number? :=
  yields_token? rfl (by decide)

lemma yields_char? {c : Char} (kind : Kind) (h : [] ∈ kind.production.matches') (hkind : kind ≠ .comment) :
    YieldsNode (child kind) (char? c kind) :=
  yields_token? h hkind

lemma yields_expression? : YieldsNode (child .pythonExpression) (expression? .pythonExpression) :=
  yields_trimmedToken? rfl (by decide)

lemma yields_pythonRun? : YieldsNode (child .pythonExpression) pythonRun? :=
  yields_trimmedToken? rfl (by decide)

lemma keyword?_yields {inClass : Keyword → Bool} (h : u.keyword? inClass = some (n, v)) :
    ∃ k, inClass k = true ∧ Derives (child (.keyword k)) [n] := by
  unfold keyword? at h
  split at h
  · next k _ =>
    split at h
    · next hclass =>
      have hleaf : [] ∈ (Kind.keyword k).production.matches' := rfl
      exact ⟨k, hclass, yields_token? hleaf (by simp) u n v h⟩
    · simp at h
  · simp at h

lemma keyword?_derives {inClass : Keyword → Bool} (words : List Keyword)
    (hclass : ∀ k, inClass k = true → k ∈ words) (h : u.keyword? inClass = some (n, v)) :
    Derives (keywordOf words) [n.under .keyword] := by
  obtain ⟨k, hk, hn⟩ := keyword?_yields h
  exact (hn.childUnder .keyword).of_sum (List.mem_map_of_mem (hclass k hk))

lemma yields_comment? : YieldsNode 1 comment? := by
  intro u n v hread
  obtain ⟨-, rfl, -⟩ := trimmedToken?_eq_some_iff.mp hread
  exact derives_one (by simpa [leaf] using grammatical_leaf .comment rfl _)

lemma finish?_derives {comments : List Node} (h : u.finish? = some comments) : Derives 1 comments := by
  change (if (many comment? u).2.peek? = none then some (many comment? u).1 else none) = _ at h
  split at h
  · obtain rfl : (many comment? u).1 = comments := by simpa using h
    refine derives_one fun n hn => ?_
    have hone := yields_comment?.mem_many u n hn
    have hitem : n.IsItem [] := hone.isItem n (by simp)
    exact ⟨by simpa using hitem.comment_or, hitem.grammatical⟩
  · simp at h

end

/-! ## Strings and arguments -/

lemma yields_string? : YieldsNode (child .string) string? := by
  intro u n v h
  obtain ⟨d, -, rfl, -⟩ := string?_eq_some_iff.mp h
  have hopening : Derives (child d.kind) [u.openingDelimiter d] :=
    derives_child (grammatical_leaf _ d.nil_mem_production _) d.kind_ne_comment rfl
  have hescapes := derives_items (StringBody.read_isItem d (u.insideString d).pos (u.insideString d).rest)
  have hclosing : Derives (child d.kind) [u.closingDelimiter d] := by
    unfold closingDelimiter
    split
    · exact derives_child (grammatical_leaf _ d.nil_mem_production _) d.kind_ne_comment rfl
    · exact derives_child (grammatical_absent _ d.nil_mem_production d.mayBeMissing_kind _) d.kind_ne_comment rfl
  have hparts : Derives (Production.quoted d.kind) (u.stringParts d) := (hopening.append hescapes).append hclosing
  exact derives_child ((d.derives_string hparts).branch rfl _) (by simp [branch]) rfl

lemma yields_commaName? : Yields (child .comma * child .identifier) id commaName? := by
  intro u ns v h
  simp only [commaName?, Option.bind_eq_bind, Option.bind_eq_some_iff, Option.pure_def,
    Option.some.injEq, Prod.mk.injEq, Prod.exists] at h
  obtain ⟨comma, u₁, hcomma, name, u₂, hname, rfl, rfl⟩ := h
  have hcomma := yields_char? .comma rfl (by decide) u comma u₁ hcomma
  exact hcomma.append (yields_name? u₁ name u₂ hname)

lemma yields_arguments? : YieldsNode (child .arguments) arguments? := by
  intro u n v h
  simp only [arguments?, Option.bind_eq_bind, Option.bind_eq_some_iff, Option.pure_def,
    Prod.exists] at h
  obtain ⟨opening, u₁, hopening, h⟩ := h
  have hopening := yields_char? .leftParen rfl (by decide) u opening u₁ hopening
  split at h
  · next closing u₂ hclosing =>
    obtain ⟨rfl, rfl⟩ : _ ∧ _ := by simpa using h
    have hclosing := yields_char? .rightParen rfl (by decide) u₁ closing u₂ hclosing
    have hparts : Derives Kind.arguments.production [opening, closing] :=
      (hopening.append (derives_optional_nil _)).append hclosing
    exact derives_child (hparts.branch rfl _) (by simp [branch]) rfl
  · simp only [Option.bind_eq_some_iff, Option.some.injEq, Prod.mk.injEq, Prod.exists] at h
    obtain ⟨first, u₂, hfirst, closing, u₄, hclosing, rfl, rfl⟩ := h
    have hfirst := yields_name? u₁ first u₂ hfirst
    have hmore := yields_commaName?.many u₂
    rw [List.flatMap_id] at hmore
    have hclosing := yields_char? .rightParen rfl (by decide) _ closing u₄ hclosing
    have hparts : Derives Kind.arguments.production (opening :: first :: (many commaName? u₂).1.flatten ++ [closing]) :=
      (hopening.append (hfirst.append hmore).optional).append hclosing
    exact derives_child (hparts.branch rfl _) (by simp [branch]) rfl

end Unread

/-! ## Forms -/

/-- The head of a node to which a block may be added, with comments in front of it. -/
def Owner.Begins (o : Owner) : Prop :=
  o.kind.isToken = false ∧ ∀ comments block, Derives 1 comments → Derives (child .block) [block] →
    Derives o.kind.production (o.head ++ comments ++ [block.under .body])

/-- The head of a Python block to which expressions may be added, with comments among them. -/
def BeginsPython (head : List Node) : Prop :=
  ∀ body, Derives (child .pythonExpression * (child .pythonExpression).star) body →
    Derives Kind.pythonBlock.production (head ++ body)

/-- What a line says by itself is derived by the grammar, for a line among items of the given kinds. -/
inductive Form.Grammatical (kinds : List Kind) : Form → Prop
  | items {nodes : List Node} (isItem : ∀ n ∈ nodes, n.IsItem kinds) : Grammatical kinds (.items nodes)
  | opensHeader {owner : Owner} (kind : owner.kind = .header) (mem : Kind.header ∈ kinds)
      (begins : owner.Begins) : Grammatical kinds (.opens owner)
  | opensStatement {owner : Owner} (kind : owner.kind ∈ [Kind.controlStatement, .defineStatement, .renpyStatement])
      (begins : owner.Begins) : Grammatical kinds (.opens owner)
  | opensPython {head : List Node} (begins : BeginsPython head) : Grammatical kinds (.opensPython head)

lemma Owner.begins_of_body (kind : Kind) {p : Production} {head comments : List Node} {colon : Node}
    (hkind : kind.isToken = false) (hp : ∀ ns, Derives (p * body) ns → Derives kind.production ns)
    (hhead : Derives p head) (hcolon : Derives (child .colon) [colon]) (hcomments : Derives 1 comments) :
    Owner.Begins ⟨kind, head ++ colon :: comments⟩ := by
  refine ⟨hkind, fun comments' block hcomments' hblock => ?_⟩
  have hbody : Derives body ([colon] ++ comments ++ comments' ++ [block.under .body]) :=
    ((hcolon.comments hcomments).comments hcomments').append (hblock.childUnder .body)
  have hall := hp _ (hhead.append hbody)
  simpa using hall

namespace Unread

variable {u v : Unread} {kinds : List Kind}

lemma optionalArguments?_derives {args : List Node} (h : u.optionalArguments? = some (args, v)) :
    Derives (Production.optional (childUnder .args .arguments)) (args.map (·.under .args)) := by
  unfold optionalArguments? at h
  split at h
  · simp only [Option.map_eq_some_iff, Prod.mk.injEq, Prod.exists] at h
    obtain ⟨n, w, hread, rfl, rfl⟩ := h
    exact ((yields_arguments? u n w hread).childUnder .args).optional
  · obtain ⟨rfl, rfl⟩ : _ ∧ _ := by simpa using h
    exact derives_optional_nil _

lemma headerColon?_derives {bodyFollows : Bool} {headEnd : Nat} {colon : Node}
    (h : u.headerColon? bodyFollows headEnd = some (colon, v)) : Derives (child .colon) [colon] := by
  unfold headerColon? at h
  split at h
  · next r hread =>
    obtain rfl : r = (colon, v) := by simpa using h
    exact yields_char? .colon rfl (by decide) u colon v hread
  · split at h
    · obtain ⟨rfl, rfl⟩ : _ ∧ _ := by simpa using h
      exact derives_child (grammatical_absent .colon rfl rfl _) (by simp [absent]) rfl
    · simp at h

lemma header?_grammatical {bodyFollows : Bool} {owner : Owner} (hmem : Kind.header ∈ kinds)
    (h : u.header? bodyFollows = some owner) : (Form.opens owner).Grammatical kinds := by
  simp only [header?, Option.bind_eq_bind, Option.bind_eq_some_iff, Option.pure_def,
    Option.some.injEq, Prod.exists] at h
  obtain ⟨keyword, u₁, hkeyword, args, u₄, hargs, colon, u₅, hcolon, comments, hfinish, rfl⟩ := h
  have hkeyword := keyword?_derives Keyword.headers (by simp [Keyword.isHeader]) hkeyword
  have hpriority := yields_number?.optional_under .priority u₁
  have hname := yields_dottedName?.optional_under .identifier (optional number? u₁).2
  have hargs := optionalArguments?_derives hargs
  have hhead := ((hkeyword.append hpriority).append hname).append hargs
  refine .opensHeader rfl hmem ?_
  exact Owner.begins_of_body .header rfl (fun ns hns => hns) hhead (headerColon?_derives hcolon)
    (finish?_derives hfinish)

lemma pythonModifier_derives (u : Unread) :
    Derives (Production.optional (keywordOf Keyword.pythonModifiers *
      Production.optional (childUnder .priority .number))) u.pythonModifier.1 := by
  unfold pythonModifier
  split
  · exact derives_optional_nil _
  · next keyword v hkeyword =>
    have hkeyword := keyword?_derives Keyword.pythonModifiers (by simp [Keyword.isPythonModifier]) hkeyword
    exact (hkeyword.append (yields_number?.optional_under .priority v)).optional

lemma pythonBlock?_grammatical {head : List Node} (h : u.pythonBlock? = some head) :
    (Form.opensPython head).Grammatical kinds := by
  simp only [pythonBlock?, Option.bind_eq_bind, Option.bind_eq_some_iff, Option.pure_def,
    Option.some.injEq, Prod.exists] at h
  obtain ⟨python, u₂, hpython, colon, u₄, hcolon, comments, hfinish, rfl⟩ := h
  obtain ⟨k, hk, hpython⟩ := keyword?_yields hpython
  obtain rfl : k = .python := of_decide_eq_true hk
  have hnames := yields_name?.many u₂
  have hcolon := yields_char? .colon rfl (by decide) _ colon u₄ hcolon
  have hhead := ((u.pythonModifier_derives.append hpython).append hnames).append hcolon
  refine .opensPython fun body hbody => ?_
  have hall : Derives Kind.pythonBlock.production
      (u.pythonModifier.1 ++ [python] ++ (many name? u₂).1 ++ [colon] ++ comments ++ body) :=
    (hhead.comments (finish?_derives hfinish)).append hbody
  simpa using hall

/-! ## Statements -/

lemma isItem_statement {node : Node} {kind : Kind} (hstatement : Kind.statement ∈ kinds)
    (hnode : Derives (child kind) [node]) (hkind : kind ∈ [Kind.controlStatement, .defineStatement, .renpyStatement])
    (fallback : Nat) : (branch .statement [node] fallback).IsItem kinds := by
  have hparts : Derives Kind.statement.production [node] := hnode.of_sum (List.mem_map_of_mem hkind)
  exact ⟨hparts.branch rfl fallback, Or.inr ⟨rfl, hstatement⟩⟩

lemma statementItems_grammatical {kind : Kind} {ns comments : List Node} {fallback : Nat}
    (hstatement : Kind.statement ∈ kinds) (hns : Derives kind.production ns) (htoken : kind.isToken = false)
    (hkind : kind ∈ [Kind.controlStatement, .defineStatement, .renpyStatement])
    (hfinish : v.finish? = some comments) :
    (statementItems (branch kind ns fallback) comments).Grammatical kinds := by
  have hcomment : kind ≠ .comment := by
    rintro rfl
    simp at hkind
  have hnode : Derives (child kind) [branch kind ns fallback] :=
    derives_child (hns.branch htoken fallback) hcomment rfl
  refine .items (List.forall_mem_cons.mpr ⟨isItem_statement hstatement hnode hkind _, ?_⟩)
  exact (finish?_derives hfinish).isItem

lemma controlStatement?_grammatical {form : Form} (hstatement : Kind.statement ∈ kinds)
    (h : u.controlStatement? = some form) : form.Grammatical kinds := by
  simp only [controlStatement?, Option.bind_eq_bind, Option.bind_eq_some_iff, Option.pure_def,
    Prod.exists] at h
  obtain ⟨keyword, u₁, hkeyword, whole, u₂, hwhole, comments, hfinish, h⟩ := h
  have hkeyword := keyword?_derives Keyword.controls (by simp [Keyword.isControl]) hkeyword
  split at h
  · split at h
    · simp at h
    · obtain rfl := (Option.some.injEq _ _).mp h
      have hexpression : Derives (child .pythonExpression) [leaf .pythonExpression
          (.covering whole.span.start (trimEnd isWhiteSpace
            (u₁.tokenText (expressionLength none) isBlank).dropLast))] :=
        derives_child (grammatical_leaf .pythonExpression rfl _) (by simp [leaf]) rfl
      have hcolon : Derives (child .colon) [leaf .colon ⟨whole.span.stop - 1, whole.span.stop⟩] :=
        derives_child (grammatical_leaf .colon rfl _) (by simp [leaf]) rfl
      refine .opensStatement (by simp) ?_
      exact Owner.begins_of_body .controlStatement rfl
        (fun _ hns => hns.mul_mono fun _ => Or.inr) (hkeyword.append hexpression) hcolon
        (finish?_derives hfinish)
  · obtain rfl := (Option.some.injEq _ _).mp h
    have hwhole := yields_expression? u₁ whole u₂ hwhole
    exact statementItems_grammatical hstatement ((hkeyword.append hwhole).append (derives_optional_nil _)) rfl
      (by simp) hfinish

lemma expressionOrAbsent_derives (pos : Nat) (u : Unread) :
    Derives (child .pythonExpression) [(u.expressionOrAbsent pos).1] := by
  unfold expressionOrAbsent
  split
  · next r hread => exact yields_expression? u r.1 r.2 hread
  · exact derives_child (grammatical_absent .pythonExpression rfl rfl pos) (by simp [absent]) rfl

lemma defineStatement?_grammatical {form : Form} (hstatement : Kind.statement ∈ kinds)
    (h : u.defineStatement? = some form) : form.Grammatical kinds := by
  simp only [defineStatement?, Option.bind_eq_bind, Option.bind_eq_some_iff, Option.pure_def,
    Option.some.injEq, Prod.exists] at h
  obtain ⟨keyword, u₁, hkeyword, name, u₂, hname, equals, u₃, hequals, comments, hfinish, rfl⟩ := h
  have hkeyword := keyword?_derives Keyword.definitions (by simp [Keyword.isDefinition]) hkeyword
  have hname := yields_dottedName? u₁ name u₂ hname
  have hequals := yields_char? .equals rfl (by decide) u₂ equals u₃ hequals
  have hvalue := expressionOrAbsent_derives equals.span.stop u₃
  exact statementItems_grammatical hstatement (((hkeyword.append hname).append hequals).append hvalue) rfl
    (by simp) hfinish

lemma yields_argument? : YieldsNode argument argument? := by
  have hstring : YieldsNode argument string? := fun u n v h =>
    (yields_string? u n v h).of_sum (by simp)
  have harguments : YieldsNode argument arguments? := fun u n v h =>
    (yields_arguments? u n v h).of_sum (by simp)
  have hnumber : YieldsNode argument number? := fun u n v h =>
    (yields_number? u n v h).of_sum (by simp)
  have hname : YieldsNode argument name? := fun u n v h =>
    (yields_name? u n v h).of_sum (by simp)
  exact hstring.orElse (harguments.orElse (hnumber.orElse hname))

lemma renpyStatement?_grammatical {form : Form} (hstatement : Kind.statement ∈ kinds)
    (h : u.renpyStatement? = some form) : form.Grammatical kinds := by
  simp only [renpyStatement?, Option.bind_eq_bind, Option.bind_eq_some_iff, Option.pure_def,
    Prod.exists] at h
  obtain ⟨keyword, u₁, hkeyword, h⟩ := h
  have hkeyword := keyword?_derives Keyword.statements (by simp [Keyword.isStatement]) hkeyword
  have hargs := yields_argument?.many u₁
  split at h
  · next colon u₃ hcolon =>
    simp only [Option.bind_eq_some_iff, Option.some.injEq] at h
    obtain ⟨comments, hfinish, rfl⟩ := h
    have hcolon := yields_char? .colon rfl (by decide) _ colon u₃ hcolon
    refine .opensStatement (by simp) ?_
    exact Owner.begins_of_body .renpyStatement rfl (fun _ hns => hns.assoc.mul_mono fun _ => Or.inl)
      (hkeyword.append hargs) hcolon (finish?_derives hfinish)
  · simp only [Option.bind_eq_some_iff] at h
    obtain ⟨comments, hfinish, h⟩ := h
    split at h
    · simp at h
    · next hne =>
      obtain rfl := (Option.some.injEq _ _).mp h
      obtain ⟨first, more, hmore⟩ : ∃ first more, (many argument? u₁).1 = first :: more :=
        List.exists_cons_of_ne_nil (by simpa using hne)
      have hall := yields_argument?.mem_many u₁
      rw [hmore] at hall ⊢
      obtain ⟨hfirst, hall⟩ := List.forall_mem_cons.mp hall
      have hrest : Derives argument.star more := by simpa using Derives.flatMap hall
      exact statementItems_grammatical hstatement (hkeyword.append ((hfirst.append hrest).right _)) rfl
        (by simp) hfinish

lemma statement?_grammatical {form : Form} (hstatement : Kind.statement ∈ kinds)
    (h : u.statement? = some form) : form.Grammatical kinds := by
  simp only [statement?, Option.orElse_eq_orElse, Option.orElse_eq_or, Option.or_eq_some_iff] at h
  rcases h with h | ⟨-, h | ⟨-, h⟩⟩
  · exact controlStatement?_grammatical hstatement h
  · exact defineStatement?_grammatical hstatement h
  · exact renpyStatement?_grammatical hstatement h

/-! ## Lines of Python and dialogue -/

lemma pythonInline?_isItem {nodes : List Node} (hinline : Kind.pythonInline ∈ kinds)
    (h : u.pythonInline? = some nodes) : ∀ n ∈ nodes, n.IsItem kinds := by
  simp only [pythonInline?, Option.bind_eq_bind, Option.bind_eq_some_iff, Option.pure_def,
    Option.some.injEq, Prod.exists] at h
  obtain ⟨dollar, u₁, hdollar, comments, hfinish, rfl⟩ := h
  have hdollar := yields_char? .dollar rfl (by decide) u dollar u₁ hdollar
  have hparts : Derives Kind.pythonInline.production [dollar, (u₁.expressionOrAbsent dollar.span.stop).1] :=
    hdollar.append (expressionOrAbsent_derives _ u₁)
  refine List.forall_mem_cons.mpr ⟨⟨hparts.branch rfl _, Or.inr ⟨rfl, hinline⟩⟩, ?_⟩
  exact (finish?_derives hfinish).isItem

lemma strings?_isItem {nodes : List Node} (hstring : Kind.string ∈ kinds) (h : u.strings? = some nodes) :
    ∀ n ∈ nodes, n.IsItem kinds := by
  simp only [strings?] at h
  split at h
  · simp at h
  · obtain ⟨comments, hfinish, rfl⟩ := Option.map_eq_some_iff.mp h
    intro n hn
    rcases List.mem_append.mp hn with hn | hn
    · exact (yields_string?.mem_many u n hn).isItem_of_child hstring
    · exact (finish?_derives hfinish).isItem n hn

lemma comment?_isItem {n : Node} (h : u.comment? = some (n, v)) : n.IsItem kinds :=
  (yields_comment? u n v h).isItem n (by simp)

lemma expressionPiece?_isItem {n : Node} {kind : Kind} (hleaf : [] ∈ kind.production.matches')
    (hcomment : kind ≠ .comment) (hkind : kind ∈ kinds) (h : u.expressionPiece? kind = some (n, v)) :
    n.IsItem kinds := by
  unfold expressionPiece? at h
  simp only [Option.orElse_eq_orElse, Option.orElse_eq_or, Option.or_eq_some_iff] at h
  rcases h with h | ⟨-, h⟩
  · exact (yields_trimmedToken? hleaf hcomment u n v h).isItem_of_child hkind
  · exact comment?_isItem h

lemma expressionPieces_isItem {kind : Kind} (hleaf : [] ∈ kind.production.matches') (hcomment : kind ≠ .comment)
    (hkind : kind ∈ kinds) (u : Unread) : ∀ n ∈ u.expressionPieces kind, n.IsItem kinds :=
  forall_mem_many (fun _ _ _ => expressionPiece?_isItem hleaf hcomment hkind) u

lemma dialoguePiece?_isItem {n : Node} (hstring : Kind.string ∈ kinds) (herror : Kind.error ∈ kinds)
    (hpython : Kind.pythonExpression ∈ kinds) (h : u.dialoguePiece? = some (n, v)) : n.IsItem kinds := by
  unfold dialoguePiece? at h
  split at h
  · simp at h
  · exact comment?_isItem h
  · exact (yields_string? u n v h).isItem_of_child hstring
  · exact (yields_char? .error (Language.nil_mem_kstar _) (by decide) u n v h).isItem_of_child herror
  · exact (yields_pythonRun? u n v h).isItem_of_child hpython

lemma singleQuoted?_isItem {n : Node} (hstring : Kind.string ∈ kinds) (h : u.singleQuoted? = some (n, v)) :
    n.IsItem kinds := by
  unfold singleQuoted? at h
  split at h
  · exact (yields_string? u n v h).isItem_of_child hstring
  · simp at h

lemma dialogue_isItem (u : Unread) : ∀ n ∈ u.dialogue, n.IsItem Kind.blockItems := by
  have heq : u.dialogue =
      (optional singleQuoted? u).1 ++ (many dialoguePiece? (optional singleQuoted? u).2).1 := rfl
  rw [heq]
  intro n hn
  rcases List.mem_append.mp hn with hn | hn
  · rw [optional] at hn
    rcases hr : singleQuoted? u with _ | ⟨m, v⟩
    · simp [hr] at hn
    · obtain rfl : n = m := by simpa [hr] using hn
      exact singleQuoted?_isItem (by decide) hr
  · exact forall_mem_many (fun _ _ _ => dialoguePiece?_isItem (by decide) (by decide) (by decide)) _ n hn

end Unread

namespace Form

lemma grammatical_getD {kinds : List Kind} {o : Option Form} {last : Form}
    (h : ∀ form, o = some form → form.Grammatical kinds) (hlast : last.Grammatical kinds) :
    (o.getD last).Grammatical kinds := by
  cases o with
  | none => exact hlast
  | some form => exact h form rfl

theorem topLevel_grammatical (bodyFollows : Bool) (u : Unread) :
    (topLevel bodyFollows u).Grammatical Kind.topItems := by
  unfold topLevel
  refine grammatical_getD ?_ (.items (Unread.expressionPieces_isItem (Language.nil_mem_kstar _) (by decide)
    (by decide) u))
  intro form h
  simp only [Option.orElse_eq_orElse, Option.orElse_eq_or, Option.or_eq_some_iff,
    Option.map_eq_some_iff] at h
  rcases h with ⟨head, h, rfl⟩ | ⟨-, ⟨owner, h, rfl⟩ | ⟨-, h | ⟨-, nodes, h, rfl⟩⟩⟩
  · exact Unread.pythonBlock?_grammatical h
  · exact Unread.header?_grammatical (by decide) h
  · exact Unread.statement?_grammatical (by decide) h
  · exact .items (Unread.strings?_isItem (by decide) h)

theorem nested_grammatical (u : Unread) : (nested u).Grammatical Kind.blockItems := by
  unfold nested
  refine grammatical_getD ?_ (.items u.dialogue_isItem)
  intro form h
  simp only [Option.orElse_eq_orElse, Option.orElse_eq_or, Option.or_eq_some_iff,
    Option.map_eq_some_iff] at h
  rcases h with ⟨head, h, rfl⟩ | ⟨-, ⟨nodes, h, rfl⟩ | ⟨-, h⟩⟩
  · exact Unread.pythonBlock?_grammatical h
  · exact .items (Unread.pythonInline?_isItem (by decide) h)
  · exact Unread.statement?_grammatical (by decide) h

end Form

end RenpyScript
