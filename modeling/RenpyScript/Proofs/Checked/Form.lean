import RenpyScript.Checked.Form
import RenpyScript.Proofs.Checked.Quoted
import RenpyScript.Proofs.Line.Form

/-!
# Forms of lines step by step

Every reader of a line builds the nodes that its counterpart on unread text gives, and declines where that
one declines. So the readers that try others in order, and take back what those have built that decline,
arrive at the form of the line.
-/

namespace RenpyScript

lemma Reading.Moves.under {text : List Char} {s t : Reading} {cs : List Child} {ns : List Node} {v : Unread}
    (field : Field) (h : s.Moves text t cs ns v) :
    s.Moves text t (cs.map fun c => ⟨c.index, some field⟩) (ns.map (·.under field)) v :=
  ⟨h.built.under field, h.lexer⟩

namespace LineReader

/-- What a line says has been built between `b` and `b'`. -/
inductive Says (b b' : TreeBuilder) : LineForm → Form → Prop
  | items {cs : List Child} {ns : List Node} (built : b.Built b' cs ns) : Says b b' (.items cs) (.items ns)
  | opens {kind : Kind} {cs : List Child} {colonEnd : Nat} {head : List Node} (built : b.Built b' cs head)
      (notComment : kind ≠ .comment) (colon : ∃ n ∈ head, n.span.stop = colonEnd) :
      Says b b' (.opens kind cs colonEnd) (.opens ⟨kind, head⟩)
  | opensPython {cs : List Child} {head : List Node} (built : b.Built b' cs head) :
      Says b b' (.opensPython cs) (.opensPython head)

section
variable {text : List Char} {s s₀ t : Reading} {u v : Unread} {b : TreeBuilder} {bodyFollows : Bool}

lemma Says.text_eq {b b' : TreeBuilder} {form : LineForm} {read : Form} (h : Says b b' form read) : b'.text = b.text := by
  cases h with
  | items built => exact built.text
  | opens built => exact built.text
  | opensPython built => exact built.text

lemma exists_last {cs : List Child} {ns : List Node} (h : s.Moves text t cs ns u) (hne : ns ≠ []) :
    ∃ c n, cs.getLast? = some c ∧ ns.getLast? = some n ∧ c.field = n.field ∧
      Denotes (.ofText s.builder.text) t.builder.nodes none none c.index n := by
  rcases TreeBuilder.forall₂_ends h.built.denotes with ⟨-, hnil⟩ | ⟨-, -, -, -, -, c, n, hc, hn, hdenotes⟩
  · exact absurd hnil hne
  · exact ⟨c, n, hc, hn, hdenotes⟩

lemma denotes_middle {b' : TreeBuilder} {cs ds : List Child} {c : Child} {ns ms : List Node} {n : Node}
    (h : b.Built b' (cs ++ c :: ds) (ns ++ n :: ms)) (hlength : cs.length = ns.length) :
    Denotes (.ofText b.text) b'.nodes none none c.index n := by
  refine (TreeBuilder.forall₂_getElem? (k := cs.length) h.denotes ?_ ?_).2
  · rw [List.getElem?_append_right (Nat.le_refl _), Nat.sub_self]
    rfl
  · rw [hlength, List.getElem?_append_right (Nat.le_refl _), Nat.sub_self]
    rfl

/-! ## Lines that open a block, at the top level -/

lemma runs_underField {step : LineReader (Option Child)} {read? : Unread → Option (Node × Unread)} (field : Field)
    (h : Runs s.builder step s False (Tried (fun c => [c]) text s u (read? u))) :
    Runs s.builder (underField field step) s False fun cs t =>
      s.Moves text t cs ((Unread.optional read? u).1.map (·.under field)) (Unread.optional read? u).2 := by
  unfold underField Unread.optional
  refine h.next ?_
  rintro _ t (⟨hread, rfl, hm⟩ | ⟨n, v, c, hread, rfl, hm⟩)
  · rw [hread]
    exact runs_pure hm
  · rw [hread]
    exact runs_pure (hm.under field)

lemma runs_headerArguments (h : s.lexer.At text u) :
    Runs s.builder headerArguments s (u.optionalArguments? = none) fun cs t =>
      ∃ ns v, u.optionalArguments? = some (ns, v) ∧ s.Moves text t cs (ns.map (·.under .args)) v := by
  have hparen : u.peek?.map lead = some '('.toUInt8 ↔ u.peek? = some '(' := Lexer.peek?_eq_lead_iff (by decide)
  have hm₀ := moves_lexer (s := s) h.standsIn.at_skipBlanks
  unfold headerArguments Unread.optionalArguments?
  refine .lexing h.peek ?_
  by_cases hpeek : u.peek? = some '('
  · rw [if_pos (hparen.mpr hpeek), if_pos hpeek]
    refine (runs_arguments h.standsIn.at_skipBlanks).bind ?_ ?_
    · intro hnone
      exact ⟨.refl _, by rw [hnone]; rfl⟩
    · rintro c t ⟨n, v, hread, hm⟩
      exact runs_pure ⟨[n], v, by rw [hread]; rfl, (hm₀.trans hm).under .args⟩
  · rw [if_neg (mt hparen.mp hpeek), if_neg hpeek]
    exact runs_pure ⟨[], u, rfl, hm₀⟩

lemma runs_headerColon {cs : List Child} {ns : List Node} (hm : s₀.Moves text s cs ns u) (hne : ns ≠ []) :
    Runs s.builder (headerColon bodyFollows cs) s (u.headerColon? bodyFollows (Owner.headEnd ⟨.header, ns⟩) = none)
      fun c t => ∃ n v, u.headerColon? bodyFollows (Owner.headEnd ⟨.header, ns⟩) = some (n, v) ∧
        s.Moves text t [c] [n] v := by
  unfold headerColon Unread.headerColon?
  refine (runs_char hm.lexer (show (':' : Char).val.toNat ≤ 127 by decide) (by decide)).next ?_
  rintro _ t₁ (⟨hread, rfl, hm₁⟩ | ⟨n, v, c, hread, rfl, hm₁⟩)
  · rw [hread]
    refine .lexing hm₁.lexer.atLineEnd ?_
    have hat := hm₁.lexer.standsIn.at_skipBlanks
    by_cases hends : (u.atLineEnd && bodyFollows) = true
    · obtain ⟨c, n, hc, hn, hfield, hdenotes⟩ := exists_last (hm.trans hm₁) (by simpa using hne)
      rw [List.append_nil] at hc hn
      have hoffset : Owner.headEnd ⟨.header, ns⟩ = n.span.stop := by
        rw [Owner.headEnd, hn]
        rfl
      rw [if_pos hends, if_pos hends, hoffset]
      refine .lift hc (.endOf hdenotes ?_)
      refine (runs_missing hat (by decide) _).imp False.elim ?_
      intro c t hm₂
      exact ⟨_, _, rfl, (hm₁.trans (moves_lexer hat)).trans hm₂⟩
    · rw [if_neg hends, if_neg hends]
      exact runs_failure hm₁.built.toExtends rfl
  · rw [hread]
    exact runs_pure ⟨n, v, rfl, hm₁⟩

lemma runs_header (h : s.lexer.At text u) : Runs s.builder (header bodyFollows) s (u.header? bodyFollows = none)
    fun form t => ∃ owner, u.header? bodyFollows = some owner ∧ Says s.builder t.builder form (.opens owner) := by
  unfold header
  refine .peekKeyword h ?_
  by_cases hclass : u.peekKeyword?.any Keyword.isHeader = true
  · rw [if_pos hclass]
    refine (runs_keyword h hclass).next ?_
    rintro kw t₁ ⟨keyword, u₁, hkeyword, hm₁⟩
    refine (runs_underField .priority (runs_number hm₁.lexer)).next ?_
    intro priority t₂ hm₂
    refine (runs_underField .identifier (runs_dottedName hm₂.lexer)).next ?_
    intro name t₃ hm₃
    have hm := ((hm₁.under .keyword).trans hm₂).trans hm₃
    refine (runs_headerArguments hm₃.lexer).bind ?_ ?_
    · intro hnone
      exact ⟨hm.built.toExtends, by simp only [Unread.header?, hkeyword, hnone, Option.bind_eq_bind, Option.bind_some, Option.bind_none]⟩
    rintro args t₄ ⟨args', u₄, hargs, hm₄⟩
    have hhead : s.Moves text t₄ (⟨kw.index, some .keyword⟩ :: priority ++ name ++ args)
        (keyword.under .keyword :: (Unread.optional Unread.number? u₁).1.map (·.under .priority) ++
          (Unread.optional Unread.dottedName? (Unread.optional Unread.number? u₁).2).1.map (·.under .identifier) ++
            args'.map (·.under .args)) u₄ := hm.trans hm₄
    refine (runs_headerColon hhead (by simp)).bind ?_ ?_
    · intro hnone
      exact ⟨hhead.built.toExtends, by
        simp only [Unread.header?, hkeyword, hargs, hnone, Option.bind_eq_bind, Option.bind_some, Option.bind_none]⟩
    rintro colon t₅ ⟨colon', u₅, hcolon, hm₅⟩
    refine (runs_finishLine hm₅.lexer).bind ?_ ?_
    · intro hnone
      exact ⟨(hhead.trans hm₅).built.toExtends, by
        simp only [Unread.header?, hkeyword, hargs, hcolon, hnone, Option.bind_eq_bind, Option.bind_some, Option.bind_none]⟩
    rintro comments t₆ ⟨comments', w, hfinish, hmc⟩
    have hall := hhead.built.append (hm₅.built.append hmc.built)
    refine .endOf (denotes_middle hall hhead.built.length_eq) ?_
    refine runs_pure ⟨_, ?_, .opens hall (by decide) ⟨colon', by simp, rfl⟩⟩
    simp only [Unread.header?, hkeyword, hargs, hcolon, hfinish, Option.bind_eq_bind, Option.bind_some]
    rfl
  · rw [if_neg hclass]
    exact runs_failure (.refl _) (by rw [Unread.header?, keyword?_eq_none (by simpa using hclass)]; rfl)

lemma runs_pythonModifier (h : s.lexer.At text u) : Runs s.builder pythonModifier s False fun cs t =>
    s.Moves text t cs u.pythonModifier.1 u.pythonModifier.2 := by
  unfold pythonModifier
  refine .peekKeyword h ?_
  by_cases hclass : u.peekKeyword?.any Keyword.isPythonModifier = true
  · rw [if_pos hclass]
    refine (runs_keyword h hclass).next ?_
    rintro kw t₁ ⟨keyword, u₁, hkeyword, hm₁⟩
    refine (runs_underField .priority (runs_number hm₁.lexer)).next ?_
    intro priority t₂ hm₂
    rw [Unread.pythonModifier, hkeyword]
    exact runs_pure ((hm₁.under .keyword).trans hm₂)
  · rw [if_neg hclass, Unread.pythonModifier, keyword?_eq_none (by simpa using hclass)]
    exact runs_pure (moves_refl h)

lemma keyword?_stands {x : Lexer} {k : Keyword} {n : Node} (h : x.At text u)
    (hread : u.keyword? (· = k) = some (n, v)) : n = .leaf (.keyword k) n.span ∧ v.StandsIn text := by
  rw [Unread.keyword?] at hread
  split at hread
  · next k' _ =>
    split at hread
    · next hk =>
      obtain rfl : k' = k := by simpa using hk
      exact token?_stands h hread
    · cases hread
  · cases hread

lemma runs_python (h : s.lexer.At text u) : Runs s.builder (token (.keyword .python) (Lexer.keyword "python")) s False
    (Tried (fun c => [c]) text s u (u.keyword? (· = .python))) := by
  unfold token
  refine .lexing (h.keyword .python) ?_
  rcases hread : u.keyword? (· = .python) with _ | ⟨n, v⟩
  · exact runs_pure (.inl ⟨rfl, rfl, moves_refl h⟩)
  · obtain ⟨hn, hv⟩ := keyword?_stands h hread
    refine (runs_leaf hv.at (by decide) n.span).next ?_
    intro c t hm
    rw [← hn] at hm
    exact runs_pure (.inr ⟨n, v, c, rfl, rfl, (moves_lexer hv.at).trans hm⟩)

lemma runs_pythonBlock (h : s.lexer.At text u) : Runs s.builder pythonBlock s (u.pythonBlock? = none)
    fun form t => ∃ head, u.pythonBlock? = some head ∧ Says s.builder t.builder form (.opensPython head) := by
  unfold pythonBlock
  refine (runs_pythonModifier h).next ?_
  intro modifier t₁ hm₁
  refine (runs_required (runs_python hm₁.lexer)).bind ?_ ?_
  · intro hnone
    exact ⟨hm₁.built.toExtends, by simp only [Unread.pythonBlock?, hnone, Option.bind_eq_bind, Option.bind_none]⟩
  rintro python t₂ ⟨python', u₂, hpython, hm₂⟩
  refine (runs_whileSome Unread.isNodeReader_name? (fun s u h => runs_name h) hm₂.lexer).next ?_
  intro names t₃ hm₃
  rw [List.flatMap_singleton'] at hm₃
  have hm := hm₁.trans (hm₂.trans hm₃)
  refine (runs_required (runs_char hm₃.lexer (show (':' : Char).val.toNat ≤ 127 by decide) (by decide))).bind ?_ ?_
  · intro hnone
    exact ⟨hm.built.toExtends, by
      simp only [Unread.pythonBlock?, hpython, hnone, Option.bind_eq_bind, Option.bind_some, Option.bind_none]⟩
  rintro colon t₄ ⟨colon', u₄, hcolon, hm₄⟩
  refine (runs_finishLine hm₄.lexer).bind ?_ ?_
  · intro hnone
    exact ⟨(hm.trans hm₄).built.toExtends, by
      simp only [Unread.pythonBlock?, hpython, hcolon, hnone, Option.bind_eq_bind, Option.bind_some, Option.bind_none]⟩
  rintro comments t₅ ⟨comments', w, hfinish, hmc⟩
  refine runs_pure ⟨_, ?_, .opensPython (hm.built.append (hm₄.built.append hmc.built))⟩
  simp only [Unread.pythonBlock?, hpython, hcolon, hfinish, Option.bind_eq_bind, Option.bind_some]
  rfl

/-! ## Statements -/

lemma slice_tokenText {x : Lexer} {length : List Char → Nat} {trim : Char → Bool} (h : x.At text u) :
    slice text (.covering u.skipBlanks.pos (u.tokenText length trim)) = some (u.tokenText length trim) := by
  obtain ⟨as, bs, htext, hpos⟩ := h.standsIn
  obtain ⟨dropped, hsplit, -⟩ := trimEnd_split trim (u.skipBlanks.rest.take (length u.skipBlanks.rest))
  rw [← Unread.tokenText] at hsplit
  rw [htext, hpos, ← List.take_append_drop (length u.skipBlanks.rest) u.skipBlanks.rest, hsplit, List.append_assoc,
    List.append_assoc, List.append_assoc]
  exact slice_append as _ _

lemma branch_cons (kind : Kind) (n : Node) (ns : List Node) (fallback fallback' : Nat) :
    Node.branch kind (n :: ns) fallback = .branch kind (n :: ns) fallback' := by
  obtain ⟨m, hm⟩ : ∃ m, (n :: ns).getLast? = some m := ⟨_, List.getLast?_eq_some_getLast (List.cons_ne_nil n ns)⟩
  rw [Node.branch, Node.branch, Node.hull_cons hm, Node.hull_cons hm]

lemma runs_statementItems {c : Child} {cs : List Child} {n : Node} {ns : List Node} (start : Nat)
    (hm : s₀.Moves text s (c :: cs) (n :: ns) u) : Runs s.builder (statementItems start c cs) s False fun form t =>
      Says s₀.builder t.builder form (Unread.statementItems n ns) := by
  have hm' : s₀.Moves text s ([c] ++ cs) ([n] ++ ns) u := hm
  unfold statementItems
  refine (runs_node hm' rfl (by decide) start).next ?_
  intro statement t hm
  exact runs_pure (.items hm.built)

/-- The comments behind the parts of a statement, and the statement over its parts. -/
lemma runs_statementEnd {cs : List Child} {n : Node} {ns : List Node} {kind : Kind} {read : Option Form} (start fallback : Nat)
    (hm : s₀.Moves text s cs (n :: ns) u) (hkind : kind ≠ .comment) (hb : b.Extends s.builder)
    (heq : read = u.finish?.bind fun comments =>
      some (Unread.statementItems (.branch kind (n :: ns) fallback) comments)) :
    Runs b (do
      let comments ← finishLine
      let child ← node kind cs start
      statementItems start child comments) s (read = none) fun form t =>
        ∃ f, read = some f ∧ Says s₀.builder t.builder form f := by
  refine (runs_finishLine hm.lexer).bind ?_ ?_
  · intro hnone
    exact ⟨hb, by rw [heq, hnone]; rfl⟩
  rintro comments t ⟨comments', w, hfinish, hmc⟩
  refine (runs_node (hm.trans hmc) hm.built.length_eq hkind start).next ?_
  intro child t' hm'
  refine (runs_statementItems start hm').imp False.elim ?_
  intro form t'' hsays
  rw [branch_cons kind n ns start fallback] at hsays
  exact ⟨_, by rw [heq, hfinish]; rfl, hsays⟩

lemma controlStatement?_eq {u₁ u₂ : Unread} {keyword whole : Node} (hkeyword : u.keyword? Keyword.isControl = some (keyword, u₁))
    (hwhole : u₁.expression? .pythonExpression = some (whole, u₂)) :
    u.controlStatement? = u₂.finish?.bind fun comments =>
      if (u₁.tokenText (expressionLength none) isBlank).getLast? = some ':' then
        if (trimEnd isWhiteSpace (u₁.tokenText (expressionLength none) isBlank).dropLast).isEmpty then none
        else some (.opens ⟨.controlStatement, keyword.under .keyword ::
          .leaf .pythonExpression (.covering whole.span.start
            (trimEnd isWhiteSpace (u₁.tokenText (expressionLength none) isBlank).dropLast)) ::
          .leaf .colon ⟨whole.span.stop - 1, whole.span.stop⟩ :: comments⟩)
      else some (Unread.statementItems
        (.branch .controlStatement [keyword.under .keyword, whole] keyword.span.start) comments) := by
  simp only [Unread.controlStatement?, hkeyword, hwhole, Option.bind_eq_bind, Option.bind_some]
  rfl

lemma runs_controlStatement (h : s.lexer.At text u) (start : Nat) (hclass : u.peekKeyword?.any Keyword.isControl = true) :
    Runs s.builder (controlStatement start) s (u.controlStatement? = none) fun form t =>
      ∃ f, u.controlStatement? = some f ∧ Says s.builder t.builder form f := by
  unfold controlStatement
  refine (runs_keyword h hclass).next ?_
  rintro kw t₁ ⟨keyword, u₁, hkeyword, hm₁⟩
  refine .requiredLexing (hm₁.lexer.restOfLine .pythonExpression) ?_ ?_
  · intro hnone
    exact ⟨hm₁.built.toExtends, by
      simp only [Unread.controlStatement?, hkeyword, hnone, Option.bind_eq_bind, Option.bind_some, Option.bind_none]⟩
  intro whole u₂ hwhole
  obtain ⟨hn, hv⟩ := trimmedToken?_stands hm₁.lexer hwhole
  have hslice : slice text whole.span = some (u₁.tokenText (expressionLength none) isBlank) := by
    obtain ⟨-, rfl, -⟩ := Unread.trimmedToken?_eq_some_iff.mp hwhole
    exact slice_tokenText hm₁.lexer
  have hm : s.Moves text ⟨u₂.lexer text, t₁.builder⟩ [⟨kw.index, some .keyword⟩] [keyword.under .keyword] u₂ :=
    (hm₁.under .keyword).trans (moves_lexer hv.at)
  have heq := controlStatement?_eq hkeyword hwhole
  refine .lexer (.lift hslice ?_)
  by_cases hcolon : (u₁.tokenText (expressionLength none) isBlank).getLast? = some ':'
  · simp only [if_pos hcolon] at heq ⊢
    by_cases hempty : (trimEnd isWhiteSpace (u₁.tokenText (expressionLength none) isBlank).dropLast).isEmpty = true
    · rw [if_pos hempty]
      simp only [if_pos hempty] at heq
      exact runs_failure hm.built.toExtends (by rw [heq]; cases u₂.finish? <;> rfl)
    · rw [if_neg hempty]
      simp only [if_neg hempty] at heq
      have hpos : 1 ≤ whole.span.stop := by
        obtain ⟨htoken, rfl, -⟩ := Unread.trimmedToken?_eq_some_iff.mp hwhole
        have hlength := byteLength_pos htoken
        change 1 ≤ _ + _
        omega
      have hsub : checkedSub whole.span.stop 1 = some (whole.span.stop - 1) := if_pos hpos
      refine (runs_leaf hm.lexer (by decide) _).next ?_
      intro expression t₂ hm₂
      refine .lift hsub ?_
      refine (runs_leaf hm₂.lexer (by decide) _).next ?_
      intro colon t₃ hm₃
      have hm := hm.trans (hm₂.trans hm₃)
      refine (runs_finishLine hm₃.lexer).bind ?_ ?_
      · intro hnone
        exact ⟨hm.built.toExtends, by rw [heq, hnone]; rfl⟩
      · rintro comments t₄ ⟨comments', w, hfinish, hmc⟩
        refine runs_pure ⟨_, by rw [heq, hfinish]; rfl, ?_⟩
        exact .opens (hm.built.append hmc.built) (by decide) ⟨.leaf .colon ⟨whole.span.stop - 1, whole.span.stop⟩, by simp, rfl⟩
  · simp only [if_neg hcolon] at heq ⊢
    refine (runs_leaf hm.lexer (by decide) whole.span).next ?_
    intro expression t₂ hm₂
    rw [← hn] at hm₂
    exact runs_statementEnd start _ (hm.trans hm₂) (by decide) (hm.trans hm₂).built.toExtends heq

lemma runs_expressionOrMissing (h : s.lexer.At text u) (offset : Nat) :
    Runs s.builder (expressionOrMissing offset) s False fun c t =>
      s.Moves text t [c] [(u.expressionOrAbsent offset).1] (u.expressionOrAbsent offset).2 := by
  unfold expressionOrMissing Unread.expressionOrAbsent
  refine (runs_expression h (by decide)).next ?_
  rintro _ t (⟨hread, rfl, hm⟩ | ⟨n, v, c, hread, rfl, hm⟩)
  · rw [hread]
    refine (runs_missing hm.lexer (by decide) offset).imp False.elim ?_
    intro c t' hm'
    exact hm.trans hm'
  · rw [hread]
    exact runs_pure hm

lemma runs_defineStatement (h : s.lexer.At text u) (start : Nat) (hclass : u.peekKeyword?.any Keyword.isDefinition = true) :
    Runs s.builder (defineStatement start) s (u.defineStatement? = none) fun form t =>
      ∃ f, u.defineStatement? = some f ∧ Says s.builder t.builder form f := by
  unfold defineStatement
  refine (runs_keyword h hclass).next ?_
  rintro kw t₁ ⟨keyword, u₁, hkeyword, hm₁⟩
  refine .requiredLexing hm₁.lexer.dottedIdentifier ?_ ?_
  · intro hnone
    exact ⟨hm₁.built.toExtends, by
      simp only [Unread.defineStatement?, hkeyword, hnone, Option.bind_eq_bind, Option.bind_some, Option.bind_none]⟩
  intro name u₂ hname
  obtain ⟨hn, hv⟩ := token?_stands hm₁.lexer hname
  refine .requiredLexing (hv.at.eat (c := '=') (by decide) .equals) ?_ ?_
  · intro hnone
    exact ⟨hm₁.built.toExtends, by
      simp only [Unread.defineStatement?, hkeyword, hname, hnone, Option.bind_eq_bind, Option.bind_some,
        Option.bind_none]⟩
  intro equals u₃ hequals
  obtain ⟨hn', hv'⟩ := token?_stands hv.at hequals
  have hspan := char?_span (by decide) hequals
  have hm : s.Moves text ⟨u₃.lexer text, t₁.builder⟩ [⟨kw.index, some .keyword⟩] [keyword.under .keyword] u₃ :=
    (hm₁.under .keyword).trans (moves_lexer hv'.at)
  refine (runs_leaf hm.lexer (by decide) name.span).next ?_
  intro c₂ t₂ hm₂
  refine (runs_leaf hm₂.lexer (by decide) _).next ?_
  intro c₃ t₃ hm₃
  rw [← hn] at hm₂
  rw [← hspan, ← hn'] at hm₃
  have hstop : equals.span.start + 1 = equals.span.stop := by rw [hspan]
  rw [hstop]
  refine (runs_expressionOrMissing hm₃.lexer _).next ?_
  intro c₄ t₄ hm₄
  have hm := hm.trans (hm₂.trans (hm₃.trans hm₄))
  have heq : u.defineStatement? = (u₃.expressionOrAbsent equals.span.stop).2.finish?.bind fun comments =>
      some (Unread.statementItems (.branch .defineStatement
        [keyword.under .keyword, name, equals, (u₃.expressionOrAbsent equals.span.stop).1] keyword.span.start)
        comments) := by
    simp only [Unread.defineStatement?, hkeyword, hname, hequals, Option.bind_eq_bind, Option.bind_some]
    rfl
  exact runs_statementEnd start _ hm (by decide) hm.built.toExtends heq

/-! ### Free arguments -/

lemma isDigit_lead {c : Char} : ('0'.toUInt8 ≤ lead c ∧ lead c ≤ '9'.toUInt8) ↔ c.isDigit = true := by
  have hzero : ('0').toUInt8.toNat = 48 := by decide
  have hnine : ('9').toUInt8.toNat = 57 := by decide
  have hdigit : c.isDigit = true ↔ 48 ≤ c.val.toNat ∧ c.val.toNat ≤ 57 := by
    simp [Char.isDigit, UInt32.le_iff_toNat_le]
  rw [UInt8.le_iff_toNat_le, UInt8.le_iff_toNat_le, hzero, hnine, hdigit]
  rcases Nat.lt_or_ge 127 c.val.toNat with hc | hc
  · obtain ⟨more, heq⟩ := utf8EncodeChar_eq c
    have hle := le_of_mem_utf8EncodeChar hc (heq ▸ List.mem_cons_self ..)
    omega
  · have hlead : lead c = c.toUInt8 := (lead_eq_iff hc).mpr rfl
    rw [hlead, toUInt8_toNat hc]

lemma string?_eq_none (h : ∀ c, u.peek? = some c → isQuote c = false) : u.string? = none := by
  have hat : Delimiter.at? u.skipBlanks.rest = none := by
    rcases hrest : u.skipBlanks.rest with _ | ⟨c, cs⟩
    · rfl
    · have hc := h c (by rw [Unread.peek?, hrest]; rfl)
      simp [Delimiter.at?, hc]
  rw [Unread.string?]
  simp only [hat]

lemma arguments?_eq_none (h : u.peek? ≠ some '(') : u.arguments? = none := by
  rw [Unread.arguments?, char?_eq_none_iff.mpr h]
  rfl

lemma number?_eq_none (h : ∀ c, u.peek? = some c → c ≠ '+' ∧ c ≠ '-' ∧ c.isDigit = false) : u.number? = none := by
  rw [Unread.number?, Lexer.token?_eq_none_iff]
  rcases hrest : u.skipBlanks.rest with _ | ⟨c, cs⟩
  · rfl
  · obtain ⟨hplus, hminus, hdigit⟩ := h c (by rw [Unread.peek?, hrest]; rfl)
    have hsign : signLength (c :: cs) = 0 := by
      unfold signLength
      split <;> simp_all
    simp [numberLength, hsign, digitsLength, hdigit]

lemma number?_ne_none {c : Char} (h : u.peek? = some c) (hdigit : c.isDigit = true) : u.number? ≠ none := by
  obtain ⟨cs, hrest⟩ := List.head?_eq_some_iff.mp h
  rw [Unread.number?, ne_eq, Lexer.token?_eq_none_iff, hrest]
  have hsign : signLength (c :: cs) = 0 := by
    unfold signLength
    split <;> simp_all
  simp [numberLength, hsign, digitsLength, hdigit]

lemma name?_eq_none (h : ∀ c, u.peek? = some c → isNameStart c = false) : u.name? = none := by
  rw [Unread.name?, Lexer.token?_eq_none_iff, Lexer.nameLength_eq_zero_iff]
  rcases hrest : u.skipBlanks.rest with _ | ⟨c, cs⟩
  · rfl
  · exact h c (by rw [Unread.peek?, hrest]; rfl)

/-- The reader of an argument that begins with a character. -/
def argumentReader (c : Char) : LineReader Child :=
  if isQuote c then string
  else if c = '(' then arguments
  else if c.isDigit ∨ c = '+' ∨ c = '-' then required (token .number Lexer.number)
  else required (token .identifier Lexer.identifier)

/-- The function on unread text that reads such an argument. -/
lemma argument?_eq {c : Char} (hpeek : u.peek? = some c) : u.argument? =
    if isQuote c then u.string?
    else if c = '(' then u.arguments?
    else if c.isDigit ∨ c = '+' ∨ c = '-' then u.number?
    else u.name? := by
  have hall {P : Char → Prop} (hc : P c) : ∀ d, u.peek? = some d → P d := by
    intro d hd
    rw [hpeek, Option.some.injEq] at hd
    exact hd ▸ hc
  unfold Unread.argument?
  by_cases hquote : isQuote c = true
  · have hname : u.name? = none := by
      refine name?_eq_none (hall ?_)
      rcases (by simpa [isQuote] using hquote : c = '"' ∨ c = '\'') with rfl | rfl <;> decide
    have hnumber : u.number? = none := by
      refine number?_eq_none (hall ?_)
      rcases (by simpa [isQuote] using hquote : c = '"' ∨ c = '\'') with rfl | rfl <;> decide
    have harguments : u.arguments? = none := by
      refine arguments?_eq_none ?_
      rintro h
      rw [hpeek, Option.some.injEq] at h
      rw [h] at hquote
      exact absurd hquote (by decide)
    rw [if_pos hquote, harguments, hnumber, hname]
    cases u.string? <;> rfl
  have hstring : u.string? = none := string?_eq_none (hall (by simpa using hquote))
  rw [if_neg hquote, hstring]
  by_cases hparen : c = '('
  · subst hparen
    rw [if_pos rfl, number?_eq_none (hall (by decide)), name?_eq_none (hall (by decide))]
    cases u.arguments? <;> rfl
  rw [if_neg hparen, arguments?_eq_none (by rw [hpeek]; simpa using hparen)]
  by_cases hnumber : c.isDigit = true ∨ c = '+' ∨ c = '-'
  · rw [if_pos hnumber]
    rcases hread : u.number? with _ | r
    · have hsign : c = '+' ∨ c = '-' := hnumber.resolve_left fun hdigit => number?_ne_none hpeek hdigit hread
      have hname : u.name? = none := by
        refine name?_eq_none (hall ?_)
        rcases hsign with rfl | rfl <;> decide
      rw [hname]
      rfl
    · rfl
  · have hnot : u.number? = none := by
      refine number?_eq_none (hall ?_)
      simp only [not_or, Bool.not_eq_true] at hnumber
      exact ⟨hnumber.2.1, hnumber.2.2, hnumber.1⟩
    rw [if_neg hnumber, hnot]
    rfl

lemma runs_argumentReader (h : s.lexer.At text u) {c : Char} (hpeek : u.peek? = some c) :
    Runs s.builder (argumentReader c) s (u.argument? = none) fun child t =>
      ∃ n v, u.argument? = some (n, v) ∧ s.Moves text t [child] [n] v := by
  rw [argument?_eq hpeek]
  unfold argumentReader
  split
  · next hquote => exact (runs_string h hpeek hquote).imp False.elim fun _ _ h => h
  split
  · exact runs_arguments h
  split
  · exact runs_required (runs_number h)
  · exact runs_required (runs_name h)

lemma argument?_eq_none (h : u.peek? = none ∨ u.peek? = some '#' ∨ u.peek? = some ':') : u.argument? = none := by
  rcases h with h | h | h
  · have hall {P : Char → Prop} : ∀ d, u.peek? = some d → P d := by simp [h]
    rw [Unread.argument?, string?_eq_none hall, arguments?_eq_none (by simp [h]), number?_eq_none hall,
      name?_eq_none hall]
    rfl
  · rw [argument?_eq h]
    exact name?_eq_none fun d hd => by rw [h, Option.some.injEq] at hd; subst hd; decide
  · rw [argument?_eq h]
    exact name?_eq_none fun d hd => by rw [h, Option.some.injEq] at hd; subst hd; decide

lemma argumentReader_bind {β : Type} (c : Char) (k : Child → LineReader β) :
    (if lead c = '"'.toUInt8 ∨ lead c = '\''.toUInt8 then string >>= k
      else if lead c = '('.toUInt8 then arguments >>= k
      else if ('0'.toUInt8 ≤ lead c ∧ lead c ≤ '9'.toUInt8) ∨ lead c = '+'.toUInt8 ∨ lead c = '-'.toUInt8 then
        required (token .number Lexer.number) >>= k
      else required (token .identifier Lexer.identifier) >>= k) = argumentReader c >>= k := by
  have hlead {a : Char} (ha : a.val.toNat ≤ 127) : lead c = a.toUInt8 ↔ c = a := lead_eq_iff ha
  have hquote : isQuote c = true ↔ c = '"' ∨ c = '\'' := by simp [isQuote]
  simp only [argumentReader, hlead (by decide : ('"').val.toNat ≤ 127), hlead (by decide : ('\'').val.toNat ≤ 127),
    hlead (by decide : ('(').val.toNat ≤ 127), hlead (by decide : ('+').val.toNat ≤ 127),
    hlead (by decide : ('-').val.toNat ≤ 127), isDigit_lead, hquote]
  split
  · rfl
  split
  · rfl
  split <;> rfl

lemma finish?_eq_none {c : Char} (hpeek : u.peek? = some c) (hc : c ≠ '#') : u.finish? = none := by
  have hcomment : u.comment? = none := by
    obtain ⟨cs, hrest⟩ := List.head?_eq_some_iff.mp hpeek
    simp [Unread.comment?, Unread.trimmedToken?, Unread.tokenText, hrest, commentLength, hc, trimEnd]
  rw [Unread.finish?, Unread.many_of_none hcomment]
  simp [hpeek]

/-- The arguments end with a colon, or without one. -/
def Argued (text : List Char) (s : Reading) (u : Unread) (r : List Child × Option Child) (t : Reading) : Prop :=
  ((Unread.many Unread.argument? u).2.char? ':' .colon = none ∧ r.2 = none ∧
      s.Moves text t r.1 (Unread.many Unread.argument? u).1 (Unread.many Unread.argument? u).2) ∨
    ∃ n w c, (Unread.many Unread.argument? u).2.char? ':' .colon = some (n, w) ∧ r.2 = some c ∧
      s.Moves text t (r.1 ++ [c]) ((Unread.many Unread.argument? u).1 ++ [n]) w

lemma runs_statementArgumentsUpTo {n : Nat} (h : s.lexer.At text u) (hn : u.rest.length < n) :
    Runs s.builder (statementArgumentsUpTo n) s
      ((Unread.many Unread.argument? u).2.char? ':' .colon = none ∧ (Unread.many Unread.argument? u).2.finish? = none)
      (Argued text s u) := by
  induction n generalizing u s with
  | zero => exact absurd hn (Nat.not_lt_zero _)
  | succ n ih =>
    rw [statementArgumentsUpTo]
    refine .lexing h.peek ?_
    have hat := h.standsIn.at_skipBlanks
    have hm₀ := moves_lexer (s := s) hat
    have hdone (hargument : u.argument? = none) (hcolon : u.char? ':' .colon = none) :
        Argued text s u ([], none) ⟨u.skipBlanks.lexer text, s.builder⟩ := by
      rw [Argued, Unread.many_of_none hargument]
      exact .inl ⟨hcolon, rfl, hm₀⟩
    rcases hpeek : u.peek? with _ | c
    · exact runs_pure (hdone (argument?_eq_none (.inl hpeek)) (char?_eq_none_iff.mpr (by simp [hpeek])))
    have hlead {a : Char} (ha : a.val.toNat ≤ 127) : lead c = a.toUInt8 ↔ c = a := lead_eq_iff ha
    dsimp only [Option.map_some]
    by_cases hhash : c = '#'
    · subst hhash
      rw [if_pos ((hlead (by decide)).mpr rfl)]
      exact runs_pure (hdone (argument?_eq_none (.inr (.inl hpeek))) (char?_eq_none_iff.mpr (by simp [hpeek])))
    rw [if_neg (mt (hlead (by decide)).mp hhash)]
    by_cases hcolon : c = ':'
    · subst hcolon
      have hargument := argument?_eq_none (.inr (.inr hpeek))
      rw [if_pos ((hlead (by decide)).mpr rfl)]
      refine (runs_char hat (show (':' : Char).val.toNat ≤ 127 by decide) (by decide)).next ?_
      rintro _ t (⟨hnone, rfl, -⟩ | ⟨colon, w, child, hread, rfl, hm⟩)
      · exact absurd hpeek (char?_eq_none_iff.mp hnone)
      · refine runs_pure ?_
        rw [Argued, Unread.many_of_none hargument]
        exact .inr ⟨colon, w, child, hread, rfl, hm₀.trans hm⟩
    have hnone : u.char? ':' .colon = none := char?_eq_none_iff.mpr (by simpa [hpeek] using hcolon)
    rw [if_neg (mt (hlead (by decide)).mp hcolon), argumentReader_bind]
    refine (runs_argumentReader hat hpeek).bind ?_ ?_
    · intro hargument
      rw [Unread.many_of_none hargument]
      exact ⟨.refl _, hnone, finish?_eq_none hpeek hhash⟩
    rintro child t ⟨argument, v, hread, hm⟩
    have hm := hm₀.trans hm
    have hlt := (Unread.isNodeReader_argument? u argument v hread).2
    have hmany := Unread.isNodeReader_argument?.many_of_some hread
    refine (ih hm.lexer (by omega)).bind ?_ ?_
    · exact fun hD => ⟨hm.built.toExtends, by rw [hmany]; exact hD⟩
    rintro ⟨more, colon⟩ t' hmore
    refine runs_pure ?_
    rw [Argued, hmany]
    rcases hmore with ⟨hread', rfl, hm'⟩ | ⟨n, w, c', hread', rfl, hm'⟩
    · exact .inl ⟨hread', rfl, hm.trans hm'⟩
    · exact .inr ⟨n, w, c', hread', rfl, hm.trans hm'⟩

lemma runs_statementArguments (h : s.lexer.At text u) : Runs s.builder statementArguments s
    ((Unread.many Unread.argument? u).2.char? ':' .colon = none ∧ (Unread.many Unread.argument? u).2.finish? = none)
    (Argued text s u) :=
  .turns (runs_statementArgumentsUpTo h (Nat.lt_succ_of_le h.length_le))

lemma isEmpty_eq {α β : Type} {as : List α} {bs : List β} (h : as.length = bs.length) : as.isEmpty = bs.isEmpty := by
  cases as <;> cases bs <;> simp at h ⊢

lemma runs_renpyStatement (h : s.lexer.At text u) (start : Nat) (hclass : u.peekKeyword?.any Keyword.isStatement = true) :
    Runs s.builder (renpyStatement start) s (u.renpyStatement? = none) fun form t =>
      ∃ f, u.renpyStatement? = some f ∧ Says s.builder t.builder form f := by
  unfold renpyStatement
  refine (runs_keyword h hclass).next ?_
  rintro kw t₁ ⟨keyword, u₁, hkeyword, hm₁⟩
  obtain ⟨args', v, hmany⟩ : ∃ args' v, Unread.many Unread.argument? u₁ = (args', v) := ⟨_, _, rfl⟩
  have hm := hm₁.under .keyword
  refine (runs_statementArguments hm₁.lexer).bind ?_ ?_
  · rw [hmany]
    rintro ⟨hcolon, hfinish⟩
    exact ⟨hm₁.built.toExtends, by
      simp only [Unread.renpyStatement?, hkeyword, hmany, hcolon, hfinish, Option.bind_eq_bind, Option.bind_some,
        Option.bind_none]⟩
  rintro ⟨args, colon⟩ t₂ hargued
  rw [Argued, hmany] at hargued
  obtain (⟨hcolon, rfl, hm₂⟩ | ⟨n, w, c, hcolon, rfl, hm₂⟩) := hargued
  · have heq : u.renpyStatement? = v.finish?.bind fun comments =>
        if args'.isEmpty then none
        else some (Unread.statementItems (.branch .renpyStatement
          (keyword.under .keyword :: args') keyword.span.start) comments) := by
      simp only [Unread.renpyStatement?, hkeyword, hmany, hcolon, Option.bind_eq_bind, Option.bind_some]
      rfl
    have hlength : args.isEmpty = args'.isEmpty := isEmpty_eq hm₂.built.length_eq
    have hm := hm.trans hm₂
    dsimp only
    rw [hlength]
    by_cases hempty : args'.isEmpty = true
    · rw [if_pos hempty]
      simp only [if_pos hempty] at heq
      exact runs_failure hm.built.toExtends (by rw [heq]; cases v.finish? <;> rfl)
    · rw [if_neg hempty]
      simp only [if_neg hempty] at heq
      exact runs_statementEnd start _ hm (by decide) hm.built.toExtends heq
  · have heq : u.renpyStatement? = w.finish?.bind fun comments =>
        some (.opens ⟨.renpyStatement, keyword.under .keyword :: args' ++ n :: comments⟩) := by
      simp only [Unread.renpyStatement?, hkeyword, hmany, hcolon, Option.bind_eq_bind, Option.bind_some]
      rfl
    have hm := hm.trans hm₂
    refine (runs_finishLine hm₂.lexer).bind ?_ ?_
    · intro hnone
      exact ⟨hm.built.toExtends, by rw [heq, hnone]; rfl⟩
    rintro comments t₃ ⟨comments', x, hfinish, hmc⟩
    have hall : s.builder.Built t₃.builder (⟨kw.index, some .keyword⟩ :: args ++ c :: comments)
        (keyword.under .keyword :: args' ++ n :: comments') := by
      simpa using hm.built.append hmc.built
    have hlength : (⟨kw.index, some .keyword⟩ :: args : List Child).length = (keyword.under .keyword :: args').length := by
      simpa using hm₂.built.length_eq
    refine .endOf (denotes_middle hall hlength) ?_
    refine runs_pure ⟨_, by rw [heq, hfinish]; rfl, ?_⟩
    exact .opens hall (by decide) ⟨n, by simp, rfl⟩

/-- The form that `read` gives is built, or the reader declines with it. -/
def Forms (p : LineReader LineForm) (s : Reading) (read : Option Form) : Prop :=
  Runs s.builder p s (read = none) fun form t => ∃ f, read = some f ∧ Says s.builder t.builder form f

lemma Forms.attempt {p q : LineReader LineForm} {read read' : Option Form} (h : Forms p s read) (h' : Forms q s read') :
    Forms (attempt p q) s (read <|> read') := by
  rcases hread : read with _ | f
  · change Forms (LineReader.attempt p q) s read'
    refine Runs.attempt (h.imp (fun _ => ⟨.refl _, trivial⟩) ?_) fun _ => h'
    rintro form t ⟨f, hf, -⟩
    rw [hread] at hf
    cases hf
  · refine Runs.attempt (h.imp (fun hnone => ?_) ?_) False.elim
    · rw [hread] at hnone
      cases hnone
    · rintro form t ⟨f', hf', hsays⟩
      rw [hread, Option.some.injEq] at hf'
      exact ⟨f, rfl, hf' ▸ hsays⟩

lemma forms_candidate {inClass : Keyword → Bool} {reader : LineReader LineForm} {read : Option Form} (h : s.lexer.At text u)
    (hread : u.keyword? inClass = none → read = none)
    (hreader : u.peekKeyword?.any inClass = true → Forms reader s read) :
    Forms (candidate inClass reader) s read := by
  unfold Forms candidate
  refine .peekKeyword h ?_
  by_cases hclass : u.peekKeyword?.any inClass = true
  · rw [if_pos hclass]
    exact hreader hclass
  · rw [if_neg hclass]
    exact runs_failure (.refl _) (hread (keyword?_eq_none (by simpa using hclass)))

lemma forms_statement (h : s.lexer.At text u) (start : Nat) : Forms (statement start) s u.statement? := by
  refine (forms_candidate h ?_ (runs_controlStatement h start)).attempt
    ((forms_candidate h ?_ (runs_defineStatement h start)).attempt (forms_candidate h ?_ (runs_renpyStatement h start)))
  · intro hnone
    rw [Unread.controlStatement?, hnone]
    rfl
  · intro hnone
    rw [Unread.defineStatement?, hnone]
    rfl
  · intro hnone
    rw [Unread.renpyStatement?, hnone]
    rfl

/-! ## Lines of Python and dialogue -/

lemma forms_pythonInline (h : s.lexer.At text u) : Forms pythonInline s (u.pythonInline?.map Form.items) := by
  unfold Forms pythonInline
  refine .requiredLexing (h.eat (c := '$') (by decide) .dollar) ?_ ?_
  · intro hnone
    exact ⟨.refl _, by rw [Unread.pythonInline?, hnone]; rfl⟩
  intro dollar v hdollar
  obtain ⟨hn, hv⟩ := token?_stands h hdollar
  have hspan := char?_span (by decide) hdollar
  have hstop : dollar.span.start + 1 = dollar.span.stop := by rw [hspan]
  refine (runs_leaf hv.at (by decide) _).next ?_
  intro c t₁ hm₁
  rw [← hspan, ← hn] at hm₁
  have hm : s.Moves text t₁ [c] [dollar] v := (moves_lexer hv.at).trans hm₁
  rw [hstop]
  refine (runs_expressionOrMissing hm.lexer _).next ?_
  intro c₂ t₂ hm₂
  refine (runs_branch (hm.trans hm₂) (by decide) _).next ?_
  intro inline t₃ hm₃
  have heq : u.pythonInline? = (v.expressionOrAbsent dollar.span.stop).2.finish?.bind fun comments =>
      some (.branch .pythonInline [dollar, (v.expressionOrAbsent dollar.span.stop).1] dollar.span.start :: comments) := by
    simp only [Unread.pythonInline?, hdollar, Option.bind_eq_bind, Option.bind_some]
    rfl
  refine (runs_finishLine hm₃.lexer).bind ?_ ?_
  · intro hnone
    exact ⟨hm₃.built.toExtends, by rw [heq, hnone]; rfl⟩
  rintro comments t₄ ⟨comments', w, hfinish, hmc⟩
  exact runs_pure ⟨_, by rw [heq, hfinish]; rfl, .items (hm₃.built.append hmc.built)⟩

lemma runs_stringIfAny (h : s.lexer.At text u) :
    Runs s.builder stringIfAny s False (Tried (fun c => [c]) text s u u.string?) := by
  have hat := h.standsIn.at_skipBlanks
  have hm₀ := moves_lexer (s := s) hat
  have hlead : u.peek?.map lead = some '"'.toUInt8 ∨ u.peek?.map lead = some '\''.toUInt8 ↔
      u.peek? = some '"' ∨ u.peek? = some '\'' :=
    or_congr (Lexer.peek?_eq_lead_iff (by decide)) (Lexer.peek?_eq_lead_iff (by decide))
  unfold stringIfAny
  refine .lexing h.peek ?_
  by_cases hquote : u.peek? = some '"' ∨ u.peek? = some '\''
  · obtain ⟨q, hpeek, hq⟩ : ∃ q, u.peek? = some q ∧ isQuote q = true := by
      rcases hquote with hpeek | hpeek
      · exact ⟨_, hpeek, rfl⟩
      · exact ⟨_, hpeek, rfl⟩
    rw [if_pos (hlead.mpr hquote)]
    refine (runs_string hat hpeek hq).next ?_
    rintro c t ⟨n, v, hread, hm⟩
    exact runs_pure (.inr ⟨n, v, c, hread, rfl, hm₀.trans hm⟩)
  · rw [if_neg (mt hlead.mp hquote)]
    refine runs_pure (.inl ⟨string?_eq_none ?_, rfl, hm₀⟩)
    intro c hpeek
    by_contra hq
    refine hquote ?_
    rw [hpeek]
    simpa [isQuote, or_iff_not_imp_left] using hq

lemma forms_stringLine (h : s.lexer.At text u) : Forms stringLine s (u.strings?.map Form.items) := by
  unfold Forms stringLine
  refine (runs_whileSome Unread.isNodeReader_string? (fun s u h => runs_stringIfAny h) h).next ?_
  intro strings t₁ hm₁
  rw [List.flatMap_singleton'] at hm₁
  obtain ⟨strings', v, hmany⟩ : ∃ strings' v, Unread.many Unread.string? u = (strings', v) := ⟨_, _, rfl⟩
  have hstrings : u.strings? = if strings'.isEmpty then none else v.finish?.map (strings' ++ ·) := by
    rw [Unread.strings?, hmany]
  rw [hmany] at hm₁
  rw [isEmpty_eq hm₁.built.length_eq, hstrings]
  by_cases hempty : strings'.isEmpty = true
  · rw [if_pos hempty, if_pos hempty]
    exact runs_failure hm₁.built.toExtends rfl
  · rw [if_neg hempty, if_neg hempty]
    refine (runs_finishLine hm₁.lexer).bind ?_ ?_
    · intro hnone
      exact ⟨hm₁.built.toExtends, by rw [hnone]; rfl⟩
    rintro comments t₂ ⟨comments', w, hfinish, hmc⟩
    exact runs_pure ⟨_, by rw [hfinish]; rfl, .items (hm₁.built.append hmc.built)⟩

/-! ### Expressions and comments in turn -/

lemma drop_expressionLength (quote : Option Char) (cs : List Char) :
    (cs.drop (expressionLength quote cs)).head? = none ∨ (cs.drop (expressionLength quote cs)).head? = some '#' := by
  fun_induction expressionLength quote cs with
  | case1 => exact .inl rfl
  | case2 quote c h => exact .inr (by rw [h.2]; rfl)
  | case3 => exact .inl rfl
  | case4 => exact .inr rfl
  | case5 c d cs hc ih => exact ih
  | case6 d cs q ih => exact ih
  | case7 c d cs q hc ih => exact ih

lemma peek?_behind_expression {kind : Kind} {n : Node} (h : u.expression? kind = some (n, v)) :
    v.peek? = none ∨ v.peek? = some '#' := by
  obtain ⟨-, -, rfl⟩ := Unread.trimmedToken?_eq_some_iff.mp h
  rw [Unread.peek?, Unread.skipBlanks_rest]
  rcases drop_expressionLength none u.skipBlanks.rest with hhead | hhead
  · rw [List.head?_eq_none_iff] at hhead
    exact .inl (by rw [Unread.advance, hhead]; rfl)
  · obtain ⟨cs, hcs⟩ := List.head?_eq_some_iff.mp hhead
    exact .inr (by rw [Unread.advance, hcs]; rfl)

lemma expression?_eq_none {kind : Kind} (h : u.peek? = none ∨ u.peek? = some '#') : u.expression? kind = none := by
  have hzero : expressionLength none u.skipBlanks.rest = 0 := by
    rcases h with hpeek | hpeek
    · rw [List.head?_eq_none_iff.mp hpeek, expressionLength]
    · obtain ⟨cs, hcs⟩ := List.head?_eq_some_iff.mp hpeek
      rw [hcs, Lexer.expressionLength_code, if_pos rfl]
  rw [Unread.expression?, Unread.trimmedToken?, Unread.tokenText, hzero]
  rfl

/-- The comment that may be next behind an expression, and what follows that. -/
lemma runs_commentNext {n : Nat} {kind : Kind} {expression : List Child} {ns : List Node}
    {k : Option Child → LineReader (List Child)} (hm : s₀.Moves text s expression ns v)
    (hnext : v.peek? = none ∨ v.peek? = some '#') (hlast : k none = pure expression)
    (hmore : ∀ c, k (some c) = expressionsUpTo kind n >>= fun more => pure (expression ++ c :: more))
    (hrest : ∀ (w : Unread) (t : Reading), w.rest.length < v.rest.length → t.lexer.At text w →
      Runs t.builder (expressionsUpTo kind n) t False fun cs t' => t.builder.Built t'.builder cs (w.expressionPieces kind)) :
    Runs b (comment >>= k) s False fun cs t => s₀.builder.Built t.builder cs (ns ++ v.expressionPieces kind) := by
  have hpiece : v.expressionPiece? kind = v.comment? := by
    rw [Unread.expressionPiece?, expression?_eq_none hnext]
    rfl
  refine (runs_comment hm.lexer).next ?_
  rintro _ t (⟨hread, rfl, hm₁⟩ | ⟨n, w, c, hread, rfl, hm₁⟩)
  · have hnil : v.expressionPieces kind = [] := by
      rw [Unread.expressionPieces, Unread.many_of_none (hpiece.trans hread)]
    rw [hnil, hlast]
    refine runs_pure ?_
    simpa using hm.built.append hm₁.built
  · have hreader := Unread.isNodeReader_expressionPiece? kind
    have hread := hpiece.trans hread
    have hcons : v.expressionPieces kind = n :: w.expressionPieces kind := by
      rw [Unread.expressionPieces, hreader.many_of_some hread]
      rfl
    rw [hmore]
    refine (hrest w t (hreader v n w hread).2 hm₁.lexer).next ?_
    intro more t' hbuilt
    refine runs_pure ?_
    rw [hcons]
    exact hm.built.append (hm₁.built.append hbuilt)

lemma runs_expressionsUpTo {n : Nat} (h : s.lexer.At text u) (hn : u.rest.length < n) {kind : Kind}
    (hkind : kind ≠ .comment) : Runs s.builder (expressionsUpTo kind n) s False fun cs t =>
      s.builder.Built t.builder cs (u.expressionPieces kind) := by
  have hreader := Unread.isNodeReader_expressionPiece? kind
  induction n generalizing u s with
  | zero => exact absurd hn (Nat.not_lt_zero _)
  | succ n ih =>
    rw [expressionsUpTo]
    refine (runs_expression h hkind).next ?_
    rintro _ t (⟨hread, rfl, hm⟩ | ⟨n, v, c, hread, rfl, hm⟩)
    · have hnext : u.peek? = none ∨ u.peek? = some '#' := by
        by_contra! hpeek
        obtain ⟨c, hc⟩ := Option.ne_none_iff_exists'.mp hpeek.1
        exact Unread.expression?_ne_none kind hc (by simpa [hc] using hpeek.2) hread
      exact runs_commentNext hm hnext rfl (fun _ => rfl) fun w t hlt hat => ih hat (by omega)
    · have hpiece : u.expressionPiece? kind = some (n, v) := by
        rw [Unread.expressionPiece?, hread]
        rfl
      have hlt := (hreader u n v hpiece).2
      have hcons : u.expressionPieces kind = [n] ++ v.expressionPieces kind := by
        rw [Unread.expressionPieces, hreader.many_of_some hpiece]
        rfl
      rw [hcons]
      exact runs_commentNext hm (peek?_behind_expression hread) rfl (fun _ => rfl)
        fun w t hlt' hat => ih hat (by omega)

lemma runs_expressions (h : s.lexer.At text u) {kind : Kind} (hkind : kind ≠ .comment) :
    Runs s.builder (expressions kind) s False fun cs t => s.builder.Built t.builder cs (u.expressionPieces kind) :=
  .turns (runs_expressionsUpTo h (Nat.lt_succ_of_le h.length_le) hkind)

/-! ### Dialogue -/

lemma dialoguePiece?_eq {c : Char} (hpeek : u.peek? = some c) : u.dialoguePiece? =
    if c = '#' then u.comment?
    else if c = '"' then u.string?
    else if c = '\\' then u.char? '\\' .error
    else u.pythonRun? := by
  rw [Unread.dialoguePiece?, hpeek]
  split <;> simp_all

lemma tried_toList {step : LineReader (Option Child)} {read : Option (Node × Unread)} (hne : read ≠ none)
    (h : Runs s.builder step s False (Tried (fun c => [c]) text s u read)) :
    Runs s.builder (step >>= fun c => pure (some c.toList)) s False (Tried id text s u read) := by
  refine h.next ?_
  rintro _ t (⟨hnone, -, -⟩ | ⟨n, v, c, hread, rfl, hm⟩)
  · exact absurd hnone hne
  · exact runs_pure (.inr ⟨n, v, [c], hread, rfl, hm⟩)

lemma runs_backslash {b : TreeBuilder} (hstands : u.skipBlanks.StandsIn text) (hpeek : u.peek? = some '\\') :
    Runs b (do
      let x ← lexer
      lexing fun x => some ((), x.setPos (x.pos + 1))
      let error ← leaf .error ⟨x.pos, x.pos + 1⟩
      return some [error]) ⟨u.skipBlanks.lexer text, b⟩ False
      (Tried id text ⟨u.skipBlanks.lexer text, b⟩ u (u.char? '\\' .error)) := by
  obtain ⟨cs, hrest⟩ := List.head?_eq_some_iff.mp hpeek
  have hpos : (u.skipBlanks.advance 1).pos = u.skipBlanks.pos + 1 := by
    rw [Unread.advance, hrest]
    rfl
  have hread : u.char? '\\' .error =
      some (.leaf .error ⟨u.skipBlanks.pos, u.skipBlanks.pos + 1⟩, u.skipBlanks.advance 1) := by
    have hlength : charLength '\\' u.skipBlanks.rest = 1 := by rw [hrest]; rfl
    refine Unread.token?_eq_some_iff.mpr ⟨by omega, ?_, by rw [hlength]⟩
    rw [hlength, hrest]
    rfl
  refine .lexer (.lexing rfl ?_)
  have hset : (u.skipBlanks.lexer text).setPos (u.skipBlanks.pos + 1) = (u.skipBlanks.advance 1).lexer text := by
    rw [← hpos]
    exact setPos_eq hstands.at_skipBlanks 1
  rw [show (u.skipBlanks.lexer text).pos = u.skipBlanks.pos from rfl, hset]
  have hat := (hstands.advance 1).at
  refine (runs_leaf hat (by decide) _).next ?_
  intro c t hm
  exact runs_pure (.inr ⟨_, _, [c], hread, rfl, (moves_lexer hat).trans hm⟩)

lemma Tried.trans {α : Type} {children : α → List Child} {read : Option (Node × Unread)} {r : Option α} {s₁ : Reading}
    (hm : s.Moves text s₁ [] [] v) (h : Tried children text s₁ u read r t) : Tried children text s u read r t := by
  rcases h with ⟨hread, hr, hm₁⟩ | ⟨n, w, a, hread, hr, hm₁⟩
  · exact .inl ⟨hread, hr, hm.trans hm₁⟩
  · exact .inr ⟨n, w, a, hread, hr, hm.trans hm₁⟩

lemma runs_dialoguePiece (h : s.lexer.At text u) :
    Runs s.builder dialoguePiece s False (Tried id text s u u.dialoguePiece?) := by
  have hat := h.standsIn.at_skipBlanks
  have hm₀ := moves_lexer (s := s) hat
  unfold dialoguePiece
  refine .lexing h.peek ?_
  rcases hpeek : u.peek? with _ | c
  · exact runs_pure (.inl ⟨by rw [Unread.dialoguePiece?, hpeek], rfl, hm₀⟩)
  have hlead {a : Char} (ha : a.val.toNat ≤ 127) : lead c = a.toUInt8 ↔ c = a := lead_eq_iff ha
  have hne := Unread.dialoguePiece?_ne_none hpeek
  have hpiece := dialoguePiece?_eq hpeek
  refine Runs.imp (E := False) (Q := Tried id text ⟨u.skipBlanks.lexer text, s.builder⟩ u u.dialoguePiece?) ?_
    False.elim fun _ _ => Tried.trans hm₀
  dsimp only [Option.map_some]
  by_cases hhash : c = '#'
  · rw [if_pos hhash] at hpiece
    rw [if_pos ((hlead (by decide)).mpr hhash)]
    exact tried_toList hne (hpiece ▸ runs_comment hat)
  rw [if_neg hhash] at hpiece
  rw [if_neg (mt (hlead (by decide)).mp hhash)]
  by_cases hquote : c = '"'
  · subst hquote
    rw [if_pos rfl] at hpiece
    rw [if_pos ((hlead (by decide)).mpr rfl), hpiece]
    refine (runs_string hat hpeek rfl).next ?_
    rintro c t ⟨n, v, hread, hm⟩
    exact runs_pure (.inr ⟨n, v, [c], hread, rfl, hm⟩)
  rw [if_neg hquote] at hpiece
  rw [if_neg (mt (hlead (by decide)).mp hquote)]
  by_cases hbackslash : c = '\\'
  · subst hbackslash
    rw [if_pos rfl] at hpiece
    rw [if_pos ((hlead (by decide)).mpr rfl), hpiece]
    exact runs_backslash h.standsIn hpeek
  · rw [if_neg hbackslash] at hpiece
    rw [if_neg (mt (hlead (by decide)).mp hbackslash)]
    exact tried_toList hne (hpiece ▸ runs_pythonRun hat)

lemma runs_blockLine (h : s.lexer.At text u) : Runs s.builder blockLine s False fun form t =>
    Says s.builder t.builder form (.items u.dialogue) := by
  have hat := h.standsIn.at_skipBlanks
  have hm₀ := moves_lexer (s := s) hat
  have hdialogue : u.dialogue = (Unread.optional Unread.singleQuoted? u).1 ++
      (Unread.many Unread.dialoguePiece? (Unread.optional Unread.singleQuoted? u).2).1 := rfl
  have hpieces (first : List Child) (t : Reading) (hm : s.Moves text t first
      (Unread.optional Unread.singleQuoted? u).1 (Unread.optional Unread.singleQuoted? u).2) :
      Runs s.builder (whileSome dialoguePiece >>= fun pieces => pure (.items (first ++ pieces.flatten))) t False
        fun form t => Says s.builder t.builder form (.items u.dialogue) := by
    refine (runs_whileSome Unread.isNodeReader_dialoguePiece? (fun s u h => runs_dialoguePiece h) hm.lexer).next ?_
    intro pieces t' hm'
    rw [List.flatMap_id] at hm'
    refine runs_pure (.items ?_)
    rw [hdialogue]
    exact (hm.trans hm').built
  unfold blockLine
  refine .lexing h.peek ?_
  have hquote : u.peek?.map lead = some '\''.toUInt8 ↔ u.peek? = some '\'' := Lexer.peek?_eq_lead_iff (by decide)
  by_cases hpeek : u.peek? = some '\''
  · rw [if_pos (hquote.mpr hpeek), map_eq_pure_bind, bind_assoc]
    refine (runs_string hat hpeek rfl).next ?_
    rintro c t ⟨n, v, hread, hm⟩
    rw [pure_bind]
    refine hpieces [c] t ?_
    rw [Unread.optional, Unread.singleQuoted?, if_pos hpeek, hread]
    exact hm₀.trans hm
  · rw [if_neg (mt hquote.mp hpeek), pure_bind]
    refine hpieces [] _ ?_
    rw [Unread.optional, Unread.singleQuoted?, if_neg hpeek]
    exact hm₀

/-! ## Any line -/

lemma Forms.getD {p q : LineReader LineForm} {read : Option Form} {form' : Form} (h : Forms p s read)
    (h' : Runs s.builder q s False fun form t => Says s.builder t.builder form form') :
    Runs s.builder (LineReader.attempt p q) s False fun form t => Says s.builder t.builder form (read.getD form') := by
  rcases hread : read with _ | f
  · refine Runs.attempt (h.imp (fun _ => ⟨.refl _, trivial⟩) ?_) fun _ => h'
    rintro form t ⟨f, hf, -⟩
    rw [hread] at hf
    cases hf
  · refine Runs.attempt (h.imp (fun hnone => ?_) ?_) False.elim
    · rw [hread] at hnone
      cases hnone
    · rintro form t ⟨f', hf', hsays⟩
      rw [hread, Option.some.injEq] at hf'
      exact hf' ▸ hsays

lemma getD_orElse {α : Type} (a b : Option α) (c : α) : (a <|> b).getD c = a.getD (b.getD c) := by
  cases a <;> rfl

lemma forms_pythonBlock (h : s.lexer.At text u) : Forms pythonBlock s (u.pythonBlock?.map Form.opensPython) := by
  refine (runs_pythonBlock h).imp ?_ ?_
  · intro hnone
    exact ⟨.refl _, by rw [hnone]; rfl⟩
  · rintro form t ⟨head, hhead, hsays⟩
    exact ⟨_, by rw [hhead]; rfl, hsays⟩

lemma forms_header (h : s.lexer.At text u) :
    Forms (header bodyFollows) s ((u.header? bodyFollows).map Form.opens) := by
  refine (runs_header h).imp ?_ ?_
  · intro hnone
    exact ⟨.refl _, by rw [hnone]; rfl⟩
  · rintro form t ⟨owner, howner, hsays⟩
    exact ⟨_, by rw [howner]; rfl, hsays⟩

theorem runs_topLevel (h : s.lexer.At text u) (start : Nat) : Runs s.builder (topLevel bodyFollows start) s False
    fun form t => Says s.builder t.builder form (.topLevel bodyFollows u) := by
  have herror : Runs s.builder errorLine s False fun form t =>
      Says s.builder t.builder form (.items (u.expressionPieces .error)) := by
    refine (runs_expressions h (by decide)).next ?_
    intro cs t hbuilt
    exact runs_pure (.items hbuilt)
  rw [Form.topLevel, getD_orElse, getD_orElse, getD_orElse]
  exact (forms_pythonBlock h).getD ((forms_header h).getD ((forms_statement h start).getD
    ((forms_stringLine h).getD herror)))

theorem runs_nested (h : s.lexer.At text u) (start : Nat) : Runs s.builder (nested start) s False
    fun form t => Says s.builder t.builder form (.nested u) := by
  rw [Form.nested, getD_orElse, getD_orElse]
  exact (forms_pythonBlock h).getD ((forms_pythonInline h).getD ((forms_statement h start).getD (runs_blockLine h)))

end

end LineReader

end RenpyScript
