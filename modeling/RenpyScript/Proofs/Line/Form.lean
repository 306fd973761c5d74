import RenpyScript.Line.Form
import RenpyScript.Proofs.Line.Quoted

/-!
# Lines leave nothing out

Whatever the form of a line is, its nodes are laid in the content of the line. The last resorts,
error nodes at the top level and dialogue inside a block, go on to the end of the line. This is
where the two readers of pieces have to decline only at the end.
-/

namespace RenpyScript

open Node

/-- The nodes of a form are laid in the text. What lacks a block or a body has a first node. -/
inductive Form.LaidOn (pos : Nat) (cs : List Char) : Form → Prop
  | items {nodes : List Node} (laid : Laid isGap pos cs nodes) : LaidOn pos cs (.items nodes)
  | opens {owner : Owner} (laid : Laid isGap pos cs owner.head) (nonempty : owner.head ≠ [])
      (kind : owner.kind ≠ .string) : LaidOn pos cs (.opens owner)
  | opensPython {head : List Node} (laid : Laid isGap pos cs head) (nonempty : head ≠ []) :
      LaidOn pos cs (.opensPython head)

namespace Unread

/-! ## Lines that open a block, at the top level -/

lemma optionalArguments?_reads {u v : Unread} {args : List Node}
    (h : u.optionalArguments? = some (args, v)) : u.Reads args v := by
  unfold optionalArguments? at h
  split at h
  · simp only [Option.map_eq_some_iff, Prod.mk.injEq, Prod.exists] at h
    obtain ⟨n, w, hread, rfl, rfl⟩ := h
    exact (isNodeReader_arguments? u n w hread).1
  · obtain ⟨rfl, rfl⟩ : _ ∧ _ := by simpa using h
    exact reads_refl u

lemma headerColon?_reads {u v w : Unread} {bodyFollows : Bool} {kind : Kind} {head : List Node}
    {colon : Node} (hhead : u.Reads head v) (hne : head ≠ [])
    (h : v.headerColon? bodyFollows (Owner.headEnd ⟨kind, head⟩) = some (colon, w)) :
    u.Reads (head ++ [colon]) w := by
  unfold headerColon? at h
  split at h
  · next r hread =>
    obtain rfl : r = (colon, w) := by simpa using h
    exact hhead.trans (isNodeReader_char? _ _ v colon w hread).1
  · split at h
    · obtain ⟨rfl, rfl⟩ : _ ∧ _ := by simpa using h
      have hlast := List.getLast?_eq_some_getLast hne
      rw [Owner.headEnd, hlast]
      exact hhead.append_absent .colon hlast
    · simp at h

lemma header?_laid {u : Unread} {bodyFollows : Bool} {owner : Owner}
    (h : u.header? bodyFollows = some owner) : (Form.opens owner).LaidOn u.pos u.rest := by
  simp only [header?, Option.bind_eq_bind, Option.bind_eq_some_iff, Option.pure_def,
    Option.some.injEq, Prod.exists] at h
  obtain ⟨keyword, u₁, hkeyword, args, u₄, hargs, colon, u₅, hcolon, comments, hfinish, rfl⟩ := h
  have hkeyword := (isNodeReader_keyword? _ u keyword u₁ hkeyword).1.under .keyword
  have hpriority := (isNodeReader_number?.optional u₁).under .priority
  have hname := (isNodeReader_dottedName?.optional (optional number? u₁).2).under .identifier
  have hargs := (optionalArguments?_reads hargs).under .args
  have hhead := ((hkeyword.trans hpriority).trans hname).trans hargs
  have hcolon := headerColon?_reads hhead (by simp) hcolon
  refine .opens ?_ (by simp) (by simp)
  simpa using hcolon.laid (laid_of_finish? hfinish)

lemma pythonModifier_reads (u : Unread) : u.Reads u.pythonModifier.1 u.pythonModifier.2 := by
  unfold pythonModifier
  split
  · exact reads_refl u
  · next keyword v hkeyword =>
    have hkeyword := (isNodeReader_keyword? _ u keyword v hkeyword).1.under .keyword
    have hpriority := (isNodeReader_number?.optional v).under .priority
    simpa using hkeyword.trans hpriority

lemma pythonBlock?_laid {u : Unread} {head : List Node} (h : u.pythonBlock? = some head) :
    (Form.opensPython head).LaidOn u.pos u.rest := by
  simp only [pythonBlock?, Option.bind_eq_bind, Option.bind_eq_some_iff, Option.pure_def,
    Option.some.injEq, Prod.exists] at h
  obtain ⟨python, u₂, hpython, colon, u₄, hcolon, comments, hfinish, rfl⟩ := h
  have hpython := (isNodeReader_keyword? _ _ python u₂ hpython).1
  have hnames := isNodeReader_name?.many u₂
  have hcolon := (isNodeReader_char? _ _ _ colon u₄ hcolon).1
  have hhead := ((u.pythonModifier_reads.trans hpython).trans hnames).trans hcolon
  refine .opensPython ?_ (by simp)
  simpa using hhead.laid (laid_of_finish? hfinish)

/-! ## Statements -/

lemma statementItems_laid {u v : Unread} {node : Node} {comments : List Node} (h : u.Reads [node] v)
    (hfinish : v.finish? = some comments) : (statementItems node comments).LaidOn u.pos u.rest :=
  .items ((Reads.branch (by decide) h (by simp) _).laid (laid_of_finish? hfinish))

/-- The text of a condition and its colon: the condition, white space and the colon. -/
lemma laid_condition (kind : Kind) (pos : Nat) {text : List Char} (hcolon : text.getLast? = some ':') :
    Laid isGap pos text
      [.leaf kind (.covering pos (trimEnd isWhiteSpace text.dropLast)),
        .leaf .colon ⟨pos + byteLength text - 1, pos + byteLength text⟩] := by
  obtain ⟨condition, rfl⟩ := List.getLast?_eq_some_iff.mp hcolon
  rw [List.dropLast_concat]
  obtain ⟨space, hsplit, hspace⟩ := trimEnd_split isWhiteSpace condition
  have hcondition := (fills_leaf kind pos (trimEnd isWhiteSpace condition)).laid.gap_after
    (hspace.mono fun _ => isGap_of_isWhiteSpace)
  rw [← hsplit] at hcondition
  have hone : byteLength [':'] = 1 := by decide
  have hleaf : Laid isGap (pos + byteLength condition) [':']
      [.leaf .colon (.covering (pos + byteLength condition) [':'])] := (fills_leaf .colon _ [':']).laid
  rw [Span.covering, hone] at hleaf
  have hstop : pos + byteLength (condition ++ [':']) = pos + byteLength condition + 1 := by
    rw [byteLength_append, hone, Nat.add_assoc]
  rw [hstop]
  exact hcondition.append hleaf

lemma controlStatement?_laid {u : Unread} {form : Form} (h : u.controlStatement? = some form) :
    form.LaidOn u.pos u.rest := by
  simp only [controlStatement?, Option.bind_eq_bind, Option.bind_eq_some_iff, Option.pure_def,
    Prod.exists] at h
  obtain ⟨keyword, u₁, hkeyword, whole, u₂, hwhole, comments, hfinish, h⟩ := h
  have hkeyword := (isNodeReader_keyword? _ u keyword u₁ hkeyword).1.under .keyword
  split at h
  · next hcolon =>
    split at h
    · simp at h
    · obtain rfl := (Option.some.injEq _ _).mp h
      refine .opens ?_ (by simp) (by simp)
      have htext := laid_condition .pythonExpression u₁.skipBlanks.pos hcolon
      have hreads := hkeyword.trans (reads_trimmedToken? (fun _ hc => hc) hwhole htext)
      obtain ⟨-, rfl, -⟩ := trimmedToken?_eq_some_iff.mp hwhole
      exact hreads.laid (laid_of_finish? hfinish)
  · obtain rfl := (Option.some.injEq _ _).mp h
    have hwhole := (isNodeReader_expression? _ u₁ whole u₂ hwhole).1
    exact statementItems_laid (Reads.branch (by decide) (hkeyword.trans hwhole) (by simp) _) hfinish

lemma expressionOrAbsent_reads {u v : Unread} {ns : List Node} (n : Node) (h : u.Reads ns v)
    (hn : ns.getLast? = some n) :
    u.Reads (ns ++ [(v.expressionOrAbsent n.span.stop).1]) (v.expressionOrAbsent n.span.stop).2 := by
  unfold expressionOrAbsent
  split
  · next r hread => exact h.trans (isNodeReader_expression? _ v r.1 r.2 hread).1
  · exact h.append_absent .pythonExpression hn

lemma defineStatement?_laid {u : Unread} {form : Form} (h : u.defineStatement? = some form) :
    form.LaidOn u.pos u.rest := by
  simp only [defineStatement?, Option.bind_eq_bind, Option.bind_eq_some_iff, Option.pure_def,
    Option.some.injEq, Prod.exists] at h
  obtain ⟨keyword, u₁, hkeyword, name, u₂, hname, equals, u₃, hequals, comments, hfinish, rfl⟩ := h
  have hkeyword := (isNodeReader_keyword? _ u keyword u₁ hkeyword).1.under .keyword
  have hname := (isNodeReader_dottedName? u₁ name u₂ hname).1
  have hequals := (isNodeReader_char? _ _ u₂ equals u₃ hequals).1
  have hvalue := expressionOrAbsent_reads equals ((hkeyword.trans hname).trans hequals) (by simp)
  exact statementItems_laid (Reads.branch (by decide) hvalue (by simp) _) hfinish

lemma isNodeReader_argument? : IsNodeReader argument? :=
  isNodeReader_string?.orElse
    (isNodeReader_arguments?.orElse (isNodeReader_number?.orElse isNodeReader_name?))

lemma renpyStatement?_laid {u : Unread} {form : Form} (h : u.renpyStatement? = some form) :
    form.LaidOn u.pos u.rest := by
  simp only [renpyStatement?, Option.bind_eq_bind, Option.bind_eq_some_iff, Option.pure_def,
    Prod.exists] at h
  obtain ⟨keyword, u₁, hkeyword, h⟩ := h
  have hkeyword := (isNodeReader_keyword? _ u keyword u₁ hkeyword).1.under .keyword
  have hhead := hkeyword.trans (isNodeReader_argument?.many u₁)
  split at h
  · next colon u₃ hcolon =>
    simp only [Option.bind_eq_some_iff, Option.some.injEq] at h
    obtain ⟨comments, hfinish, rfl⟩ := h
    have hcolon := (isNodeReader_char? _ _ _ colon u₃ hcolon).1
    refine .opens ?_ (by simp) (by simp)
    simpa using (hhead.trans hcolon).laid (laid_of_finish? hfinish)
  · simp only [Option.bind_eq_some_iff] at h
    obtain ⟨comments, hfinish, h⟩ := h
    split at h
    · simp at h
    · obtain rfl := (Option.some.injEq _ _).mp h
      exact statementItems_laid (Reads.branch (by decide) hhead (by simp) _) hfinish

lemma statement?_laid {u : Unread} {form : Form} (h : u.statement? = some form) :
    form.LaidOn u.pos u.rest := by
  simp only [statement?, Option.orElse_eq_orElse, Option.orElse_eq_or, Option.or_eq_some_iff] at h
  rcases h with h | ⟨-, h | ⟨-, h⟩⟩
  · exact controlStatement?_laid h
  · exact defineStatement?_laid h
  · exact renpyStatement?_laid h

/-! ## Lines of Python and dialogue -/

lemma pythonInline?_laid {u : Unread} {nodes : List Node} (h : u.pythonInline? = some nodes) :
    Laid isGap u.pos u.rest nodes := by
  simp only [pythonInline?, Option.bind_eq_bind, Option.bind_eq_some_iff, Option.pure_def,
    Option.some.injEq, Prod.exists] at h
  obtain ⟨dollar, u₁, hdollar, comments, hfinish, rfl⟩ := h
  have hdollar := (isNodeReader_char? _ _ u dollar u₁ hdollar).1
  have hexpression := expressionOrAbsent_reads dollar hdollar (by simp)
  exact (Reads.branch (by decide) hexpression (by simp) _).laid (laid_of_finish? hfinish)

lemma strings?_laid {u : Unread} {nodes : List Node} (h : u.strings? = some nodes) :
    Laid isGap u.pos u.rest nodes := by
  simp only [strings?] at h
  split at h
  · simp at h
  · obtain ⟨comments, hfinish, rfl⟩ := Option.map_eq_some_iff.mp h
    exact (isNodeReader_string?.many u).laid (laid_of_finish? hfinish)

lemma exists_of_peek? {u : Unread} {c : Char} (h : u.peek? = some c) :
    isBlank c = false ∧ ∃ cs, u.skipBlanks.rest = c :: cs :=
  ⟨not_isBlank_of_peek? h, List.head?_eq_some_iff.mp h⟩

lemma trimmedToken?_ne_none {u : Unread} {c : Char} {cs : List Char} {length : List Char → Nat}
    {trim : Char → Bool} (kind : Kind) (hrest : u.skipBlanks.rest = c :: cs)
    (hlength : 0 < length (c :: cs)) (htrim : trim c = false) :
    u.trimmedToken? kind length trim ≠ none := by
  obtain ⟨k, hk⟩ : ∃ k, length (c :: cs) = k + 1 := ⟨length (c :: cs) - 1, by omega⟩
  have htext : u.tokenText length trim = c :: trimEnd trim (cs.take k) := by
    rw [tokenText, hrest, hk, List.take_succ_cons, trimEnd_cons htrim]
  unfold trimmedToken?
  rw [if_neg (by simp [htext])]
  simp

lemma comment?_ne_none {u : Unread} (h : u.peek? = some '#') : u.comment? ≠ none := by
  obtain ⟨-, cs, hrest⟩ := exists_of_peek? h
  exact trimmedToken?_ne_none _ hrest (by simp [commentLength]) (by decide)

lemma expression?_ne_none {u : Unread} {c : Char} (kind : Kind) (h : u.peek? = some c) (hc : c ≠ '#') :
    u.expression? kind ≠ none := by
  obtain ⟨hblank, cs, hrest⟩ := exists_of_peek? h
  apply trimmedToken?_ne_none kind hrest _ hblank
  cases cs with
  | nil => simp [expressionLength, hc]
  | cons d cs => simp [expressionLength, hc]

lemma pythonRun?_ne_none {u : Unread} {c : Char} (h : u.peek? = some c) (hash : c ≠ '#') (quote : c ≠ '"')
    (backslash : c ≠ '\\') : u.pythonRun? ≠ none := by
  obtain ⟨hblank, cs, hrest⟩ := exists_of_peek? h
  exact trimmedToken?_ne_none _ hrest (by simp [pythonRunLength, hash, quote, backslash]) hblank

lemma isNodeReader_expressionPiece? (kind : Kind) : IsNodeReader (expressionPiece? kind) :=
  (isNodeReader_expression? kind).orElse isNodeReader_comment?

lemma expressionPiece?_ne_none {u : Unread} {c : Char} (kind : Kind) (h : u.peek? = some c) :
    u.expressionPiece? kind ≠ none := by
  unfold expressionPiece?
  by_cases hc : c = '#'
  · subst hc
    simp [comment?_ne_none h]
  · simp [expression?_ne_none kind h hc]

lemma isNodeReader_dialoguePiece? : IsNodeReader dialoguePiece? := by
  intro u n v h
  unfold dialoguePiece? at h
  split at h
  · simp at h
  · exact isNodeReader_comment? u n v h
  · exact isNodeReader_string? u n v h
  · exact isNodeReader_char? _ _ u n v h
  · exact isNodeReader_pythonRun? u n v h

/-- The pieces of a line of dialogue go on to the end of the line. -/
lemma dialoguePiece?_ne_none {u : Unread} {c : Char} (h : u.peek? = some c) : u.dialoguePiece? ≠ none := by
  obtain ⟨hblank, cs, hrest⟩ := exists_of_peek? h
  unfold dialoguePiece?
  split
  · simp_all
  · next hc => exact comment?_ne_none hc
  · next hc =>
    obtain rfl : c = '"' := by simpa [h] using hc
    have hd : ∃ d, Delimiter.at? u.skipBlanks.rest = some d := by
      simp [hrest, Delimiter.at?, isQuote]
    obtain ⟨d, hd⟩ := hd
    simp [string?_eq hd]
  · next hc =>
    obtain rfl : c = '\\' := by simpa [h] using hc
    simp [char?, token?, hrest, charLength]
  · next c' hash quote backslash hc =>
    obtain rfl : c' = c := by simpa [h] using hc.symm
    exact pythonRun?_ne_none h hash quote backslash

lemma many_laid {read? : Unread → Option (Node × Unread)} (h : IsNodeReader read?)
    (hdeclines : ∀ u c, u.peek? = some c → read? u ≠ none) (u : Unread) :
    Laid isGap u.pos u.rest (many read? u).1 := by
  have hpeek : (many read? u).2.peek? = none := by
    by_contra hne
    obtain ⟨c, hc⟩ := Option.ne_none_iff_exists'.mp hne
    exact hdeclines _ c hc (IsReader.many_declines h u)
  have hgap := (peek?_eq_none_iff.mp hpeek).mono fun _ => isGap_of_isBlank
  simpa using (h.many u).laid (laid_nil.mpr hgap)

lemma expressionPieces_laid (u : Unread) (kind : Kind) :
    Laid isGap u.pos u.rest (u.expressionPieces kind) :=
  many_laid (isNodeReader_expressionPiece? kind) (fun _ _ => expressionPiece?_ne_none kind) u

lemma isNodeReader_singleQuoted? : IsNodeReader singleQuoted? := by
  intro u n v h
  unfold singleQuoted? at h
  split at h
  · exact isNodeReader_string? u n v h
  · simp at h

lemma dialogue_laid (u : Unread) : Laid isGap u.pos u.rest u.dialogue := by
  have heq : u.dialogue =
      (optional singleQuoted? u).1 ++ (many dialoguePiece? (optional singleQuoted? u).2).1 := rfl
  rw [heq]
  apply (isNodeReader_singleQuoted?.optional u).laid
  exact many_laid isNodeReader_dialoguePiece? (fun _ _ => dialoguePiece?_ne_none) _

end Unread

namespace Form
variable {pos : Nat} {cs : List Char}

lemma laidOn_getD {o : Option Form} {last : Form} (h : ∀ form, o = some form → form.LaidOn pos cs)
    (hlast : last.LaidOn pos cs) : (o.getD last).LaidOn pos cs := by
  cases o with
  | none => exact hlast
  | some form => exact h form rfl

theorem topLevel_laidOn (bodyFollows : Bool) (u : Unread) :
    (topLevel bodyFollows u).LaidOn u.pos u.rest := by
  unfold topLevel
  refine laidOn_getD ?_ (.items (u.expressionPieces_laid .error))
  intro form h
  simp only [Option.orElse_eq_orElse, Option.orElse_eq_or, Option.or_eq_some_iff,
    Option.map_eq_some_iff] at h
  rcases h with ⟨head, h, rfl⟩ | ⟨-, ⟨owner, h, rfl⟩ | ⟨-, h | ⟨-, nodes, h, rfl⟩⟩⟩
  · exact Unread.pythonBlock?_laid h
  · exact Unread.header?_laid h
  · exact Unread.statement?_laid h
  · exact .items (Unread.strings?_laid h)

theorem nested_laidOn (u : Unread) : (nested u).LaidOn u.pos u.rest := by
  unfold nested
  refine laidOn_getD ?_ (.items u.dialogue_laid)
  intro form h
  simp only [Option.orElse_eq_orElse, Option.orElse_eq_or, Option.or_eq_some_iff,
    Option.map_eq_some_iff] at h
  rcases h with ⟨head, h, rfl⟩ | ⟨-, ⟨nodes, h, rfl⟩ | ⟨-, h⟩⟩
  · exact Unread.pythonBlock?_laid h
  · exact .items (Unread.pythonInline?_laid h)
  · exact Unread.statement?_laid h

end Form

end RenpyScript
