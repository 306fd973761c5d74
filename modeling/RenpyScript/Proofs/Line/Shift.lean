import RenpyScript.Proofs.Line.Form
import RenpyScript.Proofs.Tree.Shape

/-!
# Lines read at another offset

What a line says does not depend on where it stands: if it begins `k` bytes further to the right,
so do all nodes of its form. Every reader commutes with the shift, and so do the ways of combining
readers.
-/

namespace RenpyScript

open Node

namespace Unread

/-- The same text, further to the right. -/
def shift (k : Nat) (u : Unread) : Unread :=
  ⟨u.pos + k, u.rest⟩

section
variable (k : Nat) (u : Unread)

@[simp] lemma shift_rest : (u.shift k).rest = u.rest := rfl

lemma advance_shift (n : Nat) : (u.shift k).advance n = (u.advance n).shift k := by
  simp only [advance, shift, mk.injEq, and_true]
  omega

lemma skipBlanks_shift : (u.shift k).skipBlanks = u.skipBlanks.shift k :=
  advance_shift k u _

@[simp] lemma peek?_shift : (u.shift k).peek? = u.peek? := by
  rw [peek?, peek?, skipBlanks_shift, shift_rest]

lemma atLineEnd_shift : (u.shift k).atLineEnd = u.atLineEnd := by
  rw [atLineEnd, atLineEnd, peek?_shift]

lemma peekKeyword?_shift : (u.shift k).peekKeyword? = u.peekKeyword? := by
  simp only [peekKeyword?, skipBlanks_shift, shift_rest]

lemma tokenText_shift (length : List Char → Nat) (trim : Char → Bool) :
    (u.shift k).tokenText length trim = u.tokenText length trim := by
  rw [tokenText, tokenText, skipBlanks_shift, shift_rest]

end

/-! ## Readers -/

/-- What is read further to the right is the same, further to the right; `act` moves a result. -/
def Shifts {α : Type} (act : Nat → α → α) (read? : Unread → Option (α × Unread)) : Prop :=
  ∀ k u, read? (u.shift k) = (read? u).map fun r => (act k r.1, r.2.shift k)

/-- A reader of a node that commutes with shifts. -/
abbrev ShiftsNode (read? : Unread → Option (Node × Unread)) : Prop :=
  Shifts Node.shift read?

section
variable {α : Type} {act : Nat → α → α} {read? read?' : Unread → Option (α × Unread)}

lemma Shifts.orElse (h : Shifts act read?) (h' : Shifts act read?') :
    Shifts act (fun u => read? u <|> read?' u) := by
  intro k u
  have hk := h k u
  rcases hr : read? u with _ | r
  · rw [hr] at hk
    simpa [hk, hr] using h' k u
  · rw [hr] at hk
    simp [hk, hr]

lemma Shifts.repeatUpTo (h : Shifts act read?) (n k : Nat) (u : Unread) :
    repeatUpTo read? n (u.shift k) =
      ((repeatUpTo read? n u).1.map (act k), (repeatUpTo read? n u).2.shift k) := by
  induction n generalizing u with
  | zero => rfl
  | succ n ih =>
    rw [Unread.repeatUpTo, Unread.repeatUpTo, h k u]
    rcases read? u with _ | ⟨a, v⟩
    · rfl
    · simp [ih v]

lemma Shifts.many (h : Shifts act read?) (k : Nat) (u : Unread) :
    many read? (u.shift k) = ((many read? u).1.map (act k), (many read? u).2.shift k) :=
  h.repeatUpTo u.rest.length k u

lemma Shifts.optional (h : Shifts act read?) (k : Nat) (u : Unread) :
    optional read? (u.shift k) = ((optional read? u).1.map (act k), (optional read? u).2.shift k) := by
  rw [Unread.optional, Unread.optional, h k u]
  rcases read? u with _ | ⟨a, v⟩
  · rfl
  · rfl

end

lemma shifts_token? (kind : Kind) (length : List Char → Nat) : ShiftsNode (token? kind length) := by
  intro k u
  unfold token?
  rw [skipBlanks_shift]
  dsimp only [shift_rest]
  split
  · rfl
  · rw [advance_shift, Option.map_some, ← leaf_shift, ← Span.covering_shift, shift]

lemma shifts_trimmedToken? (kind : Kind) (length : List Char → Nat) (trim : Char → Bool) :
    ShiftsNode (trimmedToken? kind length trim) := by
  intro k u
  unfold trimmedToken?
  rw [tokenText_shift, skipBlanks_shift]
  dsimp only [shift_rest]
  split
  · rfl
  · rw [advance_shift, Option.map_some, ← leaf_shift, ← Span.covering_shift, shift]

lemma shifts_name? : ShiftsNode name? :=
  shifts_token? .identifier nameLength

lemma shifts_dottedName? : ShiftsNode dottedName? :=
  shifts_token? .identifier dottedNameLength

lemma shifts_number? : ShiftsNode number? :=
  shifts_token? .number numberLength

lemma shifts_char? (c : Char) (kind : Kind) : ShiftsNode (char? c kind) :=
  shifts_token? kind (charLength c)

lemma shifts_keyword? (inClass : Keyword → Bool) : ShiftsNode (keyword? inClass) := by
  intro k u
  unfold keyword?
  rw [peekKeyword?_shift]
  rcases u.peekKeyword? with _ | keyword
  · rfl
  · dsimp only
    split
    · exact shifts_token? _ _ k u
    · rfl

lemma shifts_comment? : ShiftsNode comment? :=
  shifts_trimmedToken? .comment commentLength _

lemma shifts_expression? (kind : Kind) : ShiftsNode (expression? kind) :=
  shifts_trimmedToken? kind (expressionLength none) isBlank

lemma shifts_pythonRun? : ShiftsNode pythonRun? :=
  shifts_trimmedToken? .pythonExpression (pythonRunLength false) isBlank

lemma finish?_shift (k : Nat) (u : Unread) :
    (u.shift k).finish? = u.finish?.map (List.map (Node.shift k)) := by
  simp only [finish?, shifts_comment?.many k u, peek?_shift]
  split
  · rfl
  · rfl

end Unread

/-! ## Strings and arguments -/

namespace StringBody

def shift (k : Nat) (b : StringBody) : StringBody :=
  { b with escapes := b.escapes.map (Node.shift k) }

lemma behindEscape_shift (k : Nat) (b : StringBody) (kind : Kind) (pos : Nat) :
    (b.shift k).behindEscape kind (pos + k) = (b.behindEscape kind pos).shift k := by
  simp only [behindEscape, shift, List.map_cons, ← leaf_shift, Span.shift, Nat.add_right_comm pos 2 k]

lemma read_shift (d : Delimiter) (k pos : Nat) (cs : List Char) :
    read d (pos + k) cs = (read d pos cs).shift k := by
  fun_induction read d pos cs with
  | case1 pos => rw [read]; rfl
  | case2 pos c hd => rw [read, if_pos hd]; rfl
  | case3 pos c hd hn => rw [read, if_neg hd, if_pos hn]; rfl
  | case4 pos c hd hn => rw [read, if_neg hd, if_neg hn]; rfl
  | case5 pos e cs he ih =>
    rw [read, if_pos rfl, if_pos he, Nat.add_right_comm, ih, behindEscape_shift]
  | case6 pos e cs he ih =>
    rw [read, if_pos rfl, if_neg he, Nat.add_right_comm pos, Nat.add_right_comm (pos + _), ih]
    rfl
  | case7 pos c e cs hc hdouble ih =>
    rw [read, if_neg hc, if_pos hdouble, Nat.add_right_comm, ih, behindEscape_shift]
  | case8 pos c e cs hc hdouble hd =>
    rw [read, if_neg hc, if_neg hdouble, if_pos hd]
    rfl
  | case9 pos c e cs hc hdouble hd hn =>
    rw [read, if_neg hc, if_neg hdouble, if_neg hd, if_pos hn]
    rfl
  | case10 pos c e cs hc hdouble hd hn ih =>
    rw [read, if_neg hc, if_neg hdouble, if_neg hd, if_neg hn, Nat.add_right_comm, ih]
    rfl

end StringBody

namespace Unread

section
variable (k : Nat) (u : Unread) (d : Delimiter)

lemma insideString_shift : (u.shift k).insideString d = (u.insideString d).shift k := by
  rw [insideString, skipBlanks_shift, advance_shift]
  rfl

lemma stringBody_shift : (u.shift k).stringBody d = (u.stringBody d).shift k := by
  rw [stringBody, insideString_shift]
  exact StringBody.read_shift d k _ _

lemma stringTail_shift : (u.shift k).stringTail d = (u.stringTail d).shift k := by
  rw [stringTail, insideString_shift, stringBody_shift, advance_shift]
  rfl

lemma behindString_shift : (u.shift k).behindString d = (u.behindString d).shift k := by
  unfold behindString
  rw [stringBody_shift, stringTail_shift, advance_shift]
  exact (apply_ite (shift k) _ _ _).symm

lemma stringParts_shift : (u.shift k).stringParts d = (u.stringParts d).map (Node.shift k) := by
  have hopening : (u.shift k).openingDelimiter d = (u.openingDelimiter d).shift k := by
    rw [openingDelimiter, openingDelimiter, insideString_shift, skipBlanks_shift, ← leaf_shift]
    rfl
  have hclosing : (u.shift k).closingDelimiter d = (u.closingDelimiter d).shift k := by
    unfold closingDelimiter
    rw [stringBody_shift, stringTail_shift, behindString_shift, apply_ite (Node.shift k), ← leaf_shift,
      ← absent_shift]
    rfl
  simp only [stringParts, hopening, hclosing, stringBody_shift, StringBody.shift, List.cons_append,
    List.map_cons, List.map_append, List.map_nil]

end

lemma shifts_string? : ShiftsNode string? := by
  intro k u
  rcases hd : Delimiter.at? u.skipBlanks.rest with _ | d
  · have hd' : Delimiter.at? (u.shift k).skipBlanks.rest = none := by rwa [skipBlanks_shift]
    simp [string?, hd, hd']
  · have hd' : Delimiter.at? (u.shift k).skipBlanks.rest = some d := by rwa [skipBlanks_shift]
    rw [string?_eq hd, string?_eq hd', stringParts_shift, behindString_shift, skipBlanks_shift,
      Option.map_some, ← branch_shift]
    rfl

lemma shifts_commaName? : Shifts (fun k => List.map (Node.shift k)) commaName? := by
  intro k u
  unfold commaName?
  rw [shifts_char? ',' .comma k u]
  rcases u.char? ',' .comma with _ | ⟨comma, u₁⟩
  · rfl
  simp only [Option.map_some, Option.bind_eq_bind, Option.bind_some]
  rw [shifts_name? k u₁]
  rcases u₁.name? with _ | ⟨name, u₂⟩
  · rfl
  · rfl

lemma shifts_arguments? : ShiftsNode arguments? := by
  intro k u
  unfold arguments?
  rw [shifts_char? '(' .leftParen k u]
  rcases u.char? '(' .leftParen with _ | ⟨opening, u₁⟩
  · rfl
  simp only [Option.map_some, Option.bind_eq_bind, Option.bind_some]
  rw [shifts_char? ')' .rightParen k u₁]
  rcases u₁.char? ')' .rightParen with _ | ⟨closing, u₂⟩
  · simp only [Option.map_none]
    rw [shifts_name? k u₁]
    rcases u₁.name? with _ | ⟨first, u₂⟩
    · rfl
    simp only [Option.map_some, Option.bind_some, shifts_commaName?.many k u₂]
    rw [shifts_char? ')' .rightParen k]
    rcases (many commaName? u₂).2.char? ')' .rightParen with _ | ⟨closing, u₄⟩
    · rfl
    · simp only [Option.map_some, Option.bind_some, Option.pure_def, ← branch_shift]
      simp [Span.shift]
  · simp only [Option.map_some, Option.pure_def, ← branch_shift]
    simp [Span.shift]

end Unread

/-! ## Forms -/

def Owner.shift (k : Nat) (o : Owner) : Owner :=
  ⟨o.kind, o.head.map (Node.shift k)⟩

def Form.shift (k : Nat) : Form → Form
  | .items nodes => .items (nodes.map (Node.shift k))
  | .opens owner => .opens (owner.shift k)
  | .opensPython head => .opensPython (head.map (Node.shift k))

lemma Owner.headEnd_shift (k : Nat) (o : Owner) (hne : o.head ≠ []) :
    (o.shift k).headEnd = o.headEnd + k :=
  lastStop_shift k o.head hne

lemma Owner.close_shift (k : Nat) (o : Owner) (start : Nat) (block : Node) :
    (o.shift k).close (start + k) (block.shift k) = (o.close start block).shift k := by
  have hblock : (o.shift k).head ++ [(block.shift k).under .body] =
      (o.head ++ [block.under .body]).map (Node.shift k) := by
    rw [under_shift, List.map_append]
    rfl
  have hkind : (o.shift k).kind = o.kind := rfl
  unfold Owner.close
  dsimp only
  rw [hblock, branch_shift, hkind]
  split
  · rfl
  · exact branch_shift k [.branch o.kind (o.head ++ [block.under .body]) start] .statement start

namespace Unread

lemma optionalArguments?_shift : Shifts (fun k => List.map (Node.shift k)) optionalArguments? := by
  intro k u
  unfold optionalArguments?
  rw [peek?_shift]
  split
  · rw [shifts_arguments? k u, Option.map_map, Option.map_map]
    rfl
  · rfl

lemma headerColon?_shift (bodyFollows : Bool) (headEnd k : Nat) (u : Unread) :
    (u.shift k).headerColon? bodyFollows (headEnd + k) =
      (u.headerColon? bodyFollows headEnd).map fun r => (r.1.shift k, r.2.shift k) := by
  unfold headerColon?
  rw [shifts_char? ':' .colon k u, atLineEnd_shift]
  rcases u.char? ':' .colon with _ | r
  · simp only [Option.map_none]
    split
    · rw [absent_shift, Option.map_some]
    · rfl
  · rfl

lemma header?_shift (bodyFollows : Bool) (k : Nat) (u : Unread) :
    (u.shift k).header? bodyFollows = (u.header? bodyFollows).map (Owner.shift k) := by
  unfold header?
  rw [shifts_keyword? Keyword.isHeader k u]
  rcases u.keyword? Keyword.isHeader with _ | ⟨keyword, u₁⟩
  · rfl
  simp only [Option.map_some, Option.bind_eq_bind, Option.bind_some, shifts_number?.optional k u₁,
    shifts_dottedName?.optional k]
  rw [optionalArguments?_shift k]
  rcases (optional dottedName? (optional number? u₁).2).2.optionalArguments? with _ | ⟨args, u₄⟩
  · rfl
  simp only [Option.map_some, Option.bind_some, under_shift, map_under_shift, ← List.map_append,
    ← List.map_cons]
  have hend := Owner.headEnd_shift k ⟨.header, keyword.under .keyword ::
    (optional number? u₁).1.map (·.under .priority) ++
      (optional dottedName? (optional number? u₁).2).1.map (·.under .identifier) ++
      args.map (·.under .args)⟩ (by simp)
  simp only [Owner.shift] at hend
  rw [hend, headerColon?_shift]
  rcases u₄.headerColon? bodyFollows _ with _ | ⟨colon, u₅⟩
  · rfl
  simp only [Option.map_some, Option.bind_some, finish?_shift]
  rcases u₅.finish? with _ | comments
  · rfl
  · simp [Owner.shift]

lemma pythonModifier_shift (k : Nat) (u : Unread) : (u.shift k).pythonModifier =
    (u.pythonModifier.1.map (Node.shift k), u.pythonModifier.2.shift k) := by
  unfold pythonModifier
  rw [shifts_keyword? Keyword.isPythonModifier k u]
  rcases u.keyword? Keyword.isPythonModifier with _ | ⟨keyword, u₁⟩
  · rfl
  · simp only [Option.map_some, shifts_number?.optional k u₁, under_shift, map_under_shift,
      List.map_cons]

lemma pythonBlock?_shift (k : Nat) (u : Unread) :
    (u.shift k).pythonBlock? = u.pythonBlock?.map (List.map (Node.shift k)) := by
  unfold pythonBlock?
  simp only [pythonModifier_shift, Option.bind_eq_bind]
  rw [shifts_keyword? (· = .python) k]
  rcases u.pythonModifier.2.keyword? (· = .python) with _ | ⟨python, u₂⟩
  · rfl
  simp only [Option.map_some, Option.bind_some, shifts_name?.many k u₂]
  rw [shifts_char? ':' .colon k]
  rcases (many name? u₂).2.char? ':' .colon with _ | ⟨colon, u₄⟩
  · rfl
  simp only [Option.map_some, Option.bind_some, finish?_shift]
  rcases u₄.finish? with _ | comments
  · rfl
  · simp

lemma statementItems_shift (k : Nat) (node : Node) (comments : List Node) :
    statementItems (node.shift k) (comments.map (Node.shift k)) = (statementItems node comments).shift k := by
  rw [statementItems, statementItems, Form.shift, List.map_cons, ← branch_shift, shift_span]
  rfl

lemma trimmedToken?_stop_pos {u v : Unread} {n : Node} {kind : Kind} {length : List Char → Nat}
    {trim : Char → Bool} (h : u.trimmedToken? kind length trim = some (n, v)) : 0 < n.span.stop := by
  obtain ⟨hne, rfl, -⟩ := trimmedToken?_eq_some_iff.mp h
  obtain ⟨c, cs, hcs⟩ := List.exists_cons_of_ne_nil hne
  have hpos := Char.utf8Size_pos c
  simp only [leaf, Span.covering, hcs, byteLength_cons]
  omega

lemma controlStatement?_shift (k : Nat) (u : Unread) :
    (u.shift k).controlStatement? = u.controlStatement?.map (Form.shift k) := by
  unfold controlStatement?
  rw [shifts_keyword? Keyword.isControl k u]
  rcases u.keyword? Keyword.isControl with _ | ⟨keyword, u₁⟩
  · rfl
  simp only [Option.map_some, Option.bind_eq_bind, Option.bind_some, tokenText_shift]
  rw [shifts_expression? .pythonExpression k u₁]
  rcases hwhole : u₁.expression? .pythonExpression with _ | ⟨whole, u₂⟩
  · rfl
  simp only [Option.map_some, Option.bind_some, finish?_shift]
  rcases u₂.finish? with _ | comments
  · rfl
  have hstop : whole.span.stop + k - 1 = whole.span.stop - 1 + k := by
    have hpos := trimmedToken?_stop_pos hwhole
    omega
  simp only [Option.map_some, Option.bind_some]
  split
  · split
    · rfl
    · simp only [Option.pure_def, Option.map_some, Form.shift, Owner.shift, List.map_cons, under_shift,
        ← leaf_shift, shift_span, ← Span.covering_shift]
      rw [Span.shift, Span.shift, hstop]
  · simp only [Option.pure_def, Option.map_some, ← statementItems_shift, ← branch_shift, under_shift,
      shift_span, Span.shift, List.map_cons, List.map_nil]

lemma expressionOrAbsent_shift (pos k : Nat) (u : Unread) : (u.shift k).expressionOrAbsent (pos + k) =
    ((u.expressionOrAbsent pos).1.shift k, (u.expressionOrAbsent pos).2.shift k) := by
  unfold expressionOrAbsent
  rw [shifts_expression? .pythonExpression k u]
  rcases u.expression? .pythonExpression with _ | r
  · rw [← absent_shift]
    rfl
  · rfl

lemma defineStatement?_shift (k : Nat) (u : Unread) :
    (u.shift k).defineStatement? = u.defineStatement?.map (Form.shift k) := by
  unfold defineStatement?
  rw [shifts_keyword? Keyword.isDefinition k u]
  rcases u.keyword? Keyword.isDefinition with _ | ⟨keyword, u₁⟩
  · rfl
  simp only [Option.map_some, Option.bind_eq_bind, Option.bind_some]
  rw [shifts_dottedName? k u₁]
  rcases u₁.dottedName? with _ | ⟨name, u₂⟩
  · rfl
  simp only [Option.map_some, Option.bind_some]
  rw [shifts_char? '=' .equals k u₂]
  rcases u₂.char? '=' .equals with _ | ⟨equals, u₃⟩
  · rfl
  simp only [Option.map_some, Option.bind_some, shift_span, Span.shift, expressionOrAbsent_shift,
    finish?_shift]
  rcases (u₃.expressionOrAbsent equals.span.stop).2.finish? with _ | comments
  · rfl
  · simp only [Option.pure_def, Option.map_some, Option.bind_some, ← statementItems_shift, ← branch_shift,
      under_shift, List.map_cons, List.map_nil]

lemma shifts_argument? : ShiftsNode argument? :=
  shifts_string?.orElse (shifts_arguments?.orElse (shifts_number?.orElse shifts_name?))

lemma renpyStatement?_shift (k : Nat) (u : Unread) :
    (u.shift k).renpyStatement? = u.renpyStatement?.map (Form.shift k) := by
  unfold renpyStatement?
  rw [shifts_keyword? Keyword.isStatement k u]
  rcases u.keyword? Keyword.isStatement with _ | ⟨keyword, u₁⟩
  · rfl
  simp only [Option.map_some, Option.bind_eq_bind, Option.bind_some, shifts_argument?.many k u₁]
  rw [shifts_char? ':' .colon k]
  rcases (many argument? u₁).2.char? ':' .colon with _ | ⟨colon, u₃⟩
  · simp only [Option.map_none, finish?_shift]
    rcases (many argument? u₁).2.finish? with _ | comments
    · rfl
    simp only [Option.map_some, Option.bind_some, List.isEmpty_map]
    split
    · rfl
    · simp only [Option.pure_def, Option.map_some, ← statementItems_shift, ← branch_shift, under_shift,
        shift_span, Span.shift, List.map_cons]
  · simp only [Option.map_some, finish?_shift]
    rcases u₃.finish? with _ | comments
    · rfl
    · simp [Form.shift, Owner.shift, under_shift]

lemma statement?_shift (k : Nat) (u : Unread) :
    (u.shift k).statement? = u.statement?.map (Form.shift k) := by
  unfold statement?
  rw [controlStatement?_shift, defineStatement?_shift, renpyStatement?_shift]
  rcases u.controlStatement? with _ | form
  · rcases u.defineStatement? with _ | form
    · rcases u.renpyStatement? with _ | form
      · rfl
      · rfl
    · rfl
  · rfl

lemma pythonInline?_shift (k : Nat) (u : Unread) :
    (u.shift k).pythonInline? = u.pythonInline?.map (List.map (Node.shift k)) := by
  unfold pythonInline?
  rw [shifts_char? '$' .dollar k u]
  rcases u.char? '$' .dollar with _ | ⟨dollar, u₁⟩
  · rfl
  simp only [Option.map_some, Option.bind_eq_bind, Option.bind_some, shift_span, Span.shift,
    expressionOrAbsent_shift, finish?_shift]
  rcases (u₁.expressionOrAbsent dollar.span.stop).2.finish? with _ | comments
  · rfl
  · simp only [Option.pure_def, Option.map_some, Option.bind_some, List.map_cons, ← branch_shift,
      List.map_nil]

lemma strings?_shift (k : Nat) (u : Unread) :
    (u.shift k).strings? = u.strings?.map (List.map (Node.shift k)) := by
  simp only [strings?, shifts_string?.many k u, List.isEmpty_map, finish?_shift]
  split
  · rfl
  · rcases (many string? u).2.finish? with _ | comments
    · rfl
    · simp

lemma shifts_expressionPiece? (kind : Kind) : ShiftsNode (expressionPiece? kind) :=
  (shifts_expression? kind).orElse shifts_comment?

lemma expressionPieces_shift (kind : Kind) (k : Nat) (u : Unread) :
    (u.shift k).expressionPieces kind = (u.expressionPieces kind).map (Node.shift k) := by
  rw [expressionPieces, (shifts_expressionPiece? kind).many k u]
  rfl

lemma shifts_dialoguePiece? : ShiftsNode dialoguePiece? := by
  intro k u
  unfold dialoguePiece?
  rw [peek?_shift]
  split
  · rfl
  · exact shifts_comment? k u
  · exact shifts_string? k u
  · exact shifts_char? _ _ k u
  · exact shifts_pythonRun? k u

lemma shifts_singleQuoted? : ShiftsNode singleQuoted? := by
  intro k u
  unfold singleQuoted?
  rw [peek?_shift]
  split
  · exact shifts_string? k u
  · rfl

lemma dialogue_shift (k : Nat) (u : Unread) :
    (u.shift k).dialogue = u.dialogue.map (Node.shift k) := by
  simp only [dialogue, shifts_singleQuoted?.optional k u, shifts_dialoguePiece?.many k, List.map_append]

end Unread

namespace Form

theorem topLevel_shift (bodyFollows : Bool) (k : Nat) (u : Unread) :
    topLevel bodyFollows (u.shift k) = (topLevel bodyFollows u).shift k := by
  unfold topLevel
  rw [Unread.pythonBlock?_shift, Unread.header?_shift, Unread.statement?_shift, Unread.strings?_shift,
    Unread.expressionPieces_shift]
  rcases u.pythonBlock? with _ | head
  · rcases u.header? bodyFollows with _ | owner
    · rcases u.statement? with _ | form
      · rcases u.strings? with _ | nodes
        · rfl
        · rfl
      · rfl
    · rfl
  · rfl

theorem nested_shift (k : Nat) (u : Unread) : nested (u.shift k) = (nested u).shift k := by
  unfold nested
  rw [Unread.pythonBlock?_shift, Unread.pythonInline?_shift, Unread.statement?_shift,
    Unread.dialogue_shift]
  rcases u.pythonBlock? with _ | head
  · rcases u.pythonInline? with _ | nodes
    · rcases u.statement? with _ | form
      · rfl
      · rfl
    · rfl
  · rfl

end Form

/-! ## Forms of one shape -/

section
variable {text text' : List Char} {ns : List Node}

/-- What a line says by itself, in two texts. -/
inductive Form.Alike (text text' : List Char) : Form → Form → Prop
  | items {nodes nodes' : List Node} (shapes : SameShapes text text' nodes nodes') :
      Alike text text' (.items nodes) (.items nodes')
  | opens {owner owner' : Owner} (kind : owner'.kind = owner.kind)
      (head : SameShapes text text' owner.head owner'.head) : Alike text text' (.opens owner) (.opens owner')
  | opensPython {head head' : List Node} (shapes : SameShapes text text' head head') :
      Alike text text' (.opensPython head) (.opensPython head')

variable {as bs as' bs' cs : List Char}

lemma sameShapes_shift (htext : text = as ++ cs ++ bs) (htext' : text' = as' ++ cs ++ bs')
    (h : Laid isGap 0 cs ns) :
    SameShapes text text' (ns.map (Node.shift (byteLength as))) (ns.map (Node.shift (byteLength as'))) := by
  rw [SameShapes, htext, htext', shapes_shift h, shapes_shift h]

lemma Form.LaidOn.alike {form : Form} (htext : text = as ++ cs ++ bs) (htext' : text' = as' ++ cs ++ bs')
    (h : form.LaidOn 0 cs) :
    Form.Alike text text' (form.shift (byteLength as)) (form.shift (byteLength as')) := by
  cases h with
  | items laid => exact .items (sameShapes_shift htext htext' laid)
  | opens laid nonempty kind => exact .opens rfl (sameShapes_shift htext htext' laid)
  | opensPython laid nonempty => exact .opensPython (sameShapes_shift htext htext' laid)

end

end RenpyScript
