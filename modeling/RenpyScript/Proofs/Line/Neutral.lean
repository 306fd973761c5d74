import RenpyScript.Proofs.Line.Returns

/-!
# Readers and carriage returns

A line whose line feeds have carriage returns in front of them says the same as without them. Every
reader takes the two to nodes of the same kinds and leaves texts that differ in carriage returns only,
and so do the ways of combining readers.
-/

namespace RenpyScript

open Node

section
variable {α β : Type} {R : α → α → Prop} {S : β → β → Prop}

lemma rel_bind {o o' : Option α} {f f' : α → Option β} (h : Option.Rel R o o')
    (hf : ∀ a a', R a a' → Option.Rel S (f a) (f' a')) : Option.Rel S (o.bind f) (o'.bind f') := by
  cases h with
  | none => exact .none
  | some ha => exact hf _ _ ha

lemma rel_map {o o' : Option α} {f f' : α → β} (h : Option.Rel R o o')
    (hf : ∀ a a', R a a' → S (f a) (f' a')) : Option.Rel S (o.map f) (o'.map f') := by
  cases h with
  | none => exact .none
  | some ha => exact .some (hf _ _ ha)

lemma rel_orElse {o o' p p' : Option α} (h : Option.Rel R o o') (h' : Option.Rel R p p') :
    Option.Rel R (o <|> p) (o' <|> p') := by
  cases h with
  | none => simpa using h'
  | some ha => exact .some ha

end

/-! ## Readers -/

namespace Unread

/-- The same unread text, with carriage returns in front of line feeds. -/
structure Returned (u u' : Unread) : Prop where
  rest : RenpyScript.Returned u.rest u'.rest
  unescaped : FeedsUnescaped u.rest

/-- What is read is related, and so is what is left. -/
def ReadAlike {α : Type} (R : α → α → Prop) (r r' : α × Unread) : Prop :=
  R r.1 r'.1 ∧ r.2.Returned r'.2

/-- Carriage returns do not change what is read. -/
def Neutral {α : Type} (R : α → α → Prop) (read? : Unread → Option (α × Unread)) : Prop :=
  ∀ u u', u.Returned u' → Option.Rel (ReadAlike R) (read? u) (read? u')

/-- Carriage returns do not change the kinds of the nodes that are read. -/
abbrev NeutralNode (read? : Unread → Option (Node × Unread)) : Prop :=
  Neutral (fun n n' => SameKinds [n] [n']) read?

section
variable {u u' : Unread}

lemma Returned.skipBlanks (h : u.Returned u') : u.skipBlanks.Returned u'.skipBlanks := by
  constructor
  · rw [skipBlanks_rest, skipBlanks_rest]
    exact h.rest.dropWhile rfl
  · rw [skipBlanks_rest]
    exact h.unescaped.dropWhile isBlank

lemma Returned.peek?_eq (h : u.Returned u') : u'.peek? = u.peek? := by
  have hskip := h.skipBlanks.rest
  have hblank : ∀ c, u.peek? = some c → isBlank c = false := fun _ => not_isBlank_of_peek?
  unfold peek? at hblank ⊢
  generalize u.skipBlanks.rest = cs at hskip hblank
  generalize u'.skipBlanks.rest = cs' at hskip
  cases hskip with
  | nil => rfl
  | cons c rest => rfl
  | feed rest => exact absurd (hblank '\n' rfl) (by decide)

lemma Returned.atLineEnd_eq (h : u.Returned u') : u'.atLineEnd = u.atLineEnd := by
  rw [atLineEnd, atLineEnd, h.peek?_eq]

lemma Returned.advance (h : u.Returned u') {n n' : Nat}
    (hleft : RenpyScript.Returned (u.rest.drop n) (u'.rest.drop n')) : (u.advance n).Returned (u'.advance n') :=
  ⟨hleft, h.unescaped.drop n⟩

lemma Returned.peekKeyword?_eq (h : u.Returned u') : u'.peekKeyword? = u.peekKeyword? := by
  have hskip := h.skipBlanks.rest
  obtain ⟨hlength, hfeed⟩ := inline_nameLength _ _ hskip
  simp only [peekKeyword?, hlength, (hskip.of_take hfeed).1]

end

section
variable {kind : Kind} {length : List Char → Nat} {trim : Char → Bool}

lemma neutral_token? (h : Inline length) : NeutralNode (token? kind length) := by
  intro u u' hu
  have hskip := hu.skipBlanks
  obtain ⟨hlength, hfeed⟩ := h _ _ hskip.rest
  unfold token?
  dsimp only
  rw [hlength]
  split
  · exact .none
  · next n hn =>
    rw [hn] at hfeed
    exact .some ⟨sameKinds_leaf kind _ _, hskip.advance (hskip.rest.of_take hfeed).2⟩

lemma neutral_trimmedToken?
    (h : ∀ cs cs', RenpyScript.Returned cs cs' → FeedsUnescaped cs →
      (trimEnd trim (cs'.take (length cs')) = [] ↔ trimEnd trim (cs.take (length cs)) = []) ∧
        RenpyScript.Returned (cs.drop (length cs)) (cs'.drop (length cs'))) :
    NeutralNode (trimmedToken? kind length trim) := by
  intro u u' hu
  have hskip := hu.skipBlanks
  obtain ⟨hempty, hleft⟩ := h _ _ hskip.rest hskip.unescaped
  unfold trimmedToken? tokenText
  dsimp only
  by_cases htext : trimEnd trim (u.skipBlanks.rest.take (length u.skipBlanks.rest)) = []
  · rw [if_pos (by simpa using htext), if_pos (by simpa using hempty.mpr htext)]
    exact .none
  · rw [if_neg (by simpa using htext), if_neg (by simpa using mt hempty.mp htext)]
    exact .some ⟨sameKinds_leaf kind _ _, hskip.advance hleft⟩

lemma neutral_cut
    (h : ∀ cs cs', RenpyScript.Returned cs cs' → FeedsUnescaped cs → RenpyScript.Returned.Cut (length cs) (length cs') cs cs') :
    NeutralNode (trimmedToken? kind length isBlank) := by
  refine neutral_trimmedToken? fun cs cs' hr hfeeds => ?_
  have hcut := h cs cs' hr hfeeds
  exact ⟨(hcut.taken.trimEnd fun _ => rfl).eq_nil_iff, hcut.left⟩

end

lemma neutral_name? : NeutralNode name? :=
  neutral_token? inline_nameLength

lemma neutral_dottedName? : NeutralNode dottedName? :=
  neutral_token? inline_dottedNameLength

lemma neutral_number? : NeutralNode number? :=
  neutral_token? inline_numberLength

lemma neutral_char? {c : Char} (kind : Kind) (hfeed : c ≠ '\n') (hreturn : c ≠ '\r') : NeutralNode (char? c kind) :=
  neutral_token? (inline_charLength hfeed hreturn)

lemma neutral_keyword? (inClass : Keyword → Bool) : NeutralNode (keyword? inClass) := by
  intro u u' hu
  unfold keyword?
  rw [hu.peekKeyword?_eq]
  split
  · split
    · exact neutral_token? inline_nameLength u u' hu
    · exact .none
  · exact .none

lemma commentLength_eq {cs cs' : List Char} (h : RenpyScript.Returned cs cs') :
    (trimEnd (· = '\r') (cs'.take (commentLength cs')) = [] ↔ trimEnd (· = '\r') (cs.take (commentLength cs)) = []) ∧
      RenpyScript.Returned (cs.drop (commentLength cs)) (cs'.drop (commentLength cs')) := by
  have hhead := h.head?_eq_some_iff (c := '#') (by decide) (by decide)
  unfold commentLength
  by_cases hc : cs.head? = some '#'
  · obtain ⟨spaces, htake, hspaces, hdrop⟩ := takeWhile_comment h
    rw [if_pos hc, if_pos (hhead.mpr hc), take_length_takeWhile, take_length_takeWhile, drop_length_takeWhile,
      drop_length_takeWhile, htake, trimEnd_append_of_onlyGap hspaces]
    exact ⟨Iff.rfl, hdrop⟩
  · rw [if_neg hc, if_neg (mt hhead.mp hc)]
    exact ⟨Iff.rfl, h⟩

lemma neutral_comment? : NeutralNode comment? :=
  neutral_trimmedToken? fun _ _ h _ => commentLength_eq h

lemma neutral_expression? (kind : Kind) : NeutralNode (expression? kind) :=
  neutral_cut fun _ _ h hfeeds => expressionLength_cut (by simp) h hfeeds

lemma neutral_pythonRun? : NeutralNode pythonRun? :=
  neutral_cut fun _ _ h _ => pythonRunLength_cut false h

/-! ## Repetition -/

section
variable {α : Type} {R : α → α → Prop} {nodes : α → List Node} {read? read?' : Unread → Option (α × Unread)}
  {u u' : Unread}

lemma Neutral.orElse (h : Neutral R read?) (h' : Neutral R read?') :
    Neutral R (fun u => read? u <|> read?' u) :=
  fun u u' hu => rel_orElse (h u u' hu) (h' u u' hu)

lemma repeatUpTo_of_none (hr : read? u = none) (k : Nat) : Unread.repeatUpTo read? k u = ([], u) := by
  cases k with
  | zero => rfl
  | succ k => rw [Unread.repeatUpTo, hr]

lemma Neutral.repeatUpTo (hreader : IsReader nodes read?) (h : Neutral R read?) (hu : u.Returned u') {k k' : Nat}
    (hk : u.rest.length ≤ k) (hk' : u'.rest.length ≤ k') :
    ReadAlike (List.Forall₂ R) (Unread.repeatUpTo read? k u) (Unread.repeatUpTo read? k' u') := by
  induction hn : u.rest.length using Nat.strong_induction_on generalizing u u' k k' with
  | _ n ih =>
    have hrel := h u u' hu
    generalize hr : read? u = r at hrel
    generalize hr' : read? u' = r' at hrel
    cases hrel with
    | none =>
      rw [repeatUpTo_of_none hr, repeatUpTo_of_none hr']
      exact ⟨.nil, hu⟩
    | @some r r' hread =>
      obtain ⟨a, v⟩ := r
      obtain ⟨a', v'⟩ := r'
      have hlt := (hreader u a v hr).2
      have hlt' := (hreader u' a' v' hr').2
      obtain ⟨k, rfl⟩ : ∃ j, k = j + 1 := ⟨k - 1, by omega⟩
      obtain ⟨k', rfl⟩ : ∃ j, k' = j + 1 := ⟨k' - 1, by omega⟩
      have hv : v.Returned v' := hread.2
      have hle : v.rest.length ≤ k := by omega
      have hle' : v'.rest.length ≤ k' := by omega
      obtain ⟨has, hw⟩ := ih v.rest.length (by omega) hv hle hle' rfl
      rw [Unread.repeatUpTo, hr, Unread.repeatUpTo, hr']
      exact ⟨.cons hread.1 has, hw⟩

lemma Neutral.many (hreader : IsReader nodes read?) (h : Neutral R read?) (hu : u.Returned u') :
    ReadAlike (List.Forall₂ R) (Unread.many read? u) (Unread.many read? u') :=
  h.repeatUpTo hreader hu (Nat.le_refl _) (Nat.le_refl _)

end

section
variable {read? : Unread → Option (Node × Unread)} {u u' : Unread}

lemma NeutralNode.many (hreader : IsNodeReader read?) (h : NeutralNode read?) (hu : u.Returned u') :
    ReadAlike SameKinds (Unread.many read? u) (Unread.many read? u') :=
  ⟨sameKinds_of_forall₂ (Neutral.many hreader h hu).1, (Neutral.many hreader h hu).2⟩

lemma NeutralNode.optional (h : NeutralNode read?) (hu : u.Returned u') :
    ReadAlike SameKinds (Unread.optional read? u) (Unread.optional read? u') := by
  have hrel := h u u' hu
  unfold Unread.optional
  generalize read? u = r at hrel
  generalize read? u' = r' at hrel
  cases hrel with
  | none => exact ⟨rfl, hu⟩
  | some hread => exact hread

lemma neutral_finish? (hu : u.Returned u') : Option.Rel SameKinds u.finish? u'.finish? := by
  obtain ⟨hcomments, hleft⟩ := neutral_comment?.many isNodeReader_comment? hu
  unfold finish?
  dsimp only
  rw [hleft.peek?_eq]
  split
  · exact .some hcomments
  · exact .none

lemma sameKinds_under (field : Field) {ns ns' : List Node} (h : SameKinds ns ns') :
    SameKinds (ns.map (·.under field)) (ns'.map (·.under field)) := by
  have hmap := congrArg (List.map fun shape : Shape => { shape with field := some field }) h
  rw [List.map_map, List.map_map] at hmap
  rw [SameKinds, SameShapes, List.map_map, List.map_map]
  simpa only [Function.comp_def, shape_under] using hmap

end

/-! ## Strings and arguments -/

lemma delimiter_at?_eq {cs cs' : List Char} (h : RenpyScript.Returned cs cs') :
    Delimiter.at? cs' = Delimiter.at? cs := by
  cases h with
  | nil => rfl
  | @cons c cs cs' rest =>
    by_cases hc : isQuote c = true
    · have hcopies := (RenpyScript.Returned.cons c rest).beginsWithCopies_eq (LineScan.isQuote_ne hc)
        (LineScan.isQuote_ne_return hc) 3
      simp only [Delimiter.at?, hcopies]
    · simp [Delimiter.at?, hc]
  | feed rest => rfl

lemma isQuote_of_at? {cs : List Char} {d : Delimiter} (h : Delimiter.at? cs = some d) : isQuote d.quote = true := by
  unfold Delimiter.at? at h
  split at h
  · simp at h
  · next c cs =>
    split at h
    · next hc =>
      obtain rfl := (Option.some.injEq _ _).mp h
      exact hc
    · simp at h

lemma not_mem_take_delimiter {cs : List Char} {d : Delimiter} (hd : isQuote d.quote = true)
    (hcloses : d.closes cs = true) : '\n' ∉ cs.take d.length :=
  LineScan.not_mem_take_copies hd hcloses

lemma closes_of_at? {cs : List Char} {d : Delimiter} (h : Delimiter.at? cs = some d) : d.closes cs = true := by
  unfold Delimiter.at? at h
  split at h
  · simp at h
  · next c cs =>
    split at h
    · obtain rfl := (Option.some.injEq _ _).mp h
      unfold Delimiter.closes Delimiter.length
      dsimp only
      split
      · assumption
      · simp [beginsWithCopies]
    · simp at h

lemma neutral_string? : NeutralNode string? := by
  intro u u' hu
  have hskip := hu.skipBlanks
  rcases hd : Delimiter.at? u.skipBlanks.rest with _ | d
  · have hd' := delimiter_at?_eq hskip.rest
    rw [hd] at hd'
    simp only [string?, hd, hd']
    exact .none
  · have hd' := delimiter_at?_eq hskip.rest
    rw [hd] at hd'
    have hquote := isQuote_of_at? hd
    have hinside : (u.insideString d).Returned (u'.insideString d) :=
      hskip.advance (hskip.rest.of_take (not_mem_take_delimiter hquote (closes_of_at? hd))).2
    obtain ⟨hescapes, hclosed, hleft⟩ := StringBody.read_alike hquote hinside.rest hinside.unescaped
      (u.insideString d).pos (u'.insideString d).pos
    have htail : (u.stringTail d).Returned (u'.stringTail d) := hinside.advance hleft
    have hopening : SameKinds [u.openingDelimiter d] [u'.openingDelimiter d] := sameKinds_leaf d.kind _ _
    rw [string?_eq hd, string?_eq hd']
    change (u'.stringBody d).closed = (u.stringBody d).closed at hclosed
    by_cases hend : (u.stringBody d).closed = true
    · have hend' := hclosed.trans hend
      have hbehind : (u.behindString d).Returned (u'.behindString d) := by
        unfold behindString
        rw [if_pos hend, if_pos hend']
        have hcloses := StringBody.closes_of_closed d _ _ hend
        exact htail.advance (htail.rest.of_take (not_mem_take_delimiter hquote hcloses)).2
      have hclosing : SameKinds [u.closingDelimiter d] [u'.closingDelimiter d] := by
        unfold closingDelimiter
        rw [if_pos hend, if_pos hend']
        exact sameKinds_leaf d.kind _ _
      have hparts : SameKinds (u.stringParts d) (u'.stringParts d) := (hopening.append hescapes).append hclosing
      exact .some ⟨hparts.branch .string _ _, hbehind⟩
    · have hend' : ¬ (u'.stringBody d).closed = true := by rwa [hclosed]
      have hbehind : (u.behindString d).Returned (u'.behindString d) := by
        unfold behindString
        rw [if_neg hend, if_neg hend']
        exact htail
      have hclosing : SameKinds [u.closingDelimiter d] [u'.closingDelimiter d] := by
        unfold closingDelimiter
        rw [if_neg hend, if_neg hend']
        exact sameShapes_absent d.kind _ _
      have hparts : SameKinds (u.stringParts d) (u'.stringParts d) := (hopening.append hescapes).append hclosing
      exact .some ⟨hparts.branch .string _ _, hbehind⟩

lemma neutral_commaName? : Neutral SameKinds commaName? := by
  intro u u' hu
  refine rel_bind (neutral_char? .comma (by decide) (by decide) u u' hu) ?_
  rintro ⟨comma, v⟩ ⟨comma', v'⟩ ⟨hcomma, hv⟩
  refine rel_bind (neutral_name? v v' hv) ?_
  rintro ⟨name, w⟩ ⟨name', w'⟩ ⟨hname, hw⟩
  exact .some ⟨SameShapes.append hcomma hname, hw⟩

lemma sameKinds_flatten {as as' : List (List Node)} (h : List.Forall₂ SameKinds as as') :
    SameKinds as.flatten as'.flatten := by
  induction h with
  | nil => rfl
  | cons hns _ ih => exact SameShapes.append hns ih

lemma neutral_arguments? : NeutralNode arguments? := by
  intro u u' hu
  refine rel_bind (neutral_char? .leftParen (by decide) (by decide) u u' hu) ?_
  rintro ⟨opening, v⟩ ⟨opening', v'⟩ ⟨hopening, hv⟩
  have hclosing := neutral_char? .rightParen (c := ')') (by decide) (by decide) v v' hv
  dsimp only
  generalize v.char? ')' .rightParen = r at hclosing
  generalize v'.char? ')' .rightParen = r' at hclosing
  cases hclosing with
  | @some r r' hclosing =>
    have hparts := SameShapes.append hopening hclosing.1
    exact .some ⟨hparts.branch .arguments _ _, hclosing.2⟩
  | none =>
    refine rel_bind (neutral_name? v v' hv) ?_
    rintro ⟨first, w⟩ ⟨first', w'⟩ ⟨hfirst, hw⟩
    obtain ⟨hmore, hx⟩ := neutral_commaName?.many isReader_commaName? hw
    refine rel_bind (neutral_char? .rightParen (by decide) (by decide) _ _ hx) ?_
    rintro ⟨closing, y⟩ ⟨closing', y'⟩ ⟨hclosing, hy⟩
    have hnames := SameShapes.append hfirst (sameKinds_flatten hmore)
    have hparts := (SameShapes.append hopening hnames).append hclosing
    exact .some ⟨hparts.branch .arguments _ _, hy⟩

/-! ## Lines that open a block -/

/-- Two nodes of one kind that lack their blocks. -/
def OwnersAlike (o o' : Owner) : Prop :=
  o'.kind = o.kind ∧ SameKinds o.head o'.head

section
variable {u u' : Unread}

lemma neutral_optionalArguments? : Neutral SameKinds optionalArguments? := by
  intro u u' hu
  unfold optionalArguments?
  rw [hu.peek?_eq]
  split
  · refine rel_map (neutral_arguments? u u' hu) ?_
    rintro ⟨args, v⟩ ⟨args', v'⟩ ⟨hargs, hv⟩
    exact ⟨hargs, hv⟩
  · exact .some ⟨rfl, hu⟩

lemma neutral_headerColon? (bodyFollows : Bool) (headEnd headEnd' : Nat) (hu : u.Returned u') :
    Option.Rel (ReadAlike fun n n' => SameKinds [n] [n']) (u.headerColon? bodyFollows headEnd)
      (u'.headerColon? bodyFollows headEnd') := by
  have hcolon := neutral_char? .colon (c := ':') (by decide) (by decide) u u' hu
  unfold headerColon?
  rw [hu.atLineEnd_eq]
  generalize u.char? ':' .colon = r at hcolon
  generalize u'.char? ':' .colon = r' at hcolon
  cases hcolon with
  | some hread => exact .some hread
  | none =>
    dsimp only
    split
    · exact .some ⟨sameShapes_absent .colon _ _, hu⟩
    · exact .none

lemma neutral_header? (bodyFollows : Bool) (hu : u.Returned u') :
    Option.Rel OwnersAlike (u.header? bodyFollows) (u'.header? bodyFollows) := by
  refine rel_bind (neutral_keyword? _ u u' hu) ?_
  rintro ⟨keyword, v⟩ ⟨keyword', v'⟩ ⟨hkeyword, hv⟩
  obtain ⟨hpriority, hw⟩ := NeutralNode.optional neutral_number? hv
  obtain ⟨hname, hx⟩ := NeutralNode.optional neutral_dottedName? hw
  refine rel_bind (neutral_optionalArguments? _ _ hx) ?_
  rintro ⟨args, y⟩ ⟨args', y'⟩ ⟨hargs, hy⟩
  have hhead := (((SameShapes.under .keyword hkeyword).append (sameKinds_under .priority hpriority)).append
    (sameKinds_under .identifier hname)).append (sameKinds_under .args hargs)
  refine rel_bind (neutral_headerColon? bodyFollows _ _ hy) ?_
  rintro ⟨colon, z⟩ ⟨colon', z'⟩ ⟨hcolon, hz⟩
  refine rel_bind (neutral_finish? hz) ?_
  intro comments comments' hcomments
  exact .some ⟨rfl, hhead.append (SameShapes.append hcolon hcomments)⟩

lemma neutral_pythonModifier (hu : u.Returned u') : ReadAlike SameKinds u.pythonModifier u'.pythonModifier := by
  have hkeyword := neutral_keyword? Keyword.isPythonModifier u u' hu
  unfold pythonModifier
  generalize u.keyword? Keyword.isPythonModifier = r at hkeyword
  generalize u'.keyword? Keyword.isPythonModifier = r' at hkeyword
  cases hkeyword with
  | none => exact ⟨rfl, hu⟩
  | some hread =>
    obtain ⟨hpriority, hv⟩ := NeutralNode.optional neutral_number? hread.2
    exact ⟨(SameShapes.under .keyword hread.1).append (sameKinds_under .priority hpriority), hv⟩

lemma neutral_pythonBlock? (hu : u.Returned u') : Option.Rel SameKinds u.pythonBlock? u'.pythonBlock? := by
  obtain ⟨hmodifier, hv⟩ := neutral_pythonModifier hu
  unfold pythonBlock?
  dsimp only
  refine rel_bind (neutral_keyword? _ _ _ hv) ?_
  rintro ⟨python, w⟩ ⟨python', w'⟩ ⟨hpython, hw⟩
  obtain ⟨hnames, hx⟩ := NeutralNode.many isNodeReader_name? neutral_name? hw
  refine rel_bind (neutral_char? .colon (by decide) (by decide) _ _ hx) ?_
  rintro ⟨colon, y⟩ ⟨colon', y'⟩ ⟨hcolon, hy⟩
  refine rel_bind (neutral_finish? hy) ?_
  intro comments comments' hcomments
  have hhead := hmodifier.append (SameShapes.append hpython (hnames.append (SameShapes.append hcolon hcomments)))
  exact .some (by simpa using hhead)

/-! ## Statements -/

lemma statementItems_alike {n n' : Node} {comments comments' : List Node} (hn : SameKinds [n] [n'])
    (hcomments : SameKinds comments comments') :
    (statementItems n comments).Alike [] [] (statementItems n' comments') :=
  .items ((hn.branch .statement _ _).append hcomments)

lemma neutral_controlStatement? (hu : u.Returned u') :
    Option.Rel (Form.Alike [] []) u.controlStatement? u'.controlStatement? := by
  refine rel_bind (neutral_keyword? _ u u' hu) ?_
  rintro ⟨keyword, v⟩ ⟨keyword', v'⟩ ⟨hkeyword, hv⟩
  refine rel_bind (neutral_expression? _ v v' hv) ?_
  rintro ⟨whole, w⟩ ⟨whole', w'⟩ ⟨hwhole, hw⟩
  refine rel_bind (neutral_finish? hw) ?_
  intro comments comments' hcomments
  have hskip : v.skipBlanks.Returned v'.skipBlanks := Returned.skipBlanks hv
  have htext : RenpyScript.Returned (v.tokenText (expressionLength none) isBlank)
      (v'.tokenText (expressionLength none) isBlank) :=
    (expressionLength_cut (by simp) hskip.rest hskip.unescaped).taken.trimEnd fun _ => rfl
  dsimp only
  rw [htext.getLast?_eq]
  split
  · next hlast =>
    have hcondition : RenpyScript.Returned (trimEnd isWhiteSpace (v.tokenText (expressionLength none) isBlank).dropLast)
        (trimEnd isWhiteSpace (v'.tokenText (expressionLength none) isBlank).dropLast) :=
      (htext.dropLast (by simp [hlast])).trimEnd (by decide)
    by_cases hnil : trimEnd isWhiteSpace (v.tokenText (expressionLength none) isBlank).dropLast = []
    · rw [if_pos (by simpa using hnil), if_pos (by simpa using hcondition.eq_nil_iff.mpr hnil)]
      exact .none
    · rw [if_neg (by simpa using hnil), if_neg (by simpa using mt hcondition.eq_nil_iff.mp hnil)]
      refine .some (.opens rfl ((SameShapes.under .keyword hkeyword).append ?_))
      exact (sameKinds_leaf .pythonExpression _ _).append ((sameKinds_leaf .colon _ _).append hcomments)
  · have hparts := (SameShapes.under .keyword hkeyword).append hwhole
    exact .some (statementItems_alike (hparts.branch .controlStatement _ _) hcomments)

lemma neutral_expressionOrAbsent (pos pos' : Nat) (hu : u.Returned u') :
    ReadAlike (fun n n' => SameKinds [n] [n']) (u.expressionOrAbsent pos) (u'.expressionOrAbsent pos') := by
  have hexpression := neutral_expression? .pythonExpression u u' hu
  unfold expressionOrAbsent
  generalize u.expression? .pythonExpression = r at hexpression
  generalize u'.expression? .pythonExpression = r' at hexpression
  cases hexpression with
  | none => exact ⟨sameShapes_absent .pythonExpression pos pos', hu⟩
  | some hread => exact hread

lemma neutral_defineStatement? (hu : u.Returned u') :
    Option.Rel (Form.Alike [] []) u.defineStatement? u'.defineStatement? := by
  refine rel_bind (neutral_keyword? _ u u' hu) ?_
  rintro ⟨keyword, v⟩ ⟨keyword', v'⟩ ⟨hkeyword, hv⟩
  refine rel_bind (neutral_dottedName? v v' hv) ?_
  rintro ⟨name, w⟩ ⟨name', w'⟩ ⟨hname, hw⟩
  refine rel_bind (neutral_char? .equals (by decide) (by decide) w w' hw) ?_
  rintro ⟨equals, x⟩ ⟨equals', x'⟩ ⟨hequals, hx⟩
  obtain ⟨hvalue, hy⟩ := neutral_expressionOrAbsent equals.span.stop equals'.span.stop hx
  refine rel_bind (neutral_finish? hy) ?_
  intro comments comments' hcomments
  have hparts := (SameShapes.under .keyword hkeyword).append
    (SameShapes.append hname (SameShapes.append hequals hvalue))
  exact .some (statementItems_alike (hparts.branch .defineStatement _ _) hcomments)

lemma neutral_argument? : NeutralNode argument? :=
  Neutral.orElse neutral_string? (Neutral.orElse neutral_arguments? (Neutral.orElse neutral_number? neutral_name?))

lemma neutral_renpyStatement? (hu : u.Returned u') :
    Option.Rel (Form.Alike [] []) u.renpyStatement? u'.renpyStatement? := by
  refine rel_bind (neutral_keyword? _ u u' hu) ?_
  rintro ⟨keyword, v⟩ ⟨keyword', v'⟩ ⟨hkeyword, hv⟩
  obtain ⟨hargs, hw⟩ := NeutralNode.many isNodeReader_argument? neutral_argument? hv
  have hhead := (SameShapes.under .keyword hkeyword).append hargs
  have hempty : (many argument? v').1.isEmpty = (many argument? v).1.isEmpty := by
    have hmap := congrArg List.isEmpty hargs
    rwa [List.isEmpty_map, List.isEmpty_map] at hmap
  have hcolon := neutral_char? .colon (c := ':') (by decide) (by decide) _ _ hw
  dsimp only
  rw [hempty]
  generalize (many argument? v).2.char? ':' .colon = r at hcolon
  generalize (many argument? v').2.char? ':' .colon = r' at hcolon
  cases hcolon with
  | some hread =>
    refine rel_bind (neutral_finish? hread.2) ?_
    intro comments comments' hcomments
    exact .some (.opens rfl (hhead.append (hread.1.append hcomments)))
  | none =>
    refine rel_bind (neutral_finish? hw) ?_
    intro comments comments' hcomments
    split
    · exact .none
    · exact .some (statementItems_alike (hhead.branch .renpyStatement _ _) hcomments)

lemma neutral_statement? (hu : u.Returned u') : Option.Rel (Form.Alike [] []) u.statement? u'.statement? :=
  rel_orElse (neutral_controlStatement? hu) (rel_orElse (neutral_defineStatement? hu) (neutral_renpyStatement? hu))

/-! ## Lines of Python and dialogue -/

lemma neutral_pythonInline? (hu : u.Returned u') : Option.Rel SameKinds u.pythonInline? u'.pythonInline? := by
  refine rel_bind (neutral_char? .dollar (by decide) (by decide) u u' hu) ?_
  rintro ⟨dollar, v⟩ ⟨dollar', v'⟩ ⟨hdollar, hv⟩
  obtain ⟨hexpression, hw⟩ := neutral_expressionOrAbsent dollar.span.stop dollar'.span.stop hv
  refine rel_bind (neutral_finish? hw) ?_
  intro comments comments' hcomments
  have hparts := SameShapes.append hdollar hexpression
  exact .some ((hparts.branch .pythonInline _ _).append hcomments)

lemma neutral_strings? (hu : u.Returned u') : Option.Rel SameKinds u.strings? u'.strings? := by
  obtain ⟨hstrings, hv⟩ := NeutralNode.many isNodeReader_string? neutral_string? hu
  have hempty : (many string? u').1.isEmpty = (many string? u).1.isEmpty := by
    have hmap := congrArg List.isEmpty hstrings
    rwa [List.isEmpty_map, List.isEmpty_map] at hmap
  unfold strings?
  dsimp only
  rw [hempty]
  split
  · exact .none
  · exact rel_map (neutral_finish? hv) fun _ _ hcomments => hstrings.append hcomments

lemma neutral_expressionPieces (kind : Kind) (hu : u.Returned u') :
    SameKinds (u.expressionPieces kind) (u'.expressionPieces kind) :=
  (NeutralNode.many (isNodeReader_expressionPiece? kind)
    (Neutral.orElse (neutral_expression? kind) neutral_comment?) hu).1

lemma neutral_dialoguePiece? : NeutralNode dialoguePiece? := by
  intro u u' hu
  unfold dialoguePiece?
  rw [hu.peek?_eq]
  split
  · exact .none
  · exact neutral_comment? u u' hu
  · exact neutral_string? u u' hu
  · exact neutral_char? .error (by decide) (by decide) u u' hu
  · exact neutral_pythonRun? u u' hu

lemma neutral_singleQuoted? : NeutralNode singleQuoted? := by
  intro u u' hu
  unfold singleQuoted?
  rw [hu.peek?_eq]
  split
  · exact neutral_string? u u' hu
  · exact .none

lemma neutral_dialogue (hu : u.Returned u') : SameKinds u.dialogue u'.dialogue := by
  obtain ⟨hfirst, hv⟩ := NeutralNode.optional neutral_singleQuoted? hu
  exact hfirst.append (NeutralNode.many isNodeReader_dialoguePiece? neutral_dialoguePiece? hv).1

end

end Unread

namespace Form
variable {u u' : Unread}

lemma alike_getD {o o' : Option Form} {last last' : Form} (h : Option.Rel (Alike [] []) o o')
    (hlast : last.Alike [] [] last') : (o.getD last).Alike [] [] (o'.getD last') := by
  cases h with
  | none => exact hlast
  | some hform => exact hform

theorem topLevel_neutral (bodyFollows : Bool) (hu : u.Returned u') :
    (topLevel bodyFollows u).Alike [] [] (topLevel bodyFollows u') := by
  refine alike_getD ?_ (.items (Unread.neutral_expressionPieces .error hu))
  refine rel_orElse (rel_map (Unread.neutral_pythonBlock? hu) fun _ _ => .opensPython) ?_
  refine rel_orElse (rel_map (Unread.neutral_header? bodyFollows hu) fun _ _ ho => .opens ho.1 ho.2) ?_
  exact rel_orElse (Unread.neutral_statement? hu) (rel_map (Unread.neutral_strings? hu) fun _ _ => .items)

theorem nested_neutral (hu : u.Returned u') : (nested u).Alike [] [] (nested u') := by
  refine alike_getD ?_ (.items (Unread.neutral_dialogue hu))
  refine rel_orElse (rel_map (Unread.neutral_pythonBlock? hu) fun _ _ => .opensPython) ?_
  exact rel_orElse (rel_map (Unread.neutral_pythonInline? hu) fun _ _ => .items) (Unread.neutral_statement? hu)

end Form

end RenpyScript
