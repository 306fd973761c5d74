import RenpyScript.Proofs.Checked.Quoted
import RenpyScript.Proofs.Checked.ScanRun
import RenpyScript.Proofs.Tree.Indentation

/-!
# Strings end where the splitter says

The loop that splits a text into lines and the loop that reads a string look for the end of the string on
their own. The first one sees the whole text and no escapes but backslashes, the second one sees the content of the
line and reads doubled brackets in one go. They keep pace: where the first one leaves a string, the second one
has found its end.
-/

namespace RenpyScript

namespace LineReader

/-- From an index on the loop over a string comes to an end at an index, where the string is closed or not. -/
inductive StringEnds (bytes : List UInt8) (stop : Nat) (quote : UInt8) (tripled : Bool) : Nat → Nat → Bool → Prop
  | line {i : Nat} (hstop : stop ≤ i) : StringEnds bytes stop quote tripled i i false
  | done {i : Nat} {closed : Bool} (hlt : i < stop)
    (hbyte : stringByte bytes stop quote tripled i = some (.done closed)) : StringEnds bytes stop quote tripled i i closed
  | go {i next j : Nat} {escape : Option Kind} {closed : Bool} (hlt : i < stop)
    (hbyte : stringByte bytes stop quote tripled i = some (.go escape next))
    (hends : StringEnds bytes stop quote tripled next j closed) : StringEnds bytes stop quote tripled i j closed

lemma stringBody_ends {bytes : List UInt8} {stop i : Nat} {quote : UInt8} {tripled : Bool} {s t : Reading}
    {r : List Child × Nat × Bool} (h : stringBody bytes stop quote tripled i s = some (some r, t)) :
    StringEnds bytes stop quote tripled i r.2.1 r.2.2 := by
  -- The run of the reader gives its turns back one by one.
  induction hn : stop - i using Nat.strong_induction_on generalizing i s t r with
  | _ n ih =>
    rw [stringBody] at h
    split at h
    next hstop =>
      cases h
      exact .line hstop
    next hstop =>
      obtain ⟨step, s₁, hstep, h⟩ := bind_eq_some h
      have hbyte := lift_eq_some hstep
      cases step with
      | done closed =>
        cases h
        exact .done (by omega) hbyte
      | go escape next =>
        obtain ⟨children, s₂, -, h⟩ := bind_eq_some h
        obtain ⟨behind, s₃, hbehind, h⟩ := bind_eq_some h
        cases h
        split at hbehind
        next hgo =>
          have hends := ih (stop - next) (by omega) hbehind rfl
          exact .go (by omega) hbyte hends
        next => cases hbehind

/-! ## The two loops keep pace -/

section
variable {bytes : List UInt8} {stop i j : Nat} {quote : ByteQuote} {closed : Bool} {x y : ScanPlace} {r : Nat × Nat × Nat}

/-- The splitter stands inside a string of a line whose content ends at `stop`. -/
structure Pace (bytes : List UInt8) (stop : Nat) (quote : ByteQuote) (x y : ScanPlace) (r : Nat × Nat × Nat) : Prop where
  inside : x.Inside bytes y
  quote_eq : y.quote = some quote
  content : y.content bytes = some r

lemma Pace.stays {z : ScanPlace} (h : Pace bytes stop quote x y r) (hz : y.Stays bytes z) :
    Pace bytes stop quote x z r :=
  ⟨h.inside.stays hz, hz.2.trans h.quote_eq, (hz.1.content h.content).2⟩

/-- What the content of a line leaves out at the line's end. -/
structure Trimmed (bytes : List UInt8) (stop contentEnd : Nat) : Prop where
  stop_le : stop ≤ contentEnd
  padding : ∀ k b, stop ≤ k → k < contentEnd → bytes[k]? = some b → IsPaddingByte b

lemma closingAt_stop (hquote : IsQuoteByte quote.byte) (htrimmed : Trimmed bytes stop r.1) (hlt : i < stop)
    (hclosing : ScanPlace.ClosingAt bytes quote i) (hend : min (i + quote.width) bytes.length ≤ r.1) :
    i + quote.width ≤ stop := by
  have hlength := ScanPlace.length_of_closingAt hclosing
  by_contra hbeyond
  have hbyte := hclosing (stop - i) (by omega)
  rw [show i + (stop - i) = stop by omega] at hbyte
  exact (htrimmed.padding stop _ (Nat.le_refl _) (by omega) hbyte).ne.2.2 hquote

/-- What the byte `b` at an index of a string may do. -/
inductive Turn (bytes : List UInt8) (stop : Nat) (quote : ByteQuote) (i : Nat) (b : UInt8) : StringStep → Prop
  | escape {kind : Option Kind} {next : Nat} (hb : b = '\\'.toUInt8) (hnext : min next stop = min (i + 2) stop) :
    Turn bytes stop quote i b (.go kind next)
  | doubled {kind : Option Kind} (hb : b = '['.toUInt8 ∨ b = '\x7b'.toUInt8) (hagain : bytes[i + 1]? = some b) :
    Turn bytes stop quote i b (.go kind (i + 2))
  | closes (hb : b ≠ '\\'.toUInt8) (hclosing : ScanPlace.ClosingAt bytes quote i) :
    Turn bytes stop quote i b (.done true)
  | breaks (hb : b = '\n'.toUInt8) (hsingle : quote.isTripled = false) : Turn bytes stop quote i b (.done false)
  | passes (hb : b ≠ '\\'.toUInt8) (hclosing : ¬(ScanPlace.ClosingAt bytes quote i ∧ i + quote.width ≤ stop))
    (hfeed : b = '\n'.toUInt8 → quote.isTripled = true) : Turn bytes stop quote i b (.go none (i + 1))

lemma endsString_spec (quote : ByteQuote) {b : UInt8} (hb : bytes[i]? = some b) (hlt : i < stop) (hle : stop ≤ bytes.length) :
    ∃ ends, endsString bytes stop quote.byte quote.isTripled i b = some ends ∧
      (ends = true ↔ ScanPlace.ClosingAt bytes quote i ∧ i + quote.width ≤ stop) := by
  unfold endsString
  by_cases hfirst : b = quote.byte
  · rw [if_pos hfirst]
    cases quote with
    | single q =>
      obtain rfl : b = q := hfirst
      exact ⟨true, rfl, fun _ => ⟨ScanPlace.closingAt_single hb, hlt⟩, fun _ => rfl⟩
    | tripled q =>
      obtain ⟨ends, hends, hiff⟩ := ScanPlace.byteCopies_spec (Nat.le_of_lt hlt) hle 3 q
      exact ⟨ends, hends, hiff.trans and_comm⟩
  · rw [if_neg hfirst]
    refine ⟨false, rfl, fun h => absurd h Bool.false_ne_true, fun h => ?_⟩
    have hbyte := h.1 0 quote.width_pos
    rw [Nat.add_zero, hb, Option.some.injEq] at hbyte
    exact absurd hbyte hfirst

lemma turn_of_stringByte {b : UInt8} {step : StringStep} (hb : bytes[i]? = some b) (hlt : i < stop)
    (hle : stop ≤ bytes.length) (h : stringByte bytes stop quote.byte quote.isTripled i = some step) :
    Turn bytes stop quote i b step := by
  obtain ⟨behind, hbehind⟩ := byteBehind_isSome i hle
  obtain ⟨ends, hends, hiff⟩ := endsString_spec quote hb hlt hle
  rw [stringByte, hb, Option.bind_eq_bind, Option.bind_some, hbehind, Option.bind_eq_bind, Option.bind_some,
    hends] at h
  split at h
  next hescape =>
    split at h
    · cases h
      exact .escape hescape rfl
    · cases h
      refine .escape hescape ?_
      omega
  split at h
  next hescape hdoubled =>
    cases h
    refine .doubled hdoubled.1 ?_
    rw [hdoubled.2, byteBehind] at hbehind
    split at hbehind
    · rw [Option.bind_eq_bind, Option.bind_eq_some_iff] at hbehind
      obtain ⟨c, hc, heq⟩ := hbehind
      cases heq
      exact hc
    · cases hbehind
  next hescape hdoubled =>
    rw [Option.bind_eq_bind, Option.bind_some] at h
    split at h
    next hclosed =>
      cases h
      exact .closes hescape (hiff.mp hclosed).1
    next hopen =>
      split at h
      next hfeed =>
        cases h
        exact .breaks hfeed.1 hfeed.2
      next hfeed =>
        cases h
        refine .passes hescape (mt hiff.mpr hopen) fun hline => ?_
        rw [← Bool.not_eq_false]
        exact fun hsingle => hfeed ⟨hline, hsingle⟩

/-- Where the loop over a string ends, the splitter leaves the string. -/
lemma Pace.leaves (hends : StringEnds bytes stop quote.byte quote.isTripled i j closed)
    (hpace : Pace bytes stop quote x y r) (htrimmed : Trimmed bytes stop r.1) (hle : stop ≤ bytes.length)
    (hquote : IsQuoteByte quote.byte) (hpos : min y.i stop = min i stop) :
    (closed = true → x.ClosesAt bytes (j + quote.width)) ∧ (closed = false → x.BreaksOff bytes) := by
  have hbyte {k : Nat} (hk : k < stop) : ∃ b, bytes[k]? = some b := ⟨_, List.getElem?_eq_getElem (by omega)⟩
  -- On the turns of the reader, with `y` at the same byte. Only behind a backslash that ends the line they may be apart,
  -- and there the reader stops.
  induction hends generalizing y with
  | line hstop =>
    refine ⟨fun h => absurd h Bool.false_ne_true, fun _ => ?_⟩
    apply ScanPlace.breaksOff_of_padding hpace.inside hpace.quote_eq hquote hpace.content
    exact fun k b hk => htrimmed.padding k b (by omega)
  | @done i closed hlt hdone =>
    obtain rfl : y.i = i := by omega
    obtain ⟨b, hb⟩ := hbyte hlt
    cases turn_of_stringByte hb hlt hle hdone with
    | closes hescape hclosing =>
      obtain ⟨z, hgoes, hz, hzi⟩ := ScanPlace.goes_closing hpace.quote_eq hquote hclosing
      refine ⟨fun _ => ⟨y, z, hpace.inside, ?_, hgoes, hz, hzi⟩, fun h => absurd h.symm Bool.false_ne_true⟩
      rw [hpace.quote_eq]
      exact hclosing 0 quote.width_pos
    | breaks hfeed hsingle =>
      refine ⟨fun h => absurd h Bool.false_ne_true, fun _ => ⟨y, hpace.inside, Or.inr ⟨?_, hfeed ▸ hb⟩⟩⟩
      cases quote with
      | single q => exact ⟨q, hpace.quote_eq⟩
      | tripled q => exact absurd hsingle.symm Bool.false_ne_true
  | @go i next j escape closed hlt hgo hends ih =>
    obtain rfl : y.i = i := by omega
    obtain ⟨b, hb⟩ := hbyte hlt
    cases turn_of_stringByte hb hlt hle hgo with
    | escape hescape hnext =>
      obtain ⟨z, hz, hzi⟩ := ScanPlace.stays_escape hpace.quote_eq (hescape ▸ hb)
      exact ih (hpace.stays hz) (by rw [hzi, hnext])
    | doubled hbracket hagain =>
      have hne : b ≠ '\\'.toUInt8 ∧ b ≠ '\n'.toUInt8 := by rcases hbracket with rfl | rfl <;> decide
      have hopen : ∀ k, bytes[k]? = some b → ¬ScanPlace.ClosingAt bytes quote k := by
        intro k hk hclosing
        have hfirst := hclosing 0 quote.width_pos
        rw [Nat.add_zero, hk, Option.some.injEq] at hfirst
        rcases hbracket with rfl | rfl
        · exact hquote.ne.2.2.1 hfirst.symm
        · exact hquote.ne.2.2.2 hfirst.symm
      -- The reader takes the two brackets at once, the splitter one after the other.
      obtain ⟨z, hz, hzi⟩ := ScanPlace.stays_plain hpace.quote_eq hb hne.1 (hopen _ hb) (fun h => absurd h hne.2)
      have hpace' := hpace.stays hz
      have hb' : bytes[z.i]? = some b := hzi ▸ hagain
      obtain ⟨w, hw, hwi⟩ := ScanPlace.stays_plain hpace'.quote_eq hb' hne.1 (hopen _ hb') (fun h => absurd h hne.2)
      exact ih (hpace'.stays hw) (by rw [hwi, hzi])
    | passes hescape hclosing hfeed =>
      have hopen : ¬ScanPlace.ClosingAt bytes quote y.i := by
        intro hhere
        -- A delimiter that the splitter sees lies in the line, so the reader sees it too.
        refine hclosing ⟨hhere, ?_⟩
        obtain ⟨z, hgoes, hz, hzi⟩ := ScanPlace.goes_closing hpace.quote_eq hquote hhere
        have hend := ScanPlace.le_of_content (hgoes.content hpace.content).2
        exact closingAt_stop hquote htrimmed hlt hhere (hzi ▸ hend)
      obtain ⟨z, hz, hzi⟩ := ScanPlace.stays_plain hpace.quote_eq hb hescape hopen hfeed
      exact ih (hpace.stays hz) (by rw [hzi])

lemma Pace.tripled_eq {b : UInt8} {tripled : Bool} (hb : bytes[x.i]? = some b) (hquote : IsQuoteByte b)
    (hbyte : quote.byte = b) (hiff : quote.isTripled = true ↔ ScanPlace.ClosingAt bytes (.tripled b) x.i)
    (hpace : Pace bytes stop quote x y r) (hy : y.i = x.i + quote.width) (htrimmed : Trimmed bytes stop r.1)
    (hlt : x.i < stop) (hle : stop ≤ bytes.length) (htripled : byteCopies bytes x.i stop 3 b = some tripled) :
    quote.isTripled = tripled := by
  obtain ⟨copies, hcopies, hspec⟩ := ScanPlace.byteCopies_spec (Nat.le_of_lt hlt) hle 3 b
  obtain rfl := Option.some.inj (htripled.symm.trans hcopies)
  rw [Bool.eq_iff_iff, hiff, hspec]
  refine ⟨fun h => ⟨?_, h⟩, fun h => h.2⟩
  have hend := ScanPlace.le_of_content hpace.content
  have hclosing : ScanPlace.ClosingAt bytes quote x.i := by
    cases quote with
    | single q => exact absurd (hiff.mpr h) Bool.false_ne_true
    | tripled q =>
      obtain rfl : q = b := hbyte
      exact h
  have hstop := closingAt_stop (hbyte ▸ hquote) htrimmed hlt hclosing (hy ▸ hend)
  cases quote with
  | single q => exact absurd (hiff.mpr h) Bool.false_ne_true
  | tripled q => exact hstop

end

/-! ## The node of a string -/

section
variable {text : List Char} {u : Unread} {q : Char} {nodes : TreeBuilder}

lemma skipBlanks_of_quote (hhead : u.rest.head? = some q) (hq : isQuote q = true) : u.skipBlanks = u := by
  obtain ⟨cs, hrest⟩ := List.head?_eq_some_iff.mp hhead
  have hblank : isBlank q = false := by
    simp only [isQuote, Bool.or_eq_true, decide_eq_true_eq] at hq
    rcases hq with rfl | rfl <;> decide
  rw [Unread.skipBlanks, hrest, List.takeWhile_cons, if_neg (by simp [hblank]), List.length_nil, u.advance_zero]

/-- What is built of a string, and where its loop ends. -/
structure BuildsString (text : List Char) (u : Unread) (q : Char) (nodes : TreeBuilder) (d : Delimiter) (c : Child)
    (t : Reading) : Prop where
  read : u.string? = some (.branch .string (u.stringParts d) u.pos, u.behindString d)
  run : string ⟨u.lexer text, nodes⟩ = some (some c, t)
  denotes : Denotes (.ofText nodes.text) t.builder.nodes none none c.index (.branch .string (u.stringParts d) u.pos)
  tripled : byteCopies (utf8 text) u.pos (u.pos + byteLength u.rest) 3 q.toUInt8 = some d.tripled
  inside : (u.insideString d).pos = u.pos + d.length
  ends : StringEnds (utf8 text) (u.pos + byteLength u.rest) q.toUInt8 d.tripled (u.insideString d).pos
    (u.stringTail d).pos (u.stringBody d).closed
  behind : (u.stringBody d).closed = true → (u.behindString d).pos = (u.stringTail d).pos + d.length

lemma exists_buildsString (hu : u.StandsIn text) (hhead : u.rest.head? = some q) (hq : isQuote q = true)
    (nodes : TreeBuilder) : ∃ d c t, BuildsString text u q nodes d c t := by
  have hskip := skipBlanks_of_quote hhead hq
  have hpeek : u.peek? = some q := by rw [Unread.peek?, hskip, hhead]
  obtain ⟨d, hd, rfl, htripled, hopens⟩ := delimiter_at hq hhead
  obtain ⟨result, t, hrun, hresult⟩ := runs_string (s := ⟨u.lexer text, nodes⟩) hu.at hpeek hq
  cases result with
  | none => exact hresult.2.elim
  | some c =>
    obtain ⟨n, v, hread, hmoves⟩ := hresult
    have heq := Unread.string?_eq (u := u) (by rw [hskip]; exact hd)
    obtain ⟨rfl, rfl⟩ := Prod.mk.inj (Option.some.inj (heq.symm.trans hread))
    have hinside : (u.insideString d).pos = u.pos + d.length := by
      rw [Unread.insideString, hskip]
      exact advance_delimiter hq hopens
    have hstands : (u.insideString d).StandsIn text := by
      rw [Unread.insideString, hskip]
      exact hu.advance d.length
    have hstop : (u.insideString d).pos + byteLength (u.insideString d).rest = u.pos + byteLength u.rest := by
      rw [Unread.insideString, hskip, u.advance_rest_length]
    obtain ⟨body, t', hbody, hends⟩ := runs_stringBody (s := ⟨u.lexer text, nodes⟩) hq hstands hstop hu.at
    cases body with
    | none => exact hends.2.elim
    | some body =>
      have hreads := stringBody_ends hbody
      have hpos : u.skipBlanks.pos = u.pos := by rw [hskip]
      rw [hends.1] at hreads
      refine ⟨d, c, t, hpos ▸ heq, hrun, ?_, ?_, hinside, hreads, behindString_pos hq⟩
      · have hdenotes := hmoves.built.denotes
        simp only [List.forall₂_cons] at hdenotes
        exact hpos ▸ hdenotes.1.2
      · rw [htripled]
        exact hu.bytesAt.copies rfl hu.le_length 3 (isQuote_ascii hq)

lemma stringNode_span (hhead : u.rest.head? = some q) (hq : isQuote q = true) (d : Delimiter) :
    (Node.branch .string (u.stringParts d) u.pos).span = ⟨u.pos, (u.behindString d).pos⟩ := by
  rw [Node.branch, Unread.stringParts_hull, skipBlanks_of_quote hhead hq]

lemma closingDelimiter_missing (u : Unread) (d : Delimiter) :
    (u.closingDelimiter d).missing = !(u.stringBody d).closed := by
  unfold Unread.closingDelimiter
  cases (u.stringBody d).closed <;> rfl

lemma width_eq_length {quote : ByteQuote} {d : Delimiter} (h : quote.isTripled = d.tripled) :
    quote.width = d.length := by
  rw [Delimiter.length, ← h]
  cases quote <;> rfl

lemma exists_unread_at {l : LogicalLine} (hl : l.StandsIn text) {i : Nat} (hstart : l.start ≤ i) (hlt : i < l.span.stop)
    (hbyte : (utf8 text)[i]? = some q.toUInt8) (hq : isQuote q = true) :
    ∃ u : Unread, u.StandsIn text ∧ u.pos = i ∧ u.pos + byteLength u.rest = l.span.stop ∧ u.rest.head? = some q := by
  obtain ⟨as, bs, rfl, hpos⟩ := hl
  have hstop : l.span.stop = byteLength as + byteLength l.content := by rw [LogicalLine.span, Span.covering, hpos]
  have hcontent : (utf8 l.content)[i - byteLength as]? = some q.toUInt8 := by
    rw [List.append_assoc, utf8_append, List.getElem?_append_right (by rw [length_utf8]; omega), length_utf8,
      utf8_append, List.getElem?_append_left (by rw [length_utf8]; omega)] at hbyte
    exact hbyte
  obtain ⟨before, after, heq, hlength⟩ := exists_split_ascii (isQuote_ascii hq) hcontent
  refine ⟨⟨i, q :: after⟩, ⟨as ++ before, bs, ?_, ?_⟩, rfl, ?_, rfl⟩
  · simp [heq]
  · rw [byteLength_append]
    change i = _
    omega
  · rw [hstop, heq, byteLength_append, ← Nat.add_assoc]
    change i + byteLength (q :: after) = _
    omega

lemma IsQuoteByte.exists_char {b : UInt8} (h : IsQuoteByte b) : ∃ q, isQuote q = true ∧ b = q.toUInt8 := by
  rcases h with rfl | rfl
  · exact ⟨'"', rfl, rfl⟩
  · exact ⟨'\'', rfl, rfl⟩

lemma BuildsString.leaves {d : Delimiter} {c : Child} {t : Reading} {x : ScanPlace} {r : Nat × Nat × Nat}
    (h : BuildsString text u q nodes d c t) (hu : u.StandsIn text) (hpos : u.pos = x.i) (houtside : x.quote = none)
    (hb : (utf8 text)[x.i]? = some q.toUInt8) (hquote : IsQuoteByte q.toUInt8)
    (hlt : x.i < u.pos + byteLength u.rest) (hcontent : x.content (utf8 text) = some r)
    (htrimmed : Trimmed (utf8 text) (u.pos + byteLength u.rest) r.1) :
    ((u.stringBody d).closed = true → x.ClosesAt (utf8 text) (u.behindString d).pos) ∧
      ((u.stringBody d).closed = false → x.BreaksOff (utf8 text)) := by
  obtain ⟨y, quote, hgoes, hy, hbyte, hyi, hiff⟩ := ScanPlace.goes_opening houtside hb hquote
  have hpace : Pace (utf8 text) (u.pos + byteLength u.rest) quote x y r :=
    ⟨⟨houtside, y, hgoes, by rw [hy]; rfl, .refl⟩, hy, (hgoes.content hcontent).2⟩
  have htripled : quote.isTripled = d.tripled :=
    hpace.tripled_eq hb hquote hbyte hiff hyi htrimmed hlt hu.le_length (hpos ▸ h.tripled)
  have hwidth := width_eq_length htripled
  have hends := h.ends
  rw [← htripled, ← hbyte] at hends
  have hplace : y.i = (u.insideString d).pos := by rw [h.inside, hyi, hpos, hwidth]
  obtain ⟨hcloses, hbreaks⟩ := hpace.leaves hends htrimmed hu.le_length (hbyte ▸ hquote) (by rw [hplace])
  refine ⟨fun hclosed => ?_, hbreaks⟩
  rw [h.behind hclosed, ← hwidth]
  exact hcloses hclosed

lemma exists_trimmed {lines : List ByteLine} {l : ByteLine} {x : ScanPlace} (hlines : byteScan text = some lines)
    (hl : l ∈ lines) (hx : Relation.ReflTransGen (ScanPlace.Goes (utf8 text)) (.first l) x) :
    ∃ r, x.content (utf8 text) = some r ∧ l.start ≤ x.i ∧ Trimmed (utf8 text) l.stop r.1 := by
  obtain ⟨pos, row, last, hline⟩ := scanLine_of_mem hlines hl
  obtain ⟨r, hfirst, hle, hpadding⟩ := scanLine_spec hline
  obtain ⟨hstart, hcontent⟩ := ScanPlace.content_of_reflTransGen hx hfirst
  exact ⟨r, hcontent, hstart, hle, hpadding⟩

/-- Strings end where the splitter says. At a quote character of a line that the splitter meets outside strings, a
string is read; it is closed where the splitter leaves it at a delimiter, and lacks its delimiter if the splitter
leaves it at a line feed or at the end of the text. -/
theorem string_ends_as_scanned {text : String} {lines : List ByteLine} {l : ByteLine} {x : ScanPlace} {b : UInt8}
    (hlines : byteScan text.toList = some lines) (hl : l ∈ lines)
    (hx : Relation.ReflTransGen (ScanPlace.Goes (utf8 text.toList)) (.first l) x) (houtside : x.quote = none)
    (hb : (utf8 text.toList)[x.i]? = some b) (hquote : IsQuoteByte b) (hlt : x.i < l.stop) (nodes : TreeBuilder) :
    ∃ rest after c t n closing, slice text.toList ⟨x.i, l.stop⟩ = some rest ∧
      Unread.string? ⟨x.i, rest⟩ = some (n, after) ∧
      string ⟨⟨text.toList, x.i, l.stop⟩, nodes⟩ = some (some c, t) ∧
      Denotes (.ofText nodes.text) t.builder.nodes none none c.index n ∧ n.kind = .string ∧
      n.children.getLast? = some closing ∧
      (∀ e, x.ClosesAt (utf8 text.toList) e → n.span = ⟨x.i, e⟩ ∧ closing.missing = false) ∧
      (x.BreaksOff (utf8 text.toList) → closing.missing = true) ∧
      ((∃ e, x.ClosesAt (utf8 text.toList) e) ∨ x.BreaksOff (utf8 text.toList)) := by
  obtain ⟨r, hcontent, hstart, htrimmed⟩ := exists_trimmed hlines hl hx
  obtain ⟨q, hq, rfl⟩ := IsQuoteByte.exists_char hquote
  obtain rfl := Option.some.inj ((byteScan_eq text.toList).symm.trans hlines)
  obtain ⟨logical, hlogical, rfl⟩ := List.mem_map.mp hl
  obtain ⟨u, hu, hpos, hstop, hhead⟩ :=
    exists_unread_at (LogicalLine.scan_standsIn hlogical) hstart hlt hb hq
  obtain ⟨d, c, t, hbuilds⟩ := exists_buildsString hu hhead hq nodes
  obtain ⟨i, depth, quote, row⟩ := x
  obtain rfl : u.pos = i := hpos
  change u.pos + byteLength u.rest = logical.raw.stop at hstop
  rw [← hstop] at hlt htrimmed ⊢
  obtain ⟨hcloses, hbreaks⟩ := hbuilds.leaves hu rfl houtside hb hquote hlt hcontent htrimmed
  refine ⟨u.rest, _, c, t, _, u.closingDelimiter d, hu.slice, hbuilds.read, hbuilds.run, hbuilds.denotes, rfl,
    List.getLast?_concat, ?_⟩
  rw [stringNode_span hhead hq, closingDelimiter_missing]
  cases hclosed : (u.stringBody d).closed with
  | true =>
    have hat := hcloses hclosed
    refine ⟨fun e he => ⟨?_, rfl⟩, fun hoff => absurd hoff (hat.not_breaksOff hb hquote), Or.inl ⟨_, hat⟩⟩
    rw [hat.unique he]
  | false =>
    have hoff := hbreaks hclosed
    exact ⟨fun e he => absurd hoff (he.not_breaksOff hb hquote), fun _ => rfl, Or.inr hoff⟩

theorem string_ends_as_scanned_escapes :
    byteScan "e \"[[\\\"#\"\n".toList = some [⟨0, 0, 9, 10, 0, .code⟩] ∧
      Relation.ReflTransGen (ScanPlace.Goes (utf8 "e \"[[\\\"#\"\n".toList)) (.first ⟨0, 0, 9, 10, 0, .code⟩)
        ⟨2, 0, none, 0⟩ ∧
      (utf8 "e \"[[\\\"#\"\n".toList)[2]? = some '"'.toUInt8 ∧ IsQuoteByte '"'.toUInt8 ∧ 2 < 9 ∧
      ∃ rest after c t n closing, slice "e \"[[\\\"#\"\n".toList ⟨2, 9⟩ = some rest ∧
        Unread.string? ⟨2, rest⟩ = some (n, after) ∧
        string ⟨⟨"e \"[[\\\"#\"\n".toList, 2, 9⟩, .empty "e \"[[\\\"#\"\n".toList⟩ = some (some c, t) ∧
        Denotes (.ofText "e \"[[\\\"#\"\n".toList) t.builder.nodes none none c.index n ∧ n.kind = .string ∧
        n.children.getLast? = some closing ∧
        (∀ e, ScanPlace.ClosesAt (utf8 "e \"[[\\\"#\"\n".toList) ⟨2, 0, none, 0⟩ e →
          n.span = ⟨2, e⟩ ∧ closing.missing = false) ∧
        (ScanPlace.BreaksOff (utf8 "e \"[[\\\"#\"\n".toList) ⟨2, 0, none, 0⟩ → closing.missing = true) ∧
        ((∃ e, ScanPlace.ClosesAt (utf8 "e \"[[\\\"#\"\n".toList) ⟨2, 0, none, 0⟩ e) ∨
          ScanPlace.BreaksOff (utf8 "e \"[[\\\"#\"\n".toList) ⟨2, 0, none, 0⟩) := by
  have hlines : byteScan "e \"[[\\\"#\"\n".toList = some [⟨0, 0, 9, 10, 0, .code⟩] := by decide +kernel
  have hfirst : ScanPlace.Goes (utf8 "e \"[[\\\"#\"\n".toList) (.first ⟨0, 0, 9, 10, 0, .code⟩) ⟨1, 0, none, 0⟩ := by
    change scanByte (utf8 "e \"[[\\\"#\"\n".toList) 0 0 none 0 = some (.go 1 0 none 0)
    decide +kernel
  have hsecond : ScanPlace.Goes (utf8 "e \"[[\\\"#\"\n".toList) ⟨1, 0, none, 0⟩ ⟨2, 0, none, 0⟩ := by
    change scanByte (utf8 "e \"[[\\\"#\"\n".toList) 1 0 none 0 = some (.go 2 0 none 0)
    decide +kernel
  have hrun := (Relation.ReflTransGen.single hfirst).tail hsecond
  have hbyte : (utf8 "e \"[[\\\"#\"\n".toList)[2]? = some '"'.toUInt8 := by decide +kernel
  exact ⟨hlines, hrun, hbyte, Or.inl rfl, by decide, string_ends_as_scanned hlines (List.mem_singleton_self _) hrun rfl
    hbyte (Or.inl rfl) (by decide) (.empty "e \"[[\\\"#\"\n".toList)⟩

end

end LineReader

end RenpyScript
