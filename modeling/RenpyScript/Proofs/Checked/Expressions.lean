import RenpyScript.Proofs.Checked.Form
import RenpyScript.Proofs.Checked.Strings

/-!
# Expressions end where the splitter meets a comment

The loop over an expression keeps a quote character in mind, the splitter the delimiter of the string that it is
inside of. The two agree on a string whose delimiter is one quote character. A tripled delimiter opens, closes and
opens a string for the loop, so the two agree behind it as well. They part at a line feed that breaks off a string
inside brackets, and at a quote character of a tripled string that is not part of its closing delimiter. An
expression with none of these ends at the first comment that the splitter meets, or with the line.
-/

namespace RenpyScript

namespace ScanPlace

/-! ## The turns of the splitter -/

section
variable {bytes : List UInt8} {stop p p' : Nat} {x y z : ScanPlace} {r : Nat × Nat × Nat}

instance (bytes : List UInt8) (x y : ScanPlace) : Decidable (x.Goes bytes y) :=
  inferInstanceAs (Decidable (scanByte bytes x.i x.depth x.quote x.row = some (.go y.i y.depth y.quote y.row)))

instance (bytes : List UInt8) (quote : ByteQuote) (i : Nat) : Decidable (ClosingAt bytes quote i) :=
  inferInstanceAs (Decidable (∀ k < quote.width, bytes[i + k]? = some quote.byte))

/-- The string that the splitter is inside of, if any, is delimited by quote characters. -/
def QuoteSound (x : ScanPlace) : Prop :=
  ∀ quote, x.quote = some quote → IsQuoteByte quote.byte

/-- What the splitter does from one place to the next. -/
inductive Move (bytes : List UInt8) (x y : ScanPlace) : Prop
  | comment (hx : x.quote = none) (hb : bytes[x.i]? = some '#'.toUInt8) (hy : y.quote = none)
  | opens {quote : ByteQuote} (hx : x.quote = none) (hquote : IsQuoteByte quote.byte)
    (hopening : ClosingAt bytes quote x.i) (hy : y.quote = some quote) (hi : y.i = x.i + quote.width)
  | code {b : UInt8} (hx : x.quote = none) (hb : bytes[x.i]? = some b) (hquote : ¬IsQuoteByte b)
    (hhash : b ≠ '#'.toUInt8) (hy : y.quote = none) (hi : y.i = x.i + 1)
  | escape {quote : ByteQuote} (hx : x.quote = some quote) (hb : bytes[x.i]? = some '\\'.toUInt8)
    (hy : y.quote = some quote) (hi : y.i = x.i + 2)
  | closes {quote : ByteQuote} (hx : x.quote = some quote) (hclosing : ClosingAt bytes quote x.i)
    (hy : y.quote = none) (hi : y.i = x.i + quote.width)
  | passes {quote : ByteQuote} {b : UInt8} (hx : x.quote = some quote) (hb : bytes[x.i]? = some b)
    (hescape : b ≠ '\\'.toUInt8) (hopen : ¬ClosingAt bytes quote x.i) (hy : y.quote = some quote) (hi : y.i = x.i + 1)
  | breaks {q : UInt8} (hx : x.quote = some (.single q)) (hb : bytes[x.i]? = some '\n'.toUInt8) (hy : y.quote = none)

lemma scanOutside_go {i depth row j depth' row' : Nat} {quote : Option ByteQuote} {b : UInt8} (hquote : ¬IsQuoteByte b)
    (h : scanOutside bytes i depth row b = some (.go j depth' quote row')) :
    quote = none ∧ (b ≠ '#'.toUInt8 → j = i + 1) := by
  unfold scanOutside at h
  split at h
  next hhash =>
    simp only [Option.bind_eq_bind, Option.bind_eq_some_iff] at h
    obtain ⟨feed, -, h⟩ := h
    cases h
    exact ⟨rfl, fun hne => absurd hhash hne⟩
  split at h
  next hopens => exact absurd hopens hquote
  split at h
  · cases h
    exact ⟨rfl, fun _ => rfl⟩
  split at h
  · cases h
    exact ⟨rfl, fun _ => rfl⟩
  split at h
  · split at h
    · cases h
      exact ⟨rfl, fun _ => rfl⟩
    · cases h
  · cases h
    exact ⟨rfl, fun _ => rfl⟩

lemma not_isQuoteByte_feed : ¬IsQuoteByte '\n'.toUInt8 := by
  unfold IsQuoteByte
  decide

lemma Goes.move (h : x.Goes bytes y) (hx : x.QuoteSound) : Move bytes x y := by
  obtain ⟨b, hb⟩ : ∃ b, bytes[x.i]? = some b := ⟨_, List.getElem?_eq_getElem h.lt_length⟩
  cases hquote : x.quote with
  | none =>
    by_cases hbyte : IsQuoteByte b
    · obtain ⟨z, quote, hgoes, hz, rfl, hi, hiff⟩ := goes_opening hquote hb hbyte
      obtain rfl := goes_rightUnique hgoes h
      refine .opens hquote hbyte ?_ hz hi
      cases quote with
      | single q => exact closingAt_single hb
      | tripled q => exact hiff.mp rfl
    · have hgo := h
      rw [Goes, scanByte, hb, hquote, Option.bind_eq_bind, Option.bind_some] at hgo
      obtain ⟨hnone, hi⟩ := scanOutside_go hbyte hgo
      by_cases hhash : b = '#'.toUInt8
      · exact .comment hquote (hhash ▸ hb) hnone
      · exact .code hquote hb hbyte hhash hnone (hi hhash)
  | some quote =>
    have hsound := hx quote hquote
    by_cases hescape : b = '\\'.toUInt8
    · obtain ⟨z, hz, hi⟩ := stays_escape hquote (hescape ▸ hb)
      obtain rfl := goes_rightUnique hz.1 h
      exact .escape hquote (hescape ▸ hb) (hz.2.trans hquote) hi
    by_cases hclosing : ClosingAt bytes quote x.i
    · obtain ⟨z, hgoes, hz, hi⟩ := goes_closing hquote hsound hclosing
      obtain rfl := goes_rightUnique hgoes h
      exact .closes hquote hclosing hz hi
    by_cases hfeed : b = '\n'.toUInt8 → quote.isTripled = true
    · obtain ⟨z, hz, hi⟩ := stays_plain hquote hb hescape hclosing hfeed
      obtain rfl := goes_rightUnique hz.1 h
      exact .passes hquote hb hescape hclosing (hz.2.trans hquote) hi
    · cases quote with
      | tripled q => exact absurd (fun _ => rfl) hfeed
      | single q =>
        obtain ⟨rfl, -⟩ := Classical.not_imp.mp hfeed
        have hgo := h
        have hne : '\n'.toUInt8 ≠ q := Ne.symm hsound.ne.2.1
        rw [Goes, scanByte_inside hquote hb, scanInside, if_neg hescape, if_neg hne, if_pos rfl] at hgo
        exact .breaks hquote hb (scanOutside_go not_isQuoteByte_feed hgo).1

lemma Goes.quoteSound (h : x.Goes bytes y) (hx : x.QuoteSound) : y.QuoteSound := by
  intro quote hquote
  have hleft (hy : y.quote = none) : IsQuoteByte quote.byte := absurd (hy.symm.trans hquote) (Option.some_ne_none quote).symm
  have hkept {quote' : ByteQuote} (hx' : x.quote = some quote') (hy : y.quote = some quote') : IsQuoteByte quote.byte :=
    hx quote (hx'.trans (hy.symm.trans hquote))
  cases h.move hx with
  | opens _ hsound _ hy =>
    obtain rfl := Option.some.inj (hy.symm.trans hquote)
    exact hsound
  | escape hx' _ hy => exact hkept hx' hy
  | passes hx' _ _ _ hy => exact hkept hx' hy
  | comment _ _ hy => exact hleft hy
  | code _ _ _ _ hy => exact hleft hy
  | closes _ _ hy => exact hleft hy
  | breaks _ _ hy => exact hleft hy

/-! ## Comments -/

def BeginsComment (bytes : List UInt8) (x : ScanPlace) : Prop :=
  x.quote = none ∧ bytes[x.i]? = some '#'.toUInt8

instance (bytes : List UInt8) (x : ScanPlace) : Decidable (x.BeginsComment bytes) :=
  inferInstanceAs (Decidable (x.quote = none ∧ bytes[x.i]? = some '#'.toUInt8))

/-- `p` is where the first comment begins that the splitter meets from `x` on; if it meets none, `p` is the end of
the line. -/
inductive CommentOrEnd (bytes : List UInt8) (stop : Nat) (x : ScanPlace) : Nat → Prop
  | comment {y : ScanPlace} (hrun : Relation.ReflTransGen (Goes bytes) x y) (hcomment : y.BeginsComment bytes)
    (hlt : y.i < stop)
    (hfirst : ∀ z, Relation.ReflTransGen (Goes bytes) x z → z.BeginsComment bytes → y.i ≤ z.i) :
    CommentOrEnd bytes stop x y.i
  | line (hnone : ∀ z, Relation.ReflTransGen (Goes bytes) x z → ¬z.BeginsComment bytes) :
    CommentOrEnd bytes stop x stop

lemma CommentOrEnd.min_le (h : x.CommentOrEnd bytes stop p) (hx : x.content bytes = some r) : min x.i stop ≤ p := by
  cases h with
  | comment hrun => exact (Nat.min_le_left _ _).trans (content_of_reflTransGen hrun hx).1
  | line => exact Nat.min_le_right _ _

lemma CommentOrEnd.unique (h : x.CommentOrEnd bytes stop p) (h' : x.CommentOrEnd bytes stop p') : p = p' := by
  cases h with
  | comment hrun hcomment hlt hfirst =>
    cases h' with
    | comment hrun' hcomment' hlt' hfirst' =>
      exact Nat.le_antisymm (hfirst _ hrun' hcomment') (hfirst' _ hrun hcomment)
    | line hnone => exact absurd hcomment (hnone _ hrun)
  | line hnone =>
    cases h' with
    | comment hrun hcomment => exact absurd hcomment (hnone _ hrun)
    | line => rfl

lemma Goes.forall_reached {motive : ScanPlace → Prop} (h : x.Goes bytes y) (hx : motive x)
    (hy : ∀ z, Relation.ReflTransGen (Goes bytes) y z → motive z) :
    ∀ z, Relation.ReflTransGen (Goes bytes) x z → motive z := by
  intro z hz
  rcases hz.cases_head with rfl | ⟨w, hw, hrun⟩
  · exact hx
  · obtain rfl := goes_rightUnique hw h
    exact hy z hrun

lemma CommentOrEnd.head (h : y.CommentOrEnd bytes stop p) (hgoes : x.Goes bytes y) (hx : ¬x.BeginsComment bytes) :
    x.CommentOrEnd bytes stop p := by
  cases h with
  | comment hrun hcomment hlt hfirst =>
    exact .comment (.head hgoes hrun) hcomment hlt
      (hgoes.forall_reached (fun hcomment => absurd hcomment hx) hfirst)
  | line hnone => exact .line (hgoes.forall_reached hx hnone)

lemma CommentOrEnd.of_chain (h : y.CommentOrEnd bytes stop p) (places : List ScanPlace)
    (hchain : (x :: (places ++ [y])).IsChain fun x y => x.Goes bytes y ∧ ¬x.BeginsComment bytes) :
    x.CommentOrEnd bytes stop p := by
  induction places generalizing x with
  | nil =>
    obtain ⟨hgoes, hx⟩ := List.isChain_pair.mp hchain
    exact h.head hgoes hx
  | cons z places ih =>
    obtain ⟨⟨hgoes, hx⟩, hrest⟩ := List.isChain_cons_cons.mp hchain
    exact (ih hrest).head hgoes hx

lemma exists_goes (hx : x.content bytes = some r) (htrimmed : LineReader.Trimmed bytes stop r.1) (hlt : x.i < stop)
    (hle : stop ≤ bytes.length) : ∃ y, x.Goes bytes y ∧ x.i < y.i ∧ y.content bytes = some r := by
  have hstop := htrimmed.stop_le
  rcases goes_or_done hx (by omega) with hgoes | ⟨hdone, -, -⟩
  · exact hgoes
  · omega

lemma BeginsComment.lt_stop (h : x.BeginsComment bytes) (hx : x.content bytes = some r)
    (htrimmed : LineReader.Trimmed bytes stop r.1) : x.i < stop := by
  have hlt := (List.getElem?_eq_some_iff.mp h.2).1
  rcases goes_or_done hx hlt with ⟨y, -, hxy, hy⟩ | ⟨-, hfeed, -⟩
  · have hle := le_of_content hy
    by_contra hbehind
    have hpadding := htrimmed.padding x.i _ (by omega) (by omega) h.2
    revert hpadding
    unfold IsPaddingByte
    decide
  · rw [h.2] at hfeed
    exact absurd hfeed (by decide)

lemma commentOrEnd_line (hcontent : x.content bytes = some r) (htrimmed : LineReader.Trimmed bytes stop r.1)
    (hend : stop ≤ x.i) : x.CommentOrEnd bytes stop stop := by
  refine .line fun y hy hcomment => ?_
  obtain ⟨hle, hbehind⟩ := content_of_reflTransGen hy hcontent
  have hlt := hcomment.lt_stop hbehind htrimmed
  omega

lemma commentOrEnd_here (hcontent : x.content bytes = some r) (hcomment : x.BeginsComment bytes) (hlt : x.i < stop) :
    x.CommentOrEnd bytes stop x.i :=
  .comment .refl hcomment hlt fun _ hy _ => (content_of_reflTransGen hy hcontent).1

/-! ## The loop over an expression -/

/-- The loop over an expression passes a byte as the splitter does: no line feed breaks off a string there, and the
quote character of a tripled string begins its closing delimiter. -/
def InStepAt (bytes : List UInt8) (i : Nat) : Option ByteQuote → Prop
  | none => True
  | some (.single _) => bytes[i]? ≠ some '\n'.toUInt8
  | some (.tripled q) => bytes[i]? = some q → ClosingAt bytes (.tripled q) i

instance (bytes : List UInt8) (i : Nat) : ∀ quote, Decidable (InStepAt bytes i quote)
  | none => inferInstanceAs (Decidable True)
  | some (.single _) => inferInstanceAs (Decidable (bytes[i]? ≠ some '\n'.toUInt8))
  | some (.tripled q) => inferInstanceAs (Decidable (bytes[i]? = some q → ClosingAt bytes (.tripled q) i))

/-- The loop over an expression keeps in step with the splitter from `x` up to `p`. -/
def KeepsStep (bytes : List UInt8) (x : ScanPlace) (p : Nat) : Prop :=
  ∀ y, Relation.ReflTransGen (Goes bytes) x y → y.i < p → InStepAt bytes y.i y.quote

lemma keepsStep_here (hcontent : x.content bytes = some r) : x.KeepsStep bytes x.i := by
  intro y hy hlt
  have hle := (content_of_reflTransGen hy hcontent).1
  omega

lemma KeepsStep.of_chain (h : y.KeepsStep bytes p) (places : List ScanPlace)
    (hchain : (x :: (places ++ [y])).IsChain fun x y => x.Goes bytes y ∧ InStepAt bytes x.i x.quote) :
    x.KeepsStep bytes p := by
  induction places generalizing x with
  | nil =>
    obtain ⟨hgoes, hx⟩ := List.isChain_pair.mp hchain
    exact hgoes.forall_reached (fun _ => hx) h
  | cons z places ih =>
    obtain ⟨⟨hgoes, hx⟩, hrest⟩ := List.isChain_cons_cons.mp hchain
    exact hgoes.forall_reached (fun _ => hx) (ih hrest)

/-- Where the loop over an expression stops in a line that ends at `stop`. -/
def expressionEnd (bytes : List UInt8) (stop i : Nat) (quote : Option UInt8) : Option Nat :=
  (expressionStop (bytes.take stop) i quote).map (min · stop)

lemma expressionEnd_line {i : Nat} (h : stop ≤ i) (hle : stop ≤ bytes.length) (quote : Option UInt8) :
    expressionEnd bytes stop i quote = some stop := by
  rw [expressionEnd, Lexer.expressionStop_end (by rw [List.length_take]; omega), Option.map_some, Nat.min_eq_right h]

section
variable {i : Nat} {b q : UInt8}

lemma expressionEnd_outside (hb : bytes[i]? = some b) (hlt : i < stop) : expressionEnd bytes stop i none =
    if b = '"'.toUInt8 ∨ b = '\''.toUInt8 then expressionEnd bytes stop (i + 1) (some b)
    else if b = '#'.toUInt8 then some i
    else expressionEnd bytes stop (i + 1) none := by
  have hlength := (List.getElem?_eq_some_iff.mp hb).1
  rw [expressionEnd, expressionStop, if_pos (by rw [List.length_take]; omega), List.getElem?_take_of_lt hlt, hb,
    Option.bind_eq_bind, Option.bind_some]
  dsimp only
  split
  · rfl
  split
  · rw [Option.map_some, Nat.min_eq_left (Nat.le_of_lt hlt)]
  · rfl

lemma expressionEnd_inside (hb : bytes[i]? = some b) (hlt : i < stop) : expressionEnd bytes stop i (some q) =
    if b = '\\'.toUInt8 then expressionEnd bytes stop (i + 2) (some q)
    else expressionEnd bytes stop (i + 1) (if b = q then none else some q) := by
  have hlength := (List.getElem?_eq_some_iff.mp hb).1
  rw [expressionEnd, expressionStop, if_pos (by rw [List.length_take]; omega), List.getElem?_take_of_lt hlt, hb,
    Option.bind_eq_bind, Option.bind_some]
  dsimp only
  split <;> rfl

lemma expressionEnd_quote (hb : bytes[i]? = some q) (hq : IsQuoteByte q) (hlt : i < stop) :
    expressionEnd bytes stop i none = expressionEnd bytes stop (i + 1) (some q) ∧
      expressionEnd bytes stop i (some q) = expressionEnd bytes stop (i + 1) none := by
  have hopens : q = '"'.toUInt8 ∨ q = '\''.toUInt8 := hq
  refine ⟨?_, ?_⟩
  · rw [expressionEnd_outside hb hlt, if_pos hopens]
  · rw [expressionEnd_inside hb hlt, if_neg hq.ne.1, if_pos rfl]

/-- A delimiter has an odd number of quote characters, so it opens and closes a string as one of them does. -/
lemma expressionEnd_delimiter {quote : ByteQuote} (hdelimiter : ClosingAt bytes quote i) (hq : IsQuoteByte quote.byte)
    (hle : i + quote.width ≤ stop) :
    expressionEnd bytes stop i none = expressionEnd bytes stop (i + quote.width) (some quote.byte) ∧
      expressionEnd bytes stop i (some quote.byte) = expressionEnd bytes stop (i + quote.width) none := by
  cases quote with
  | single q => exact expressionEnd_quote (hdelimiter 0 Nat.one_pos) hq hle
  | tripled q =>
    have hle : i + 3 ≤ stop := hle
    have hturn (k : Nat) (hk : k < 3) :
        expressionEnd bytes stop (i + k) none = expressionEnd bytes stop (i + k + 1) (some q) ∧
          expressionEnd bytes stop (i + k) (some q) = expressionEnd bytes stop (i + k + 1) none :=
      expressionEnd_quote (hdelimiter k hk) hq (by omega)
    obtain ⟨hopens₁, hcloses₁⟩ := hturn 0 (by omega)
    obtain ⟨hopens₂, hcloses₂⟩ := hturn 1 (by omega)
    obtain ⟨hopens₃, hcloses₃⟩ := hturn 2 (by omega)
    exact ⟨hopens₁.trans (hcloses₂.trans hopens₃), hcloses₁.trans (hopens₂.trans hcloses₃)⟩

end

/-- A turn of the splitter takes the loop over an expression along. -/
lemma Goes.expressionEnd_eq (h : x.Goes bytes y) (hx : x.QuoteSound) (hcomment : ¬x.BeginsComment bytes)
    (hstep : InStepAt bytes x.i x.quote) (hcontent : x.content bytes = some r) (htrimmed : LineReader.Trimmed bytes stop r.1)
    (hlt : x.i < stop) : expressionEnd bytes stop x.i (x.quote.map ByteQuote.byte) =
      expressionEnd bytes stop y.i (y.quote.map ByteQuote.byte) := by
  have hend {quote : ByteQuote} (hq : IsQuoteByte quote.byte) (hdelimiter : ClosingAt bytes quote x.i)
      (hi : y.i = x.i + quote.width) : x.i + quote.width ≤ stop :=
    LineReader.closingAt_stop hq htrimmed hlt hdelimiter (hi ▸ le_of_content (h.content hcontent).2)
  cases h.move hx with
  | comment hquote hb => exact absurd ⟨hquote, hb⟩ hcomment
  | @opens quote hquote hq hopening hy hi =>
    rw [hquote, hy, hi]
    exact (expressionEnd_delimiter hopening hq (hend hq hopening hi)).1
  | @code b hquote hb hq hhash hy hi =>
    rw [hquote, hy, hi]
    exact (expressionEnd_outside hb hlt).trans ((if_neg hq).trans (if_neg hhash))
  | @escape quote hquote hb hy hi =>
    rw [hquote, hy, hi]
    exact (expressionEnd_inside hb hlt).trans (if_pos rfl)
  | @closes quote hquote hclosing hy hi =>
    have hq := hx quote hquote
    rw [hquote, hy, hi]
    exact (expressionEnd_delimiter hclosing hq (hend hq hclosing hi)).2
  | @passes quote b hquote hb hescape hopen hy hi =>
    have hne : b ≠ quote.byte := by
      rintro rfl
      rw [hquote] at hstep
      cases quote with
      | single q => exact hopen (closingAt_single hb)
      | tripled q => exact hopen (hstep hb)
    rw [hquote, hy, hi, Option.map_some, expressionEnd_inside hb hlt, if_neg hescape, if_neg hne]
  | @breaks q hquote hb hy =>
    rw [hquote] at hstep
    exact absurd hb hstep

/-- The splitter meets a first comment or none, and the loop over an expression that keeps in step up to there stops
there. -/
lemma exists_commentOrEnd (hx : x.QuoteSound) (hcontent : x.content bytes = some r)
    (htrimmed : LineReader.Trimmed bytes stop r.1) (hle : stop ≤ bytes.length) :
    ∃ p, x.CommentOrEnd bytes stop p ∧
      (x.KeepsStep bytes p → expressionEnd bytes stop x.i (x.quote.map ByteQuote.byte) = some p) := by
  -- On what is left of the text. The first comment from the next place on is the first one from here, unless there is
  -- one here.
  induction hn : bytes.length - x.i using Nat.strong_induction_on generalizing x with
  | _ n ih =>
    by_cases hend : stop ≤ x.i
    · exact ⟨stop, commentOrEnd_line hcontent htrimmed hend, fun _ => expressionEnd_line hend hle _⟩
    have hlt : x.i < stop := by omega
    by_cases hcomment : x.BeginsComment bytes
    · refine ⟨x.i, commentOrEnd_here hcontent hcomment hlt, fun _ => ?_⟩
      rw [hcomment.1, Option.map_none, expressionEnd_outside hcomment.2 hlt, if_neg (by decide), if_pos rfl]
    obtain ⟨y, hgoes, hxy, hy⟩ := exists_goes hcontent htrimmed hlt hle
    obtain ⟨p, hp, hstops⟩ := ih (bytes.length - y.i) (by omega) (hgoes.quoteSound hx) hy rfl
    refine ⟨p, hp.head hgoes hcomment, fun hsteps => ?_⟩
    have hle := hp.min_le hy
    rw [hgoes.expressionEnd_eq hx hcomment (hsteps x .refl (by omega)) hcontent htrimmed hlt]
    exact hstops fun z hz => hsteps z (.head hgoes hz)

end

end ScanPlace

/-! ## The expression of a line -/

section
variable {text : List Char} {u v : Unread}

lemma LogicalLine.StandsIn.exists_unread {l : LogicalLine} (hl : l.StandsIn text) {i : Nat} (hi : IsBoundary text i)
    (hstart : l.start ≤ i) (hle : i ≤ l.span.stop) :
    ∃ u : Unread, u.StandsIn text ∧ u.pos = i ∧ u.pos + byteLength u.rest = l.span.stop := by
  obtain ⟨as, bs, rfl, hpos⟩ := hl
  obtain ⟨before, hbefore, rfl⟩ := hi
  have hstop : l.span.stop = byteLength (as ++ l.content) := by
    rw [LogicalLine.span, Span.covering, hpos, byteLength_append]
  have has : as <+: as ++ l.content ++ bs := (List.prefix_append as _).trans (List.prefix_append _ bs)
  obtain ⟨mid, rfl⟩ := prefix_of_byteLength_le has hbefore (hpos ▸ hstart)
  obtain ⟨rest, hrest⟩ := prefix_of_byteLength_le hbefore (List.prefix_append _ bs) (hstop ▸ hle)
  refine ⟨⟨byteLength (as ++ mid), rest⟩, ⟨as ++ mid, bs, by rw [hrest], rfl⟩, rfl, ?_⟩
  rw [hstop, ← hrest, byteLength_append (as ++ mid)]

namespace Unread

def behindExpression (u : Unread) : Unread :=
  u.skipBlanks.advance (expressionLength none u.skipBlanks.rest)

lemma expressionLength_blanks (cs : List Char) : expressionLength none cs =
    (cs.takeWhile isBlank).length + expressionLength none (cs.dropWhile isBlank) := by
  induction cs with
  | nil => rfl
  | cons c cs ih =>
    by_cases hc : isBlank c = true
    · have hhash : c ≠ '#' := by
        rintro rfl
        exact absurd hc (by decide)
      have hquote : ¬isQuote c = true := by
        simp only [isQuote, Bool.or_eq_true, decide_eq_true_eq]
        rintro (rfl | rfl) <;> exact absurd hc (by decide)
      rw [Lexer.expressionLength_code, if_neg hhash, if_neg hquote, List.takeWhile_cons_of_pos hc,
        List.dropWhile_cons_of_pos hc, ih, List.length_cons]
      omega
    · rw [List.takeWhile_cons_of_neg hc, List.dropWhile_cons_of_neg hc, List.length_nil, Nat.zero_add]

lemma behindExpression_eq (u : Unread) : u.behindExpression = u.advance (expressionLength none u.rest) := by
  rw [behindExpression, skipBlanks_rest, skipBlanks, advance_advance, ← expressionLength_blanks]

lemma StandsIn.expressionEnd_eq (hu : u.StandsIn text) :
    ScanPlace.expressionEnd (utf8 text) (u.pos + byteLength u.rest) u.pos none = some u.behindExpression.pos := by
  obtain ⟨as, bs, rfl, hpos⟩ := hu
  have hbytes : (utf8 (as ++ u.rest ++ bs)).take (u.pos + byteLength u.rest) = utf8 (as ++ u.rest) := by
    rw [hpos, ← byteLength_append, ← length_utf8, utf8_append (as ++ u.rest), List.take_left]
  have hlength : u.pos + byteLength u.rest = (utf8 (as ++ u.rest)).length := by
    rw [length_utf8, byteLength_append, hpos]
  have hat : BytesAt (utf8 (as ++ u.rest)) u.pos u.rest := by
    have happend := bytesAt_append as u.rest []
    rwa [List.append_nil, ← hpos] at happend
  have hstop := Lexer.expressionStop_eq (fun q hq => absurd hq (Option.some_ne_none q).symm) hat hlength
  rw [ScanPlace.expressionEnd, hbytes, hlength, behindExpression_eq]
  exact hstop

end Unread

namespace Lexer

/-- The rest of the line is read up to where the expression ends, whatever is trimmed off its token. -/
lemma restOfLine_eq (hu : u.StandsIn text) : ∃ span, (u.lexer text).restOfLine = some (span, u.behindExpression.lexer text) ∧
    (∀ kind, u.expression? kind = span.map fun s => (Node.leaf kind s, u.behindExpression)) ∧
    ∀ s, span = some s → u.pos ≤ s.start ∧ s.stop ≤ u.behindExpression.pos := by
  set token := u.tokenText (expressionLength none) isBlank with htoken
  refine ⟨if token.isEmpty then none else some (.covering u.skipBlanks.pos token), ?_, fun kind => ?_, fun s hs => ?_⟩
  · rw [hu.at.restOfLine .pythonExpression, Unread.expression?, outcome_trimmedToken? (fun _ hc => hc) rfl]
    rfl
  · rw [Unread.expression?, Unread.trimmedToken?, ← htoken]
    dsimp only
    split <;> rfl
  · split at hs
    · cases hs
    · cases hs
      obtain ⟨dropped, hsplit, -⟩ :=
        trimEnd_split isBlank (u.skipBlanks.rest.take (expressionLength none u.skipBlanks.rest))
      change _ = token ++ dropped at hsplit
      refine ⟨Nat.le_add_right _ _, ?_⟩
      rw [Unread.behindExpression, Unread.advance, hsplit, byteLength_append, ← Nat.add_assoc]
      exact Nat.le_add_right _ _

end Lexer

end

namespace Unread

lemma StandsIn.behindExpression {text : List Char} {u : Unread} (hu : u.StandsIn text) : u.behindExpression.StandsIn text :=
  hu.skipBlanks.advance _

lemma behindExpression_end (u : Unread) :
    u.behindExpression.pos + byteLength u.behindExpression.rest = u.pos + byteLength u.rest :=
  (u.skipBlanks.advance_rest_length _).trans (u.advance_rest_length _)

lemma comment?_behindExpression (u : Unread) : u.behindExpression.rest = [] ∨
    ∃ n v, u.behindExpression.comment? = some (n, v) ∧ n.kind = .comment ∧ n.span.start = u.behindExpression.pos := by
  rcases LineReader.drop_expressionLength none u.skipBlanks.rest with hhead | hhead
  · exact .inl (List.head?_eq_none_iff.mp hhead)
  · right
    obtain ⟨cs, hcs⟩ := List.head?_eq_some_iff.mp hhead
    have hrest : u.behindExpression.rest = '#' :: cs := hcs
    have hskip : u.behindExpression.skipBlanks = u.behindExpression := by
      rw [skipBlanks, hrest, List.takeWhile_cons_of_neg (by decide), List.length_nil, advance_zero]
    have hpeek : u.behindExpression.peek? = some '#' := by
      rw [peek?, hskip, hrest]
      rfl
    obtain ⟨⟨n, v⟩, hread⟩ := Option.ne_none_iff_exists'.mp (comment?_ne_none hpeek)
    obtain ⟨-, rfl, -⟩ := trimmedToken?_eq_some_iff.mp hread
    exact ⟨_, v, hread, rfl, congrArg Unread.pos hskip⟩

end Unread

namespace Lexer

/-- An expression that begins outside strings is read up to the first comment that the splitter meets behind it, or to
the end of its line, if the loop over the expression keeps in step with the splitter up to there. -/
theorem restOfLine_ends_as_scanned {text : String} {lines : List ByteLine} {l : ByteLine} {x : ScanPlace} {p : Nat}
    (hlines : byteScan text.toList = some lines) (hl : l ∈ lines)
    (hx : Relation.ReflTransGen (ScanPlace.Goes (utf8 text.toList)) (.first l) x) (houtside : x.quote = none)
    (hboundary : IsBoundary text.toList x.i) (hle : x.i ≤ l.stop) (hp : x.CommentOrEnd (utf8 text.toList) l.stop p)
    (hsteps : x.KeepsStep (utf8 text.toList) p) :
    ∃ rest behind span, slice text.toList ⟨x.i, l.stop⟩ = some rest ∧ slice text.toList ⟨p, l.stop⟩ = some behind ∧
      restOfLine ⟨text.toList, x.i, l.stop⟩ = some (span, ⟨text.toList, p, l.stop⟩) ∧
      (∀ kind, Unread.expression? kind ⟨x.i, rest⟩ = span.map fun s => (Node.leaf kind s, ⟨p, behind⟩)) ∧
      (∀ s, span = some s → x.i ≤ s.start ∧ s.stop ≤ p) ∧
      (p < l.stop → ∃ n v, Unread.comment? ⟨p, behind⟩ = some (n, v) ∧ n.kind = .comment ∧ n.span.start = p) ∧
      (p = l.stop → behind = []) := by
  obtain ⟨r, hcontent, hstart, htrimmed⟩ := LineReader.exists_trimmed hlines hl hx
  obtain rfl := Option.some.inj ((byteScan_eq text.toList).symm.trans hlines)
  obtain ⟨logical, hlogical, rfl⟩ := List.mem_map.mp hl
  obtain ⟨u, hu, hpos, hstop⟩ := (LogicalLine.scan_standsIn hlogical).exists_unread hboundary hstart hle
  obtain ⟨i, depth, quote, row⟩ := x
  obtain rfl : u.pos = i := hpos
  obtain rfl : quote = none := houtside
  change u.pos + byteLength u.rest = logical.raw.stop at hstop
  rw [← hstop] at hp htrimmed ⊢
  obtain ⟨p', hp', hends⟩ := ScanPlace.exists_commentOrEnd (fun q hq => absurd hq (Option.some_ne_none q).symm) hcontent
    htrimmed hu.le_length
  obtain rfl := hp.unique hp'
  obtain rfl : u.behindExpression.pos = p := Option.some.inj (hu.expressionEnd_eq.symm.trans (hends hsteps))
  obtain ⟨span, hread, hexpression, hspan⟩ := restOfLine_eq hu
  have hend := u.behindExpression_end
  refine ⟨u.rest, u.behindExpression.rest, span, hu.slice, ?_, ?_, hexpression, hspan, fun hlt => ?_, fun heq => ?_⟩
  · rw [← hend]
    exact hu.behindExpression.slice
  · have hlexer : restOfLine ⟨text.toList, u.pos, u.pos + byteLength u.rest⟩ = some (span, ⟨text.toList,
        u.behindExpression.pos, u.behindExpression.pos + byteLength u.behindExpression.rest⟩) := hread
    rwa [hend] at hlexer
  · rcases u.comment?_behindExpression with hnil | hcomment
    · rw [hnil, byteLength_nil] at hend
      omega
    · exact hcomment
  · by_contra hne
    have hpos := byteLength_pos hne
    omega

/-- A hash sign in a tripled string, and a comment behind it. -/
theorem restOfLine_ends_as_scanned_tripled :
    byteScan "    $ \"\"\"#\"\"\" # c\n".toList = some [⟨4, 4, 17, 18, 0, .code⟩] ∧
      Relation.ReflTransGen (ScanPlace.Goes (utf8 "    $ \"\"\"#\"\"\" # c\n".toList))
        (.first ⟨4, 4, 17, 18, 0, .code⟩) ⟨5, 0, none, 0⟩ ∧
      IsBoundary "    $ \"\"\"#\"\"\" # c\n".toList 5 ∧
      ScanPlace.CommentOrEnd (utf8 "    $ \"\"\"#\"\"\" # c\n".toList) 17 ⟨5, 0, none, 0⟩ 14 ∧
      ScanPlace.KeepsStep (utf8 "    $ \"\"\"#\"\"\" # c\n".toList) ⟨5, 0, none, 0⟩ 14 ∧
      ∃ rest behind span, slice "    $ \"\"\"#\"\"\" # c\n".toList ⟨5, 17⟩ = some rest ∧
        slice "    $ \"\"\"#\"\"\" # c\n".toList ⟨14, 17⟩ = some behind ∧
        restOfLine ⟨"    $ \"\"\"#\"\"\" # c\n".toList, 5, 17⟩ =
          some (span, ⟨"    $ \"\"\"#\"\"\" # c\n".toList, 14, 17⟩) ∧
        (∀ kind, Unread.expression? kind ⟨5, rest⟩ = span.map fun s => (Node.leaf kind s, ⟨14, behind⟩)) ∧
        (∀ s, span = some s → 5 ≤ s.start ∧ s.stop ≤ 14) ∧
        (14 < 17 → ∃ n v, Unread.comment? ⟨14, behind⟩ = some (n, v) ∧ n.kind = .comment ∧ n.span.start = 14) ∧
        (14 = 17 → behind = []) := by
  set text := "    $ \"\"\"#\"\"\" # c\n"
  have hlines : byteScan text.toList = some [⟨4, 4, 17, 18, 0, .code⟩] := by decide +kernel
  have hdollar : ScanPlace.Goes (utf8 text.toList) (.first ⟨4, 4, 17, 18, 0, .code⟩) ⟨5, 0, none, 0⟩ := by decide +kernel
  have hboundary : IsBoundary text.toList 5 := ⟨"    $".toList, by decide +kernel, rfl⟩
  have hcontent : ScanPlace.content (utf8 text.toList) ⟨14, 0, none, 0⟩ = some (17, 18, 0) := by decide +kernel
  -- the hash sign in the string and the one behind it
  let places : List ScanPlace := [⟨6, 0, none, 0⟩, ⟨9, 0, some (.tripled '"'.toUInt8), 0⟩,
    ⟨10, 0, some (.tripled '"'.toUInt8), 0⟩, ⟨13, 0, none, 0⟩]
  have hp : ScanPlace.CommentOrEnd (utf8 text.toList) 17 ⟨5, 0, none, 0⟩ 14 := by
    have hcomment := ScanPlace.commentOrEnd_here hcontent (by decide +kernel) (show 14 < 17 by decide)
    exact hcomment.of_chain places (by decide +kernel)
  have hsteps : ScanPlace.KeepsStep (utf8 text.toList) ⟨5, 0, none, 0⟩ 14 :=
    (ScanPlace.keepsStep_here hcontent).of_chain places (by decide +kernel)
  exact ⟨hlines, .single hdollar, hboundary, hp, hsteps, restOfLine_ends_as_scanned hlines
    (List.mem_singleton_self _) (.single hdollar) rfl hboundary (by decide) hp hsteps⟩

/-- At a lone quote character of a tripled string the loop over the expression takes the string to be closed. The hash
sign behind it is inside the string, and a comment in the tree. -/
theorem restOfLine_ends_as_scanned_lone :
    byteScan "    $ \"\"\"a\"#b\"\"\"\n".toList = some [⟨4, 4, 16, 17, 0, .code⟩] ∧
      Relation.ReflTransGen (ScanPlace.Goes (utf8 "    $ \"\"\"a\"#b\"\"\"\n".toList))
        (.first ⟨4, 4, 16, 17, 0, .code⟩) ⟨5, 0, none, 0⟩ ∧
      ScanPlace.CommentOrEnd (utf8 "    $ \"\"\"a\"#b\"\"\"\n".toList) 16 ⟨5, 0, none, 0⟩ 16 ∧
      restOfLine ⟨"    $ \"\"\"a\"#b\"\"\"\n".toList, 5, 16⟩ =
        some (some ⟨6, 11⟩, ⟨"    $ \"\"\"a\"#b\"\"\"\n".toList, 11, 16⟩) ∧
      (Tree.parse "    $ \"\"\"a\"#b\"\"\"\n").root.sexp =
        "(source_file (block (python_inline (python_expression)) (comment)))" := by
  set text := "    $ \"\"\"a\"#b\"\"\"\n"
  have hdollar : ScanPlace.Goes (utf8 text.toList) (.first ⟨4, 4, 16, 17, 0, .code⟩) ⟨5, 0, none, 0⟩ := by decide +kernel
  have hcontent : ScanPlace.content (utf8 text.toList) ⟨16, 0, none, 0⟩ = some (16, 17, 0) := by decide +kernel
  have hlast := ScanPlace.commentOrEnd_line hcontent ⟨Nat.le_refl 16, fun k b hk hlt => by omega⟩ (Nat.le_refl 16)
  let quote : Option ByteQuote := some (.tripled '"'.toUInt8)
  have hp : ScanPlace.CommentOrEnd (utf8 text.toList) 16 ⟨5, 0, none, 0⟩ 16 :=
    hlast.of_chain [⟨6, 0, none, 0⟩, ⟨9, 0, quote, 0⟩, ⟨10, 0, quote, 0⟩, ⟨11, 0, quote, 0⟩, ⟨12, 0, quote, 0⟩,
      ⟨13, 0, quote, 0⟩] (by decide +kernel)
  exact ⟨by decide +kernel, .single hdollar, hp, by decide +kernel, by decide +kernel⟩

-- A comment behind a string that a line feed breaks off, inside brackets, is not found.
example : (Tree.parse "    $ f(\"abc\n# c\n)\n").root.sexp = "(source_file (block (python_inline (python_expression))))" := by
  decide +kernel

end Lexer

end RenpyScript
