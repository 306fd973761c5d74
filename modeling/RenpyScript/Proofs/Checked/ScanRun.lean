import Mathlib.Logic.Relation
import RenpyScript.Checked.Scan
import RenpyScript.Proofs.Checked.Bytes

/-!
# The loop over a line, place by place

`ScanPlace.Goes` is one turn of the loop that looks for the end of a line. A place is inside a string if the
loop comes there from the opening delimiter without leaving the string; then the string is closed by a delimiter,
or it breaks off at a line feed or at the end of the text. What lies between the content of a line and its end is
white space only, so a string that is open there breaks off.
-/

namespace RenpyScript

namespace ByteQuote

def byte : ByteQuote → UInt8
  | single q => q
  | tripled q => q

/-- Number of bytes of the delimiter. -/
def width : ByteQuote → Nat
  | single _ => 1
  | tripled _ => 3

lemma width_pos (quote : ByteQuote) : 0 < quote.width := by
  cases quote with
  | single q => exact Nat.one_pos
  | tripled q => exact Nat.succ_pos 2

/-- Whether the delimiter is three quote characters. -/
def isTripled : ByteQuote → Bool
  | single _ => false
  | tripled _ => true

end ByteQuote

def IsQuoteByte (b : UInt8) : Prop :=
  b = '"'.toUInt8 ∨ b = '\''.toUInt8

lemma IsQuoteByte.ne {b : UInt8} (h : IsQuoteByte b) :
    b ≠ '\\'.toUInt8 ∧ b ≠ '\n'.toUInt8 ∧ b ≠ '['.toUInt8 ∧ b ≠ '\x7b'.toUInt8 := by
  rcases h with rfl | rfl <;> decide

/-- White space that the end of a line does not keep. -/
def IsPaddingByte (b : UInt8) : Prop :=
  b = ' '.toUInt8 ∨ b = '\t'.toUInt8 ∨ b = '\r'.toUInt8 ∨ b = '\x0c'.toUInt8

lemma IsPaddingByte.ne {b : UInt8} (h : IsPaddingByte b) : b ≠ '\\'.toUInt8 ∧ b ≠ '\n'.toUInt8 ∧ ¬IsQuoteByte b := by
  unfold IsQuoteByte
  rcases h with rfl | rfl | rfl | rfl <;> decide

/-- A place that the loop comes to, and what it knows there. -/
structure ScanPlace where
  i : Nat
  depth : Nat
  quote : Option ByteQuote
  row : Nat

namespace ScanPlace

/-- The beginning of the content of a line. -/
def first (l : ByteLine) : ScanPlace :=
  ⟨l.start, 0, none, l.row⟩

section
variable (bytes : List UInt8)

/-- The byte at `x` leads to `y`. -/
def Goes (x y : ScanPlace) : Prop :=
  scanByte bytes x.i x.depth x.quote x.row = some (.go y.i y.depth y.quote y.row)

/-- The byte at `x` leads to `y`, and both are inside the same string or outside strings. -/
def Stays (x y : ScanPlace) : Prop :=
  x.Goes bytes y ∧ y.quote = x.quote

/-- `y` is inside the string that begins at `x`. -/
def Inside (x y : ScanPlace) : Prop :=
  x.quote = none ∧ ∃ z, x.Goes bytes z ∧ z.quote.isSome ∧ Relation.ReflTransGen (Stays bytes) z y

/-- The string that begins at `x` is left at a closing delimiter that ends at `e`. -/
def ClosesAt (x : ScanPlace) (e : Nat) : Prop :=
  ∃ y z, x.Inside bytes y ∧ bytes[y.i]? = y.quote.map ByteQuote.byte ∧ y.Goes bytes z ∧ z.quote = none ∧ z.i = e

/-- The string that begins at `x` is left at a line feed or at the end of the text. -/
def BreaksOff (x : ScanPlace) : Prop :=
  ∃ y, x.Inside bytes y ∧
    (bytes.length ≤ y.i ∨ (∃ q, y.quote = some (.single q)) ∧ bytes[y.i]? = some '\n'.toUInt8)

/-- Where the content and its line end, and the row there. -/
def content (x : ScanPlace) : Option (Nat × Nat × Nat) :=
  scanContent bytes x.i x.depth x.quote x.row

end

section
variable {bytes : List UInt8} {x y z : ScanPlace} {r : Nat × Nat × Nat}

lemma Goes.lt_length (h : x.Goes bytes y) : x.i < bytes.length := by
  rw [Goes, scanByte, Option.bind_eq_bind, Option.bind_eq_some_iff] at h
  obtain ⟨b, hb, -⟩ := h
  exact (List.getElem?_eq_some_iff.mp hb).1

lemma Goes.content (h : x.Goes bytes y) (hx : x.content bytes = some r) : x.i < y.i ∧ y.content bytes = some r := by
  have hlt := h.lt_length
  rw [Goes] at h
  rw [ScanPlace.content, scanContent, if_neg (by omega), h] at hx
  change (if x.i < y.i then _ else none) = some r at hx
  split at hx
  next hgo => exact ⟨hgo, hx⟩
  next => cases hx

lemma content_of_reflTransGen (h : Relation.ReflTransGen (Goes bytes) x y) (hx : x.content bytes = some r) :
    x.i ≤ y.i ∧ y.content bytes = some r := by
  induction h with
  | refl => exact ⟨Nat.le_refl _, hx⟩
  | tail _ hgoes ih =>
    obtain ⟨hlt, hcontent⟩ := hgoes.content ih.2
    exact ⟨ih.1.trans (Nat.le_of_lt hlt), hcontent⟩

lemma scanOutside_done {i depth row : Nat} {b : UInt8} {stop lineEnd last : Nat}
    (h : scanOutside bytes i depth row b = some (.done stop lineEnd last)) : stop = i ∧ b = '\n'.toUInt8 := by
  unfold scanOutside at h
  split at h
  · simp only [Option.bind_eq_bind, Option.bind_eq_some_iff] at h
    obtain ⟨j, -, hj⟩ := h
    cases hj
  split at h
  · simp only [Option.bind_eq_bind, Option.bind_eq_some_iff] at h
    obtain ⟨copies, -, hcopies⟩ := h
    split at hcopies <;> cases hcopies
  split at h
  · cases h
  split at h
  · cases h
  split at h
  next hfeed =>
    split at h
    · cases h
    · cases h
      exact ⟨rfl, hfeed⟩
  next => cases h

/-- The line ends where a line feed is met outside strings, or in one that is not tripled. -/
lemma scanByte_done {stop lineEnd last : Nat}
    (h : scanByte bytes x.i x.depth x.quote x.row = some (.done stop lineEnd last)) :
    stop = x.i ∧ bytes[x.i]? = some '\n'.toUInt8 ∧ ∀ q, x.quote ≠ some (.tripled q) := by
  rw [scanByte, Option.bind_eq_bind, Option.bind_eq_some_iff] at h
  obtain ⟨b, hb, h⟩ := h
  rw [hb]
  split at h
  next hquote =>
    obtain ⟨hstop, rfl⟩ := scanOutside_done h
    exact ⟨hstop, rfl, by simp [hquote]⟩
  next quote hquote =>
    unfold scanInside at h
    split at h
    · cases h
    cases quote with
    | tripled q =>
      simp only [Option.bind_eq_bind, Option.bind_eq_some_iff] at h
      obtain ⟨ends, -, h⟩ := h
      split at h
      · cases h
      split at h <;> cases h
    | single q =>
      dsimp only at h
      split at h
      · cases h
      split at h
      · obtain ⟨hstop, rfl⟩ := scanOutside_done h
        exact ⟨hstop, rfl, by simp [hquote]⟩
      · cases h

lemma goes_or_done (h : x.content bytes = some r) (hlt : x.i < bytes.length) :
    (∃ y, x.Goes bytes y ∧ x.i < y.i ∧ y.content bytes = some r) ∨
      r.1 = x.i ∧ bytes[x.i]? = some '\n'.toUInt8 ∧ ∀ q, x.quote ≠ some (.tripled q) := by
  obtain ⟨step, hstep⟩ : ∃ step, scanByte bytes x.i x.depth x.quote x.row = some step := by
    rw [content, scanContent, if_neg (by omega), Option.bind_eq_bind, Option.bind_eq_some_iff] at h
    exact ⟨_, h.choose_spec.1⟩
  cases step with
  | go i depth quote row =>
    have hgoes : x.Goes bytes ⟨i, depth, quote, row⟩ := hstep
    exact Or.inl ⟨_, hgoes, hgoes.content h⟩
  | done stop lineEnd last =>
    obtain ⟨rfl, hfeed, htripled⟩ := scanByte_done hstep
    rw [content, scanContent, if_neg (by omega), hstep] at h
    obtain rfl : (x.i, lineEnd, last) = r := Option.some.inj h
    exact Or.inr ⟨rfl, hfeed, htripled⟩

lemma le_of_content (h : x.content bytes = some r) : min x.i bytes.length ≤ r.1 := by
  -- A backslash may lead beyond the end of the text, hence the minimum.
  induction hn : bytes.length - x.i using Nat.strong_induction_on generalizing x with
  | _ n ih =>
    by_cases hend : bytes.length ≤ x.i
    · rw [content, scanContent, if_pos hend, Option.some.injEq] at h
      rw [← h]
      exact Nat.min_le_right _ _
    rcases goes_or_done h (by omega) with ⟨y, -, hlt, hnext⟩ | ⟨hstop, -, -⟩
    · have hle := ih (bytes.length - y.i) (by omega) hnext rfl
      omega
    · rw [hstop]
      exact Nat.min_le_left _ _

/-! ## Delimiters -/

/-- Copies of a byte are found if there are as many of them before the end. -/
lemma byteCopies_spec {i stop : Nat} (h : i ≤ stop) (hle : stop ≤ bytes.length) (n : Nat) (b : UInt8) :
    ∃ copies, byteCopies bytes i stop n b = some copies ∧
      (copies = true ↔ i + n ≤ stop ∧ ∀ k < n, bytes[i + k]? = some b) := by
  refine ⟨_, by rw [byteCopies, byteSlice, if_pos ⟨h, hle⟩]; rfl, ?_⟩
  rw [decide_eq_true_iff]
  constructor
  · intro heq
    have hlength := congrArg List.length heq
    simp only [List.length_take, List.length_drop, List.length_replicate] at hlength
    refine ⟨by omega, fun k hk => ?_⟩
    have hget := congrArg (fun bs => bs[k]?) heq
    simpa [List.getElem?_take, List.getElem?_replicate, hk, show k < stop - i by omega] using hget
  · rintro ⟨hstop, hcopies⟩
    apply List.ext_getElem?
    intro k
    by_cases hk : k < n
    · simp [hk, show k < stop - i by omega, hcopies k hk]
    · simp only [List.getElem?_take, List.getElem?_replicate, if_neg hk]

/-- The closing delimiter of a string stands at an index. -/
def ClosingAt (bytes : List UInt8) (quote : ByteQuote) (i : Nat) : Prop :=
  ∀ k < quote.width, bytes[i + k]? = some quote.byte

lemma length_of_closingAt {quote : ByteQuote} {i : Nat} (h : ClosingAt bytes quote i) :
    i + quote.width ≤ bytes.length := by
  cases quote with
  | single q =>
    have hlast := (List.getElem?_eq_some_iff.mp (h 0 Nat.one_pos)).1
    exact hlast
  | tripled q =>
    have hlast := (List.getElem?_eq_some_iff.mp (h 2 (Nat.lt_succ_self 2))).1
    exact hlast

lemma closingAt_single {q : UInt8} {i : Nat} (h : bytes[i]? = some q) : ClosingAt bytes (.single q) i := by
  intro k hk
  obtain rfl : k = 0 := Nat.lt_one_iff.mp hk
  exact h

lemma goes_opening (hx : x.quote = none) {b : UInt8} (hb : bytes[x.i]? = some b) (hq : IsQuoteByte b) :
    ∃ y quote, x.Goes bytes y ∧ y.quote = some quote ∧ quote.byte = b ∧ y.i = x.i + quote.width ∧
      (quote.isTripled = true ↔ ClosingAt bytes (.tripled b) x.i) := by
  have hlt := (List.getElem?_eq_some_iff.mp hb).1
  have hhash : b ≠ '#'.toUInt8 := by rcases hq with rfl | rfl <;> decide
  have hquote : b = '"'.toUInt8 ∨ b = '\''.toUInt8 := hq
  have hscan : scanByte bytes x.i x.depth x.quote x.row = scanOutside bytes x.i x.depth x.row b := by
    rw [scanByte, hb, hx]
    rfl
  obtain ⟨copies, hcopies, hiff⟩ := byteCopies_spec (Nat.le_of_lt hlt) (Nat.le_refl _) 3 b
  rw [scanOutside, if_neg hhash, if_pos hquote, hcopies, Option.bind_eq_bind, Option.bind_some] at hscan
  cases copies with
  | true =>
    refine ⟨⟨x.i + 3, x.depth, some (.tripled b), x.row⟩, .tripled b, hscan, rfl, rfl, rfl, ?_⟩
    exact ⟨fun _ => (hiff.mp rfl).2, fun _ => rfl⟩
  | false =>
    refine ⟨⟨x.i + 1, x.depth, some (.single b), x.row⟩, .single b, hscan, rfl, rfl, rfl, ?_⟩
    refine ⟨fun h => absurd h Bool.false_ne_true, fun h => ?_⟩
    exact absurd (hiff.mpr ⟨length_of_closingAt h, h⟩) Bool.false_ne_true

section
variable {quote : ByteQuote}

lemma scanByte_inside (hx : x.quote = some quote) {b : UInt8} (hb : bytes[x.i]? = some b) :
    scanByte bytes x.i x.depth x.quote x.row = scanInside bytes x.i x.depth x.row quote b := by
  rw [scanByte, hb, hx]
  rfl

lemma stays_escape (hx : x.quote = some quote) (hb : bytes[x.i]? = some '\\'.toUInt8) :
    ∃ y, x.Stays bytes y ∧ y.i = x.i + 2 := by
  refine ⟨⟨x.i + 2, x.depth, x.quote, if bytes[x.i + 1]? = some '\n'.toUInt8 then x.row + 1 else x.row⟩,
    ⟨?_, rfl⟩, rfl⟩
  rw [Goes, scanByte_inside hx hb, hx]
  unfold scanInside
  rw [if_pos rfl]

lemma endsTripled_spec {i : Nat} {q b : UInt8} (hb : bytes[i]? = some b) :
    ∃ ends, endsTripled bytes i q b = some ends ∧ (ends = true ↔ ClosingAt bytes (.tripled q) i) := by
  have hlt := (List.getElem?_eq_some_iff.mp hb).1
  unfold endsTripled
  split
  · obtain ⟨ends, hends, hiff⟩ := byteCopies_spec (Nat.le_of_lt hlt) (Nat.le_refl _) 3 q
    exact ⟨ends, hends, hiff.trans ⟨fun h => h.2, fun h => ⟨length_of_closingAt h, h⟩⟩⟩
  next hne =>
    refine ⟨false, rfl, fun h => absurd h Bool.false_ne_true, fun h => ?_⟩
    have hfirst := h 0 (Nat.succ_pos 2)
    rw [Nat.add_zero, hb, Option.some.injEq] at hfirst
    exact absurd hfirst hne

lemma goes_closing (hx : x.quote = some quote) (hq : IsQuoteByte quote.byte) (h : ClosingAt bytes quote x.i) :
    ∃ y, x.Goes bytes y ∧ y.quote = none ∧ y.i = x.i + quote.width := by
  have hb : bytes[x.i]? = some quote.byte := h 0 quote.width_pos
  refine ⟨⟨x.i + quote.width, x.depth, none, x.row⟩, ?_, rfl, rfl⟩
  rw [Goes, scanByte_inside hx hb]
  unfold scanInside
  rw [if_neg hq.ne.1]
  cases quote with
  | single q => exact if_pos rfl
  | tripled q =>
    obtain ⟨ends, hends, hiff⟩ := endsTripled_spec (q := q) hb
    dsimp only
    rw [hends, hiff.mpr h]
    rfl

/-- Any other byte of a string is passed over, but for a line feed in one that is not tripled. -/
lemma stays_plain (hx : x.quote = some quote) {b : UInt8} (hb : bytes[x.i]? = some b) (hescape : b ≠ '\\'.toUInt8)
    (hclosing : ¬ClosingAt bytes quote x.i) (hfeed : b = '\n'.toUInt8 → quote.isTripled = true) :
    ∃ y, x.Stays bytes y ∧ y.i = x.i + 1 := by
  cases quote with
  | single q =>
    have hne : b ≠ q := by
      rintro rfl
      exact hclosing (closingAt_single hb)
    refine ⟨⟨x.i + 1, x.depth, x.quote, x.row⟩, ⟨?_, rfl⟩, rfl⟩
    rw [Goes, scanByte_inside hx hb, scanInside, if_neg hescape, hx]
    dsimp only
    rw [if_neg hne, if_neg (fun h => Bool.false_ne_true (hfeed h))]
  | tripled q =>
    refine ⟨⟨x.i + 1, x.depth, x.quote, if b = '\n'.toUInt8 then x.row + 1 else x.row⟩, ⟨?_, rfl⟩, rfl⟩
    obtain ⟨ends, hends, hiff⟩ := endsTripled_spec (q := q) hb
    have hnot : ends = false := Bool.eq_false_iff.mpr (mt hiff.mp hclosing)
    rw [Goes, scanByte_inside hx hb, scanInside, if_neg hescape, hx]
    dsimp only
    rw [hends, hnot]
    by_cases hline : b = '\n'.toUInt8
    · rw [if_pos hline, if_pos hline]
      rfl
    · rw [if_neg hline, if_neg hline]
      rfl

/-! ## Inside a string -/

lemma Inside.stays (h : x.Inside bytes y) (hstays : y.Stays bytes z) : x.Inside bytes z := by
  obtain ⟨hx, w, hgoes, hquote, hrun⟩ := h
  exact ⟨hx, w, hgoes, hquote, hrun.tail hstays⟩

lemma goes_rightUnique : Relator.RightUnique (Goes bytes) := by
  intro a b c hb hc
  obtain ⟨i, depth, quote, row⟩ := b
  obtain ⟨i', depth', quote', row'⟩ := c
  rw [Goes] at hb hc
  rw [hb, Option.some.injEq, ScanStep.go.injEq] at hc
  rw [ScanPlace.mk.injEq]
  exact hc

lemma Inside.unique (hy : x.Inside bytes y) (hz : x.Inside bytes z) (hylast : ∀ w, ¬y.Stays bytes w)
    (hzlast : ∀ w, ¬z.Stays bytes w) : y = z := by
  obtain ⟨-, w, hw, -, hyrun⟩ := hy
  obtain ⟨-, w', hw', -, hzrun⟩ := hz
  obtain rfl := goes_rightUnique hw hw'
  have hstays : Relator.RightUnique (Stays bytes) := fun a b c hb hc => goes_rightUnique hb.1 hc.1
  -- One of the two runs goes on from the end of the other, but a place where the string is left stays nowhere.
  rcases hyrun.total_of_right_unique hstays hzrun with hrun | hrun
  · rcases hrun.cases_head with heq | ⟨w', hstep, -⟩
    · exact heq
    · exact absurd hstep (hylast w')
  · rcases hrun.cases_head with heq | ⟨w', hstep, -⟩
    · exact heq.symm
    · exact absurd hstep (hzlast w')

lemma Inside.quote_ne_none (h : x.Inside bytes y) : y.quote ≠ none := by
  obtain ⟨-, z, -, hz, hrun⟩ := h
  induction hrun with
  | refl => exact Option.isSome_iff_ne_none.mp hz
  | tail _ hstep ih => rwa [hstep.2]

lemma Inside.quote_eq (h : x.Inside bytes y) {b : UInt8} (hb : bytes[x.i]? = some b) (hq : IsQuoteByte b) :
    ∃ quote, y.quote = some quote ∧ quote.byte = b := by
  obtain ⟨hx, z, hgoes, -, hrun⟩ := h
  obtain ⟨w, quote, hw, hquote, hbyte, -⟩ := goes_opening hx hb hq
  obtain rfl := goes_rightUnique hgoes hw
  refine ⟨quote, ?_, hbyte⟩
  induction hrun with
  | refl => exact hquote
  | tail _ hstep ih => exact hstep.2.trans ih

lemma Inside.not_stays_of_goes (h : x.Inside bytes y) (hgoes : y.Goes bytes z) (hz : z.quote = none) (w : ScanPlace) :
    ¬y.Stays bytes w := by
  intro hw
  obtain rfl := goes_rightUnique hgoes hw.1
  exact h.quote_ne_none (hw.2.symm.trans hz)

lemma not_stays_of_feed {q : UInt8} (hy : y.quote = some (.single q)) (hb : bytes[y.i]? = some '\n'.toUInt8)
    (hq : q ≠ '\n'.toUInt8) (w : ScanPlace) : ¬y.Stays bytes w := by
  rintro ⟨hgoes, hw⟩
  rw [Goes, scanByte_inside hy hb] at hgoes
  unfold scanInside at hgoes
  rw [if_neg (by decide)] at hgoes
  dsimp only at hgoes
  rw [if_neg (Ne.symm hq), if_pos rfl] at hgoes
  unfold scanOutside at hgoes
  rw [if_neg (by decide), if_neg (by decide), if_neg (by decide), if_neg (by decide), if_pos rfl] at hgoes
  split at hgoes
  · rw [Option.some.injEq, ScanStep.go.injEq] at hgoes
    rw [← hgoes.2.2.1, hy] at hw
    cases hw
  · cases hgoes

lemma ClosesAt.unique {e e' : Nat} (h : x.ClosesAt bytes e) (h' : x.ClosesAt bytes e') : e = e' := by
  obtain ⟨y, z, hy, -, hgoes, hz, rfl⟩ := h
  obtain ⟨y', z', hy', -, hgoes', hz', rfl⟩ := h'
  obtain rfl := hy.unique hy' (hy.not_stays_of_goes hgoes hz) (hy'.not_stays_of_goes hgoes' hz')
  rw [goes_rightUnique hgoes hgoes']

lemma ClosesAt.not_breaksOff {e : Nat} (h : x.ClosesAt bytes e) {b : UInt8} (hb : bytes[x.i]? = some b)
    (hq : IsQuoteByte b) : ¬x.BreaksOff bytes := by
  obtain ⟨y, z, hy, hbyte, hgoes, hz, -⟩ := h
  rintro ⟨y', hy', hend | ⟨⟨q, hq'⟩, hfeed⟩⟩
  · have hlast (w : ScanPlace) : ¬y'.Stays bytes w := fun hw => absurd hw.1.lt_length (by omega)
    obtain rfl := hy.unique hy' (hy.not_stays_of_goes hgoes hz) hlast
    exact absurd hgoes.lt_length (by omega)
  · obtain ⟨quote, hquote, hquoteByte⟩ := hy'.quote_eq hb hq
    obtain rfl : quote = .single q := Option.some.inj (hquote.symm.trans hq')
    have hne : (ByteQuote.single q).byte ≠ '\n'.toUInt8 := hquoteByte ▸ hq.ne.2.1
    obtain rfl := hy.unique hy' (hy.not_stays_of_goes hgoes hz) (not_stays_of_feed hq' hfeed hne)
    rw [hfeed, hq', Option.map_some, Option.some.injEq] at hbyte
    exact hne hbyte.symm

/-- A string that is open where only white space is left of its line breaks off. -/
lemma breaksOff_of_padding (h : x.Inside bytes y) (hy : y.quote = some quote) (hq : IsQuoteByte quote.byte)
    (hcontent : y.content bytes = some r)
    (hpadding : ∀ k b, y.i ≤ k → k < r.1 → bytes[k]? = some b → IsPaddingByte b) : x.BreaksOff bytes := by
  -- White space is no delimiter and no escape, so the loop passes it and is still inside the string.
  induction hn : r.1 - y.i using Nat.strong_induction_on generalizing y with
  | _ n ih =>
    by_cases hend : bytes.length ≤ y.i
    · exact ⟨y, h, Or.inl hend⟩
    rcases goes_or_done hcontent (by omega) with ⟨w, -, hlt, hnext⟩ | ⟨-, hfeed, htripled⟩
    · have hle := le_of_content hnext
      obtain ⟨b, hb⟩ : ∃ b, bytes[y.i]? = some b := ⟨_, List.getElem?_eq_getElem (by omega)⟩
      have hpad := hpadding y.i b (Nat.le_refl _) (by omega) hb
      have hclosing : ¬ClosingAt bytes quote y.i := by
        intro hclosing
        have hfirst := hclosing 0 quote.width_pos
        rw [Nat.add_zero, hb, Option.some.injEq] at hfirst
        exact hpad.ne.2.2 (hfirst ▸ hq)
      obtain ⟨z, hz, hzi⟩ := stays_plain hy hb hpad.ne.1 hclosing (fun hfeed => absurd hfeed hpad.ne.2.1)
      refine ih (r.1 - z.i) (by omega) (h.stays hz) (hz.2.trans hy) (hz.1.content hcontent).2 ?_ rfl
      exact fun k c hk => hpadding k c (by omega)
    · -- no byte leads on from here, so the line ends here
      cases quote with
      | single q => exact ⟨y, h, Or.inr ⟨⟨q, hy⟩, hfeed⟩⟩
      | tripled q => exact absurd hy (htripled q)

end

end

end ScanPlace

/-! ## The content of a line -/

section
variable {bytes : List UInt8}

lemma trimPadding_spec {start stop stop' : Nat} (h : trimPadding bytes start stop = some stop') :
    stop' ≤ stop ∧ ∀ k b, stop' ≤ k → k < stop → bytes[k]? = some b → IsPaddingByte b := by
  -- Each turn takes one byte off, and looks at it before.
  induction stop using Nat.strong_induction_on generalizing stop' with
  | _ stop ih =>
    rw [trimPadding] at h
    split at h
    next hlt =>
      rw [checkedSub, if_pos (by omega)] at h
      simp only [Option.bind_eq_bind, Option.bind_some, Option.bind_eq_some_iff] at h
      obtain ⟨b, hb, h⟩ := h
      split at h
      next hpadding =>
        rw [if_pos (by omega)] at h
        obtain ⟨hle, hall⟩ := ih (stop - 1) (by omega) h
        refine ⟨by omega, fun k c hk hkstop hc => ?_⟩
        by_cases hlast : k = stop - 1
        · rw [hlast, hb, Option.some.injEq] at hc
          exact hc ▸ hpadding
        · exact hall k c hk (by omega) hc
      next =>
        obtain rfl := Option.some.inj h
        exact ⟨Nat.le_refl _, fun k c hk hkstop => by omega⟩
    next =>
      obtain rfl := Option.some.inj h
      exact ⟨Nat.le_refl _, fun k c hk hkstop => by omega⟩

lemma scanLine_spec {pos row last : Nat} {l : ByteLine} (h : scanLine bytes pos row = some (l, last)) :
    ∃ r, (ScanPlace.first l).content bytes = some r ∧ l.stop ≤ r.1 ∧
      ∀ k b, l.stop ≤ k → k < r.1 → bytes[k]? = some b → IsPaddingByte b := by
  simp only [scanLine, Option.bind_eq_bind, Option.bind_eq_some_iff, Option.pure_def, Option.some.injEq,
    Prod.mk.injEq, Prod.exists] at h
  obtain ⟨start, indent, -, contentEnd, lineEnd, row', hcontent, stop, htrim, kind, -, rfl, -⟩ := h
  exact ⟨_, hcontent, trimPadding_spec htrim⟩

lemma scanLine_of_mem {pos row : Nat} {lines : List ByteLine} {l : ByteLine}
    (h : scanLines bytes pos row = some lines) (hl : l ∈ lines) :
    ∃ pos row last, scanLine bytes pos row = some (l, last) := by
  induction lines generalizing pos row with
  | nil => exact absurd hl List.not_mem_nil
  | cons l' lines ih =>
    rw [scanLines] at h
    split at h
    · simp only [Option.bind_eq_bind, Option.bind_eq_some_iff, Prod.exists] at h
      obtain ⟨line, row', hline, h⟩ := h
      split at h
      · simp only [Option.bind_eq_some_iff, Option.pure_def, Option.some.injEq, List.cons.injEq] at h
        obtain ⟨more, hmore, rfl, rfl⟩ := h
        rcases List.mem_cons.mp hl with rfl | hl
        · exact ⟨pos, row, row', hline⟩
        · exact ih hmore hl
      · cases h
    · cases h

end

end RenpyScript
