import Mathlib.Data.List.Forall2
import RenpyScript.Proofs.Layout.Returns
import RenpyScript.Proofs.Line.Shift

/-!
# Tokens and strings with carriage returns

A token takes the same of a text whether there are carriage returns in front of its line feeds or not. A
token that goes on over line feeds takes the carriage returns along, and so does a comment in front of one.
-/

namespace RenpyScript

open Node

/-- The nodes have the same shapes, apart from the texts of leaves. -/
abbrev SameKinds (ns ns' : List Node) : Prop :=
  SameShapes [] [] ns ns'

section
variable {ns ns' : List Node}

lemma leafText_nil (span : Span) (children : List Node) : leafText [] span children = [] := by
  have hslice : (slice [] span).getD [] = [] := by
    obtain ⟨start, stop⟩ := span
    unfold slice
    cases start with
    | zero => cases stop <;> rfl
    | succ start => simp [dropBytes]
  rw [leafText, hslice, ite_self]

lemma sameKinds_leaf (kind : Kind) (span span' : Span) : SameKinds [.leaf kind span] [.leaf kind span'] := by
  have hshape : (leaf kind span').shape [] = (leaf kind span).shape [] := by
    rw [shape_eq, shape_eq, leafText_nil, leafText_nil]
    rfl
  rw [SameKinds, SameShapes, List.map_singleton, List.map_singleton, hshape]

lemma sameKinds_of_forall₂ (h : List.Forall₂ (fun n n' => SameKinds [n] [n']) ns ns') : SameKinds ns ns' := by
  induction h with
  | nil => rfl
  | cons hn _ ih => exact SameShapes.append hn ih

end

/-! ## Shapes of tokens -/

/-- What the shape takes of a text has no line feeds in it, and does not depend on what follows. -/
def Inline (length : List Char → Nat) : Prop :=
  ∀ cs cs', Returned cs cs' → length cs' = length cs ∧ '\n' ∉ cs.take (length cs)

section
variable {cs cs' : List Char} {p : Char → Bool}

lemma takeWhile_inline (hfeed : p '\n' = false) (hreturn : p '\r' = false) :
    Inline fun cs => (cs.takeWhile p).length := by
  intro cs cs' h
  dsimp only
  rw [h.takeWhile_eq hfeed hreturn, take_length_takeWhile]
  refine ⟨rfl, ?_⟩
  intro hmem
  rw [List.mem_takeWhile_imp hmem] at hfeed
  exact Bool.false_ne_true hfeed.symm

lemma Inline.append {length length' : List Char → Nat} (h : Inline length) (h' : Inline length') :
    Inline fun cs => length cs + length' (cs.drop (length cs)) := by
  intro cs cs' hr
  obtain ⟨hlength, hfeed⟩ := h cs cs' hr
  obtain ⟨-, hdrop⟩ := hr.of_take hfeed
  obtain ⟨hlength', hfeed'⟩ := h' _ _ hdrop
  dsimp only
  rw [hlength, hlength']
  refine ⟨rfl, ?_⟩
  rw [List.take_add, List.mem_append, not_or]
  exact ⟨hfeed, hfeed'⟩

lemma beginsName_eq (h : Returned cs cs') : beginsName cs' = beginsName cs := by
  cases h with
  | nil => rfl
  | cons c rest => rfl
  | feed rest => rfl

lemma inline_nameLength : Inline nameLength := by
  intro cs cs' h
  obtain ⟨hlength, hfeed⟩ := takeWhile_inline (p := isNamePart) (by decide) (by decide) cs cs' h
  unfold nameLength
  rw [beginsName_eq h]
  split
  · exact ⟨hlength, hfeed⟩
  · exact ⟨rfl, by simp⟩

lemma inline_dottedTailLength : Inline dottedTailLength := by
  intro cs cs' h
  induction h with
  | nil => exact ⟨rfl, by simp [dottedTailLength]⟩
  | @cons c cs cs' rest ih =>
    rw [dottedTailLength, dottedTailLength, beginsName_eq rest]
    split
    · next hc =>
      have hne : '\n' ≠ c := by
        rintro rfl
        simp [isNamePart] at hc
      exact ⟨by rw [ih.1], by simpa [hne] using ih.2⟩
    · exact ⟨rfl, by simp⟩
  | feed rest ih => simp [dottedTailLength, isNamePart]

lemma inline_dottedNameLength : Inline dottedNameLength := by
  intro cs cs' h
  unfold dottedNameLength
  rw [beginsName_eq h]
  split
  · exact inline_dottedTailLength cs cs' h
  · exact ⟨rfl, by simp⟩

lemma inline_digitsLength : Inline digitsLength :=
  takeWhile_inline (by decide) (by decide)

lemma inline_fractionLength : Inline fractionLength := by
  intro cs cs' h
  cases h with
  | nil => exact ⟨rfl, by simp [fractionLength]⟩
  | @cons c cs cs' rest =>
    by_cases hdot : c = '.'
    · subst hdot
      obtain ⟨hlength, hfeed⟩ := inline_digitsLength cs cs' rest
      rw [fractionLength, fractionLength, hlength]
      split
      · exact ⟨rfl, by simp⟩
      · exact ⟨rfl, by simpa using hfeed⟩
    · simp [fractionLength, hdot]
  | feed rest => simp [fractionLength]

lemma inline_signLength : Inline signLength := by
  intro cs cs' h
  cases h with
  | nil => exact ⟨rfl, by simp [signLength]⟩
  | @cons c cs cs' rest =>
    by_cases hplus : c = '+'
    · simp [hplus, signLength]
    · by_cases hminus : c = '-'
      · simp [hminus, signLength]
      · simp [signLength, hplus, hminus]
  | feed rest => simp [signLength]

lemma inline_numberLength : Inline numberLength := by
  intro cs cs' h
  obtain ⟨hwhole, hfeed⟩ := (inline_signLength.append inline_digitsLength) cs cs' h
  obtain ⟨hall, hfeeds⟩ := ((inline_signLength.append inline_digitsLength).append inline_fractionLength) cs cs' h
  have hsign := (inline_signLength cs cs' h).1
  dsimp only at hwhole
  rw [hsign, Nat.add_left_cancel_iff] at hwhole
  unfold numberLength
  dsimp only at hall hfeeds ⊢
  rw [hsign, hwhole] at hall ⊢
  split
  · exact ⟨rfl, by simp⟩
  · exact ⟨hall, hfeeds⟩

lemma inline_charLength {c : Char} (hfeed : c ≠ '\n') (hreturn : c ≠ '\r') : Inline (charLength c) := by
  intro cs cs' h
  unfold charLength
  have hhead := h.head?_eq_some_iff hfeed hreturn
  by_cases hc : cs.head? = some c
  · rw [if_pos hc, if_pos (hhead.mpr hc)]
    obtain ⟨cs, rfl⟩ := List.head?_eq_some_iff.mp hc
    exact ⟨rfl, by simpa using Ne.symm hfeed⟩
  · rw [if_neg hc, if_neg (mt hhead.mp hc)]
    exact ⟨rfl, by simp⟩

end

/-! ## Longer stretches -/

/-- Two beginnings of two texts, and what follows them, differ in carriage returns only. -/
structure Returned.Cut (n n' : Nat) (cs cs' : List Char) : Prop where
  taken : Returned (cs.take n) (cs'.take n')
  left : Returned (cs.drop n) (cs'.drop n')

namespace Returned.Cut
variable {n n' : Nat} {cs cs' : List Char}

lemma zero (h : Returned cs cs') : Cut 0 0 cs cs' :=
  ⟨.nil, h⟩

lemma cons (c : Char) (h : Cut n n' cs cs') : Cut (n + 1) (n' + 1) (c :: cs) (c :: cs') :=
  ⟨h.taken.cons c, h.left⟩

lemma feed (h : Cut n n' cs cs') : Cut (n + 1) (n' + 1 + 1) ('\n' :: cs) ('\r' :: '\n' :: cs') :=
  ⟨h.taken.feed, h.left⟩

end Returned.Cut

section
variable {cs cs' : List Char}

lemma expressionLength_code (c : Char) (cs : List Char) : expressionLength none (c :: cs) =
    if c = '#' then 0 else expressionLength (if isQuote c then some c else none) cs + 1 := by
  cases cs with
  | nil => simp [expressionLength]
  | cons d cs => rw [expressionLength]

lemma expressionLength_quoted {q c : Char} (hc : c ≠ '\\') (cs : List Char) :
    expressionLength (some q) (c :: cs) = expressionLength (if c = q then none else some q) cs + 1 := by
  cases cs with
  | nil => simp [expressionLength]
  | cons d cs => simp [expressionLength, hc]

lemma expressionLength_cut {quote : Option Char} (hquote : ∀ q, quote = some q → isQuote q = true)
    (h : Returned cs cs') (hfeeds : FeedsUnescaped cs) :
    Returned.Cut (expressionLength quote cs) (expressionLength quote cs') cs cs' := by
  induction hn : cs.length using Nat.strong_induction_on generalizing quote cs cs' with
  | _ n ih =>
    cases h with
    | nil => exact .zero .nil
    | @cons c cs cs' rest =>
      have hlt : cs.length < n := by rw [← hn, List.length_cons]; omega
      cases quote with
      | none =>
        rw [expressionLength_code, expressionLength_code]
        split
        · exact .zero (.cons c rest)
        · refine .cons c (ih _ hlt (fun q hq => ?_) rest hfeeds.tail rfl)
          split at hq
          · next hc => exact Option.some.inj hq ▸ hc
          · simp at hq
      | some q =>
        by_cases hc : c = '\\'
        · subst hc
          cases rest with
          | nil => exact .cons '\\' (.zero .nil)
          | @cons e cs cs' rest =>
            have hlt : cs.length < n := by rw [List.length_cons] at hlt; omega
            simp only [expressionLength, if_true]
            exact .cons '\\' (.cons e (ih _ hlt hquote rest hfeeds.tail.tail rfl))
          | feed rest => exact absurd rfl hfeeds.ne_feed
        · rw [expressionLength_quoted hc, expressionLength_quoted hc]
          refine .cons c (ih _ hlt (fun r hr => ?_) rest hfeeds.tail rfl)
          split at hr
          · simp at hr
          · exact hquote r hr
    | @feed cs cs' rest =>
      have hlt : cs.length < n := by rw [← hn, List.length_cons]; omega
      have hcut := ih _ hlt hquote rest hfeeds.tail rfl
      cases quote with
      | none =>
        have hstep : expressionLength none ('\r' :: '\n' :: cs') = expressionLength none ('\n' :: cs') + 1 :=
          expressionLength_code '\r' _
        rw [hstep, expressionLength_code, expressionLength_code]
        exact hcut.feed
      | some q =>
        have hq := hquote q rfl
        have hfeed : ¬ '\n' = q := Ne.symm (LineScan.isQuote_ne hq)
        have hreturn : ¬ '\r' = q := Ne.symm (LineScan.isQuote_ne_return hq)
        rw [expressionLength_quoted (by decide), if_neg hfeed, expressionLength_quoted (by decide), if_neg hreturn,
          expressionLength_quoted (by decide), if_neg hfeed]
        exact hcut.feed

lemma pythonRunLength_cut (inSingle : Bool) (h : Returned cs cs') :
    Returned.Cut (pythonRunLength inSingle cs) (pythonRunLength inSingle cs') cs cs' := by
  induction h generalizing inSingle with
  | nil => exact .zero .nil
  | @cons c cs cs' rest ih =>
    rw [pythonRunLength, pythonRunLength]
    split
    · exact .zero (.cons c rest)
    · exact .cons c (ih _)
  | feed rest ih => exact (ih false).feed

lemma takeWhile_comment (h : Returned cs cs') :
    ∃ spaces, cs'.takeWhile (· ≠ '\n') = cs.takeWhile (· ≠ '\n') ++ spaces ∧ OnlyGap (· = '\r') spaces ∧
      Returned (cs.dropWhile (· ≠ '\n')) (cs'.dropWhile (· ≠ '\n')) := by
  induction h with
  | nil => exact ⟨[], rfl, .nil, .nil⟩
  | @cons c cs cs' rest ih =>
    by_cases hc : c = '\n'
    · subst hc
      exact ⟨[], rfl, .nil, .cons '\n' rest⟩
    · obtain ⟨spaces, htake, hspaces, hdrop⟩ := ih
      refine ⟨spaces, ?_, hspaces, ?_⟩
      · rw [List.takeWhile_cons_of_pos (by simpa using hc), List.takeWhile_cons_of_pos (by simpa using hc), htake]
        rfl
      · rwa [List.dropWhile_cons_of_pos (by simpa using hc), List.dropWhile_cons_of_pos (by simpa using hc)]
  | feed rest ih => exact ⟨['\r'], rfl, by simp [OnlyGap], .cons '\n' rest⟩

end

/-! ## Strings -/

namespace StringBody
variable {d : Delimiter} {cs cs' : List Char}

/-- Characters that an interpolation may begin with. -/
def isInterpolation (c : Char) : Prop :=
  c = '[' ∨ c = '\x7b'

lemma read_escape (d : Delimiter) (pos : Nat) (e : Char) (cs : List Char) : read d pos ('\\' :: e :: cs) =
    if isEscapable e then (read d (pos + 2) cs).behindEscape .escapeSequence pos
    else (read d (pos + '\\'.utf8Size + e.utf8Size) cs).behind 2 := by
  rw [read, if_pos rfl]

lemma read_double {c : Char} (hc : isInterpolation c) (d : Delimiter) (pos : Nat) (cs : List Char) :
    read d pos (c :: c :: cs) = (read d (pos + 2) cs).behindEscape .escapeInterpolation pos := by
  rcases hc with rfl | rfl
  · simp [read]
  · simp [read]

lemma read_single {c : Char} (hescape : c = '\\' → cs = []) (hdouble : isInterpolation c → cs.head? ≠ some c)
    (d : Delimiter) (pos : Nat) : read d pos (c :: cs) =
      if d.closes (c :: cs) then ⟨[], 0, true⟩
      else if c = '\n' && !d.tripled then ⟨[], 0, false⟩
      else (read d (pos + c.utf8Size) cs).behind 1 := by
  cases cs with
  | nil => simp [read, behind]
  | cons e cs =>
    have hne : c ≠ '\\' := fun hc => by simpa using hescape hc
    have hsingle : ((c = '[' || c = '\x7b') && e = c) = false := by
      rw [Bool.eq_false_iff]
      intro h
      simp only [Bool.and_eq_true, Bool.or_eq_true, decide_eq_true_eq] at h
      exact hdouble h.1 (by rw [h.2]; rfl)
    rw [read, if_neg hne, hsingle, if_neg Bool.false_ne_true]

lemma closes_of_closed (d : Delimiter) (pos : Nat) (cs : List Char) (h : (read d pos cs).closed = true) :
    d.closes (cs.drop (read d pos cs).length) = true := by
  fun_induction read d pos cs with
  | case1 | case3 | case4 => simp at h
  | case2 pos c hd => exact hd
  | case5 pos e cs he ih => exact ih h
  | case6 pos e cs he ih => exact ih h
  | case7 pos c e cs hc hdouble ih => exact ih h
  | case8 pos c e cs hc hdouble hd => exact hd
  | case9 => simp at h
  | case10 pos c e cs hc hdouble hd hn ih => exact ih h

/-- Two string bodies with escapes of the same kinds; what follows them differs in carriage returns only. -/
structure Alike (cs cs' : List Char) (b b' : StringBody) : Prop where
  escapes : SameKinds b.escapes b'.escapes
  closed : b'.closed = b.closed
  left : Returned (cs.drop b.length) (cs'.drop b'.length)

lemma Alike.behind {b b' : StringBody} (passed passed' : List Char) (h : Alike cs cs' b b') :
    Alike (passed ++ cs) (passed' ++ cs') (b.behind passed.length) (b'.behind passed'.length) := by
  refine ⟨h.escapes, h.closed, ?_⟩
  have hleft := h.left
  simp only [StringBody.behind, Nat.add_comm _ (List.length _)]
  rwa [List.drop_length_add_append, List.drop_length_add_append]

lemma Alike.behindEscape {b b' : StringBody} (kind : Kind) (c e : Char) (pos pos' : Nat) (h : Alike cs cs' b b') :
    Alike (c :: e :: cs) (c :: e :: cs') (b.behindEscape kind pos) (b'.behindEscape kind pos') :=
  ⟨(sameKinds_leaf kind _ _).append h.escapes, h.closed, h.left⟩

lemma closes_eq (hd : isQuote d.quote = true) (h : Returned cs cs') : d.closes cs' = d.closes cs :=
  h.beginsWithCopies_eq (LineScan.isQuote_ne hd) (LineScan.isQuote_ne_return hd) d.length

lemma not_closes {c : Char} (hc : c ≠ d.quote) (cs : List Char) : d.closes (c :: cs) = false := by
  have hlength : ∃ k, d.length = k + 1 := by
    unfold Delimiter.length
    split
    · exact ⟨2, rfl⟩
    · exact ⟨0, rfl⟩
  obtain ⟨k, hk⟩ := hlength
  simp [Delimiter.closes, beginsWithCopies, hk, List.replicate_succ, hc]

theorem read_alike (hd : isQuote d.quote = true) (h : Returned cs cs') (hfeeds : FeedsUnescaped cs) (pos pos' : Nat) :
    Alike cs cs' (read d pos cs) (read d pos' cs') := by
  induction hn : cs.length using Nat.strong_induction_on generalizing cs cs' pos pos' with
  | _ n ih =>
    cases h with
    | nil => exact ⟨rfl, rfl, .nil⟩
    | @cons c cs cs' rest =>
      have hlt : cs.length < n := by rw [← hn, List.length_cons]; omega
      by_cases hescape : c = '\\' → cs = []
      · by_cases hdouble : isInterpolation c → cs.head? ≠ some c
        · have hescape' : c = '\\' → cs' = [] := fun hc => rest.eq_nil_iff.mpr (hescape hc)
          have hdouble' : isInterpolation c → cs'.head? ≠ some c := by
            intro hc
            rw [Ne, rest.head?_eq_some_iff (by rcases hc with rfl | rfl <;> decide)
              (by rcases hc with rfl | rfl <;> decide)]
            exact hdouble hc
          rw [read_single hescape hdouble, read_single hescape' hdouble', closes_eq hd (.cons c rest)]
          split
          · exact ⟨rfl, rfl, .cons c rest⟩
          split
          · exact ⟨rfl, rfl, .cons c rest⟩
          · exact (ih _ hlt rest hfeeds.tail _ _ rfl).behind [c] [c]
        · simp only [not_forall, not_not] at hdouble
          obtain ⟨hc, hhead⟩ := hdouble
          obtain ⟨cs, rfl⟩ := List.head?_eq_some_iff.mp hhead
          have hfeed : c ≠ '\n' := by rcases hc with rfl | rfl <;> decide
          cases rest with
          | cons c rest =>
            rw [read_double hc, read_double hc]
            have hlt : cs.length < n := by rw [List.length_cons] at hlt; omega
            exact (ih _ hlt rest hfeeds.tail.tail _ _ rfl).behindEscape .escapeInterpolation c c pos pos'
          | feed rest => exact absurd rfl hfeed
      · simp only [not_forall] at hescape
        obtain ⟨rfl, hne⟩ := hescape
        cases rest with
        | nil => exact absurd rfl hne
        | @cons e cs cs' rest =>
          have hlt : cs.length < n := by rw [List.length_cons] at hlt; omega
          rw [read_escape, read_escape]
          split
          · exact (ih _ hlt rest hfeeds.tail.tail _ _ rfl).behindEscape .escapeSequence '\\' e pos pos'
          · exact (ih _ hlt rest hfeeds.tail.tail _ _ rfl).behind ['\\', e] ['\\', e]
        | feed rest => exact absurd rfl hfeeds.ne_feed
    | @feed cs cs' rest =>
      have hlt : cs.length < n := by rw [← hn, List.length_cons]; omega
      have hfeed : '\n' ≠ d.quote := Ne.symm (LineScan.isQuote_ne hd)
      have hreturn : '\r' ≠ d.quote := Ne.symm (LineScan.isQuote_ne_return hd)
      rw [read_single (by simp) (by simp [isInterpolation]), read_single (by simp) (by simp [isInterpolation]),
        read_single (by simp) (by simp [isInterpolation]), not_closes hfeed, not_closes hreturn, not_closes hfeed]
      -- A string that is not tripled breaks off in front of the line feed, behind the carriage return.
      cases htripled : d.tripled with
      | false => exact ⟨rfl, rfl, .cons '\n' rest⟩
      | true => exact (ih _ hlt rest hfeeds.tail _ _ rfl).behind ['\n'] ['\r', '\n']

end StringBody

end RenpyScript
