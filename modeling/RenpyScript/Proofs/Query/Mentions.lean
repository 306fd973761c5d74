import Mathlib.Data.List.GetD
import RenpyScript.Proofs.Query.Region

/-!
# Names of captures in the text of a query

An at sign in the code of a query stands in front of the name of a capture. Between a hash sign and the parenthesis that
closes its predicate it refers to a capture, and elsewhere it defines one. What a reader passes over is told by the
captures it reads: their names are those in the text, in the same order.
-/

namespace RenpyScript.Query

/-- A place in the text of a query. -/
structure Spot where
  region : Region
  /-- Behind the hash sign of a predicate, which is not closed yet. -/
  predicate : Bool
  /-- Behind an at sign and characters of names at most. -/
  naming : Bool
deriving DecidableEq, Repr

namespace Spot

/-- The place where a text begins. -/
def start : Spot :=
  ⟨.code, false, false⟩

/-- The place behind a character. -/
def next (c : Char) (p : Spot) : Spot :=
  if p.region = .code then ⟨p.region.next c, c = '#' || p.predicate && c ≠ ')', c = '@' || p.naming && isNameChar c⟩
  else ⟨p.region.next c, p.predicate, false⟩

/-- The place behind a text. -/
def after (p : Spot) (cs : List Char) : Spot :=
  cs.foldl (fun p c => p.next c) p

/-- The names behind at signs in a text that begins at the place, each with whether it stands in a predicate. -/
def mentions (p : Spot) : List Char → List (Bool × String)
  | [] => []
  | c :: cs =>
    if p.region = .code ∧ c = '@' then (p.predicate, String.ofList (cs.takeWhile isNameChar)) :: (p.next c).mentions cs
    else (p.next c).mentions cs

variable {p : Spot} {c : Char} {cs ds : List Char}

@[simp] lemma after_nil : p.after [] = p :=
  rfl

@[simp] lemma after_cons : p.after (c :: cs) = (p.next c).after cs :=
  rfl

@[simp] lemma after_append : p.after (cs ++ ds) = (p.after cs).after ds :=
  List.foldl_append

lemma mentions_cons_of_ne (hc : c ≠ '@') : p.mentions (c :: cs) = (p.next c).mentions cs := by
  rw [mentions, if_neg fun h => hc h.2]

section
variable (hp : p.region = .code)
include hp

lemma next_code (c : Char) :
    p.next c = ⟨Region.code.next c, c = '#' || p.predicate && c ≠ ')', c = '@' || p.naming && isNameChar c⟩ := by
  rw [next, if_pos hp, hp]

lemma next_of_isNameChar (hc : isNameChar c = true) : p.next c = p := by
  have hne {d : Char} (hd : isNameChar d = false) : c ≠ d := by
    rintro rfl
    exact Bool.false_ne_true (hd.symm.trans hc)
  have hregion := Region.next_code (hne (d := ';') rfl) (hne (d := '"') rfl)
  obtain ⟨region, predicate, naming⟩ := p
  obtain rfl : region = .code := hp
  simp [next_code, hregion, hc, hne (d := '#') rfl, hne (d := ')') rfl, hne (d := '@') rfl]

lemma after_name (hcs : ∀ c ∈ cs, isNameChar c = true) : p.after cs = p := by
  induction cs with
  | nil => rfl
  | cons c cs ih =>
    obtain ⟨hc, hcs⟩ := List.forall_mem_cons.mp hcs
    rw [after_cons, next_of_isNameChar hp hc, ih hcs]

lemma mentions_name (hcs : ∀ c ∈ cs, isNameChar c = true) : p.mentions cs = [] := by
  induction cs with
  | nil => rfl
  | cons c cs ih =>
    obtain ⟨hc, hcs⟩ := List.forall_mem_cons.mp hcs
    have hat : c ≠ '@' := by
      rintro rfl
      exact absurd hc (by decide)
    rw [mentions_cons_of_ne hat, next_of_isNameChar hp hc, ih hcs]

lemma takeWhile_append_of_naming (hnaming : p.naming = true)
    (h : (p.after cs).naming = true → ∀ c ∈ ds.head?, isNameChar c = false) :
    (cs ++ ds).takeWhile isNameChar = cs.takeWhile isNameChar := by
  induction cs with
  | nil =>
    cases ds with
    | nil => rfl
    | cons d ds => exact List.takeWhile_cons_of_neg (by simpa using h hnaming)
  | cons c cs ih =>
    by_cases hc : isNameChar c = true
    · rw [after_cons, next_of_isNameChar hp hc] at h
      rw [List.cons_append, List.takeWhile_cons_of_pos hc, List.takeWhile_cons_of_pos hc, ih h]
    · rw [List.cons_append, List.takeWhile_cons_of_neg hc, List.takeWhile_cons_of_neg hc]

end

lemma mentions_append (h : (p.after cs).naming = true → ∀ c ∈ ds.head?, isNameChar c = false) :
    p.mentions (cs ++ ds) = p.mentions cs ++ (p.after cs).mentions ds := by
  induction cs generalizing p with
  | nil => rfl
  | cons c cs ih =>
    rw [List.cons_append, mentions, mentions, ih h]
    split
    · next hat =>
      have hcode : (p.next c).region = .code ∧ (p.next c).naming = true := by
        rw [next_code hat.1, hat.2]
        exact ⟨rfl, rfl⟩
      rw [takeWhile_append_of_naming hcode.1 hcode.2 h]
      rfl
    · rfl

/-- Trivia from the place on hold no names, and behind them lies code, where no name has begun. -/
def SkipsTrivia (p : Spot) (comment : Bool) (cs : List Char) : Prop :=
  ∃ passed, cs = passed ++ skipTrivia comment cs ∧ p.mentions passed = [] ∧
    (skipTrivia comment cs ≠ [] → (p.after passed).region = .code ∧ (p.after passed).predicate = p.predicate ∧
      ((p.after passed).naming = true → passed = []))

lemma SkipsTrivia.cons {comment more : Bool} (h : (p.next c).SkipsTrivia more cs)
    (hskip : skipTrivia comment (c :: cs) = skipTrivia more cs) (hat : p.region = .code → c ≠ '@')
    (hnext : p.next c = ⟨Region.trivia more, p.predicate, false⟩) : p.SkipsTrivia comment (c :: cs) := by
  obtain ⟨passed, hcs, hmentions, hbehind⟩ := h
  refine ⟨c :: passed, ?_, ?_, fun hne => ?_⟩
  · rw [hskip, List.cons_append, ← hcs]
  · rw [mentions, if_neg fun h => hat h.1 h.2, hmentions]
  · obtain ⟨hregion, hpredicate, hnaming⟩ := hbehind (hskip ▸ hne)
    refine ⟨hregion, hpredicate.trans (by rw [hnext]), fun htrue => ?_⟩
    obtain rfl := hnaming htrue
    rw [after_cons, hnext] at htrue
    cases htrue

lemma skipsTrivia {comment : Bool} (hp : p.region = Region.trivia comment) (cs : List Char) :
    p.SkipsTrivia comment cs := by
  induction cs generalizing p comment with
  | nil => exact ⟨[], rfl, rfl, fun h => absurd rfl h⟩
  | cons c cs ih =>
    have hpassed (more : Bool) (hskip : skipTrivia comment (c :: cs) = skipTrivia more cs) (hat : p.region = .code → c ≠ '@')
        (hnext : p.next c = ⟨Region.trivia more, p.predicate, false⟩) : p.SkipsTrivia comment (c :: cs) :=
      .cons (ih (by rw [hnext])) hskip hat hnext
    cases comment with
    | true =>
      have hcomment : p.region = .comment := hp
      have hnot : p.region ≠ .code := by
        rw [hcomment]
        exact Region.noConfusion
      refine hpassed (c ≠ '\n') (by rw [skipTrivia, if_pos rfl]) (fun h => absurd h hnot) ?_
      rw [next, if_neg hnot, hcomment]
      by_cases hc : c = '\n' <;> simp [Region.trivia, Region.next, hc]
    | false =>
      have hcode : p.region = .code := hp
      by_cases hspace : isWhiteSpace c = true
      · have hne {d : Char} (hd : isWhiteSpace d = false) : c ≠ d := by
          rintro rfl
          exact Bool.false_ne_true (hd.symm.trans hspace)
        refine hpassed false (by rw [skipTrivia, if_neg Bool.false_ne_true, if_pos hspace]) (fun _ => hne (d := '@') rfl) ?_
        rw [next_code hcode, Region.next_code (hne (d := ';') rfl) (hne (d := '"') rfl)]
        simp [hne (d := '#') rfl, hne (d := ')') rfl, hne (d := '@') rfl, isNameChar_of_isWhiteSpace hspace, Region.trivia]
      by_cases hsemicolon : c = ';'
      · subst hsemicolon
        refine hpassed true rfl (fun _ => by decide) ?_
        rw [next_code hcode]
        simp [Region.next, Region.trivia, show isNameChar ';' = false from rfl]
      · have hstop : skipTrivia false (c :: cs) = c :: cs := by
          rw [skipTrivia, if_neg Bool.false_ne_true, if_neg hspace, if_neg hsemicolon]
        exact ⟨[], hstop.symm, rfl, fun _ => ⟨hcode, rfl, fun _ => rfl⟩⟩

def inString (predicate : Bool) : Spot :=
  ⟨.string, predicate, false⟩

lemma next_quote (hp : p.region = .code) : p.next '"' = inString p.predicate := by
  rw [next_code hp]
  simp [Region.next, inString, show isNameChar '"' = false from rfl]

/-- Strings hold no names, and behind them lies code. -/
lemma exists_of_splitString (predicate : Bool) {value rest : List Char} (h : splitString cs = some (value, rest)) :
    ∃ passed, cs = passed ++ rest ∧ (inString predicate).mentions passed = [] ∧
      (inString predicate).after passed = ⟨.code, predicate, false⟩ := by
  fun_induction splitString cs generalizing value with
  | case1 => cases h
  | case2 cs =>
    obtain ⟨-, rfl⟩ := Prod.mk.inj (Option.some.inj h)
    exact ⟨['"'], rfl, rfl, rfl⟩
  | case3 => cases h
  | case4 c cs ih =>
    obtain ⟨⟨value', rest'⟩, hsplit, heq⟩ := Option.map_eq_some_iff.mp h
    obtain ⟨-, rfl⟩ := Prod.mk.inj heq
    obtain ⟨passed, rfl, hmentions, hafter⟩ := ih hsplit
    exact ⟨'\\' :: c :: passed, rfl, hmentions, hafter⟩
  | case5 c cs hquote hlast hescape ih =>
    obtain ⟨⟨value', rest'⟩, hsplit, heq⟩ := Option.map_eq_some_iff.mp h
    obtain ⟨-, rfl⟩ := Prod.mk.inj heq
    have hbackslash : c ≠ '\\' := by
      rintro rfl
      cases cs with
      | nil => exact hlast rfl rfl
      | cons d cs => exact hescape d cs rfl rfl
    obtain ⟨passed, rfl, hmentions, hafter⟩ := ih hsplit
    have hnext : (inString predicate).next c = inString predicate := by
      rw [next, if_neg Region.noConfusion, inString, Region.next, if_neg hbackslash, if_neg hquote]
    refine ⟨c :: passed, rfl, ?_, ?_⟩
    · rw [mentions, if_neg fun h => Region.noConfusion h.1, hnext, hmentions]
    · rw [after_cons, hnext, hafter]

/-- A reader may stop at the place, with the given text behind it: in code, inside of a predicate or not, and not in a
name. -/
def Boundary (inside : Bool) (rest : List Char) (p : Spot) : Prop :=
  rest ≠ [] → p.region = .code ∧ p.predicate = inside ∧ (p.naming = true → ∀ c ∈ rest.head?, isNameChar c = false)

lemma Boundary.head? {inside : Bool} (h : p.Boundary inside (cs ++ ds)) (hnaming : p.naming = true) :
    ∀ c ∈ cs.head?, isNameChar c = false := by
  intro c hc
  obtain ⟨cs, rfl⟩ := List.head?_eq_some_iff.mp hc
  exact (h (List.cons_ne_nil _ _)).2.2 hnaming c rfl

end Spot

/-! ## What is passed over -/

variable [RegexEngine]

/-- From `s` to `t` the captures `used` have been read, each with whether it is in a predicate. Their names are those in
the text between. -/
structure Passes (inside inside' : Bool) (s : Reading) (used : List (Bool × Nat)) (t : Reading) : Prop where
  names : s.names <+: t.names
  used_lt : ∀ m ∈ used, m.2 < t.names.length
  text : ∀ p : Spot, p.Boundary inside s.rest → ∃ passed, s.rest = passed ++ t.rest ∧
    (p.after passed).Boundary inside' t.rest ∧ p.mentions passed = used.map fun m => (m.1, t.names.getD m.2 "")
  /-- The predicates that have been added begin in that text and refer to captures among those. -/
  predicates : ∃ more, t.predicates = s.predicates ++ more ∧ ∀ q ∈ more, q.2 <:+ s.rest ∧ t.rest.length < q.2.length ∧
    ∀ i ∈ q.1.captures, (true, i) ∈ used

namespace Passes
variable {inside inside' inside'' : Bool} {s t u : Reading} {used used' : List (Bool × Nat)} {c : Char} {cs : List Char}

lemma refl (s : Reading) : Passes inside inside s [] s :=
  ⟨List.prefix_refl _, by simp, fun p hp => ⟨[], rfl, hp, rfl⟩, [], by simp, by simp⟩

lemma rest (h : Passes inside inside' s used t) : t.rest <:+ s.rest := by
  obtain ⟨passed, hs, -⟩ :=
    h.text ⟨.code, inside, false⟩ fun _ => ⟨rfl, rfl, fun hnaming => absurd hnaming Bool.false_ne_true⟩
  exact ⟨passed, hs.symm⟩

lemma trans (h : Passes inside inside' s used t) (h' : Passes inside' inside'' t used' u) :
    Passes inside inside'' s (used ++ used') u := by
  have hlength := h'.names.length_le
  obtain ⟨more, hmore, hcaptures⟩ := h.predicates
  obtain ⟨more', hmore', hcaptures'⟩ := h'.predicates
  refine ⟨h.names.trans h'.names, ?_, fun p hp => ?_, more ++ more', by rw [hmore', hmore, List.append_assoc], ?_⟩
  · rw [List.forall_mem_append]
    exact ⟨fun m hm => (h.used_lt m hm).trans_le hlength, h'.used_lt⟩
  · obtain ⟨passed, hs, hboundary, hmentions⟩ := h.text p hp
    obtain ⟨passed', ht, hboundary', hmentions'⟩ := h'.text _ hboundary
    refine ⟨passed ++ passed', by rw [hs, ht, List.append_assoc], by rwa [Spot.after_append], ?_⟩
    rw [Spot.mentions_append (ht ▸ hboundary).head?, hmentions, hmentions', List.map_append]
    congr 1
    refine List.map_congr_left fun m hm => ?_
    obtain ⟨names, hnames⟩ := h'.names
    rw [← hnames, List.getD_append _ _ _ _ (h.used_lt m hm)]
  · rw [List.forall_mem_append]
    refine ⟨fun q hq => ?_, fun q hq => ?_⟩
    · obtain ⟨hbegin, hlt, hq⟩ := hcaptures q hq
      exact ⟨hbegin, h'.rest.length_le.trans_lt hlt, fun i hi => List.mem_append_left _ (hq i hi)⟩
    · obtain ⟨hbegin, hlt, hq⟩ := hcaptures' q hq
      exact ⟨hbegin.trans h.rest, hlt, fun i hi => List.mem_append_right _ (hq i hi)⟩

lemma forward (h : ∀ p : Spot, p.Boundary inside s.rest → ∃ passed, s.rest = passed ++ cs ∧
    (p.after passed).Boundary inside' cs ∧ p.mentions passed = []) : Passes inside inside' s [] (s.withRest cs) :=
  ⟨List.prefix_refl _, by simp, h, [], by simp [Reading.withRest], by simp⟩

lemma skip (s : Reading) : Passes inside inside s [] (s.withRest (skipTrivia false s.rest)) := by
  refine forward fun p hp => ?_
  by_cases hnil : s.rest = []
  · rw [hnil]
    exact ⟨[], rfl, fun h => absurd rfl h, rfl⟩
  · obtain ⟨hcode, hpredicate, hname⟩ := hp hnil
    have htrivia : p.region = Region.trivia false := hcode
    obtain ⟨passed, hs, hmentions, hbehind⟩ := Spot.skipsTrivia htrivia s.rest
    refine ⟨passed, hs, fun hne => ?_, hmentions⟩
    obtain ⟨hregion, hpredicate', hnaming⟩ := hbehind hne
    refine ⟨hregion, hpredicate'.trans hpredicate, fun htrue => ?_⟩
    obtain rfl := hnaming htrue
    rw [List.nil_append] at hs
    exact hs ▸ hname htrue

lemma char (hrest : s.rest = c :: cs) (hsemicolon : c ≠ ';') (hquote : c ≠ '"') (hat : c ≠ '@')
    (hinside : inside' = (c = '#' || inside && c ≠ ')')) : Passes inside inside' s [] (s.withRest cs) := by
  refine forward fun p hp => ⟨[c], hrest, fun _ => ?_, ?_⟩
  · obtain ⟨hcode, hpredicate, hname⟩ := hp (by simp [hrest])
    rw [Spot.after_cons, Spot.after_nil, Spot.next_code hcode, Region.next_code hsemicolon hquote, hpredicate]
    refine ⟨rfl, hinside.symm, fun hnaming => ?_⟩
    simp only [decide_eq_false hat, Bool.false_or, Bool.and_eq_true] at hnaming
    exact absurd (hname hnaming.1 c (by simp [hrest])) (by simp [hnaming.2])
  · rw [Spot.mentions_cons_of_ne hat]
    rfl

lemma name (s : Reading) : Passes inside inside s [] (s.withRest (s.rest.dropWhile isNameChar)) := by
  have hchars : ∀ c ∈ s.rest.takeWhile isNameChar, isNameChar c = true := fun _ hc => List.mem_takeWhile_imp hc
  refine forward fun p hp => ⟨s.rest.takeWhile isNameChar, List.takeWhile_append_dropWhile.symm, fun hne => ?_, ?_⟩
  · obtain ⟨hcode, hpredicate, -⟩ := hp fun hnil => hne (by rw [hnil]; rfl)
    rw [Spot.after_name hcode hchars]
    refine ⟨hcode, hpredicate, fun _ c hc => ?_⟩
    have hhead := List.head?_dropWhile_not isNameChar s.rest
    rw [Option.mem_def.mp hc] at hhead
    simpa using hhead
  · by_cases hnil : s.rest = []
    · rw [hnil]
      rfl
    · exact Spot.mentions_name (hp hnil).1 hchars

lemma string {value rest : List Char} (hrest : s.rest = '"' :: cs) (hsplit : splitString cs = some (value, rest)) :
    Passes inside inside s [] (s.withRest rest) := by
  refine forward fun p hp => ?_
  obtain ⟨hcode, hpredicate, -⟩ := hp (by simp [hrest])
  obtain ⟨passed, rfl, hmentions, hafter⟩ := Spot.exists_of_splitString p.predicate hsplit
  refine ⟨'"' :: passed, by rw [hrest, List.cons_append], fun _ => ?_, ?_⟩
  · rw [Spot.after_cons, Spot.next_quote hcode, hafter]
    exact ⟨rfl, hpredicate, fun h => absurd h Bool.false_ne_true⟩
  · rw [Spot.mentions_cons_of_ne (by decide), Spot.next_quote hcode, hmentions]

lemma blank (s : Reading) : Passes inside inside s [] (s.withRest (s.rest.dropWhile isWhiteSpace)) := by
  generalize hrest : s.rest = cs
  induction cs generalizing s with
  | nil =>
    have hs : s.withRest [] = s := by rw [← hrest]; rfl
    exact hs.symm ▸ refl s
  | cons c cs ih =>
    by_cases hc : isWhiteSpace c = true
    · have hne {d : Char} (hd : isWhiteSpace d = false) : c ≠ d := by
        rintro rfl
        exact Bool.false_ne_true (hd.symm.trans hc)
      have hchar : Passes inside inside s [] (s.withRest cs) :=
        char hrest (hne rfl) (hne rfl) (hne rfl) (by simp [hne (d := '#') rfl, hne (d := ')') rfl])
      rw [List.dropWhile_cons_of_pos hc]
      exact hchar.trans (ih (s.withRest cs) rfl)
    · rw [List.dropWhile_cons_of_neg hc]
      have hs : s.withRest (c :: cs) = s := by rw [← hrest]; rfl
      exact hs.symm ▸ refl s

lemma opens (hrest : s.rest = c :: cs) (hopens : opensPredicate (c :: cs) = true) :
    Passes false true s [] (s.withRest ((cs.dropWhile isWhiteSpace).drop 1)) := by
  unfold opensPredicate at hopens
  split at hopens
  · next heq =>
    obtain ⟨rfl, rfl⟩ := List.cons.inj heq
    obtain ⟨ds, hds⟩ := List.head?_eq_some_iff.mp (of_decide_eq_true hopens)
    have hparen : Passes false false s [] (s.withRest cs) := char hrest (by decide) (by decide) (by decide) rfl
    have hhash : Passes false true (s.withRest (cs.dropWhile isWhiteSpace)) [] (s.withRest ds) :=
      char (s := s.withRest (cs.dropWhile isWhiteSpace)) hds (by decide) (by decide) (by decide) rfl
    rw [hds, List.drop_succ_cons, List.drop_zero]
    exact (hparen.trans (blank (s.withRest cs))).trans hhash
  · cases hopens

lemma mention {i : Nat} (hrest : s.rest = '@' :: cs) (ht : t.rest = cs.dropWhile isNameChar) (hnames : s.names <+: t.names)
    (hi : t.names[i]? = some (String.ofList (cs.takeWhile isNameChar))) (hpredicates : t.predicates = s.predicates) :
    Passes inside inside s [(inside, i)] t := by
  have hlt : i < t.names.length := (List.getElem?_eq_some_iff.mp hi).1
  have hchars : ∀ c ∈ cs.takeWhile isNameChar, isNameChar c = true := fun _ hc => List.mem_takeWhile_imp hc
  refine ⟨hnames, by simpa using hlt, fun p hp => ?_, [], by simp [hpredicates], by simp⟩
  obtain ⟨hcode, rfl, -⟩ := hp (by simp [hrest])
  have hnext : p.next '@' = ⟨.code, p.predicate, true⟩ := by
    rw [Spot.next_code hcode]
    simp [Region.next]
  refine ⟨'@' :: cs.takeWhile isNameChar, ?_, fun hne => ?_, ?_⟩
  · rw [hrest, ht, List.cons_append, List.takeWhile_append_dropWhile]
  · rw [Spot.after_cons, hnext, Spot.after_name rfl hchars, ht]
    refine ⟨rfl, rfl, fun _ c hc => ?_⟩
    have hhead := List.head?_dropWhile_not isNameChar cs
    rw [Option.mem_def.mp hc] at hhead
    simpa using hhead
  · rw [Spot.mentions, if_pos ⟨hcode, rfl⟩, hnext, Spot.mentions_name rfl hchars, List.takeWhile_eq_self_iff.mpr hchars]
    simp [hi]

end Passes

/-! ## What stops a reader -/

/-- If the reader stops because of a capture, this is one that a predicate refers to while its name is not known; neither
is it in the table at `s`, nor does a capture in the text in between define it. -/
def Accounts (inside : Bool) (s : Reading) (e : Flaw) : Prop :=
  (∀ n, e.fault ≠ .foreignCapture n) ∧ ∀ n, e.fault = .unknownCapture n →
    n = String.ofList (e.rest.takeWhile isNameChar) ∧ n ∉ s.names ∧
      ∀ p : Spot, p.Boundary inside s.rest → ∃ passed, s.rest = passed ++ '@' :: e.rest ∧
        (p.after passed).region = .code ∧ (p.after passed).predicate = true ∧ (false, n) ∉ p.mentions passed

section
variable {inside inside' : Bool} {s t : Reading} {used : List (Bool × Nat)} {e : Flaw}

lemma accounts_of_kind (h : e.fault.kind ≠ .capture) : Accounts inside s e :=
  ⟨fun n hn => h (by rw [hn]; rfl), fun n hn => absurd (by rw [hn]; rfl) h⟩

lemma Accounts.after (hpass : Passes inside inside' s used t) (h : Accounts inside' t e) : Accounts inside s e := by
  refine ⟨h.1, fun n hn => ?_⟩
  obtain ⟨hname, hunknown, htext⟩ := h.2 n hn
  refine ⟨hname, fun hmem => hunknown (hpass.names.subset hmem), fun p hp => ?_⟩
  obtain ⟨passed, hs, hboundary, hmentions⟩ := hpass.text p hp
  obtain ⟨passed', ht, hregion, hpredicate, hdefines⟩ := htext _ hboundary
  refine ⟨passed ++ passed', by rw [hs, ht, List.append_assoc], by rwa [Spot.after_append], by rwa [Spot.after_append], ?_⟩
  rw [Spot.mentions_append (ht ▸ hboundary).head?, List.mem_append, hmentions]
  rintro (hbefore | hbehind)
  · obtain ⟨m, hm, heq⟩ := List.mem_map.mp hbefore
    refine hunknown ?_
    rw [← (Prod.mk.inj heq).2, List.getD_eq_getElem _ _ (hpass.used_lt m hm)]
    exact List.getElem_mem _
  · exact hdefines hbehind

end

namespace Read
variable {α β : Type} {x y : Read α} {f : α → Read β} {s t : Reading} {Q Q' : α → Reading → Prop} {R : β → Reading → Prop}
  {inside inside' : Bool} {used : List (Bool × Nat)} {c : Char} {cs : List Char}

/-- If a step from `s` on succeeds, `Q` holds of what it yields; if it stops, it accounts for this. -/
def Tells (inside : Bool) (x : Read α) (s : Reading) (Q : α → Reading → Prop) : Prop :=
  match x.run s with
  | .ok (a, t) => Q a t
  | .error e => Accounts inside s e

lemma tells_pure {a : α} (h : Q a s) : Tells inside (pure a) s Q :=
  h

lemma tells_modify {g : Reading → Reading} {Q : PUnit → Reading → Prop} (h : Q ⟨⟩ (g s)) : Tells inside (modify g) s Q :=
  h

lemma tells_throw {e : Flaw} (h : e.fault.kind ≠ .capture) : Tells inside (throw e) s Q :=
  accounts_of_kind h

lemma tells_fail {fault : QueryFault} (h : fault.kind ≠ .capture) : Tells inside (fail fault) s Q :=
  accounts_of_kind h

lemma tells_failing {fault : QueryFault} (h : fault.kind ≠ .capture) : Tells inside (fail fault >>= f) s R :=
  accounts_of_kind h

lemma tells_of_error {e : Flaw} (hrun : x.run s = .error e) (h : Accounts inside s e) : Tells inside x s Q := by
  rw [Tells, hrun]
  exact h

lemma Tells.imp (h : Tells inside x s Q) (hQ : ∀ a t, Q a t → Q' a t) : Tells inside x s Q' := by
  rw [Tells] at h ⊢
  split at h
  · exact hQ _ _ h
  · exact h

lemma Tells.after (hpass : Passes inside inside' s used t) (hrun : y.run s = x.run t) (h : Tells inside' x t Q) :
    Tells inside y s Q := by
  rw [Tells] at h ⊢
  rw [hrun]
  split at h
  · exact h
  · exact Accounts.after hpass h

lemma Tells.bind (h : Tells inside x s Q)
    (hf : ∀ a t, Q a t → ∃ inside' used, Passes inside inside' s used t ∧ Tells inside' (f a) t R) :
    Tells inside (x >>= f) s R := by
  rw [Tells] at h
  split at h
  · next a t hrun =>
    obtain ⟨inside', used, hpass, ht⟩ := hf a t h
    refine Tells.after hpass ?_ ht
    rw [run_bind, hrun]
  · next e hrun =>
    rw [Tells, run_bind, hrun]
    exact h

lemma Tells.next {f : List Char → Read β}
    (h : Tells inside (f (skipTrivia false s.rest)) (s.withRest (skipTrivia false s.rest)) R) :
    Tells inside (Read.next >>= f) s R :=
  Tells.after (.skip s) rfl h

lemma Tells.get {f : Reading → Read β} (h : Tells inside (f s) s R) : Tells inside (MonadState.get >>= f) s R :=
  h

lemma Tells.moveTo {f : Unit → Read β} (hpass : Passes inside inside' s [] (s.withRest cs))
    (h : Tells inside' (f ()) (s.withRest cs) R) : Tells inside (Read.moveTo cs >>= f) s R :=
  Tells.after hpass rfl h

lemma Tells.name {f : String → Read β}
    (h : Tells inside (f (String.ofList (s.rest.takeWhile isNameChar))) (s.withRest (s.rest.dropWhile isNameChar)) R) :
    Tells inside (Read.name >>= f) s R :=
  Tells.after (.name s) rfl h

lemma Tells.string {f : String → Read β} (hrest : s.rest = '"' :: cs)
    (h : ∀ value rest, splitString cs = some (value, rest) → Tells inside (f (String.ofList value)) (s.withRest rest) R) :
    Tells inside (Read.string cs >>= f) s R := by
  cases hsplit : splitString cs with
  | none =>
    have hthrow : Read.string cs = throw ⟨.unterminatedString, '"' :: cs⟩ := by rw [Read.string, hsplit]
    rw [hthrow]
    exact accounts_of_kind (e := ⟨.unterminatedString, '"' :: cs⟩) QueryErrorKind.noConfusion
  | some r =>
    obtain ⟨value, rest⟩ := r
    refine Tells.after (.string hrest hsplit) ?_ (h value rest hsplit)
    rw [Read.string, hsplit]
    rfl

end Read

end RenpyScript.Query
