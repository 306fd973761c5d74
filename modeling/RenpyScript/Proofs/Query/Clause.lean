import RenpyScript.Parser
import RenpyScript.Proofs.Query.Negation
import RenpyScript.Proofs.Query.Trivia

/-!
# Queries with a predicate, with its negation and without it

In the text of a query `not-` may be put in front of the name of a predicate, or the predicate may be left out. The three
queries compile alike. They differ by one predicate of one pattern, so their matches are related as those of the pattern
with the predicate, with its negation and without it.
-/

namespace RenpyScript

namespace Query

/-- The text of a predicate. -/
def predicateText (blanks : List Char) (name : String) (arguments : List Char) : List Char :=
  '(' :: (blanks ++ '#' :: (name.toList ++ (arguments ++ [')'])))

/-- A text that ends in code, with no closing parenthesis in its code. -/
def Unclosed (cs : List Char) : Prop :=
  InCode cs ∧ ∀ v w, cs = v ++ ')' :: w → ¬InCode v

lemma insertIdx_length_append {α : Type} (as bs : List α) (a : α) :
    (as ++ bs).insertIdx as.length a = as ++ a :: bs := by
  induction as with
  | nil => rfl
  | cons b as ih => rw [List.cons_append, List.length_cons, List.insertIdx_succ_cons, ih, List.cons_append]

section
variable {blanks arguments behind : List Char} {name : String} {v w : List Char}

lemma predicateText_append : predicateText blanks name arguments ++ behind =
    '(' :: (blanks ++ '#' :: (name.toList ++ (arguments ++ ')' :: behind))) := by
  simp [predicateText]

lemma Unclosed.of_append (h : Unclosed (v ++ w)) (hv : InCode v) : Unclosed w := by
  refine ⟨hv.append_iff.mp h.1, fun x y hw hx => h.2 (v ++ x) y ?_ (hv.append_iff.mpr hx)⟩
  rw [hw, List.append_assoc]

lemma head?_arguments (h : ∀ c ∈ arguments.head?, isNameChar c = false) :
    ∀ c ∈ (arguments ++ ')' :: behind).head?, !isNameChar c := by
  cases arguments with
  | nil =>
    rintro c ⟨⟩
    decide
  | cons c cs => simpa using h

end

variable [RegexEngine]

/-- A predicate is made of its name and of the arguments at the beginning of a text. -/
def Written (name : String) (text : List Char) (p : Predicate) : Prop :=
  ∃ (fuel : Nat) (s t : Reading) (operands : List Operand), s.rest = text ∧
    (Read.arguments fuel).run s = .ok (operands, t) ∧ Predicate.ofArguments name operands = .ok p

section
variable {blanks arguments behind : List Char} {name : String} {s : Reading}

/-- Arguments are read up to the first closing parenthesis. -/
lemma ensures_arguments_closed (fuel : Nat) (h : Unclosed arguments) (hs : s.rest = arguments ++ ')' :: behind) :
    (Read.arguments fuel).Ensures s fun _ t => t = s.withRest behind := by
  induction fuel generalizing arguments s with
  | zero => exact Read.ensures_fail _
  | succ fuel ih =>
    have hmore (a : Operand) {v w : List Char} (hv : Unclosed (v ++ w)) (hin : InCode v) :
        (do return a :: (← Read.arguments fuel) : Read _).Ensures (s.withRest (w ++ ')' :: behind)) fun _ t =>
          t = s.withRest behind :=
      (ih (hv.of_append hin) rfl).bind fun _ _ ht => Read.ensures_pure ht
    have hcode : (Region.trivia false).after arguments = .code := h.1
    obtain ⟨passed, w, rfl, hpassed, hskip⟩ := skipTrivia_of_inCode hcode
    rw [Read.arguments]
    refine Read.Ensures.next ?_
    rw [hs, hskip]
    cases w with
    | nil =>
      exact Read.Ensures.moveTo (Read.ensures_pure rfl)
    | cons ch w =>
      have hclose : ch ≠ ')' := by
        rintro rfl
        exact h.2 passed w rfl hpassed
      -- A name behind the text `v` ends in front of the parenthesis.
      have hname (a : Operand) {v w : List Char} (hv : Unclosed (v ++ w)) (hin : InCode v) :
          (do return a :: (← Read.arguments fuel) : Read _).Ensures
            (s.withRest ((w ++ ')' :: behind).dropWhile isNameChar)) fun _ t => t = s.withRest behind := by
        rw [(span_name_append (by decide) w behind).2]
        refine hmore a (v := v ++ w.takeWhile isNameChar) ?_ (hin.append_iff.mpr (inCode_takeWhile_name w))
        rwa [List.append_assoc, List.takeWhile_append_dropWhile]
      rw [if_neg (List.cons_ne_nil ch w), List.cons_append]
      dsimp only
      split
      · next heq => exact absurd heq hclose
      split
      · next hat =>
        have hin : InCode (passed ++ [ch]) :=
          InCode.append_iff hpassed |>.mpr ((inCode_cons (by simp [hat]) (by simp [hat])).mpr inCode_nil)
        refine Read.Ensures.moveTo (Read.Ensures.name (Read.Ensures.get ?_))
        split
        · exact hname _ (v := passed ++ [ch]) (by simpa using h) hin
        · exact Read.ensures_throw _
      split
      · next hquote =>
        subst hquote
        refine Read.Ensures.string fun value rest hsplit => ?_
        have hstring : Region.string.after w = .code := (InCode.append_iff hpassed).mp h.1
        obtain ⟨value', v, w, rfl, hv, hsplit'⟩ := splitString_of_inCode hstring
        obtain ⟨-, rfl⟩ := Prod.mk.inj (Option.some.inj (hsplit.symm.trans (hsplit' _)))
        exact hmore _ (v := passed ++ '"' :: v) (by simpa using h) (InCode.append_iff hpassed |>.mpr hv)
      split
      · exact Read.Ensures.name (hname _ h hpassed)
      · exact Read.ensures_fail _

variable (hname : name ∈ Predicate.comparisonNames) (hblanks : Blank blanks) (harguments : Unclosed arguments)
  (hhead : ∀ c ∈ arguments.head?, isNameChar c = false)
include hname hblanks hhead

lemma exists_of_run_predicate {u : Reading} (h : (Read.predicate (predicateText blanks name arguments ++ behind)).run s =
    .ok ((), u)) : ∃ operands cs p,
      (Read.arguments (predicateText blanks name arguments ++ behind).length).run (s.withRest (arguments ++ ')' :: behind)) =
        .ok (operands, s.withRest cs) ∧ Predicate.ofArguments name operands = .ok p ∧
      u = { s with rest := cs, predicates := s.predicates ++ [(p, predicateText blanks name arguments ++ behind)] } := by
  obtain ⟨⟨hchars, hlast⟩, -⟩ := Predicate.plain_of_mem_comparisonNames hname
  rw [predicateText_append, Read.run_predicate hblanks hchars (head?_arguments hhead)] at h
  obtain ⟨operands, v, p, hoperands, hp, rfl⟩ := Read.exists_of_run_predicateNamed hlast h
  obtain ⟨cs, rfl, -⟩ := Read.ensures_arguments _ _ operands v hoperands
  rw [predicateText_append]
  exact ⟨operands, cs, p, hoperands, hp, rfl⟩

include harguments in
lemma clause_predicateText (behind : List Char) :
    Clause (predicateText blanks name arguments) behind (Written name (arguments ++ ')' :: behind)) := by
  refine ⟨⟨blanks, _, rfl, hblanks⟩, fun {s u} hrun => ?_⟩
  obtain ⟨operands, cs, p, hoperands, hp, rfl⟩ := exists_of_run_predicate hname hblanks hhead hrun
  obtain rfl : cs = behind := congrArg Reading.rest (ensures_arguments_closed _ harguments rfl operands _ hoperands)
  exact ⟨p, ⟨_, _, _, operands, rfl, hoperands, hp⟩, rfl⟩

/-- A predicate with a longer name is read where the other one is, if it is made of the same arguments. -/
lemma turned_predicateText {name' : String} {turn : Predicate → Predicate} (behind : List Char)
    (hplain : Predicate.Plain name') (hlength : name.toList.length ≤ name'.toList.length)
    (hturn : ∀ operands, Predicate.ofArguments name' operands = (Predicate.ofArguments name operands).map turn)
    (hcaptures : ∀ p, (turn p).captures = p.captures) :
    Turned (predicateText blanks name arguments) (predicateText blanks name' arguments) behind turn := by
  refine ⟨⟨blanks, _, rfl, hblanks⟩, hcaptures, fun {s t p} hnames hrun => ?_⟩
  obtain ⟨operands, cs, q, hoperands, hq, hu⟩ := exists_of_run_predicate hname hblanks hhead hrun
  obtain rfl : behind = cs := congrArg Reading.rest hu
  obtain rfl : p = q := by simpa using congrArg Reading.predicates hu
  have hle : (predicateText blanks name arguments ++ behind).length ≤
      ('(' :: (blanks ++ '#' :: (name'.toList ++ (arguments ++ ')' :: behind)))).length := by
    rw [predicateText_append]
    simpa using hlength
  rw [predicateText_append, Read.run_predicate hblanks hplain.1 (head?_arguments hhead)]
  exact Read.run_predicateNamed_of_le (s := s.withRest _) (t := t.withRest _) hplain.2 rfl hnames.symm hoperands
    (by rw [hturn, hq]; rfl) hle

end

/-! ## Three queries at once -/

/-- Patterns around a place among the predicates of one of them. -/
structure Context where
  front : List QueryPattern
  root : Pattern
  before : List Predicate
  after : List Predicate
  behind : List QueryPattern

def Context.fill (k : Context) (ps : List Predicate) : List QueryPattern :=
  k.front ++ ⟨k.root, k.before ++ ps ++ k.after, 0⟩ :: k.behind

lemma Context.fill_singleton (k : Context) (c : Predicate) :
    k.fill [c] = (k.fill []).modify k.front.length (QueryPattern.insertPredicate k.before.length c) := by
  rw [fill, fill, List.modify_eq_take_cons_drop (by simp)]
  simp [QueryPattern.insertPredicate, insertIdx_length_append]

namespace Seam
variable {A B c : Seam} {stage stage' : Stage} {s t t' : Reading} {source source' source'' : List Char}

def trivial : Seam :=
  ⟨[], [' '], [' '], [], fun _ => True, fun p => [p], inCode_nil,
    .trivia (.blank (by decide) .nil) (.blank (by decide) .nil) (by decide) (by decide) fun _ _ => Iff.rfl⟩

lemma yield_congr {fuel fuel' : Nat} (hrest : s.rest = t.rest) (hnames : s.names = t.names) (hs : s.rest.length < fuel)
    (ht : t.rest.length < fuel') :
    Read.yield ((Read.queryPatterns source fuel).run s) = Read.yield ((Read.queryPatterns source' fuel').run t) := by
  have hslot : ¬trivial.Slotted := nofun
  have hst : trivial.Alike .past s.cleared t.cleared := ⟨hrest, hnames, .inl ⟨hslot, rfl⟩⟩
  exact yield_queryPatterns hslot hst hs ht

lemma Alike.head (hst : c.Alike stage s.cleared t.cleared) (hslot : c.Slotted) (hstage : stage ≠ .past) :
    ∃ stage' ≠ .past, c.SameHead stage' (skipTrivia false s.rest) (skipTrivia false t.rest) ∧
      c.Alike stage' (s.cleared.withRest (skipTrivia false s.rest)) (t.cleared.withRest (skipTrivia false t.rest)) := by
  obtain ⟨stage', hleads, hhead⟩ := hst.rest.skipTrivia
  refine ⟨stage', fun hpast => ?_, hhead, hst.move hleads hhead.same⟩
  exact (hleads.resolve_left fun h => hstage h.1).2 hpast hslot

lemma Alike.skipTrivia_ne_nil (hst : c.Alike stage s.cleared t.cleared) (hslot : c.Slotted) (hstage : stage ≠ .past) :
    skipTrivia false s.rest ≠ [] := by
  obtain ⟨stage', hstage', hhead, -⟩ := hst.head hslot hstage
  have hle := hhead.same.length_le hstage'
  obtain ⟨d, ds, hgap, -⟩ := c.exists_gap_cons
  rw [hgap, List.cons_append, List.length_cons] at hle
  exact List.ne_nil_of_length_pos (Nat.lt_of_lt_of_le (Nat.succ_pos _) hle)

lemma Agrees.exists_of_run {α : Type} {V : α → α → Prop} {x y : Read α} {a : α} {s' : Reading} (h : c.Agrees V x s y t)
    (hx : x.run s = .ok (a, s')) : ∃ b t', y.run t = .ok (b, t') ∧ V a b ∧ ∃ stage, c.Alike stage s' t' := by
  rw [Agrees, hx] at h
  cases hy : y.run t with
  | error e =>
    rw [hy] at h
    exact h.elim
  | ok r =>
    rw [hy] at h
    exact ⟨r.1, r.2, rfl, h⟩

lemma Alike.exists_run_queryPattern {p : QueryPattern} {u : Reading} (hst : c.Alike stage s.cleared t.cleared)
    (hslot : c.Slotted) (hstage : stage ≠ .past)
    (hp : (Read.queryPattern source).run (s.withRest (skipTrivia false s.rest)) = .ok (p, u)) (source' : List Char) :
    skipTrivia false t.rest ≠ [] ∧ ∃ p' u' stage', c.Alike stage' u u' ∧ p.root = p'.root ∧
      (Read.queryPattern source').run (t.withRest (skipTrivia false t.rest)) = .ok (p', u') := by
  obtain ⟨stage', hstage', hhead, hst'⟩ := hst.head hslot hstage
  generalize skipTrivia false s.rest = cs at *
  generalize skipTrivia false t.rest = cs' at *
  cases hhead with
  | nil => exact absurd rfl hstage'
  | there h =>
    obtain ⟨w, rfl, hhash⟩ := hst'.exists_cons
    exact (fails_queryPattern rfl hhash source p u hp).elim
  | cons hbehind =>
    obtain ⟨p', u', hp', hroot, stage'', huu'⟩ := (agrees_queryPattern hst' hbehind source source').exists_of_run hp
    exact ⟨List.cons_ne_nil _ _, p', u', stage'', huu', hroot, hp'⟩

lemma SamePredicates.past_iff {ps ps' ps'' : List (Predicate × List Char)} (hA : A.SamePredicates stage ps ps')
    (hB : B.SamePredicates stage' ps ps'') (hAB : A.gap ++ A.behind = B.gap ++ B.behind) (hslot : A.Slotted)
    (hslot' : B.Slotted) : stage = .past ↔ stage' = .past := by
  have hfirst {c c' : Seam} {stage stage' : Stage} {qs qs' : List (Predicate × List Char)} (hc : c.SamePredicates stage ps qs)
      (hc' : c'.SamePredicates stage' ps qs') (htext : c.gap ++ c.behind = c'.gap ++ c'.behind) (hslot : c.Slotted)
      (hpast : stage = .past) : stage' = .past := by
    subst hpast
    obtain ⟨-, -, before, p, after, -, hps, -⟩ := hc.resolve_left fun h => h.1 hslot
    have hmem : (p, c.gap ++ c.behind) ∈ ps := by simp [hps]
    cases stage' with
    | ahead | there => exact absurd (hc'.2 _ hmem) (by rw [htext]; exact Nat.lt_irrefl _)
    | past => rfl
  exact ⟨hfirst hA hB hAB hslot, hfirst hB hA hAB.symm hslot'⟩

lemma Read.yield_succ {fuel : Nat} {p : QueryPattern} {u : Reading} (h : skipTrivia false s.rest ≠ [])
    (hp : (Read.queryPattern source).run (s.withRest (skipTrivia false s.rest)) = .ok (p, u)) :
    Read.yield ((Read.queryPatterns source (fuel + 1)).run s) =
      (Read.yield ((Read.queryPatterns source fuel).run u)).map fun q => { q with patterns := p.unplaced :: q.patterns } := by
  rw [Read.run_queryPatterns_of_ne_nil fuel h, hp]
  exact Read.yield_cons p _

lemma Read.exists_of_yield_succ {fuel : Nat} {q : Query} (h : skipTrivia false s.rest ≠ [])
    (hq : Read.yield ((Read.queryPatterns source (fuel + 1)).run s) = .ok q) : ∃ p u q',
      (Read.queryPattern source).run (s.withRest (skipTrivia false s.rest)) = .ok (p, u) ∧
      Read.yield ((Read.queryPatterns source fuel).run u) = .ok q' ∧
      q = { q' with patterns := p.unplaced :: q'.patterns } := by
  cases hp : (Read.queryPattern source).run (s.withRest (skipTrivia false s.rest)) with
  | error e =>
    rw [Read.run_queryPatterns_of_ne_nil fuel h, hp] at hq
    cases hq
  | ok r =>
    obtain ⟨p, u⟩ := r
    rw [yield_succ h hp] at hq
    cases hmore : Read.yield ((Read.queryPatterns source fuel).run u) with
    | error e =>
      rw [hmore] at hq
      cases hq
    | ok q' =>
      rw [hmore] at hq
      exact ⟨p, u, q', rfl, hmore, (Except.ok.inj hq).symm⟩

lemma append_cons_inj {start : List Char} {before before' after after' : List (Predicate × List Char)} {c c' : Predicate}
    (hbefore : ∀ q ∈ before, q.2 ≠ start) (hbefore' : ∀ q ∈ before', q.2 ≠ start)
    (h : before ++ (c, start) :: after = before' ++ (c', start) :: after') : before = before' ∧ c = c' ∧ after = after' := by
  have htake {before after : List (Predicate × List Char)} {c : Predicate} (hbefore : ∀ q ∈ before, q.2 ≠ start) :
      (before ++ (c, start) :: after).takeWhile (·.2 ≠ start) = before := by
    rw [List.takeWhile_append_of_pos (by simpa using hbefore), List.takeWhile_cons_of_neg (by simp), List.append_nil]
  obtain rfl : before = before' := (htake hbefore).symm.trans ((congrArg _ h).trans (htake hbefore'))
  obtain ⟨hc, rfl⟩ := List.cons.inj (List.append_cancel_left h)
  exact ⟨rfl, (Prod.mk.inj hc).1, rfl⟩

/-- Behind two seams at which the first query has the same predicate, what is kept of it stands between the same
predicates. -/
lemma SamePredicates.exists_slot {ps ps' ps'' : List (Predicate × List Char)} (hA : A.SamePredicates .past ps ps')
    (hB : B.SamePredicates .past ps ps'') (hgap : A.gap ++ A.behind = B.gap ++ B.behind) (hslot : A.Slotted)
    (hslot' : B.Slotted) : ∃ (before : List Predicate) (c : Predicate) (after : List Predicate),
      A.Made c ∧ Detached A.behind ∧ ps.map (·.1) = before ++ [c] ++ after ∧
      ps'.map (·.1) = before ++ A.kept c ++ after ∧ ps''.map (·.1) = before ++ B.kept c ++ after := by
  obtain ⟨-, hdetached, before, c, after, hc, hpsA, hbeforeA, hkeptA⟩ := hA.resolve_left fun h => h.1 hslot
  obtain ⟨-, -, before', c', after', -, hpsB, hbeforeB, hkeptB⟩ := hB.resolve_left fun h => h.1 hslot'
  rw [← hgap] at hpsB hbeforeB
  obtain ⟨rfl, rfl, rfl⟩ := append_cons_inj hbeforeA hbeforeB (hpsA.symm.trans hpsB)
  exact ⟨_, c, _, hc, hdetached, by simp [hpsA], hkeptA, hkeptB⟩

/-- If the first query has a predicate at the seam and compiles, two others compile as well. All three have the same
patterns, but that instead of the predicate the others have what is kept of it. -/
lemma exists_yield {fuel fuel' fuel'' : Nat} {q : Query} (hA : A.Slotted) (hB : B.Slotted)
    (hgap : A.gap ++ A.behind = B.gap ++ B.behind) (hst : A.Alike stage s.cleared t.cleared)
    (hst' : B.Alike stage' s.cleared t'.cleared) (hstage : stage ≠ .past) (hstage' : stage' ≠ .past)
    (hs : s.rest.length < fuel) (ht : t.rest.length < fuel') (ht' : t'.rest.length < fuel'')
    (hq : Read.yield ((Read.queryPatterns source fuel).run s) = .ok q) : ∃ (k : Context) (c : Predicate),
      A.Made c ∧ Detached A.behind ∧ q.patterns = k.fill [c] ∧
      Read.yield ((Read.queryPatterns source' fuel').run t) = .ok { q with patterns := k.fill (A.kept c) } ∧
      Read.yield ((Read.queryPatterns source'' fuel'').run t') = .ok { q with patterns := k.fill (B.kept c) } := by
  induction fuel generalizing fuel' fuel'' stage stage' s t t' q with
  | zero => exact absurd hs (Nat.not_lt_zero _)
  | succ fuel ih =>
    obtain ⟨fuel', rfl⟩ : ∃ n, fuel' = n + 1 := ⟨fuel' - 1, by omega⟩
    obtain ⟨fuel'', rfl⟩ : ∃ n, fuel'' = n + 1 := ⟨fuel'' - 1, by omega⟩
    obtain ⟨p, u, q, hp, hmore, rfl⟩ := Read.exists_of_yield_succ (hst.skipTrivia_ne_nil hA hstage) hq
    obtain ⟨hneA, pA, uA, stageA, huA, hrootA, hpA⟩ := hst.exists_run_queryPattern hA hstage hp source'
    obtain ⟨hneB, pB, uB, stageB, huB, hrootB, hpB⟩ := hst'.exists_run_queryPattern hB hstage' hp source''
    have hltA := Nat.lt_of_lt_of_le (Read.length_lt_of_run_queryPattern hpA) (Nat.le_of_lt_succ ht)
    have hltB := Nat.lt_of_lt_of_le (Read.length_lt_of_run_queryPattern hpB) (Nat.le_of_lt_succ ht')
    have hlt := Nat.lt_of_lt_of_le (Read.length_lt_of_run_queryPattern hp) (Nat.le_of_lt_succ hs)
    rw [Read.yield_succ hneA hpA, Read.yield_succ hneB hpB]
    have hpast := huA.predicates.past_iff huB.predicates hgap hA hB
    by_cases hstageA : stageA = .past
    · obtain rfl : stageB = .past := hpast.mp hstageA
      subst hstageA
      obtain ⟨before, c, after, hc, hdetached, hps, hpsA, hpsB⟩ := huA.predicates.exists_slot huB.predicates hgap hA hB
      rw [← yield_congr huA.rest huA.names hlt hltA, ← yield_congr huB.rest huB.names hlt hltB, hmore]
      refine ⟨⟨[], p.root, before, after, q.patterns⟩, c, hc, hdetached, ?_, ?_, ?_⟩
      · rw [Read.unplaced_of_run hp, hps]
        rfl
      · rw [Read.unplaced_of_run hpA, hpsA, hrootA]
        rfl
      · rw [Read.unplaced_of_run hpB, hpsB, hrootB]
        rfl
    · have hstageB : stageB ≠ .past := fun h => hstageA (hpast.mpr h)
      obtain ⟨k, c, hc, hdetached, hk, hkA, hkB⟩ := ih (huA.cleared fun h => absurd h hstageA)
        (huB.cleared fun h => absurd h hstageB) hstageA hstageB hlt hltA hltB hmore
      refine ⟨{ k with front := p.unplaced :: k.front }, c, hc, hdetached, ?_, ?_, ?_⟩
      · dsimp only
        rw [hk]
        rfl
      · rw [hkA, ← huA.unplaced_eq (fun h => absurd h hstageA) hrootA hp hpA]
        rfl
      · rw [hkB, ← huB.unplaced_eq (fun h => absurd h hstageB) hrootB hp hpB]
        rfl

lemma alike_start (c : Seam) : c.Alike .ahead ⟨c.front ++ c.gap ++ c.behind, [], []⟩ ⟨c.front ++ c.gap' ++ c.behind, [], []⟩ :=
  ⟨⟨[], c.front, rfl, inCode_nil, List.append_assoc .., List.append_assoc ..⟩, rfl, rfl, by simp⟩

lemma exists_outcome (A B : Seam) {q : Query} (hA : A.Slotted) (hfront : A.front = B.front) (hgap : A.gap = B.gap)
    (hbehind : A.behind = B.behind) (hq : outcome (String.ofList (A.front ++ A.gap ++ A.behind)) = .ok q) :
    ∃ (k : Context) (c : Predicate), A.Made c ∧ Detached A.behind ∧ q.patterns = k.fill [c] ∧
      outcome (String.ofList (A.front ++ A.gap' ++ A.behind)) = .ok { q with patterns := k.fill (A.kept c) } ∧
      outcome (String.ofList (B.front ++ B.gap' ++ B.behind)) = .ok { q with patterns := k.fill (B.kept c) } := by
  have hB : B.Slotted := by rwa [Slotted, ← hgap]
  have hst := B.alike_start
  rw [← hfront, ← hgap, ← hbehind] at hst
  rw [outcome_ofList] at hq ⊢
  rw [outcome_ofList, ← hfront, ← hbehind]
  have hahead : Stage.ahead ≠ Stage.past := nofun
  exact exists_yield hA hB (by rw [hgap, hbehind]) A.alike_start hst hahead hahead (Nat.lt_succ_self _) (Nat.lt_succ_self _)
    (Nat.lt_succ_self _) hq

end Seam

/-! ## Queries up to places -/

/-- The query without the places where its patterns begin. -/
def unplaced (q : Query) : Query :=
  { q with patterns := q.patterns.map (·.unplaced) }

section
variable {q q' : Query} {text : String}

lemma unplaced_unplaced (q : Query) : q.unplaced.unplaced = q.unplaced := by
  rw [unplaced, unplaced, List.map_map]
  rfl

lemma unplaced_insertPredicate (q : Query) (i j : Nat) (c : Predicate) :
    (q.insertPredicate i j c).unplaced = q.unplaced.insertPredicate i j c := by
  refine congrArg₂ Query.mk (List.ext_getElem? fun k => ?_) rfl
  rw [insertPredicate, List.getElem?_map, List.getElem?_modify, List.getElem?_modify, unplaced, List.getElem?_map]
  cases q.patterns[k]? with
  | none => rfl
  | some p =>
    by_cases hik : i = k
    · simp [hik, QueryPattern.insertPredicate, QueryPattern.unplaced]
    · simp [hik]

lemma matchesIn_unplaced (q : Query) (source : ByteArray) (range : Option Span) (n : Node) :
    q.unplaced.matchesIn source range n = q.matchesIn source range n := by
  rw [matchesIn_eq, matchesIn_eq]
  congr 1
  funext m
  rw [matchesAt, matchesAt, unplaced, List.zipIdx_map, List.flatMap_map]
  rfl

lemma matchesIn_of_unplaced_eq (h : q.unplaced = q'.unplaced) (source : ByteArray) (range : Option Span) (n : Node) :
    q.matchesIn source range n = q'.matchesIn source range n := by
  rw [← matchesIn_unplaced, h, matchesIn_unplaced]

lemma exists_pattern_of_unplaced {k : Context} (h : q.patterns.map (·.unplaced) = (k.fill []).map (·.unplaced)) :
    ∃ p, q.patterns[k.front.length]? = some p ∧ p.predicates = k.before ++ k.after := by
  have hget := congrArg (·[k.front.length]?) h
  simp only [List.getElem?_map, Context.fill, List.getElem?_append_right (Nat.le_refl _), Nat.sub_self] at hget
  obtain ⟨p, hp, heq⟩ := Option.map_eq_some_iff.mp hget
  exact ⟨p, hp, by simpa [QueryPattern.unplaced] using congrArg QueryPattern.predicates heq⟩

lemma outcome_of_ofSource (h : ofSource text = .ok q) : outcome text = .ok q.unplaced := by
  rw [outcome, h]
  rfl

lemma exists_of_outcome (h : outcome text = .ok q') : ∃ q, ofSource text = .ok q ∧ q.unplaced = q' := by
  rw [outcome] at h
  split at h
  · next q hq => exact ⟨q, hq, Except.ok.inj h⟩
  · cases h

end

section
variable {front blanks arguments behind gap : List Char} {name : String} {q : Query}

/-- Where a query with a predicate compiles, the one with its negation and the one without it compile to the same patterns
but for that predicate. -/
lemma exists_outcome (hfront : InCode front) (hname : name ∈ Predicate.comparisonNames) (hblanks : Blank blanks)
    (harguments : Unclosed arguments) (hhead : ∀ c ∈ arguments.head?, isNameChar c = false) (hgap : Trivia gap)
    (hne : gap ≠ []) (hq : outcome (String.ofList (front ++ predicateText blanks name arguments ++ behind)) = .ok q) :
    ∃ (k : Context) (c : Predicate), Written name (arguments ++ ')' :: behind) c ∧ q.patterns = k.fill [c] ∧
      outcome (String.ofList (front ++ predicateText blanks ("not-" ++ name) arguments ++ behind)) =
        .ok { q with patterns := k.fill [c.negate] } ∧
      ((EndsWithParen front → Read.opensGroup (skipTrivia false behind) = true) →
        outcome (String.ofList (front ++ gap ++ behind)) = .ok { q with patterns := k.fill [] }) := by
  obtain ⟨hplain, hplain'⟩ := Predicate.plain_of_mem_comparisonNames hname
  have hclause := clause_predicateText hname hblanks harguments hhead behind
  have hself : Turned (predicateText blanks name arguments) (predicateText blanks name arguments) behind id :=
    turned_predicateText hname hblanks hhead behind hplain (Nat.le_refl _)
      (fun _ => (congrFun Except.map_id _).symm) fun _ => rfl
  have hnegated : Turned (predicateText blanks name arguments) (predicateText blanks ("not-" ++ name) arguments) behind
      Predicate.negate :=
    turned_predicateText hname hblanks hhead behind hplain' (by simp; omega) (Predicate.ofArguments_not hname) fun _ => rfl
  let self : Seam := ⟨front, _, _, behind, _, fun p => [p], hfront, .turned hclause id hself rfl⟩
  let negated : Seam := ⟨front, _, _, behind, _, fun p => [p.negate], hfront, .turned hclause _ hnegated rfl⟩
  obtain ⟨k, c, hc, hdetached, hk, hkn, -⟩ := Seam.exists_outcome negated self rfl rfl rfl rfl hq
  by_cases hgroups : EndsWithParen front → Read.opensGroup (skipTrivia false behind) = true
  · let without : Seam := ⟨front, _, gap, behind, _, fun _ => [], hfront, .without hclause hgap hne hdetached hgroups rfl⟩
    obtain ⟨k, c, hc, -, hk, hkn, hk₀⟩ := Seam.exists_outcome negated without rfl rfl rfl rfl hq
    exact ⟨k, c, hc, hk, hkn, fun _ => hk₀⟩
  · exact ⟨k, c, hc, hk, hkn, fun h => absurd h hgroups⟩

/-- The source of a query has the text of a predicate in its code, which stands behind `front` and begins with `(` and `#`.
If it compiles, it compiles as well with `not-` in front of the name of the predicate. And it compiles if other trivia
stand there instead, so that it has no such predicate; only a parenthesis in front of it, if there is one, must group what
follows then too. The three queries differ by that predicate of one pattern, `c`: the one without it, `q₀`, lacks it, and
the second has the negation of `c`. So the matches of the first and those of the second are among those of `q₀`, in their
order. A match of that pattern is left by one of the two at most if each capture compared has a node, by exactly one if each
has exactly one node, and by both if one has none. -/
theorem matchesIn_negate (hfront : InCode front) (hname : name ∈ Predicate.comparisonNames) (hblanks : Blank blanks)
    (harguments : Unclosed arguments) (hhead : ∀ c ∈ arguments.head?, isNameChar c = false) (hgap : Trivia gap)
    (hne : gap ≠ []) (hq : ofSource (String.ofList (front ++ predicateText blanks name arguments ++ behind)) = .ok q) :
    ∃ (q₀ q' : Query) (i j : Nat) (c : Predicate) (p : QueryPattern),
      ofSource (String.ofList (front ++ predicateText blanks ("not-" ++ name) arguments ++ behind)) = .ok q' ∧
      ((EndsWithParen front → Read.opensGroup (skipTrivia false behind) = true) →
        ofSource (String.ofList (front ++ gap ++ behind)) = .ok q₀) ∧
      Written name (arguments ++ ')' :: behind) c ∧ q₀.patterns[i]? = some p ∧ j ≤ p.predicates.length ∧
      q.unplaced = (q₀.insertPredicate i j c).unplaced ∧ q'.unplaced = (q₀.insertPredicate i j c.negate).unplaced ∧
      ∀ (source : ByteArray) (range : Option Span) (n : Node),
        Complement c i (q₀.matchesIn source range n) (q.matchesIn source range n) (q'.matchesIn source range n) := by
  obtain ⟨k, c, hc, hk, hnegated, hwithout⟩ :=
    exists_outcome hfront hname hblanks harguments hhead hgap hne (outcome_of_ofSource hq)
  obtain ⟨q', hq', hk'⟩ := exists_of_outcome hnegated
  let q₁ : Query := { q.unplaced with patterns := k.fill [] }
  obtain ⟨q₀, hq₀, hk₀⟩ : ∃ q₀ : Query, ((EndsWithParen front → Read.opensGroup (skipTrivia false behind) = true) →
      ofSource (String.ofList (front ++ gap ++ behind)) = .ok q₀) ∧ q₀.unplaced = q₁.unplaced := by
    by_cases hgroups : EndsWithParen front → Read.opensGroup (skipTrivia false behind) = true
    · obtain ⟨q₀, hq₀, hk₀⟩ := exists_of_outcome (hwithout hgroups)
      exact ⟨q₀, fun _ => hq₀, by rw [← unplaced_unplaced, hk₀]⟩
    · exact ⟨q₁, fun h => absurd h hgroups, rfl⟩
  -- Instead of `c` any other predicate may be put into `q₀`.
  have hinsert (d : Predicate) : (q₀.insertPredicate k.front.length k.before.length d).unplaced =
      ({ q.unplaced with patterns := k.fill [d] } : Query).unplaced := by
    rw [unplaced_insertPredicate, hk₀, ← unplaced_insertPredicate, insertPredicate, k.fill_singleton]
  have hwith : q.unplaced = (q₀.insertPredicate k.front.length k.before.length c).unplaced := by
    rw [hinsert, ← hk, unplaced_unplaced]
  have hnot : q'.unplaced = (q₀.insertPredicate k.front.length k.before.length c.negate).unplaced := by
    rw [hinsert, ← hk', unplaced_unplaced]
  obtain ⟨p, hp, hpredicates⟩ := exists_pattern_of_unplaced (congrArg Query.patterns hk₀)
  have hle : k.before.length ≤ p.predicates.length := by
    rw [hpredicates, List.length_append]
    exact Nat.le_add_right _ _
  refine ⟨q₀, q', _, _, c, p, hq', hq₀, hc, hp, hle, hwith, hnot, fun source range n => ?_⟩
  rw [matchesIn_of_unplaced_eq hwith, matchesIn_of_unplaced_eq hnot]
  refine complement_insertPredicate (fun p' hp' => ?_) c source range n
  obtain rfl : p = p' := Option.some.inj (hp.symm.trans hp')
  exact hle

end

end Query

namespace Query

def statementsBeforeOthers (cs : List Predicate) : Query :=
  ⟨[⟨.node (.rule .block) [.node (.rule .statement) [] ⟨none, [0], .one⟩, .node (.rule .statement) [] .plain] .plain,
    cs, 0⟩], ["s"]⟩

/-- Of two statements with others behind them one is called as asked for and is left by the predicate, the other by its
negation. -/
theorem matchesIn_negate_statements : ∃ q q₀ q' : Query,
    ofSource (String.ofList
      ("(block (statement) @s ".toList ++ predicateText [] "eq?" " @s \"show x\"".toList ++ "(statement))".toList)) =
        .ok q ∧
    ofSource (String.ofList ("(block (statement) @s ".toList ++ " ".toList ++ "(statement))".toList)) = .ok q₀ ∧
    ofSource (String.ofList ("(block (statement) @s ".toList ++
      predicateText [] ("not-" ++ "eq?") " @s \"show x\"".toList ++ "(statement))".toList)) = .ok q' ∧
    let source := "label a:\n    show x\n    hide y\n    jump z\n"
    let root := (Tree.parse source).root
    let all := q₀.matchesIn source.toUTF8 none root
    let kept := q.matchesIn source.toUTF8 none root
    let refused := q'.matchesIn source.toUTF8 none root
    Complement ⟨0, .eq (.text "show x"), false⟩ 0 all kept refused ∧
      all.length = 2 ∧ kept.length = 1 ∧ refused.length = 1 := by
  have hq : ofSource (String.ofList ("(block (statement) @s ".toList ++ predicateText [] "eq?" " @s \"show x\"".toList ++
      "(statement))".toList)) = .ok (statementsBeforeOthers [⟨0, .eq (.text "show x"), false⟩]) := by cbv
  have hq₀ : ofSource (String.ofList ("(block (statement) @s ".toList ++ " ".toList ++ "(statement))".toList)) =
      .ok (statementsBeforeOthers []) := by cbv
  have harguments : Unclosed " @s \"show x\"".toList := by
    refine ⟨by decide, fun v w heq => ?_⟩
    have hmem : ')' ∉ " @s \"show x\"".toList := by decide
    rw [heq] at hmem
    exact absurd (List.mem_append_right v List.mem_cons_self) hmem
  have hspace : Trivia " ".toList := .blank (by decide) .nil
  obtain ⟨q₀, q', i, j, c, p, hnot, hwithout, -, hp, hle, hwith, hnegated, hcomplement⟩ :=
    matchesIn_negate (by decide) (by decide) (by decide) harguments (by rintro c ⟨⟩; rfl) hspace (by decide) hq
  have hgroups : Read.opensGroup (skipTrivia false "(statement))".toList) = true := by decide
  obtain rfl : q₀ = statementsBeforeOthers [] := Except.ok.inj ((hwithout fun _ => hgroups).symm.trans hq₀)
  obtain rfl : i = 0 := by
    cases i with
    | zero => rfl
    | succ i => cases hp
  obtain rfl : _ = p := Option.some.inj hp
  obtain rfl : j = 0 := Nat.le_zero.mp hle
  obtain rfl : _ = c := by
    have hpredicates := congrArg (fun q : Query => q.patterns.map (·.predicates)) hwith
    exact (List.cons.inj (List.cons.inj hpredicates).1).1
  refine ⟨_, _, _, hq, hq₀, hnot, hcomplement _ none _, by decide +kernel, by decide +kernel, ?_⟩
  rw [matchesIn_of_unplaced_eq hnegated]
  decide +kernel

end Query

end RenpyScript
