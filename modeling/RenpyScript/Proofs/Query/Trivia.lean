import RenpyScript.Proofs.Query.Agreement
import RenpyScript.Regex.Engine

/-!
# Trivia between tokens

Two queries that differ in the trivia at one place of their code are read alike: both compile to the same patterns, or both
fail for the same cause. One place is special. Between a parenthesis and the hash sign of a predicate white space may stand,
but no comment.
-/

namespace RenpyScript

/-- The pattern without the place where it begins. -/
def QueryPattern.unplaced [RegexEngine] (p : QueryPattern) : QueryPattern :=
  { p with start := 0 }

namespace Query

section
variable [RegexEngine]

/-- What the patterns read make up, up to the places where they begin; or the cause of the error. -/
def Read.yield (r : Except Flaw (List QueryPattern × Reading)) : Except QueryFault Query :=
  match r with
  | .ok (ps, s) => .ok ⟨ps.map (·.unplaced), s.names⟩
  | .error flaw => .error flaw.fault

lemma Read.yield_cons (p : QueryPattern) (r : Except Flaw (List QueryPattern × Reading)) :
    yield (r.map fun more => (p :: more.1, more.2)) =
      (yield r).map fun q => { q with patterns := p.unplaced :: q.patterns } := by
  cases r with
  | error flaw => rfl
  | ok r => rfl

lemma Read.ensures_queryPattern_predicates (source : List Char) (s : Reading) :
    (queryPattern source).Ensures s fun p t => p.predicates = t.predicates.map (·.1) := by
  rw [queryPattern]
  refine Ensures.get (Ensures.modify ?_)
  refine Ensures.bind (Q := fun _ _ => True) (fun _ _ _ => trivial) fun root t _ => Ensures.get ?_
  refine (ensures_checks root.captures t.predicates t).bind fun _ u hu => ensures_pure ?_
  rw [hu.1]

lemma Read.unplaced_of_run {source : List Char} {s t : Reading} {p : QueryPattern}
    (hp : (Read.queryPattern source).run s = .ok (p, t)) : p.unplaced = ⟨p.root, t.predicates.map (·.1), 0⟩ := by
  rw [QueryPattern.unplaced, Read.ensures_queryPattern_predicates source s p t hp]

lemma Read.length_lt_of_run_queryPattern {source : List Char} {s t : Reading} {p : QueryPattern}
    (h : (queryPattern source).run (s.withRest (skipTrivia false s.rest)) = .ok (p, t)) : t.rest.length < s.rest.length :=
  (ensures_queryPattern source (s.withRest (skipTrivia false s.rest)) (skipTrivia_skipTrivia false s.rest) p t h).1.2.trans_le
    (skipTrivia_suffix false s.rest).length_le

namespace Seam
variable {c : Seam} {stage : Stage} {s t : Reading}

lemma Alike.cleared (h : c.Alike stage s t) (hslot : stage = .past → ¬c.Slotted) : c.Alike stage s.cleared t.cleared := by
  refine ⟨h.rest, h.names, ?_⟩
  cases stage with
  | ahead | there => exact ⟨rfl, by simp [Reading.cleared]⟩
  | past => exact .inl ⟨hslot rfl, rfl⟩

lemma SamePredicates.map_eq {ps ps' : List (Predicate × List Char)} (h : c.SamePredicates stage ps ps')
    (hslot : stage = .past → ¬c.Slotted) : ps.map (·.1) = ps'.map (·.1) := by
  cases stage with
  | ahead | there => exact h.1
  | past => exact h.elim (·.2) fun h => absurd h.1 (hslot rfl)

lemma Alike.unplaced_eq {source source' : List Char} {s' t' : Reading} {p p' : QueryPattern} (h : c.Alike stage s' t')
    (hslot : stage = .past → ¬c.Slotted) (hroot : p.root = p'.root) (hp : (Read.queryPattern source).run s = .ok (p, s'))
    (hp' : (Read.queryPattern source').run t = .ok (p', t')) : p.unplaced = p'.unplaced := by
  rw [Read.unplaced_of_run hp, Read.unplaced_of_run hp', hroot, h.predicates.map_eq hslot]

lemma yield_queryPatterns {source source' : List Char} {fuel fuel' : Nat} (hslot : ¬c.Slotted)
    (hst : c.Alike stage s.cleared t.cleared) (hs : s.rest.length < fuel) (ht : t.rest.length < fuel') :
    Read.yield ((Read.queryPatterns source fuel).run s) = Read.yield ((Read.queryPatterns source' fuel').run t) := by
  induction fuel generalizing fuel' stage s t with
  | zero => exact absurd hs (Nat.not_lt_zero _)
  | succ fuel ih =>
    obtain ⟨fuel', rfl⟩ : ∃ n, fuel' = n + 1 := ⟨fuel' - 1, by omega⟩
    obtain ⟨stage', hleads, hhead⟩ := hst.rest.skipTrivia
    have hst' := hst.move hleads hhead.same
    dsimp only [Reading.cleared] at hhead hst'
    generalize hcs : skipTrivia false s.rest = cs at hhead hst'
    generalize hcs' : skipTrivia false t.rest = cs' at hhead hst'
    cases hhead with
    | nil =>
      rw [Read.run_queryPatterns_of_nil fuel hcs, Read.run_queryPatterns_of_nil fuel' hcs']
      exact congrArg (fun names => Except.ok (Query.mk [] names)) hst.names
    | there h => exact absurd h.1 hslot
    | cons hbehind =>
      rw [Read.run_queryPatterns_of_ne_nil fuel (by simp [hcs]), Read.run_queryPatterns_of_ne_nil fuel' (by simp [hcs']),
        hcs, hcs']
      have hpattern := agrees_queryPattern hst' hbehind source source'
      rw [Agrees] at hpattern
      cases hrun : (Read.queryPattern source).run (s.withRest (_ :: _)) with
      | error e =>
        cases hrun' : (Read.queryPattern source').run (t.withRest (_ :: _)) with
        | error e' =>
          rw [hrun, hrun'] at hpattern
          exact congrArg Except.error (hpattern.resolve_left hslot)
        | ok r' =>
          rw [hrun, hrun'] at hpattern
          exact absurd hpattern hslot
      | ok r =>
        obtain ⟨p, u⟩ := r
        cases hrun' : (Read.queryPattern source').run (t.withRest (_ :: _)) with
        | error e' =>
          rw [hrun, hrun'] at hpattern
          exact hpattern.elim
        | ok r' =>
          obtain ⟨p', u'⟩ := r'
          rw [hrun, hrun'] at hpattern
          obtain ⟨hroot, stage'', huu'⟩ := hpattern
          have hp := huu'.unplaced_eq (fun _ => hslot) hroot hrun hrun'
          have hlt : u.rest.length < fuel :=
            (Read.length_lt_of_run_queryPattern (hcs ▸ hrun)).trans_le (Nat.le_of_lt_succ hs)
          have hlt' : u'.rest.length < fuel' :=
            (Read.length_lt_of_run_queryPattern (hcs' ▸ hrun')).trans_le (Nat.le_of_lt_succ ht)
          have hmore := ih (huu'.cleared fun _ => hslot) hlt hlt'
          change Read.yield (((Read.queryPatterns source fuel).run u).map _) =
            Read.yield (((Read.queryPatterns source' fuel').run u').map _)
          rw [Read.yield_cons, Read.yield_cons, hmore]
          dsimp only
          rw [hp]

end Seam

end

section
variable [RegexEngine]

/-- What reading a query yields, up to the places where patterns begin; or the cause of its error. -/
def outcome (text : String) : Except QueryFault Query :=
  match ofSource text with
  | .ok q => .ok { q with patterns := q.patterns.map (·.unplaced) }
  | .error e => .error e.fault

lemma outcome_ofList (source : List Char) : outcome (String.ofList source) =
    Read.yield ((Read.queryPatterns source (source.length + 1)).run ⟨source, [], []⟩) := by
  rw [outcome, ofSource, String.toList_ofList]
  cases (Read.queryPatterns source (source.length + 1)).run ⟨source, [], []⟩ with
  | ok r => rfl
  | error flaw => rfl

/-- At any place of the code of a query, it does not matter which trivia stand there: the query compiles with all of them
or with none, to the same patterns with the same names of captures, or with the same error. Only where the hash sign of a
predicate follows its parenthesis, there must be a comment in both or in none. -/
theorem outcome_trivia {front gap gap' behind : List Char} (hfront : InCode front) (hgap : Trivia gap) (hgap' : Trivia gap')
    (hne : gap ≠ []) (hne' : gap' ≠ [])
    (hopens : EndsOpen front → (behind.dropWhile isWhiteSpace).head? = some '#' → (Blank gap ↔ Blank gap')) :
    outcome (String.ofList (front ++ gap ++ behind)) = outcome (String.ofList (front ++ gap' ++ behind)) := by
  let c : Seam := ⟨front, gap, gap', behind, fun _ => True, fun p => [p], hfront, .trivia hgap hgap' hne hne' hopens⟩
  have hslot : ¬c.Slotted := fun hslot => hslot.not_trivia hgap
  have hst : c.Alike .ahead ⟨front ++ gap ++ behind, [], []⟩ ⟨front ++ gap' ++ behind, [], []⟩ :=
    ⟨⟨[], front, rfl, inCode_nil, List.append_assoc .., List.append_assoc ..⟩, rfl, rfl, by simp⟩
  rw [outcome_ofList, outcome_ofList]
  exact Seam.yield_queryPatterns hslot hst (Nat.lt_succ_self _) (Nat.lt_succ_self _)

end

/-- A comment instead of the space in front of a predicate. -/
theorem outcome_trivia_predicate :
    outcome (String.ofList ("((comment) @x".toList ++ " ".toList ++ "(#eq? @x \"a\"))".toList)) =
      outcome (String.ofList ("((comment) @x".toList ++ "; c\n".toList ++ "(#eq? @x \"a\"))".toList)) := by
  have hcomment : Trivia "; c\n".toList := @Trivia.comment [' ', 'c'] [] (by decide) .nil
  exact outcome_trivia (by decide) (.blank (by decide) .nil) hcomment (by decide) (by decide)
    fun _ hhash => absurd hhash (by decide)

/-- With a comment between the parenthesis and the hash sign there is no predicate, where with a space there is one. -/
theorem outcome_comment_ne : ¬∀ front gap gap' behind : List Char, InCode front → Blank gap → gap ≠ [] →
    Trivia gap' → gap' ≠ [] →
    outcome (String.ofList (front ++ gap ++ behind)) = outcome (String.ofList (front ++ gap' ++ behind)) := by
  intro h
  have hcomment : Trivia ";\n".toList := @Trivia.comment [] [] (by decide) .nil
  have hsame := h "((identifier) @x (".toList " ".toList ";\n".toList "#eq? @x \"a\"))".toList
    (by decide) (by decide) (by decide) hcomment (by decide)
  have hcompiles : (outcome (String.ofList
      ("((identifier) @x (".toList ++ " ".toList ++ "#eq? @x \"a\"))".toList))).isOk = true := by
    decide +kernel
  have hfails : (outcome (String.ofList
      ("((identifier) @x (".toList ++ ";\n".toList ++ "#eq? @x \"a\"))".toList))).isOk = false := by
    decide +kernel
  rw [hsame, hfails] at hcompiles
  cases hcompiles

end Query

end RenpyScript
