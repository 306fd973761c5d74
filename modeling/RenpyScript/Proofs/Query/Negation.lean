import Mathlib
import RenpyScript.Proofs.Query.Reading
import RenpyScript.Proofs.Query.Walk

/-!
# Predicates and their negations

A predicate compares texts, and it holds if every comparison comes out as asked for. `not-` in front of its name asks
for the opposite of each comparison, not of all together. So a predicate and its negation complement each other where
there is one comparison, exclude each other where there are several, and both hold where there is none.
-/

namespace RenpyScript

namespace Predicate

/-- The names that `not-` may stand in front of. -/
def comparisonNames : List String :=
  ["eq?", "match?", "any-of?"]

lemma splitNegation_not (name : String) : splitNegation ("not-" ++ name) = (name, true) := by
  have hname : ("not-" ++ name).toList = 'n' :: 'o' :: 't' :: '-' :: name.toList := by
    rw [String.toList_append]
    rfl
  rw [splitNegation, hname]
  exact Prod.ext String.ofList_toList rfl

/-- A name that is read as a whole and belongs to no directive. -/
def Plain (name : String) : Prop :=
  (∀ c ∈ name.toList, Query.isNameChar c) ∧ name.toList.getLast? ≠ some '!'

instance (name : String) : Decidable (Plain name) :=
  inferInstanceAs (Decidable (_ ∧ _))

lemma plain_of_mem_comparisonNames {name : String} (hname : name ∈ comparisonNames) :
    Plain name ∧ Plain ("not-" ++ name) := by
  simp only [comparisonNames, List.mem_cons, List.not_mem_nil, or_false] at hname
  rcases hname with rfl | rfl | rfl
  all_goals exact ⟨⟨List.all_eq_true.mp (by cbv), by decide⟩, List.all_eq_true.mp (by cbv), by decide⟩

/-- How many nodes are captured under an index. -/
def capturedUnder (captures : List Capture) (index : Nat) : Nat :=
  captures.countP (·.index = index)

lemma length_textsUnder (source : ByteArray) (captures : List Capture) (index : Nat) :
    (textsUnder source captures index).length = capturedUnder captures index := by
  rw [textsUnder, List.length_map, capturedUnder, List.countP_eq_length_filter]

section
variable [RegexEngine]

/-- The predicate with the opposite asked for. -/
def negate (p : Predicate) : Predicate :=
  { p with negated := !p.negated }

lemma ofArguments_not {name : String} (hname : name ∈ comparisonNames) (args : List Operand) :
    ofArguments ("not-" ++ name) args = (ofArguments name args).map negate := by
  have hsplit : splitNegation name = (name, false) := by
    simp only [comparisonNames, List.mem_cons, List.not_mem_nil, or_false] at hname
    rcases hname with rfl | rfl | rfl
    · rfl
    · rfl
    · rfl
  rcases args with _ | ⟨index | value, others⟩
  · rfl
  · simp only [ofArguments, splitNegation_not, hsplit]
    cases Comparison.ofArguments name others <;> rfl
  · rfl

/-! ## Comparisons -/

/-- The outcomes of the comparisons that a predicate makes, whatever it asks for. -/
def outcomes (source : ByteArray) (captures : List Capture) (p : Predicate) : List Bool :=
  (textsUnder source captures p.capture).flatMap fun s =>
    match p.comparison with
    | .eq (.text t) => [s == t]
    | .eq (.capture other) => (textsUnder source captures other).map fun t => s == t
    | .matches r => [RegexEngine.isMatch r s]
    | .anyOf values => [values.contains s]

section
variable {source : ByteArray} {captures : List Capture} {p : Predicate}

lemma holds_eq : p.holds source captures = (p.outcomes source captures).all (· != p.negated) := by
  rw [holds, outcomes, List.all_flatMap]
  congr 1
  funext s
  rw [compares]
  cases p.comparison with
  | eq other =>
    cases other with
    | text t => simp
    | capture other =>
      rw [List.all_map]
      rfl
  | «matches» r => simp
  | anyOf values => simp

lemma outcomes_negate : p.negate.outcomes source captures = p.outcomes source captures :=
  rfl

lemma holds_negate : p.negate.holds source captures = (p.outcomes source captures).all (· == p.negated) := by
  rw [holds_eq, outcomes_negate, negate]
  congr 1
  funext b
  cases b <;> cases p.negated <;> rfl

lemma length_outcomes : (p.outcomes source captures).length = (p.captures.map (capturedUnder captures)).prod := by
  rw [outcomes, List.length_flatMap, Predicate.captures]
  cases p.comparison with
  | eq other =>
    cases other with
    | text t => simp [length_textsUnder]
    | capture other => simp [length_textsUnder]
  | «matches» r => simp [length_textsUnder]
  | anyOf values => simp [length_textsUnder]

lemma not_holds_both (h : ∀ i ∈ p.captures, capturedUnder captures i ≠ 0) :
    ¬(p.holds source captures = true ∧ p.negate.holds source captures = true) := by
  have hlength : (p.outcomes source captures).length ≠ 0 := by
    rw [length_outcomes, ne_eq, List.prod_eq_zero_iff]
    rintro hzero
    obtain ⟨i, hi, hcount⟩ := List.mem_map.mp hzero
    exact h i hi hcount
  obtain ⟨b, bs, hbs⟩ := List.exists_cons_of_ne_nil (List.ne_nil_of_length_pos (Nat.pos_of_ne_zero hlength))
  rw [holds_negate, holds_eq, hbs, List.all_cons, List.all_cons, Bool.and_eq_true, Bool.and_eq_true]
  rintro ⟨⟨hother, -⟩, hsame, -⟩
  rw [beq_iff_eq.mp hsame, bne_self_eq_false] at hother
  cases hother

lemma holds_iff_not_negate (h : ∀ i ∈ p.captures, capturedUnder captures i = 1) :
    p.holds source captures = true ↔ ¬p.negate.holds source captures = true := by
  have hlength : (p.outcomes source captures).length = 1 := by
    rw [length_outcomes]
    refine List.prod_eq_one fun k hk => ?_
    obtain ⟨i, hi, rfl⟩ := List.mem_map.mp hk
    exact h i hi
  obtain ⟨b, hb⟩ := List.length_eq_one_iff.mp hlength
  rw [holds_negate, holds_eq, hb]
  cases b <;> cases p.negated <;> decide

lemma holds_both (h : ∃ i ∈ p.captures, capturedUnder captures i = 0) :
    p.holds source captures = true ∧ p.negate.holds source captures = true := by
  have hlength : (p.outcomes source captures).length = 0 := by
    rw [length_outcomes, List.prod_eq_zero_iff]
    exact List.mem_map.mpr h
  rw [holds_negate, holds_eq, List.eq_nil_of_length_eq_zero hlength]
  exact ⟨rfl, rfl⟩

end

end

end Predicate

lemma zipIdx_modify {α : Type} (as : List α) (i : Nat) (f : α → α) :
    (as.modify i f).zipIdx = as.zipIdx.map fun a => if a.2 = i then (f a.1, a.2) else a := by
  refine List.ext_getElem? fun k => ?_
  rw [List.getElem?_zipIdx, List.getElem?_modify, List.getElem?_map, List.getElem?_zipIdx]
  cases as[k]? with
  | none => rfl
  | some a =>
    by_cases hik : i = k
    · simp [hik]
    · simp [hik, Ne.symm hik]

section
variable [RegexEngine]

/-! ## Reading a predicate -/

namespace Query

namespace Read
variable {s t : Reading} {start blanks rest : List Char} {name : String}

/-- Reads the arguments of the predicate with a given name, which begins at `start`, and keeps the predicate. -/
def predicateNamed (start : List Char) (name : String) : Read Unit := do
  let args ← arguments start.length
  if name.toList.getLast? = some '!' then return
  match Predicate.ofArguments name args with
  | .ok p => modify fun s => { s with predicates := s.predicates ++ [(p, start)] }
  | .error fault => throw ⟨.predicate name fault, start⟩

lemma run_predicate (hblanks : ∀ c ∈ blanks, isWhiteSpace c) (hname : ∀ c ∈ name.toList, isNameChar c)
    (hrest : ∀ c ∈ rest.head?, !isNameChar c) (s : Reading) :
    (predicate ('(' :: (blanks ++ '#' :: (name.toList ++ rest)))).run s =
      (predicateNamed ('(' :: (blanks ++ '#' :: (name.toList ++ rest))) name).run (s.withRest rest) := by
  have hskip : (blanks ++ '#' :: (name.toList ++ rest)).dropWhile isWhiteSpace = '#' :: (name.toList ++ rest) := by
    rw [List.dropWhile_append_of_pos hblanks]
    rfl
  have htake : (name.toList ++ rest).takeWhile isNameChar = name.toList := by
    rw [List.takeWhile_append_of_pos hname]
    cases rest with
    | nil => exact List.append_nil _
    | cons c cs => rw [List.takeWhile_cons_of_neg (by simpa using hrest c), List.append_nil]
  have hdrop : (name.toList ++ rest).dropWhile isNameChar = rest := by
    rw [List.dropWhile_append_of_pos hname]
    cases rest with
    | nil => rfl
    | cons c cs => rw [List.dropWhile_cons_of_neg (by simpa using hrest c)]
  change (Read.name >>= predicateNamed _).run (s.withRest (((blanks ++ _).dropWhile isWhiteSpace).drop 1)) = _
  rw [hskip, List.drop_succ_cons, List.drop_zero]
  change (predicateNamed _ (String.ofList ((name.toList ++ rest).takeWhile isNameChar))).run
    (s.withRest ((name.toList ++ rest).dropWhile isNameChar)) = _
  rw [htake, hdrop, String.ofList_toList]

lemma run_arguments_cons {fuel fuel' : Nat} {a : Operand} {args : List Operand} {cs : List Char}
    (hmore : ∀ args cs, (arguments fuel).run s = .ok (args, s.withRest cs) →
      (arguments fuel').run t = .ok (args, t.withRest cs))
    (h : (do return a :: (← arguments fuel) : Read _).run s = .ok (args, s.withRest cs)) :
    (do return a :: (← arguments fuel') : Read _).run t = .ok (args, t.withRest cs) := by
  rw [run_bind] at h ⊢
  cases hrun : (arguments fuel).run s with
  | error e =>
    rw [hrun] at h
    cases h
  | ok r =>
    obtain ⟨more, u⟩ := r
    obtain ⟨rest, rfl, -⟩ := ensures_arguments fuel s more u hrun
    rw [hrun] at h
    obtain ⟨rfl, hrest⟩ := Prod.mk.inj (Except.ok.inj h)
    obtain rfl : rest = cs := congrArg Reading.rest hrest
    rw [hmore more rest hrun]
    rfl

/-- Arguments that are read are also read with more fuel, whatever predicates there are. -/
lemma run_arguments_of_le {fuel fuel' : Nat} {args : List Operand} {cs : List Char} (hrest : t.rest = s.rest)
    (hnames : t.names = s.names) (h : (arguments fuel).run s = .ok (args, s.withRest cs)) (hle : fuel ≤ fuel') :
    (arguments fuel').run t = .ok (args, t.withRest cs) := by
  induction fuel generalizing fuel' args cs s t with
  | zero => cases h
  | succ fuel ih =>
    obtain ⟨fuel', rfl⟩ : ∃ n, fuel' = n + 1 := ⟨fuel' - 1, by omega⟩
    have hmore {ds : List Char} (args : List Operand) (cs : List Char)
        (h : (arguments fuel).run (s.withRest ds) = .ok (args, s.withRest cs)) :
        (arguments fuel').run (t.withRest ds) = .ok (args, t.withRest cs) :=
      ih (s := s.withRest ds) (t := t.withRest ds) rfl hnames h (Nat.le_of_succ_le_succ hle)
    rw [arguments, run_next] at h ⊢
    rw [hrest]
    revert h
    split
    · intro h
      cases h
    split
    · intro h
      obtain ⟨rfl, hcs⟩ := Prod.mk.inj (Except.ok.inj h)
      obtain rfl : _ = cs := congrArg Reading.rest hcs
      rfl
    split
    · next ds _ _ _ =>
      intro h
      change (afterCapture fuel _ ds (s.names.idxOf? (String.ofList (ds.takeWhile isNameChar)))).run
        (s.withRest (ds.dropWhile isNameChar)) = _ at h
      change (afterCapture fuel' _ ds (t.names.idxOf? (String.ofList (ds.takeWhile isNameChar)))).run
        (t.withRest (ds.dropWhile isNameChar)) = _
      rw [hnames]
      cases hindex : s.names.idxOf? (String.ofList (ds.takeWhile isNameChar)) with
      | none =>
        rw [hindex] at h
        cases h
      | some i =>
        rw [hindex] at h
        exact run_arguments_cons (s := s.withRest _) (t := t.withRest _) hmore h
    split
    · intro h
      rw [string] at h ⊢
      split at h
      · exact run_arguments_cons (s := s.withRest _) (t := t.withRest _) hmore h
      · cases h
    split
    · exact run_arguments_cons (s := s.withRest _) (t := t.withRest _) hmore
    · intro h
      cases h

/-- The arguments of a predicate are read, it is made of them and kept. -/
lemma exists_of_run_predicateNamed (hlast : name.toList.getLast? ≠ some '!')
    (h : (predicateNamed start name).run s = .ok ((), t)) : ∃ args u p, (arguments start.length).run s = .ok (args, u) ∧
      Predicate.ofArguments name args = .ok p ∧ t = { u with predicates := u.predicates ++ [(p, start)] } := by
  rw [predicateNamed, run_bind] at h
  cases hargs : (arguments start.length).run s with
  | error e =>
    rw [hargs] at h
    cases h
  | ok r =>
    obtain ⟨args, u⟩ := r
    rw [hargs] at h
    dsimp only at h
    rw [if_neg hlast] at h
    cases hp : Predicate.ofArguments name args with
    | error e =>
      rw [hp] at h
      cases h
    | ok p =>
      rw [hp] at h
      exact ⟨args, u, p, rfl, hp, (Prod.mk.inj (Except.ok.inj h)).2.symm⟩

lemma run_predicateNamed_of_le {start' : List Char} {args : List Operand} {cs : List Char} {p : Predicate}
    (hlast : name.toList.getLast? ≠ some '!') (hrest : t.rest = s.rest) (hnames : t.names = s.names)
    (hargs : (arguments start.length).run s = .ok (args, s.withRest cs)) (hp : Predicate.ofArguments name args = .ok p)
    (hle : start.length ≤ start'.length) : (predicateNamed start' name).run t =
      .ok ((), { t with rest := cs, predicates := t.predicates ++ [(p, start')] }) := by
  rw [predicateNamed, run_bind, run_arguments_of_le hrest hnames hargs hle]
  dsimp only
  rw [if_neg hlast, hp]
  rfl

end Read

/-! ## Matches with a predicate -/

end Query

/-- The pattern with one more predicate. -/
def QueryPattern.insertPredicate (j : Nat) (c : Predicate) (p : QueryPattern) : QueryPattern :=
  { p with predicates := p.predicates.insertIdx j c }

lemma QueryPattern.matchesAt_insertPredicate {j : Nat} {p : QueryPattern} (hj : j ≤ p.predicates.length) (c : Predicate)
    (source : ByteArray) (n : Node) :
    (p.insertPredicate j c).matchesAt source n = (p.matchesAt source n).filter (c.holds source) := by
  rw [matchesAt, matchesAt, insertPredicate]
  split
  · rw [List.filter_filter]
    refine List.filter_congr fun captures _ => ?_
    rw [(List.perm_insertIdx c p.predicates hj).all_eq, List.all_cons]
  · rfl

namespace Query

/-- The query with one more predicate for its pattern with a given index. -/
def insertPredicate (i j : Nat) (c : Predicate) (q : Query) : Query :=
  { q with patterns := q.patterns.modify i (QueryPattern.insertPredicate j c) }

/-- A match of the pattern with index `i` stays if the predicate holds; those of other patterns stay anyway. -/
def keeps (i : Nat) (c : Predicate) (source : ByteArray) (m : Match) : Bool :=
  m.pattern ≠ i || c.holds source m.captures

section
variable {q : Query} {i j : Nat}

lemma matchesAt_insertPredicate (hj : ∀ p ∈ q.patterns[i]?, j ≤ p.predicates.length) (c : Predicate) (source : ByteArray)
    (n : Node) : (q.insertPredicate i j c).matchesAt source n = (q.matchesAt source n).filter (keeps i c source) := by
  rw [matchesAt, matchesAt, insertPredicate, zipIdx_modify, List.flatMap_map, List.filter_flatMap]
  refine List.flatMap_congr fun x hx => ?_
  obtain ⟨p, k⟩ := x
  rw [List.filter_map]
  by_cases hki : k = i
  · subst hki
    have hp : q.patterns[k]? = some p := List.mk_mem_zipIdx_iff_getElem?.mp hx
    rw [if_pos rfl, QueryPattern.matchesAt_insertPredicate (hj p hp)]
    refine congrArg _ (List.filter_congr fun captures _ => ?_)
    simp [keeps]
  · rw [if_neg hki, List.filter_eq_self.mpr]
    intro captures _
    simp [keeps, hki]

lemma matchesIn_insertPredicate (hj : ∀ p ∈ q.patterns[i]?, j ≤ p.predicates.length) (c : Predicate) (source : ByteArray)
    (range : Option Span) (n : Node) :
    (q.insertPredicate i j c).matchesIn source range n = (q.matchesIn source range n).filter (keeps i c source) := by
  rw [matchesIn_eq, matchesIn_eq, List.filter_flatMap]
  exact List.flatMap_congr fun m _ => matchesAt_insertPredicate hj c source m

end

/-- How the matches with a predicate on the pattern with index `i`, and those with its negation, lie among all. -/
structure Complement (c : Predicate) (i : Nat) (all kept refused : List Match) : Prop where
  kept_sublist : kept.Sublist all
  refused_sublist : refused.Sublist all
  /-- If every capture compared has a node, a match is in one list at most. -/
  not_both : ∀ m ∈ all, m.pattern = i → (∀ k ∈ c.captures, Predicate.capturedUnder m.captures k ≠ 0) →
    ¬(m ∈ kept ∧ m ∈ refused)
  /-- If each has exactly one node, a match is in one list and not in the other. -/
  kept_iff : ∀ m ∈ all, m.pattern = i → (∀ k ∈ c.captures, Predicate.capturedUnder m.captures k = 1) →
    (m ∈ kept ↔ m ∉ refused)
  /-- If one has no node, a match is in both lists. -/
  both : ∀ m ∈ all, m.pattern = i → (∃ k ∈ c.captures, Predicate.capturedUnder m.captures k = 0) → m ∈ kept ∧ m ∈ refused

lemma complement_insertPredicate {q : Query} {i j : Nat} (hj : ∀ p ∈ q.patterns[i]?, j ≤ p.predicates.length)
    (c : Predicate) (source : ByteArray) (range : Option Span) (n : Node) :
    Complement c i (q.matchesIn source range n) ((q.insertPredicate i j c).matchesIn source range n)
      ((q.insertPredicate i j c.negate).matchesIn source range n) := by
  rw [matchesIn_insertPredicate hj, matchesIn_insertPredicate hj]
  have hkeeps (c : Predicate) {m : Match} (hm : m ∈ q.matchesIn source range n) (hi : m.pattern = i) :
      m ∈ (q.matchesIn source range n).filter (keeps i c source) ↔ c.holds source m.captures = true := by
    simp [hm, keeps, hi]
  refine ⟨List.filter_sublist, List.filter_sublist, fun m hm hi => ?_, fun m hm hi => ?_, fun m hm hi => ?_⟩
  · rw [hkeeps c hm hi, hkeeps c.negate hm hi]
    exact Predicate.not_holds_both
  · rw [hkeeps c hm hi, hkeeps c.negate hm hi]
    exact Predicate.holds_iff_not_negate
  · rw [hkeeps c hm hi, hkeeps c.negate hm hi]
    exact Predicate.holds_both

end Query

end

end RenpyScript
