import Mathlib
import RenpyScript.Proofs.Query.Continued
import RenpyScript.Regex.Engine

/-!
# Queries put together

Two queries that are written one behind the other, on lines of their own, are one query with the patterns of both.
The second's patterns refer to their captures by the indices that the names have in the common table; apart from
that they find what they find by themselves.
-/

namespace RenpyScript

/-! ## Matches of moved patterns -/

/-- The match of a pattern with other indices for its captures and with `n` patterns in front. -/
def Match.moved (ρ : Nat → Nat) (n : Nat) (m : Match) : Match :=
  ⟨m.pattern + n, m.captures.map (Capture.renumber ρ)⟩

lemma Predicate.renumber_eq_self [RegexEngine] {ρ : Nat → Nat} {p : Predicate} (h : ∀ i ∈ p.captures, ρ i = i) : p.renumber ρ = p := by
  obtain ⟨capture, comparison, negated⟩ := p
  have hcapture : ρ capture = capture := h _ (capture_mem_captures _)
  cases comparison with
  | eq other =>
    cases other with
    | capture i =>
      have hother : ρ i = i := h i (by simp [captures])
      rw [renumber, Comparison.renumber, Operand.renumber, hcapture, hother]
    | text s => rw [renumber, Comparison.renumber, Operand.renumber, hcapture]
  | «matches» r => rw [renumber, Comparison.renumber, hcapture]
  | anyOf values => rw [renumber, Comparison.renumber, hcapture]

namespace QueryPattern
variable [RegexEngine] {ρ : Nat → Nat} {p : QueryPattern}

lemma moved_eq_self (hpredicates : ∀ q ∈ p.predicates, q.captures ⊆ p.root.captures)
    (h : ∀ i ∈ p.root.captures, ρ i = i) :
    p.moved ρ 0 = p := by
  obtain ⟨root, predicates, start⟩ := p
  have hsame : predicates.map (·.renumber ρ) = predicates :=
    (List.map_congr_left fun q hq => Predicate.renumber_eq_self fun i hi => h i (hpredicates q hq hi)).trans (List.map_id' _)
  rw [moved, Pattern.renumber_eq_self h, hsame, Nat.add_zero]

lemma matchesAt_moved (source : ByteArray) (n : Node) (offset : Nat)
    (hpredicates : ∀ q ∈ p.predicates, q.captures ⊆ p.root.captures)
    (hinjective : ∀ i ∈ p.root.captures, ∀ j ∈ p.root.captures, ρ i = ρ j → i = j) :
    (p.moved ρ offset).matchesAt source n = (p.matchesAt source n).map (List.map (Capture.renumber ρ)) := by
  have hfits : (p.root.renumber ρ).role.fits n = p.root.role.fits n := by
    rw [Pattern.role_renumber]
    rfl
  rw [matchesAt, matchesAt, moved, hfits, Pattern.solutions_renumber]
  split
  · rw [List.filter_map]
    congr 1
    refine List.filter_congr fun captures hcaptures => ?_
    rw [Function.comp_apply, List.all_map, Bool.eq_iff_iff, List.all_eq_true, List.all_eq_true]
    refine forall₂_congr fun q hq => ?_
    rw [Function.comp_apply, Predicate.holds_renumber source fun i hi c hc => ?_]
    exact hinjective c.index (Pattern.index_mem_captures hcaptures hc) i (hpredicates q hq hi)
  · rfl

end QueryPattern

namespace Query

lemma preorderWhere_intersects_none (n : Node) : n.preorderWhere (·.intersects none) = n.preorder := by
  have hkept : (Place.preorderFrom [] n).filter (Place.kept (·.intersects none)) = Place.preorderFrom [] n := by
    rw [List.filter_eq_self]
    intro p _
    rw [Place.kept, Bool.and_eq_true_iff, List.all_eq_true]
    exact ⟨rfl, fun a _ => rfl⟩
  have hnodes := Place.filter_kept_preorderFrom (·.intersects none) [] n
  rwa [hkept, Place.map_node_preorderFrom, List.all_nil, if_pos rfl, eq_comm] at hnodes

section
variable [RegexEngine]

lemma matchesAt_append (ps qs : List QueryPattern) (names : List String) (source : ByteArray) (n : Node) :
    matchesAt ⟨ps ++ qs, names⟩ source n = matchesAt ⟨ps, names⟩ source n ++
      (matchesAt ⟨qs, names⟩ source n).map fun m => ⟨m.pattern + ps.length, m.captures⟩ := by
  rw [matchesAt, matchesAt, matchesAt, List.zipIdx_append, List.flatMap_append]
  congr 1
  rw [Nat.zero_add, ← Nat.add_zero ps.length, ← List.map_snd_add_zipIdx_eq_zipIdx, List.flatMap_map, List.map_flatMap]
  simp only [List.map_map, Prod.map, id, Function.comp_def, Nat.add_zero]

section
variable {q₁ q₂ : Query} {source₁ source₂ : List Char} {ρ : Nat → Nat}

lemma matchesAt_moved (hq : WellFormed source₁ q₁) (names : List String) (offset : Nat) (source : ByteArray) (n : Node)
    (hinjective : ∀ i < q₁.captureNames.length, ∀ j < q₁.captureNames.length, ρ i = ρ j → i = j) :
    matchesAt ⟨q₁.patterns.map (·.moved ρ offset), names⟩ source n =
      (q₁.matchesAt source n).map fun m => ⟨m.pattern, m.captures.map (Capture.renumber ρ)⟩ := by
  rw [matchesAt, matchesAt, List.zipIdx_map, List.flatMap_map, List.map_flatMap]
  refine List.flatMap_congr fun x hx => ?_
  have hmem : x.1 ∈ q₁.patterns := (List.mem_zipIdx' hx).2 ▸ List.getElem_mem _
  have hlt := hq.captures_lt x.1 hmem
  rw [List.map_map, Prod.map, QueryPattern.matchesAt_moved source n offset (hq.predicates x.1 hmem)
    fun i hi j hj => hinjective i (hlt i (.inl hi)) j (hlt j (.inl hj)), List.map_map]
  rfl

end

/-! ## Reading two queries -/

section
variable {text text₁ text₂ : String} {q q₁ q₂ : Query}

lemma opensPattern_of_ofSource (h : ofSource text = .ok q) :
    skipTrivia false text.toList = [] ∨ Read.OpensPattern (skipTrivia false text.toList) := by
  obtain ⟨s, -, hrun⟩ := exists_run_of_ofSource h
  by_cases hnil : skipTrivia false text.toList = []
  · exact .inl hnil
  · obtain ⟨p, t, ps, -, hp, -⟩ := Read.exists_of_run_queryPatterns (s := ⟨text.toList, [], []⟩) hnil hrun
    exact .inr (Read.ensures_queryPattern _ _ (skipTrivia_skipTrivia false text.toList) p t hp).2.opens

/-- First the patterns of the first text are read, with the second text behind it, and then those of the second, with the
names of the first known before. -/
lemma run_joined {source₁ source₂ : List Char} {ps₁ ps₂ : List QueryPattern} {s₁ s₂ : Reading}
    (h₁ : (Read.queryPatterns source₁ (source₁.length + 1)).run ⟨source₁, [], []⟩ = .ok (ps₁, s₁))
    (h₂ : (Read.queryPatterns source₂ (source₂.length + 1)).run ⟨source₂, [], []⟩ = .ok (ps₂, s₂))
    (hopens : skipTrivia false source₂ = [] ∨ Read.OpensPattern (skipTrivia false source₂)) :
    ∃ t, t.names = joinNames s₁.names s₂.names ∧
      (Read.queryPatterns (source₁ ++ '\n' :: source₂) ((source₁ ++ '\n' :: source₂).length + 1)).run
        ⟨source₁ ++ '\n' :: source₂, [], []⟩ =
      .ok (ps₁ ++ ps₂.map (·.moved (reindex s₂.names (joinNames s₁.names s₂.names)) (byteLength source₁ + 1)), t) := by
  have hlength₁ : byteLength (source₁ ++ '\n' :: source₂) = byteLength source₁ + byteLength ('\n' :: source₂) + 0 := by
    rw [byteLength_append, Nat.add_zero]
  let c₁ : Surroundings := ⟨'\n' :: source₂, [], s₁.names, .inr ⟨rfl, hopens⟩⟩
  have hst₁ : c₁.Alike (Reading.cleared ⟨source₁, [], []⟩) (Reading.cleared ⟨source₁ ++ '\n' :: source₂, [], []⟩) :=
    ⟨.inl rfl, rfl, rfl⟩
  have hfuel₁ : (⟨source₁, [], []⟩ : Reading).rest.length < source₁.length + 1 := Nat.lt_succ_self _
  obtain ⟨hle₁, t₁, ht₁, hend₁, hread₁⟩ :=
    Surroundings.run_queryPatterns (c := c₁) hst₁ (List.suffix_refl _) hlength₁ hfuel₁ h₁ (List.prefix_refl s₁.names)
  -- Behind the first text the second is read from its first pattern on.
  have hnext : skipTrivia false t₁.rest = skipTrivia false source₂ := ht₁.skipTrivia_of_nil hend₁
  let c₂ : Surroundings := ⟨[], s₁.names, s₂.names, .inl rfl⟩
  have hlength₂ : byteLength (source₁ ++ '\n' :: source₂) =
      byteLength source₂ + byteLength [] + (byteLength source₁ + 1) := by
    have hfeed : ('\n').utf8Size = 1 := by decide
    rw [byteLength_append, byteLength_cons, byteLength_nil, hfeed]
    omega
  have hst₂ : c₂.Alike (Reading.cleared ⟨skipTrivia false source₂, [], []⟩)
      (t₁.withRest (skipTrivia false t₁.rest)).cleared := by
    have hnames : t₁.names = joinNames [] s₁.names := ht₁.names
    refine ⟨.inl (hnext.trans (List.append_nil _).symm), ?_, rfl⟩
    change t₁.names = s₁.names ++ []
    rw [hnames, joinNames_nil, List.append_nil]
  have hskip := skipTrivia_suffix false source₂
  have hfuel₂ : (⟨skipTrivia false source₂, [], []⟩ : Reading).rest.length < source₂.length + 1 :=
    Nat.lt_succ_of_le hskip.length_le
  obtain ⟨hle₂, t₂, ht₂, hend₂, hread₂⟩ := Surroundings.run_queryPatterns (c := c₂) hst₂ hskip hlength₂ hfuel₂
    ((Read.run_queryPatterns_skip source₂.length ⟨source₂, [], []⟩).trans h₂) (List.prefix_refl s₂.names)
  have hend : skipTrivia false t₂.rest = [] := ht₂.skipTrivia_of_nil hend₂
  -- The fuel left behind all patterns.
  obtain ⟨m, hm⟩ : ∃ m, (source₁ ++ '\n' :: source₂).length + 1 = ps₁.length + (ps₂.length + (m + 1)) := by
    refine ⟨(source₁ ++ '\n' :: source₂).length - ps₁.length - ps₂.length, ?_⟩
    have hle₂' : ps₂.length ≤ source₂.length := hle₂.trans hskip.length_le
    rw [List.length_append, List.length_cons]
    omega
  have hkept : ps₁.map (·.moved c₁.index 0) = ps₁ := by
    have hq₁ := wellFormed h₁
    refine (List.map_congr_left fun p hp => ?_).trans (List.map_id' _)
    exact QueryPattern.moved_eq_self (hq₁.predicates p hp) fun i hi =>
      reindex_self hq₁.named.1 (hq₁.captures_lt p hp i (.inl hi))
  refine ⟨t₂.withRest [], ht₂.names, ?_⟩
  rw [hm, ← Nat.add_assoc ps₂.length, hread₁, ← Read.run_queryPatterns_skip, Nat.add_assoc, hread₂,
    Read.run_queryPatterns_of_nil m hend, hkept]
  exact congrArg Except.ok (Prod.ext (congrArg (ps₁ ++ ·) (List.append_nil _)) rfl)

lemma ofSource_joined (h₁ : ofSource text₁ = .ok q₁) (h₂ : ofSource text₂ = .ok q₂) :
    ofSource (text₁ ++ "\n" ++ text₂) = .ok
      ⟨q₁.patterns ++ q₂.patterns.map
        (·.moved (reindex q₂.captureNames (joinNames q₁.captureNames q₂.captureNames)) (byteLength text₁.toList + 1)),
        joinNames q₁.captureNames q₂.captureNames⟩ := by
  obtain ⟨s₁, hnames₁, hrun₁⟩ := exists_run_of_ofSource h₁
  obtain ⟨s₂, hnames₂, hrun₂⟩ := exists_run_of_ofSource h₂
  obtain ⟨t, hnames, hrun⟩ := run_joined hrun₁ hrun₂ (opensPattern_of_ofSource h₂)
  have htext : (text₁ ++ "\n" ++ text₂).toList = text₁.toList ++ '\n' :: text₂.toList := by simp
  rw [ofSource, htext, hrun]
  dsimp only
  rw [hnames, hnames₁, hnames₂]

/-- Two queries that compile also compile if they are written one behind the other on lines of their own. The patterns
of the second then begin further behind and use the indices that their captures' names have in the common table, to which
the second adds the names that the first lacks. At each node, the matches of the first are found and then those of the
second, of the same nodes under the same names. -/
theorem ofSource_append (h₁ : ofSource text₁ = .ok q₁) (h₂ : ofSource text₂ = .ok q₂) :
    ∃ (q : Query) (ρ : Nat → Nat), ofSource (text₁ ++ "\n" ++ text₂) = .ok q ∧
      q.captureNames = q₁.captureNames ++ q₂.captureNames.filter (· ∉ q₁.captureNames) ∧
      (∀ i < q₂.captureNames.length, q.captureNames[ρ i]? = q₂.captureNames[i]?) ∧
      q.patterns = q₁.patterns ++ q₂.patterns.map (·.moved ρ (byteLength text₁.toList + 1)) ∧
      (∀ n : Node, n.preorderWhere (·.intersects none) = n.preorder) ∧
      ∀ source range (n : Node),
        q₁.matchesIn source range n = (n.preorderWhere (·.intersects range)).flatMap (q₁.matchesAt source) ∧
        q₂.matchesIn source range n = (n.preorderWhere (·.intersects range)).flatMap (q₂.matchesAt source) ∧
        q.matchesIn source range n = (n.preorderWhere (·.intersects range)).flatMap fun m =>
          q₁.matchesAt source m ++ (q₂.matchesAt source m).map (·.moved ρ q₁.patterns.length) := by
  have hq₂ := wellFormed_of_ofSource h₂
  refine ⟨_, reindex q₂.captureNames (joinNames q₁.captureNames q₂.captureNames), ofSource_joined h₁ h₂, rfl,
    fun i hi => getElem?_reindex _ hi, rfl, preorderWhere_intersects_none,
    fun source range n => ⟨matchesIn_eq .., matchesIn_eq .., ?_⟩⟩
  rw [matchesIn_eq]
  refine List.flatMap_congr fun m _ => ?_
  rw [matchesAt_append, matchesAt_moved hq₂ _ _ _ _ fun i hi j hj => reindex_injective hq₂.named.1 hi hj, List.map_map]
  rfl

end

end

/-- Of two names of the second query one is known from the first. -/
theorem ofSource_append_shared_name : ∃ (q : Query) (ρ : Nat → Nat), ofSource ("_ @a" ++ "\n" ++ "_ @b @a") = .ok q ∧
    q.captureNames = ["a", "b"] ∧ q.captureNames[ρ 0]? = some "b" ∧ q.captureNames[ρ 1]? = some "a" ∧
    q.patterns = [⟨.node .any [] ⟨none, [0], .one⟩, [], 0⟩, ⟨.node .any [] ⟨none, [ρ 0, ρ 1], .one⟩, [], 5⟩] := by
  have h₁ : ofSource "_ @a" = .ok ⟨[⟨.node .any [] ⟨none, [0], .one⟩, [], 0⟩], ["a"]⟩ := by cbv
  have h₂ : ofSource "_ @b @a" = .ok ⟨[⟨.node .any [] ⟨none, [0, 1], .one⟩, [], 0⟩], ["b", "a"]⟩ := by cbv
  obtain ⟨q, ρ, hq, hnames, hindex, hpatterns, -⟩ := ofSource_append h₁ h₂
  exact ⟨q, ρ, hq, hnames, hindex 0 (by decide), hindex 1 (by decide), hpatterns⟩

end Query

end RenpyScript
