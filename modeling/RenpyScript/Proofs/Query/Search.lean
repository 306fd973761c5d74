import RenpyScript.Proofs.Query.Captures

/-!
# When a search succeeds

Child patterns are searched for one after the other, and each leaves the nodes behind those it has taken to the
patterns after it. `Pattern.Leaves` says which nodes a pattern may leave. More nodes never do harm, so that a search
succeeds if it would succeed with any nodes that the patterns may leave, though it tries a single choice for all but
optional patterns.
-/

namespace RenpyScript.Pattern

section
variable {solve : Node → Option (List Capture)} {before ns rest : List Node} {n : Node} {s : List Capture}

/-- The earliest node that is accepted. -/
lemma earliest?_eq_some_iff : earliest? solve ns = some (s, rest) ↔
    ∃ before n, ns = before ++ n :: rest ∧ (∀ m ∈ before, solve m = none) ∧ solve n = some s := by
  induction ns with
  | nil => simp [earliest?]
  | cons n ns ih =>
    rw [earliest?]
    constructor
    · intro h
      cases hsolve : solve n with
      | some t =>
        rw [hsolve, Option.some.injEq, Prod.mk.injEq] at h
        obtain ⟨rfl, rfl⟩ := h
        exact ⟨[], n, rfl, by simp, hsolve⟩
      | none =>
        rw [hsolve] at h
        obtain ⟨before, m, rfl, hbefore, hm⟩ := ih.mp h
        exact ⟨n :: before, m, rfl, List.forall_mem_cons.mpr ⟨hsolve, hbefore⟩, hm⟩
    · rintro ⟨before, m, hns, hbefore, hm⟩
      cases before with
      | nil =>
        obtain ⟨rfl, rfl⟩ := List.cons.inj hns
        rw [hm]
      | cons b before =>
        obtain ⟨rfl, rfl⟩ := List.cons.inj hns
        obtain ⟨hb, hbefore⟩ := List.forall_mem_cons.mp hbefore
        rw [hb]
        exact ih.mpr ⟨before, m, rfl, hbefore, hm⟩

lemma exists_earliest? (h : (solve n).isSome = true) :
    ∃ s left, earliest? solve (before ++ n :: rest) = some (s, left) ∧ rest <:+ left := by
  induction before with
  | nil =>
    obtain ⟨s, hs⟩ := Option.isSome_iff_exists.mp h
    exact ⟨s, rest, by rw [List.nil_append, earliest?, hs], List.suffix_refl _⟩
  | cons b before ih =>
    rw [List.cons_append, earliest?]
    cases solve b with
    | none => exact ih
    | some t => exact ⟨t, _, rfl, (List.suffix_cons n rest).trans (List.suffix_append ..)⟩

lemma gather?_eq_none_iff : gather? solve ns = none ↔ ∀ n ∈ ns, solve n = none := by
  induction ns with
  | nil => simp [gather?]
  | cons n ns ih =>
    rw [gather?, List.forall_mem_cons, ← ih]
    cases solve n <;> cases gather? solve ns <;> simp

/-- All nodes that are accepted, up to the last of them. -/
lemma gather?_eq_some (h : gather? solve ns = some (s, rest)) : ∃ before n, ns = before ++ n :: rest ∧
    (solve n).isSome = true ∧ (∀ m ∈ rest, solve m = none) ∧ s = (ns.filterMap solve).flatten := by
  induction ns generalizing s rest with
  | nil => simp [gather?] at h
  | cons n ns ih =>
    rw [gather?] at h
    cases hgather : gather? solve ns with
    | some r =>
      obtain ⟨before, m, hns, hm, hrest, hs⟩ := ih hgather
      cases hsolve : solve n with
      | some t =>
        rw [hsolve, hgather, Option.some.injEq, Prod.mk.injEq] at h
        obtain ⟨rfl, rfl⟩ := h
        refine ⟨n :: before, m, congrArg (n :: ·) hns, hm, hrest, ?_⟩
        rw [List.filterMap_cons_some hsolve, List.flatten_cons, ← hs]
      | none =>
        rw [hsolve, hgather, Option.some.injEq] at h
        subst h
        refine ⟨n :: before, m, congrArg (n :: ·) hns, hm, hrest, ?_⟩
        rw [List.filterMap_cons_none hsolve, ← hs]
    | none =>
      cases hsolve : solve n with
      | some t =>
        rw [hsolve, hgather, Option.some.injEq, Prod.mk.injEq] at h
        obtain ⟨rfl, rfl⟩ := h
        have hnone := gather?_eq_none_iff.mp hgather
        refine ⟨[], n, rfl, by rw [hsolve]; rfl, hnone, ?_⟩
        rw [List.filterMap_cons_some hsolve, List.filterMap_eq_nil_iff.mpr hnone, List.flatten_cons, List.flatten_nil,
          List.append_nil]
      | none =>
        rw [hsolve, hgather] at h
        cases h

lemma gather?_getD (h : (gather? solve ns).getD ([], ns) = (s, rest)) :
    (s = [] ∧ rest = ns ∧ ∀ n ∈ ns, solve n = none) ∨ gather? solve ns = some (s, rest) := by
  cases hgather : gather? solve ns with
  | none =>
    rw [hgather, Option.getD_none, Prod.mk.injEq] at h
    exact .inl ⟨h.1.symm, h.2.symm, gather?_eq_none_iff.mp hgather⟩
  | some r =>
    rw [hgather, Option.getD_some] at h
    exact .inr (congrArg some h)

/-- The nodes that are left begin behind the last one that is accepted. -/
lemma suffix_gather? (before : List Node) (h : ∀ m ∈ rest, solve m = none) :
    rest <:+ ((gather? solve (before ++ rest)).getD ([], before ++ rest)).2 := by
  induction before with
  | nil =>
    rw [List.nil_append, gather?_eq_none_iff.mpr h]
    exact List.suffix_refl _
  | cons b before ih =>
    have hall : rest <:+ b :: (before ++ rest) := (List.suffix_append before rest).trans (List.suffix_cons ..)
    rw [List.cons_append, gather?]
    cases hgather : gather? solve (before ++ rest) with
    | some r =>
      rw [hgather] at ih
      cases solve b with
      | some t => exact ih
      | none => exact ih
    | none =>
      -- No node behind `b` is accepted, so all of them are left, and `b` itself unless it is accepted.
      cases solve b with
      | some t => exact List.suffix_append ..
      | none => exact hall

end

/-! ## What patterns leave -/

/-- A child pattern may leave `rest` of the nodes to the patterns behind it. -/
def Leaves (p : Pattern) (ns rest : List Node) : Prop :=
  match p.role.quantifier with
  | .one => ∃ before n, ns = before ++ n :: rest ∧ (p.childSolution? n).isSome = true
  | .optional => rest = ns
  | .zeroOrMore => rest <:+ ns ∧ ∀ m ∈ rest, p.childSolution? m = none
  | .oneOrMore => ∃ before n, ns = before ++ n :: rest ∧ (p.childSolution? n).isSome = true ∧
      ∀ m ∈ rest, p.childSolution? m = none

section
variable {p : Pattern} {ps : List Pattern} {ns ms rest : List Node}

lemma suffix_of_eq_append {before : List Node} {n : Node} (h : ns = before ++ n :: rest) : rest <:+ ns := by
  rw [h]
  exact (List.suffix_cons n rest).trans (List.suffix_append ..)

lemma Leaves.suffix (h : p.Leaves ns rest) : rest <:+ ns := by
  rw [Leaves] at h
  split at h
  · obtain ⟨before, n, hns, -⟩ := h
    exact suffix_of_eq_append hns
  · rw [h]
  · exact h.1
  · obtain ⟨before, n, hns, -⟩ := h
    exact suffix_of_eq_append hns

lemma Leaves.mono (h : p.Leaves ns rest) (hle : ns <:+ ms) : ∃ rest', rest <:+ rest' ∧ p.Leaves ms rest' := by
  obtain ⟨more, rfl⟩ := hle
  rw [Leaves] at h
  simp only [Leaves]
  split at h
  · obtain ⟨before, n, rfl, hn⟩ := h
    exact ⟨rest, List.suffix_refl _, more ++ before, n, (List.append_assoc ..).symm, hn⟩
  · exact ⟨more ++ ns, h ▸ List.suffix_append .., rfl⟩
  · exact ⟨rest, List.suffix_refl _, h.1.trans (List.suffix_append ..), h.2⟩
  · obtain ⟨before, n, rfl, hn⟩ := h
    exact ⟨rest, List.suffix_refl _, more ++ before, n, (List.append_assoc ..).symm, hn⟩

lemma isSome_bind_sequence? {r : Option (List Capture × List Node)} :
    (r.bind fun r => (sequence? ps r.2).map (r.1 ++ ·)).isSome = true ↔
      ∃ s rest, r = some (s, rest) ∧ (sequence? ps rest).isSome = true := by
  cases r with
  | none => simp
  | some r =>
    obtain ⟨s, rest⟩ := r
    simp

/-- Child patterns that succeed with some nodes do so with more in front of them. -/
def Monotone (ps : List Pattern) : Prop :=
  ∀ ns ms, ns <:+ ms → (sequence? ps ns).isSome = true → (sequence? ps ms).isSome = true

/-- The search tries a single choice, or two for an optional pattern, but succeeds if it would with any. -/
lemma Monotone.isSome_cons (hps : Monotone ps) : (sequence? (p :: ps) ns).isSome = true ↔
    ∃ rest, p.Leaves ns rest ∧ (sequence? ps rest).isSome = true := by
  rw [sequence?_cons]
  simp only [Leaves]
  cases p.role.quantifier with
  | one =>
    rw [isSome_bind_sequence?]
    constructor
    · rintro ⟨s, rest, hearliest, hrest⟩
      obtain ⟨before, n, hns, -, hn⟩ := earliest?_eq_some_iff.mp hearliest
      exact ⟨rest, ⟨before, n, hns, by rw [hn]; rfl⟩, hrest⟩
    · rintro ⟨rest, ⟨before, n, rfl, hn⟩, hrest⟩
      obtain ⟨s, left, hearliest, hle⟩ := exists_earliest? hn
      exact ⟨s, left, hearliest, hps rest left hle hrest⟩
  | optional =>
    -- What the pattern takes is of no use to those behind it.
    have htaken : ((earliest? p.childSolution? ns).bind fun r => (sequence? ps r.2).map (r.1 ++ ·)).isSome = true →
        (sequence? ps ns).isSome = true := by
      rw [isSome_bind_sequence?]
      rintro ⟨s, rest, hearliest, hrest⟩
      obtain ⟨before, n, hns, -, -⟩ := earliest?_eq_some_iff.mp hearliest
      exact hps rest ns (suffix_of_eq_append hns) hrest
    rw [exists_eq_left]
    dsimp only
    split
    · next s hs =>
      rw [hs] at htaken
      exact ⟨fun _ => htaken rfl, fun _ => rfl⟩
    · rfl
  | zeroOrMore =>
    rw [isSome_bind_sequence?]
    constructor
    · rintro ⟨s, rest, hgather, hrest⟩
      refine ⟨rest, ?_, hrest⟩
      rcases gather?_getD (Option.some.inj hgather) with ⟨-, rfl, hnone⟩ | hgather
      · exact ⟨List.suffix_refl _, hnone⟩
      · obtain ⟨before, n, hns, -, hnone, -⟩ := gather?_eq_some hgather
        exact ⟨suffix_of_eq_append hns, hnone⟩
    · rintro ⟨rest, ⟨⟨before, rfl⟩, hnone⟩, hrest⟩
      exact ⟨_, _, rfl, hps rest _ (suffix_gather? before hnone) hrest⟩
  | oneOrMore =>
    rw [isSome_bind_sequence?]
    constructor
    · rintro ⟨s, rest, hgather, hrest⟩
      obtain ⟨before, n, hns, hn, hnone, -⟩ := gather?_eq_some hgather
      exact ⟨rest, ⟨before, n, hns, hn, hnone⟩, hrest⟩
    · rintro ⟨rest, ⟨before, n, rfl, hn, hnone⟩, hrest⟩
      have hle := suffix_gather? (before ++ [n]) hnone
      rw [List.append_assoc, List.singleton_append] at hle
      cases h : gather? p.childSolution? (before ++ n :: rest) with
      | none =>
        rw [gather?_eq_none_iff.mp h n (by simp)] at hn
        cases hn
      | some r =>
        rw [h, Option.getD_some] at hle
        exact ⟨r.1, r.2, rfl, hps rest r.2 hle hrest⟩

theorem monotone (ps : List Pattern) : Monotone ps := by
  induction ps with
  | nil =>
    intro ns ms _ _
    rw [sequence?]
    rfl
  | cons p ps ih =>
    intro ns ms hle h
    obtain ⟨rest, hrest, hps⟩ := ih.isSome_cons.mp h
    obtain ⟨rest', hle', hrest'⟩ := hrest.mono hle
    exact ih.isSome_cons.mpr ⟨rest', hrest', ih rest rest' hle' hps⟩

lemma isSome_sequence?_cons : (sequence? (p :: ps) ns).isSome = true ↔
    ∃ rest, p.Leaves ns rest ∧ (sequence? ps rest).isSome = true :=
  (monotone ps).isSome_cons

end

/-- Child patterns may leave `rest` of the nodes, one after the other. -/
def LeaveAll : List Pattern → List Node → List Node → Prop
  | [], ns, rest => rest = ns
  | p :: ps, ns, rest => ∃ left, p.Leaves ns left ∧ LeaveAll ps left rest

lemma LeaveAll.suffix {ps : List Pattern} {ns rest : List Node} (h : LeaveAll ps ns rest) : rest <:+ ns := by
  induction ps generalizing ns with
  | nil =>
    rw [LeaveAll] at h
    rw [h]
  | cons p ps ih =>
    obtain ⟨left, hleft, hrest⟩ := h
    exact (ih hrest).trans hleft.suffix

lemma isSome_sequence?_append (ps qs : List Pattern) (ns : List Node) : (sequence? (ps ++ qs) ns).isSome = true ↔
    ∃ rest, LeaveAll ps ns rest ∧ (sequence? qs rest).isSome = true := by
  induction ps generalizing ns with
  | nil => simp [LeaveAll]
  | cons p ps ih =>
    rw [List.cons_append, isSome_sequence?_cons]
    simp only [ih, LeaveAll]
    constructor
    · rintro ⟨left, hleft, rest, hrest, hqs⟩
      exact ⟨rest, ⟨left, hleft, hrest⟩, hqs⟩
    · rintro ⟨rest, ⟨left, hleft, hrest⟩, hqs⟩
      exact ⟨left, hleft, rest, hrest, hqs⟩

/-! ## All solutions and the first one -/

section
variable {p : Pattern} {ps : List Pattern} {ns : List Node} {n : Node}

lemma isSome_childSolution? :
    (p.childSolution? n).isSome = true ↔ p.role.fits n = true ∧ (p.solution? n).isSome = true := by
  rw [childSolution?]
  split
  · next hfits => rw [hfits, eq_self, true_and]
  · next hfits => simp [hfits]

lemma startingWith_ne_nil : startingWith p ps ns ≠ [] ↔ ∃ before n rest, ns = before ++ n :: rest ∧
    (p.childSolution? n).isSome = true ∧ (sequence? ps rest).isSome = true := by
  have hhere (n : Node) (ns : List Node) :
      (((p.childSolution? n).bind fun s => (sequence? ps ns).map (s ++ ·)).toList ≠ []) ↔
        (p.childSolution? n).isSome = true ∧ (sequence? ps ns).isSome = true := by
    cases p.childSolution? n <;> cases sequence? ps ns <;> simp
  induction ns with
  | nil => simp [startingWith]
  | cons m ns ih =>
    rw [startingWith, ne_eq, List.append_eq_nil_iff, not_and_or]
    apply (or_congr (hhere m ns) ih).trans
    constructor
    · rintro (⟨hm, hns⟩ | ⟨before, n, rest, rfl, hn⟩)
      · exact ⟨[], m, ns, rfl, hm, hns⟩
      · exact ⟨m :: before, n, rest, rfl, hn⟩
    · rintro ⟨before, n, rest, hns, hn, hrest⟩
      cases before with
      | nil =>
        obtain ⟨rfl, rfl⟩ := List.cons.inj hns
        exact .inl ⟨hn, hrest⟩
      | cons b before =>
        obtain ⟨rfl, rfl⟩ := List.cons.inj hns
        exact .inr ⟨before, n, rest, rfl, hn, hrest⟩

lemma sequenceSolutions_ne_nil : sequenceSolutions ps ns ≠ [] ↔ (sequence? ps ns).isSome = true := by
  rw [sequenceSolutions.eq_def]
  split
  · simp [sequence?]
  · next p ps =>
    split
    · next hone =>
      rw [startingWith_ne_nil, isSome_sequence?_cons]
      simp only [Leaves, hone]
      constructor
      · rintro ⟨before, n, rest, hns, hn, hrest⟩
        exact ⟨rest, ⟨before, n, hns, hn⟩, hrest⟩
      · rintro ⟨rest, ⟨before, n, hns, hn⟩, hrest⟩
        exact ⟨before, n, rest, hns, hn, hrest⟩
    · cases sequence? (p :: ps) ns <;> simp

lemma isSome_solutionAmong? : (solutionAmong? ps n).isSome = true ↔ ∃ p ∈ ps, (p.childSolution? n).isSome = true := by
  induction ps with
  | nil => simp [solutionAmong?]
  | cons p ps ih =>
    rw [solutionAmong?, List.exists_mem_cons_iff, ← ih, childSolution?]
    split
    · next s hs => simp [hs]
    · next hs => simp [hs]

lemma isSome_solution?_node {test : NodeTest} {role : Role} : ((node test ps role).solution? n).isSome = true ↔
    test.accepts n = true ∧ (sequence? ps n.children).isSome = true := by
  rw [solution?]
  split
  · next haccepts => rw [Option.isSome_map, haccepts, eq_self, true_and]
  · next haccepts => simp [haccepts]

lemma isSome_solution?_choice {role : Role} : ((choice ps role).solution? n).isSome = true ↔
    ∃ p ∈ ps, (p.childSolution? n).isSome = true := by
  rw [solution?, Option.isSome_map, isSome_solutionAmong?]

/-- A pattern has solutions at a node if it has a first one there. -/
theorem solutions_ne_nil (p : Pattern) (n : Node) : p.solutions n ≠ [] ↔ (p.solution? n).isSome = true := by
  induction p using innerInduction with
  | node test children role ih =>
    rw [solutions, isSome_solution?_node]
    split
    · next haccepts =>
      rw [ne_eq, List.map_eq_nil_iff, ← ne_eq, sequenceSolutions_ne_nil]
      simp [haccepts]
    · next haccepts => simp [haccepts]
  | choice alternatives role ih =>
    rw [solutions, isSome_solution?_choice, ne_eq, List.map_eq_nil_iff, ← ne_eq]
    induction alternatives with
    | nil => simp [solutionsAmong]
    | cons p ps ihs =>
      obtain ⟨hp, hps⟩ := List.forall_mem_cons.mp ih
      rw [solutionsAmong, ne_eq, List.append_eq_nil_iff, not_and_or, List.exists_mem_cons_iff, isSome_childSolution?, ← hp]
      refine or_congr ?_ (ihs hps)
      cases p.role.fits n <;> simp

end

end RenpyScript.Pattern
