import RenpyScript.Proofs.Query.Captures

/-!
# Renumbering captures

A pattern refers to its captures by their indices in the table of names. If it is given other indices it finds
the same nodes, each under its new index; its predicates compare the same texts as long as different indices
stay different.
-/

namespace RenpyScript

/-! ## Definitions -/

variable (ρ : Nat → Nat)

def Capture.renumber (c : Capture) : Capture :=
  { c with index := ρ c.index }

def Role.renumber (r : Role) : Role :=
  { r with captures := r.captures.map ρ }

namespace Pattern

mutual
/-- The pattern with other indices for its captures. -/
def renumber : Pattern → Pattern
  | node test children role => node test (renumberAll children) (role.renumber ρ)
  | choice alternatives role => choice (renumberAll alternatives) (role.renumber ρ)

/-- Several patterns with other indices for their captures. -/
def renumberAll : List Pattern → List Pattern
  | [] => []
  | p :: ps => p.renumber :: renumberAll ps
end

end Pattern

/-- The argument of a predicate with other indices for captures. -/
def Operand.renumber : Operand → Operand
  | .capture i => .capture (ρ i)
  | .text s => .text s

/-- The comparison with other indices for captures. -/
def Comparison.renumber [RegexEngine] : Comparison → Comparison
  | .eq other => .eq (other.renumber ρ)
  | .matches r => .matches r
  | .anyOf values => .anyOf values

def Predicate.renumber [RegexEngine] (p : Predicate) : Predicate :=
  ⟨ρ p.capture, p.comparison.renumber ρ, p.negated⟩

/-! ## Patterns -/

namespace Pattern

section
variable {ρ} {σ : Nat → Nat} {p : Pattern} {ps : List Pattern}

lemma renumberAll_eq (ρ : Nat → Nat) (ps : List Pattern) : renumberAll ρ ps = ps.map (renumber ρ) := by
  induction ps with
  | nil => rfl
  | cons p ps ih => rw [renumberAll, ih, List.map_cons]

lemma capturesAmong_eq (ps : List Pattern) : capturesAmong ps = ps.flatMap captures := by
  induction ps with
  | nil => rfl
  | cons p ps ih => rw [capturesAmong, ih, List.flatMap_cons]

@[simp] lemma role_renumber (ρ : Nat → Nat) (p : Pattern) : (p.renumber ρ).role = p.role.renumber ρ := by
  cases p with
  | node test children role => rfl
  | choice alternatives role => rfl

lemma quantifier_renumber (ρ : Nat → Nat) (p : Pattern) : (p.renumber ρ).role.quantifier = p.role.quantifier := by
  rw [role_renumber, Role.renumber]

lemma flatMap_captures_renumber (h : ∀ p ∈ ps, (p.renumber ρ).captures = p.captures.map ρ) :
    (ps.map (renumber ρ)).flatMap captures = (ps.flatMap captures).map ρ := by
  rw [List.flatMap_map, List.map_flatMap]
  exact List.flatMap_congr h

lemma captures_renumber (ρ : Nat → Nat) (p : Pattern) : (p.renumber ρ).captures = p.captures.map ρ := by
  induction p using innerInduction with
  | node test children role ih | choice children role ih =>
    rw [renumber, captures, captures, renumberAll_eq, capturesAmong_eq, capturesAmong_eq,
      flatMap_captures_renumber ih, List.map_append, Role.renumber]

lemma renumber_congr (h : ∀ i ∈ p.captures, ρ i = σ i) : p.renumber ρ = p.renumber σ := by
  induction p using innerInduction with
  | node test children role ih | choice children role ih =>
    rw [captures, capturesAmong_eq, List.forall_mem_append, List.forall_mem_flatMap] at h
    have hchildren : children.map (renumber ρ) = children.map (renumber σ) :=
      List.map_congr_left fun p hp => ih p hp (h.2 p hp)
    rw [renumber, renumber, renumberAll_eq, renumberAll_eq, hchildren, Role.renumber, Role.renumber,
      List.map_congr_left h.1]

lemma renumber_id (p : Pattern) : p.renumber id = p := by
  induction p using innerInduction with
  | node test children role ih | choice children role ih =>
    rw [renumber, renumberAll_eq, List.map_congr_left ih, Role.renumber, List.map_id, List.map_id']

lemma renumber_eq_self (h : ∀ i ∈ p.captures, ρ i = i) : p.renumber ρ = p := by
  have hid : p.renumber ρ = p.renumber id := renumber_congr h
  rw [hid, renumber_id]

end

/-! ## Solutions -/

/-- The captures of one solution, or of none, under their new indices. -/
def renumberSolution (s : Option (List Capture)) : Option (List Capture) :=
  s.map (List.map (Capture.renumber ρ))

section
variable {ρ} {solve solve' : Node → Option (List Capture)} {p : Pattern} {ps : List Pattern} {ns : List Node} {n : Node}

lemma capturesOf_renumber (ρ : Nat → Nat) (r : Role) (n : Node) :
    (r.renumber ρ).capturesOf n = (r.capturesOf n).map (Capture.renumber ρ) := by
  rw [Role.capturesOf, Role.capturesOf, Role.renumber, List.map_map, List.map_map]
  rfl

lemma renumberSolution_capturesOf (ρ : Nat → Nat) (r : Role) (n : Node) (s : Option (List Capture)) :
    (renumberSolution ρ s).map ((r.renumber ρ).capturesOf n ++ ·) =
      renumberSolution ρ (s.map (r.capturesOf n ++ ·)) := by
  simp only [renumberSolution, Option.map_map, Function.comp_def, capturesOf_renumber, List.map_append]

lemma earliest?_renumber (h : ∀ n, solve' n = renumberSolution ρ (solve n)) (ns : List Node) :
    earliest? solve' ns = (earliest? solve ns).map (Prod.map (List.map (Capture.renumber ρ)) id) := by
  induction ns with
  | nil => rfl
  | cons n ns ih =>
    rw [earliest?, earliest?, h, ih]
    cases solve n with
    | none => rfl
    | some s => rfl

lemma gather?_renumber (h : ∀ n, solve' n = renumberSolution ρ (solve n)) (ns : List Node) :
    gather? solve' ns = (gather? solve ns).map (Prod.map (List.map (Capture.renumber ρ)) id) := by
  induction ns with
  | nil => rfl
  | cons n ns ih =>
    rw [gather?, gather?, h, ih]
    cases solve n with
    | none =>
      cases gather? solve ns with
      | none => rfl
      | some r => rfl
    | some s =>
      cases gather? solve ns with
      | none => rfl
      | some r => simp [renumberSolution, Prod.map]

lemma childSolution?_renumber (h : ∀ n, (p.renumber ρ).solution? n = renumberSolution ρ (p.solution? n)) (n : Node) :
    (p.renumber ρ).childSolution? n = renumberSolution ρ (p.childSolution? n) := by
  rw [childSolution?, childSolution?, role_renumber, h]
  change (if p.role.fits n then _ else _) = _
  split
  · rfl
  · rfl

lemma bind_renumber {next next' : List Node → Option (List Capture)}
    (hnext : ∀ ns, next' ns = renumberSolution ρ (next ns)) (r : Option (List Capture × List Node)) :
    ((r.map (Prod.map (List.map (Capture.renumber ρ)) id)).bind fun r => (next' r.2).map (r.1 ++ ·)) =
      renumberSolution ρ (r.bind fun r => (next r.2).map (r.1 ++ ·)) := by
  cases r with
  | none => rfl
  | some r =>
    simp only [Option.map_some, Option.bind_some, Prod.map, id, hnext, renumberSolution, Option.map_map,
      Function.comp_def, List.map_append]

lemma sequence?_renumber (h : ∀ p ∈ ps, ∀ n, (p.renumber ρ).solution? n = renumberSolution ρ (p.solution? n))
    (ns : List Node) : sequence? (ps.map (renumber ρ)) ns = renumberSolution ρ (sequence? ps ns) := by
  induction ps generalizing ns with
  | nil => rfl
  | cons p ps ih =>
    obtain ⟨hp, hps⟩ := List.forall_mem_cons.mp h
    have hp := childSolution?_renumber hp
    rw [List.map_cons, sequence?_cons, sequence?_cons, earliest?_renumber hp, gather?_renumber hp,
      bind_renumber (ih hps), bind_renumber (ih hps), ih hps ns, quantifier_renumber]
    cases p.role.quantifier with
    | one => rfl
    | optional =>
      cases (earliest? p.childSolution? ns).bind fun r => (sequence? ps r.2).map (r.1 ++ ·) with
      | none => rfl
      | some s => rfl
    | zeroOrMore =>
      dsimp only
      rw [← bind_renumber (ih hps), Option.map_some]
      cases gather? p.childSolution? ns with
      | none => rfl
      | some r => rfl
    | oneOrMore => rfl

lemma solutionAmong?_renumber (h : ∀ p ∈ ps, ∀ n, (p.renumber ρ).solution? n = renumberSolution ρ (p.solution? n))
    (n : Node) : solutionAmong? (ps.map (renumber ρ)) n = renumberSolution ρ (solutionAmong? ps n) := by
  induction ps with
  | nil => rfl
  | cons p ps ih =>
    obtain ⟨hp, hps⟩ := List.forall_mem_cons.mp h
    have hp := childSolution?_renumber hp n
    rw [childSolution?, childSolution?] at hp
    rw [List.map_cons, solutionAmong?, solutionAmong?, hp, ih hps]
    cases if p.role.fits n = true then p.solution? n else none with
    | none => rfl
    | some s => rfl

lemma solution?_renumber (ρ : Nat → Nat) (p : Pattern) (n : Node) :
    (p.renumber ρ).solution? n = renumberSolution ρ (p.solution? n) := by
  induction p using innerInduction generalizing n with
  | node test children role ih =>
    rw [renumber, solution?, solution?, renumberAll_eq, sequence?_renumber ih, renumberSolution_capturesOf]
    split
    · rfl
    · rfl
  | choice alternatives role ih =>
    rw [renumber, solution?, solution?, renumberAll_eq, solutionAmong?_renumber ih, renumberSolution_capturesOf]

lemma startingWith_renumber (ρ : Nat → Nat) (p : Pattern) (ps : List Pattern) (ns : List Node) :
    startingWith (p.renumber ρ) (ps.map (renumber ρ)) ns =
      (startingWith p ps ns).map (List.map (Capture.renumber ρ)) := by
  induction ns with
  | nil => rfl
  | cons n ns ih =>
    rw [startingWith, startingWith, ih, List.map_append, childSolution?_renumber (p.solution?_renumber ρ),
      sequence?_renumber fun q _ => q.solution?_renumber ρ]
    congr 1
    cases p.childSolution? n with
    | none => rfl
    | some s =>
      cases sequence? ps ns with
      | none => rfl
      | some more => simp [renumberSolution]

lemma sequenceSolutions_renumber (ρ : Nat → Nat) (ps : List Pattern) (ns : List Node) :
    sequenceSolutions (ps.map (renumber ρ)) ns = (sequenceSolutions ps ns).map (List.map (Capture.renumber ρ)) := by
  cases ps with
  | nil => rfl
  | cons p ps =>
    have hsequence : sequence? ((p :: ps).map (renumber ρ)) ns = renumberSolution ρ (sequence? (p :: ps) ns) :=
      sequence?_renumber (fun q _ => q.solution?_renumber ρ) ns
    rw [List.map_cons] at hsequence ⊢
    rw [sequenceSolutions, sequenceSolutions, startingWith_renumber, hsequence, quantifier_renumber,
      renumberSolution, Option.toList_map]
    cases p.role.quantifier with
    | one => rfl
    | optional | zeroOrMore | oneOrMore => rfl

lemma solutionsAmong_renumber
    (h : ∀ p ∈ ps, (p.renumber ρ).solutions n = (p.solutions n).map (List.map (Capture.renumber ρ))) :
    solutionsAmong (ps.map (renumber ρ)) n = (solutionsAmong ps n).map (List.map (Capture.renumber ρ)) := by
  induction ps with
  | nil => rfl
  | cons p ps ih =>
    obtain ⟨hp, hps⟩ := List.forall_mem_cons.mp h
    rw [List.map_cons, solutionsAmong, solutionsAmong, ih hps, hp, role_renumber, List.map_append]
    congr 1
    change (if p.role.fits n then _ else _) = _
    split
    · rfl
    · rfl

/-- A renumbered pattern has the same solutions, with every capture under its new index. -/
theorem solutions_renumber (ρ : Nat → Nat) (p : Pattern) (n : Node) :
    (p.renumber ρ).solutions n = (p.solutions n).map (List.map (Capture.renumber ρ)) := by
  induction p using innerInduction with
  | node test children role ih =>
    rw [renumber, solutions, solutions, renumberAll_eq, sequenceSolutions_renumber]
    split
    · simp only [List.map_map, Function.comp_def, capturesOf_renumber, List.map_append]
    · rfl
  | choice alternatives role ih =>
    rw [renumber, solutions, solutions, renumberAll_eq, solutionsAmong_renumber ih]
    simp only [List.map_map, Function.comp_def, capturesOf_renumber, List.map_append]

lemma eq_of_map_eq_self {α : Type} {f : α → α} {as : List α} {a : α} (h : as.map f = as) (ha : a ∈ as) : f a = a := by
  nth_rewrite 2 [← List.map_id as] at h
  exact List.map_inj_left.mp h a ha

/-- A solution captures under the indices of the pattern only: a change of all other indices does not change it. -/
theorem index_mem_captures {s : List Capture} {c : Capture} (hs : s ∈ p.solutions n) (hc : c ∈ s) :
    c.index ∈ p.captures := by
  let ρ (i : Nat) : Nat := if i ∈ p.captures then i else i + 1
  have hself : p.renumber ρ = p := renumber_eq_self fun i hi => if_pos hi
  have hsolutions := p.solutions_renumber ρ n
  rw [hself] at hsolutions
  have hfixed : s.map (Capture.renumber ρ) = s := eq_of_map_eq_self hsolutions.symm hs
  have hindex : ρ c.index = c.index := congrArg Capture.index (eq_of_map_eq_self hfixed hc)
  by_contra hnot
  have hmoved : ρ c.index = c.index + 1 := if_neg hnot
  omega

end

end Pattern

/-! ## Predicates -/

section
variable {ρ} {captures : List Capture}

lemma Predicate.captures_renumber [RegexEngine] (ρ : Nat → Nat) (p : Predicate) : (p.renumber ρ).captures = p.captures.map ρ := by
  obtain ⟨capture, comparison, negated⟩ := p
  cases comparison with
  | eq other =>
    cases other with
    | capture i => rfl
    | text s => rfl
  | «matches» r => rfl
  | anyOf values => rfl

lemma Predicate.capture_mem_captures [RegexEngine] (p : Predicate) : p.capture ∈ p.captures := by
  rw [Predicate.captures]
  split
  · exact List.mem_cons_self ..
  · exact List.mem_cons_self ..

lemma textsUnder_renumber (source : ByteArray) {i : Nat} (h : ∀ c ∈ captures, ρ c.index = ρ i → c.index = i) :
    textsUnder source (captures.map (Capture.renumber ρ)) (ρ i) = textsUnder source captures i := by
  have hsame : (captures.map (Capture.renumber ρ)).filter (·.index = ρ i) =
      (captures.filter (·.index = i)).map (Capture.renumber ρ) := by
    rw [List.filter_map]
    congr 1
    refine List.filter_congr fun c hc => ?_
    rw [Function.comp_apply, decide_eq_decide]
    exact ⟨h c hc, congrArg ρ⟩
  rw [textsUnder, hsame, List.map_map, textsUnder]
  rfl

lemma Predicate.holds_renumber [RegexEngine] (source : ByteArray) {p : Predicate}
    (h : ∀ i ∈ p.captures, ∀ c ∈ captures, ρ c.index = ρ i → c.index = i) :
    (p.renumber ρ).holds source (captures.map (Capture.renumber ρ)) = p.holds source captures := by
  have hown : textsUnder source (captures.map (Capture.renumber ρ)) (ρ p.capture) =
      textsUnder source captures p.capture := textsUnder_renumber source (h p.capture p.capture_mem_captures)
  have hcompares (s : String) :
      (p.renumber ρ).compares source (captures.map (Capture.renumber ρ)) s = p.compares source captures s := by
    obtain ⟨capture, comparison, negated⟩ := p
    cases comparison with
    | eq other =>
      cases other with
      | capture i =>
        have hother := textsUnder_renumber source (h i (by simp [Predicate.captures]))
        simp only [Predicate.renumber, Comparison.renumber, Operand.renumber, Predicate.compares, hother]
      | text t => rfl
    | «matches» r => rfl
    | anyOf values => rfl
  rw [holds, holds]
  change (textsUnder source _ (ρ p.capture)).all _ = _
  rw [hown]
  exact congrArg _ (funext hcompares)

end

end RenpyScript
