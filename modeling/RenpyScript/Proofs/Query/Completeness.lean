import RenpyScript.Proofs.Query.Soundness

/-!
# Without repetitions every match is found

A child pattern that is not repeated takes the earliest child that it accepts, which leaves at least as many children to
the patterns behind it as any other choice. So a pattern in which no child pattern is repeated has a solution wherever it
has an embedding. If the child patterns of a sequence are all for one child, there is one solution for each child with
which an embedding can begin, and it takes the earliest children behind that one.
-/

namespace RenpyScript.Pattern

/-- There is a solution wherever there is an embedding. -/
def Complete (p : Pattern) : Prop :=
  ∀ n s, p.Matches n s → (p.solution? n).isSome = true

section
variable {p : Pattern} {ps : List Pattern} {ns : List Node} {n : Node} {s : List Capture} {groups : List (List Node)}

lemma Complete.childSolution? (hp : p.Complete) (h : p.Takes n) : (p.childSolution? n).isSome = true := by
  obtain ⟨hfits, s, hs⟩ := h
  exact isSome_childSolution?.mpr ⟨hfits, hp n s hs⟩

lemma MatchesEach.takes {group : List Node} (h : MatchesEach p group s) : ∀ n ∈ group, p.Takes n := by
  intro n hn
  induction group generalizing s with
  | nil => cases hn
  | cons m group ih =>
    cases h with
    | cons fits matched rest =>
      rcases List.mem_cons.mp hn with rfl | hn
      · exact ⟨fits, _, matched⟩
      · exact ih rest hn

lemma Complete.leaves (hp : p.Complete) (hone : p.role.quantifier = .one) (htakes : p.Takes n)
    (h : (n :: groups.flatten).Sublist ns) : ∃ rest, p.Leaves ns rest ∧ groups.flatten.Sublist rest := by
  obtain ⟨front, behind, rfl, hn, hbehind⟩ := List.cons_sublist_iff.mp h
  obtain ⟨a, b, rfl⟩ := List.append_of_mem hn
  refine ⟨b ++ behind, ?_, hbehind.trans (List.sublist_append_right ..)⟩
  simp only [Leaves, hone]
  exact ⟨a, n, by simp, hp.childSolution? htakes⟩

lemma isSome_sequence?_of_assigned (honce : ∀ p ∈ ps, p.role.quantifier = .one ∨ p.role.quantifier = .optional)
    (hcomplete : ∀ p ∈ ps, p.Complete) (hgroups : groups.flatten.Sublist ns) (h : Assigned ps groups s) :
    (sequence? ps ns).isSome = true := by
  induction ps generalizing ns groups s with
  | nil =>
    rw [sequence?]
    rfl
  | cons p ps ih =>
    obtain ⟨hp, hps⟩ := List.forall_mem_cons.mp hcomplete
    obtain ⟨hponce, hpsonce⟩ := List.forall_mem_cons.mp honce
    cases h with
    | @cons _ _ group groups t t' admitted each rest =>
      rw [List.flatten_cons] at hgroups
      rw [isSome_sequence?_cons]
      rcases hponce with hone | hoptional
      · rw [hone] at admitted
        obtain ⟨n, rfl⟩ := List.length_eq_one_iff.mp (of_decide_eq_true admitted)
        obtain ⟨left, hleft, hgroups⟩ := hp.leaves hone (each.takes n (List.mem_singleton_self n)) hgroups
        exact ⟨left, hleft, ih hpsonce hps hgroups rest⟩
      · -- Nothing is lost if the pattern takes no child.
        refine ⟨ns, by simp only [Leaves, hoptional], ?_⟩
        exact ih hpsonce hps ((List.sublist_append_right ..).trans hgroups) rest

theorem Unrepeated.complete (hp : p.Unrepeated) : p.Complete := by
  induction p using innerInduction with
  | node test children role ih =>
    cases hp with
    | node once inner =>
      intro n s h
      cases h with
      | node accepted inOrder assigned =>
        rw [isSome_solution?_node]
        exact ⟨accepted, isSome_sequence?_of_assigned once (fun q hq => ih q hq (inner q hq)) inOrder assigned⟩
  | choice alternatives role ih =>
    cases hp with
    | choice inner =>
      intro n s h
      cases h with
      | @choice _ _ q _ captures among fits matched =>
        rw [isSome_solution?_choice]
        exact ⟨q, among, (ih q among (inner q among)).childSolution? ⟨fits, captures, matched⟩⟩

lemma Unrepeated.isSome_solution?_iff (hp : p.Unrepeated) : (p.solution? n).isSome = true ↔ ∃ s, p.Matches n s := by
  constructor
  · intro h
    obtain ⟨s, hs⟩ := Option.isSome_iff_exists.mp h
    exact ⟨s, p.sound n s hs⟩
  · rintro ⟨s, hs⟩
    exact hp.complete n s hs

lemma Unrepeated.isSome_childSolution?_iff (hp : p.Unrepeated) :
    (p.childSolution? n).isSome = true ↔ p.Takes n := by
  rw [isSome_childSolution?, hp.isSome_solution?_iff, Takes]

lemma isSome_sequence?_iff_embeds (honce : ∀ p ∈ ps, p.role.quantifier = .one ∨ p.role.quantifier = .optional)
    (hunrepeated : ∀ p ∈ ps, p.Unrepeated) : (sequence? ps ns).isSome = true ↔ Embeds ps ns := by
  constructor
  · intro h
    obtain ⟨s, hs⟩ := Option.isSome_iff_exists.mp h
    obtain ⟨groups, hgroups, hassigned⟩ := sequence?_assigned (fun q _ => q.sound) hs
    exact ⟨groups, s, hgroups, hassigned⟩
  · rintro ⟨groups, s, hgroups, hassigned⟩
    exact isSome_sequence?_of_assigned honce (fun q hq => (hunrepeated q hq).complete) hgroups hassigned

end

/-! ## Sequences of patterns for one child -/

section
variable {p : Pattern} {ps : List Pattern} {ns : List Node} {s : List Capture}

lemma sequence?_earliest (hones : ∀ p ∈ ps, p.role.quantifier = .one ∧ p.Unrepeated) {k : Nat}
    (hs : sequence? ps (ns.drop k) = some s) : ∃ is, Earliest ns ps k is s := by
  induction ps generalizing k s with
  | nil =>
    rw [sequence?, Option.some.injEq] at hs
    subst hs
    exact ⟨[], .nil⟩
  | cons p ps ih =>
    obtain ⟨⟨hone, hp⟩, hps⟩ := List.forall_mem_cons.mp hones
    rw [sequence?_cons, hone] at hs
    obtain ⟨⟨t, rest⟩, hearliest, hs⟩ := Option.bind_eq_some_iff.mp hs
    obtain ⟨t', hrest, rfl⟩ := Option.map_eq_some_iff.mp hs
    obtain ⟨before, n, hns, hbefore, hn⟩ := earliest?_eq_some_iff.mp hearliest
    obtain ⟨hfits, hmatch⟩ := p.sound.childSolution? hn
    -- Indices are those in the whole list, of which `k` nodes have been left behind.
    have hat (j : Nat) : ns[k + j]? = (before ++ n :: rest)[j]? := by
      rw [← hns, List.getElem?_drop]
    have hleft : ns.drop (k + before.length + 1) = rest := by
      rw [Nat.add_assoc, ← List.drop_drop, hns]
      simp
    obtain ⟨is, his⟩ := ih hps (hleft ▸ hrest)
    refine ⟨(k + before.length) :: is, .cons (n := n) ?_ (Nat.le_add_right ..) hfits hmatch ?_ his⟩
    · rw [hat]
      simp
    · intro j m hkj hj hm htakes
      obtain ⟨i, rfl⟩ := Nat.exists_eq_add_of_le hkj
      have hi : i < before.length := by omega
      rw [hat, List.getElem?_append_left hi] at hm
      have hsome := hp.isSome_childSolution?_iff.mpr htakes
      rw [hbefore m (List.mem_of_getElem? hm)] at hsome
      cases hsome

/-- The solution of a sequence that begins with the node at index `i`. -/
def solutionFrom? (p : Pattern) (ps : List Pattern) (ns : List Node) (i : Nat) : Option (List Capture) :=
  (ns[i]?.bind p.childSolution?).bind fun s => (sequence? ps (ns.drop (i + 1))).map (s ++ ·)

lemma startingWith_eq (p : Pattern) (ps : List Pattern) (ns : List Node) :
    startingWith p ps ns = (List.range ns.length).filterMap (solutionFrom? p ps ns) := by
  induction ns with
  | nil => rfl
  | cons n ns ih =>
    have hbehind : (List.range ns.length).filterMap (solutionFrom? p ps (n :: ns) ∘ Nat.succ) =
        startingWith p ps ns := by
      rw [ih]
      rfl
    have hhere : solutionFrom? p ps (n :: ns) 0 =
        (p.childSolution? n).bind fun s => (sequence? ps ns).map (s ++ ·) := rfl
    rw [startingWith, List.length_cons, List.range_succ_eq_map, List.filterMap_cons, List.filterMap_map, hbehind, hhere]
    cases (p.childSolution? n).bind fun s => (sequence? ps ns).map (s ++ ·) <;> rfl

lemma forall₂_filterMap {α β : Type} {f : α → Option β} {R : α → β → Prop} (h : ∀ a b, f a = some b → R a b)
    (as : List α) : List.Forall₂ R (as.filter fun a => (f a).isSome) (as.filterMap f) := by
  induction as with
  | nil => exact .nil
  | cons a as ih =>
    cases hf : f a with
    | none =>
      rw [List.filter_cons_of_neg (by simp [hf]), List.filterMap_cons_none hf]
      exact ih
    | some b =>
      rw [List.filter_cons_of_pos (by simp [hf]), List.filterMap_cons_some hf]
      exact .cons (h a b hf) ih

lemma isSome_solutionFrom? {i : Nat} : (solutionFrom? p ps ns i).isSome = true ↔
    ∃ n, ns[i]? = some n ∧ (p.childSolution? n).isSome = true ∧ (sequence? ps (ns.drop (i + 1))).isSome = true := by
  rw [solutionFrom?]
  cases ns[i]? with
  | none => simp
  | some n => cases h : p.childSolution? n <;> simp [h]

lemma solutionFrom?_earliest (hones : ∀ q ∈ p :: ps, q.role.quantifier = .one ∧ q.Unrepeated) {i : Nat}
    (hs : solutionFrom? p ps ns i = some s) : ∃ is, Earliest ns (p :: ps) i (i :: is) s := by
  obtain ⟨t, ht, hs⟩ := Option.bind_eq_some_iff.mp hs
  obtain ⟨n, hn, ht⟩ := Option.bind_eq_some_iff.mp ht
  obtain ⟨t', ht', rfl⟩ := Option.map_eq_some_iff.mp hs
  obtain ⟨hfits, hmatch⟩ := p.sound.childSolution? ht
  obtain ⟨is, his⟩ := sequence?_earliest (List.forall_mem_cons.mp hones).2 ht'
  exact ⟨is, .cons hn (Nat.le_refl i) hfits hmatch (fun j m hij hji => absurd hij (Nat.not_le.mpr hji)) his⟩

/-- The solutions of a sequence are one for each node with which an embedding can begin, in the order of the nodes. -/
lemma exists_starts (hones : ∀ q ∈ p :: ps, q.role.quantifier = .one ∧ q.Unrepeated) (ns : List Node) :
    ∃ starts : List Nat, starts.Pairwise (· < ·) ∧
      (∀ i, i ∈ starts ↔ ∃ n, ns[i]? = some n ∧ p.Takes n ∧ Embeds ps (ns.drop (i + 1))) ∧
      List.Forall₂ (fun i s => ∃ is, Earliest ns (p :: ps) i (i :: is) s) starts (sequenceSolutions (p :: ps) ns) := by
  obtain ⟨⟨hone, hp⟩, hps⟩ := List.forall_mem_cons.mp hones
  refine ⟨(List.range ns.length).filter fun i => (solutionFrom? p ps ns i).isSome,
    List.pairwise_lt_range.filter _, fun i => ?_, ?_⟩
  · have hembeds : (sequence? ps (ns.drop (i + 1))).isSome = true ↔ Embeds ps (ns.drop (i + 1)) :=
      isSome_sequence?_iff_embeds (fun q hq => .inl (hps q hq).1) (fun q hq => (hps q hq).2)
    rw [List.mem_filter, List.mem_range, isSome_solutionFrom?, and_iff_right_of_imp]
    · simp only [hp.isSome_childSolution?_iff, hembeds]
    · rintro ⟨n, hn, -⟩
      exact (List.getElem?_eq_some_iff.mp hn).1
  · have hstarting : sequenceSolutions (p :: ps) ns = startingWith p ps ns := by
      rw [sequenceSolutions, hone]
    have hearliest : ∀ i s, solutionFrom? p ps ns i = some s → ∃ is, Earliest ns (p :: ps) i (i :: is) s :=
      fun i s => solutionFrom?_earliest hones
    rw [hstarting, startingWith_eq]
    exact forall₂_filterMap hearliest _

end

/-- A pattern in which no child pattern is repeated has a solution at a node if and only if it has an embedding there. A
sequence of patterns for one child each has a solution for each child with which an embedding can begin, in the order of
the children, and behind that child each pattern takes the first child that it can. -/
theorem search_complete {p : Pattern} (hp : p.Unrepeated) (n : Node) {first : Pattern} {others : List Pattern}
    (hones : ∀ q ∈ first :: others, q.role.quantifier = .one ∧ q.Unrepeated) (ns : List Node) :
    (p.solutions n ≠ [] ↔ ∃ s, p.Matches n s) ∧ ((p.solution? n).isSome = true ↔ ∃ s, p.Matches n s) ∧
    ∃ starts : List Nat, starts.Pairwise (· < ·) ∧
      (∀ i, i ∈ starts ↔ ∃ m, ns[i]? = some m ∧ first.Takes m ∧ Embeds others (ns.drop (i + 1))) ∧
      List.Forall₂ (fun i s => ∃ is, Earliest ns (first :: others) i (i :: is) s) starts
        (sequenceSolutions (first :: others) ns) := by
  refine ⟨?_, hp.isSome_solution?_iff, exists_starts hones ns⟩
  rw [solutions_ne_nil]
  exact hp.isSome_solution?_iff

/-- The pattern for as many statements as a quantifier admits. -/
def statements (q : Quantifier) : Pattern :=
  .node (.rule .statement) [] ⟨none, [], q⟩

lemma unrepeated_statements (q : Quantifier) : (statements q).Unrepeated :=
  .node (by simp) (by simp)

/-- Three statements, two of which are followed by another one. -/
theorem search_complete_statements : ∃ ns : List Node, ns.length = 3 ∧
    (∃ s, (node (.rule .block) [statements .optional, statements .one] .plain).Matches
      ⟨none, .block, ⟨0, 9⟩, false, ns⟩ s) ∧
    ∃ starts : List Nat, starts.length = 2 ∧
      List.Forall₂ (fun i s => ∃ is, Earliest ns [statements .one, statements .one] i (i :: is) s) starts
        (sequenceSolutions [statements .one, statements .one] ns) := by
  have hp : (node (.rule .block) [statements .optional, statements .one] .plain).Unrepeated :=
    .node (by simp [statements, role]) (by simp [unrepeated_statements])
  have hones : ∀ q ∈ [statements .one, statements .one], q.role.quantifier = .one ∧ q.Unrepeated := by
    intro q hq
    obtain rfl : q = statements .one := by simpa using hq
    exact ⟨rfl, unrepeated_statements .one⟩
  let ns : List Node := [.leaf .statement ⟨0, 3⟩, .leaf .statement ⟨3, 6⟩, .leaf .statement ⟨6, 9⟩]
  obtain ⟨hmatches, -, starts, -, -, hstarts⟩ := search_complete hp ⟨none, .block, ⟨0, 9⟩, false, ns⟩ hones ns
  refine ⟨ns, rfl, hmatches.mp (by decide), starts, ?_, hstarts⟩
  rw [hstarts.length_eq]
  rfl

end RenpyScript.Pattern
