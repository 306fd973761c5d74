import RenpyScript.Proofs.Query.Walk

/-!
# What matches capture

A pattern captures the node that it matches and nodes below it, as its child patterns match children. So
whatever a query captures in a subtree is a node of that subtree.
-/

namespace RenpyScript

def CapturesAmong (nodes : List Node) (captures : List Capture) : Prop :=
  ∀ c ∈ captures, c.node ∈ nodes

section
variable {nodes nodes' : List Node} {s s' : List Capture}

lemma capturesAmong_nil (nodes : List Node) : CapturesAmong nodes [] := by
  intro c hc
  cases hc

lemma CapturesAmong.append (h : CapturesAmong nodes s) (h' : CapturesAmong nodes s') : CapturesAmong nodes (s ++ s') := by
  intro c hc
  rcases List.mem_append.mp hc with hc | hc
  · exact h c hc
  · exact h' c hc

lemma CapturesAmong.mono (h : CapturesAmong nodes s) (hle : nodes ⊆ nodes') : CapturesAmong nodes' s :=
  fun c hc => hle (h c hc)

end

namespace Node

lemma flatMap_preorder_subset {ns ms : List Node} (h : ms ⊆ ns) : ms.flatMap preorder ⊆ ns.flatMap preorder := by
  intro m hm
  obtain ⟨n, hn, hm⟩ := List.mem_flatMap.mp hm
  exact List.mem_flatMap.mpr ⟨n, h hn, hm⟩
end Node

namespace Pattern

/-- What holds of a pattern if it holds of the patterns in it, holds of all patterns. -/
theorem innerInduction {P : Pattern → Prop}
    (node : ∀ test children role, (∀ p ∈ children, P p) → P (.node test children role))
    (choice : ∀ alternatives role, (∀ p ∈ alternatives, P p) → P (.choice alternatives role)) (p : Pattern) : P p := by
  induction p using Pattern.rec (motive_2 := fun ps => ∀ p ∈ ps, P p) with
  | node test children role ih => exact node test children role ih
  | choice alternatives role ih => exact choice alternatives role ih
  | nil q hq => cases hq
  | cons p ps hp hps q hq =>
    rcases List.mem_cons.mp hq with rfl | hq
    · exact hp
    · exact hps q hq

lemma capturesAmong_capturesOf (r : Role) (n : Node) : CapturesAmong n.preorder (r.capturesOf n) := by
  intro c hc
  obtain ⟨i, -, rfl⟩ := List.mem_map.mp hc
  exact n.self_mem_preorder

/-- Whatever `solve` captures at a node is a node of its subtree. -/
def Inside (solve : Node → Option (List Capture)) : Prop :=
  ∀ n s, solve n = some s → CapturesAmong n.preorder s

section
variable {solve : Node → Option (List Capture)} {ns rest : List Node} {s : List Capture} {p : Pattern} {ps : List Pattern}

lemma Inside.earliest? (h : Inside solve) (hs : Pattern.earliest? solve ns = some (s, rest)) :
    CapturesAmong (ns.flatMap Node.preorder) s ∧ rest ⊆ ns := by
  induction ns with
  | nil => cases hs
  | cons n ns ih =>
    rw [Pattern.earliest?] at hs
    split at hs
    · next t hsolve =>
      obtain ⟨rfl, rfl⟩ := Prod.mk.inj (Option.some.inj hs)
      refine ⟨(h n _ hsolve).mono ?_, List.subset_cons_self ..⟩
      rw [List.flatMap_cons]
      exact List.subset_append_left ..
    · obtain ⟨hcaptures, hrest⟩ := ih hs
      exact ⟨hcaptures.mono (Node.flatMap_preorder_subset (List.subset_cons_self ..)),
        List.Subset.trans hrest (List.subset_cons_self ..)⟩

lemma Inside.gather? (h : Inside solve) (hs : Pattern.gather? solve ns = some (s, rest)) :
    CapturesAmong (ns.flatMap Node.preorder) s ∧ rest ⊆ ns := by
  induction ns generalizing s rest with
  | nil => cases hs
  | cons n ns ih =>
    have htail : ns ⊆ n :: ns := List.subset_cons_self ..
    have hhead {t : List Capture} (ht : solve n = some t) : CapturesAmong ((n :: ns).flatMap Node.preorder) t := by
      refine (h n t ht).mono ?_
      rw [List.flatMap_cons]
      exact List.subset_append_left ..
    rw [Pattern.gather?] at hs
    split at hs
    · next t more rest' hsolve hgather =>
      obtain ⟨rfl, rfl⟩ := Prod.mk.inj (Option.some.inj hs)
      obtain ⟨hcaptures, hrest⟩ := ih hgather
      exact ⟨(hhead hsolve).append (hcaptures.mono (Node.flatMap_preorder_subset htail)), List.Subset.trans hrest htail⟩
    · next t hsolve hgather =>
      obtain ⟨rfl, rfl⟩ := Prod.mk.inj (Option.some.inj hs)
      exact ⟨hhead hsolve, htail⟩
    · obtain ⟨hcaptures, hrest⟩ := ih hs
      exact ⟨hcaptures.mono (Node.flatMap_preorder_subset htail), List.Subset.trans hrest htail⟩

lemma Inside.childSolution? (h : Inside p.solution?) : Inside p.childSolution? := by
  intro n s hs
  rw [Pattern.childSolution?] at hs
  split at hs
  · exact h n s hs
  · cases hs

lemma capturesAmong_bind {r : Option (List Capture × List Node)} {next : List Node → Option (List Capture)}
    (hr : ∀ t rest, r = some (t, rest) → CapturesAmong (ns.flatMap Node.preorder) t ∧ rest ⊆ ns)
    (hnext : ∀ rest t, next rest = some t → CapturesAmong (rest.flatMap Node.preorder) t)
    (hs : (r.bind fun r => (next r.2).map (r.1 ++ ·)) = some s) : CapturesAmong (ns.flatMap Node.preorder) s := by
  obtain ⟨⟨t, rest⟩, hfirst, hs⟩ := Option.bind_eq_some_iff.mp hs
  obtain ⟨t', hrest, rfl⟩ := Option.map_eq_some_iff.mp hs
  obtain ⟨ht, hle⟩ := hr t rest hfirst
  exact ht.append ((hnext rest t' hrest).mono (Node.flatMap_preorder_subset hle))

lemma sequence?_cons (p : Pattern) (ps : List Pattern) (ns : List Node) : sequence? (p :: ps) ns =
    match p.role.quantifier with
    | .one => (earliest? p.childSolution? ns).bind fun r => (sequence? ps r.2).map (r.1 ++ ·)
    | .optional =>
      match (earliest? p.childSolution? ns).bind fun r => (sequence? ps r.2).map (r.1 ++ ·) with
      | some s => some s
      | none => sequence? ps ns
    | .zeroOrMore => (some ((gather? p.childSolution? ns).getD ([], ns))).bind fun r => (sequence? ps r.2).map (r.1 ++ ·)
    | .oneOrMore => (gather? p.childSolution? ns).bind fun r => (sequence? ps r.2).map (r.1 ++ ·) := by
  rw [sequence?]
  rfl

lemma sequence?_among (h : ∀ p ∈ ps, Inside p.solution?) (hs : sequence? ps ns = some s) :
    CapturesAmong (ns.flatMap Node.preorder) s := by
  induction ps generalizing ns s with
  | nil =>
    rw [sequence?, Option.some.injEq] at hs
    subst hs
    exact capturesAmong_nil _
  | cons p ps ih =>
    obtain ⟨hp, hps⟩ := List.forall_mem_cons.mp h
    have hnext (rest : List Node) (t : List Capture) (ht : sequence? ps rest = some t) :
        CapturesAmong (rest.flatMap Node.preorder) t := ih hps ht
    rw [sequence?_cons] at hs
    split at hs
    · exact capturesAmong_bind (fun t rest => hp.childSolution?.earliest?) hnext hs
    · split at hs
      · next t hfound =>
        obtain rfl : t = s := Option.some.inj hs
        exact capturesAmong_bind (fun t rest => hp.childSolution?.earliest?) hnext hfound
      · exact hnext ns s hs
    · refine capturesAmong_bind (fun t rest hr => ?_) hnext hs
      rw [Option.some.injEq] at hr
      cases hgather : gather? p.childSolution? ns with
      | none =>
        rw [hgather, Option.getD_none, Prod.mk.injEq] at hr
        obtain ⟨rfl, rfl⟩ := hr
        exact ⟨capturesAmong_nil _, List.Subset.refl _⟩
      | some r =>
        rw [hgather, Option.getD_some] at hr
        subst hr
        exact hp.childSolution?.gather? hgather
    · exact capturesAmong_bind (fun t rest => hp.childSolution?.gather?) hnext hs

lemma solutionAmong?_inside (h : ∀ p ∈ ps, Inside p.solution?) : Inside (solutionAmong? ps) := by
  intro n s hs
  induction ps with
  | nil => cases hs
  | cons p ps ih =>
    obtain ⟨hp, hps⟩ := List.forall_mem_cons.mp h
    rw [solutionAmong?] at hs
    split at hs
    · next t hfound =>
      obtain rfl : t = s := Option.some.inj hs
      exact hp.childSolution? n t hfound
    · exact ih hps hs

lemma solution?_inside (p : Pattern) : Inside p.solution? := by
  induction p using innerInduction with
  | node test children role ih =>
    intro n s hs
    rw [solution?] at hs
    split at hs
    · obtain ⟨t, ht, rfl⟩ := Option.map_eq_some_iff.mp hs
      exact (capturesAmong_capturesOf role n).append ((sequence?_among ih ht).mono n.children_subset_preorder)
    · cases hs
  | choice alternatives role ih =>
    intro n s hs
    rw [solution?] at hs
    obtain ⟨t, ht, rfl⟩ := Option.map_eq_some_iff.mp hs
    exact (capturesAmong_capturesOf role n).append (solutionAmong?_inside ih n t ht)

/-! ## All solutions -/

lemma startingWith_among (p : Pattern) (ps : List Pattern) (hs : s ∈ startingWith p ps ns) :
    CapturesAmong (ns.flatMap Node.preorder) s := by
  induction ns with
  | nil => cases hs
  | cons n ns ih =>
    have htail := Node.flatMap_preorder_subset (List.subset_cons_self n ns)
    rw [startingWith] at hs
    rcases List.mem_append.mp hs with hs | hs
    · obtain ⟨t, ht, hs⟩ := Option.bind_eq_some_iff.mp (Option.mem_toList.mp hs)
      obtain ⟨t', ht', rfl⟩ := Option.map_eq_some_iff.mp hs
      refine CapturesAmong.append ((p.solution?_inside.childSolution? n t ht).mono ?_)
        ((sequence?_among (fun q _ => q.solution?_inside) ht').mono htail)
      rw [List.flatMap_cons]
      exact List.subset_append_left ..
    · exact (ih hs).mono htail

lemma sequenceSolutions_among (hs : s ∈ sequenceSolutions ps ns) : CapturesAmong (ns.flatMap Node.preorder) s := by
  rw [sequenceSolutions.eq_def] at hs
  split at hs
  · rw [List.mem_singleton.mp hs]
    exact capturesAmong_nil _
  · split at hs
    · exact startingWith_among _ _ hs
    · exact sequence?_among (fun q _ => q.solution?_inside) (Option.mem_toList.mp hs)

lemma solutionsAmong_inside {n : Node} (h : ∀ p ∈ ps, ∀ s ∈ p.solutions n, CapturesAmong n.preorder s)
    (hs : s ∈ solutionsAmong ps n) : CapturesAmong n.preorder s := by
  induction ps with
  | nil =>
    rw [solutionsAmong] at hs
    cases hs
  | cons p ps ih =>
    obtain ⟨hp, hps⟩ := List.forall_mem_cons.mp h
    rw [solutionsAmong] at hs
    rcases List.mem_append.mp hs with hs | hs
    · split at hs
      · exact hp s hs
      · cases hs
    · exact ih hps hs

/-- What a solution of a pattern captures is a node of the subtree. -/
theorem solutions_inside (p : Pattern) (n : Node) (hs : s ∈ p.solutions n) : CapturesAmong n.preorder s := by
  induction p using innerInduction generalizing s with
  | node test children role ih =>
    rw [solutions] at hs
    split at hs
    · obtain ⟨t, ht, rfl⟩ := List.mem_map.mp hs
      exact (capturesAmong_capturesOf role n).append ((sequenceSolutions_among ht).mono n.children_subset_preorder)
    · cases hs
  | choice alternatives role ih =>
    rw [solutions] at hs
    obtain ⟨t, ht, rfl⟩ := List.mem_map.mp hs
    exact (capturesAmong_capturesOf role n).append (solutionsAmong_inside (fun q hq s => ih q hq) ht)

end

end Pattern

namespace Query

variable [RegexEngine]

lemma matchesAt_among {q : Query} {source : ByteArray} {n : Node} {m : Match} (hm : m ∈ q.matchesAt source n) :
    CapturesAmong n.preorder m.captures := by
  obtain ⟨⟨pattern, i⟩, -, hm⟩ := List.mem_flatMap.mp hm
  obtain ⟨captures, hcaptures, rfl⟩ := List.mem_map.mp hm
  rw [QueryPattern.matchesAt] at hcaptures
  split at hcaptures
  · exact pattern.root.solutions_inside n (List.mem_filter.mp hcaptures).1
  · cases hcaptures

/-- What the matches in a subtree capture are nodes of the subtree. -/
theorem matchesIn_among {q : Query} {source : ByteArray} {n : Node} {m : Match} (hm : m ∈ q.matchesIn source none n) :
    CapturesAmong n.preorder m.captures := by
  rw [matchesIn_none] at hm
  obtain ⟨⟨p, m'⟩, hx, rfl⟩ := List.mem_map.mp hm
  have hp := Place.node_mem_preorder (mem_placedMatches hx)
  obtain ⟨p', -, hm⟩ := List.mem_flatMap.mp hx
  obtain ⟨m', hm', heq⟩ := List.mem_map.mp hm
  obtain ⟨rfl, rfl⟩ := Prod.mk.inj heq
  exact (matchesAt_among hm').mono fun k hk => Node.mem_preorder_trans hp hk

end Query

end RenpyScript
