import RenpyScript.Parser
import RenpyScript.Proofs.Query.Search
import RenpyScript.Query.Embedding
import RenpyScript.Query.Source
import RenpyScript.Regex.Engine

/-!
# What is found is a match

Every solution that the search of a pattern gives at a node is that of an embedding: `Pattern.Matches` relates the
pattern and the node to what the solution captures. A match of a query is a solution of one of its patterns of which
all predicates of the pattern hold.
-/

namespace RenpyScript

namespace Pattern

def Sound (p : Pattern) : Prop :=
  ∀ n s, p.solution? n = some s → p.Matches n s

section
variable {p : Pattern} {ps : List Pattern} {ns rest : List Node} {n : Node} {s t : List Capture}

lemma Sound.childSolution? (hp : p.Sound) (h : p.childSolution? n = some s) :
    p.role.fits n = true ∧ p.Matches n s := by
  rw [Pattern.childSolution?] at h
  split at h
  · next hfits => exact ⟨hfits, hp n s h⟩
  · cases h

lemma Sound.each (hp : p.Sound) (ns : List Node) :
    MatchesEach p (ns.filter fun n => (p.childSolution? n).isSome) (ns.filterMap p.childSolution?).flatten := by
  induction ns with
  | nil => exact .nil
  | cons n ns ih =>
    cases h : p.childSolution? n with
    | none =>
      rw [List.filter_cons_of_neg (by simp [h]), List.filterMap_cons_none h]
      exact ih
    | some s =>
      rw [List.filter_cons_of_pos (by simp [h]), List.filterMap_cons_some h, List.flatten_cons]
      obtain ⟨hfits, hmatch⟩ := hp.childSolution? h
      exact .cons hfits hmatch ih

/-- A child pattern takes a group of the nodes in front of `rest`, with these captures. -/
def TakesGroup (p : Pattern) (ns rest : List Node) (s : List Capture) : Prop :=
  ∃ taken group, ns = taken ++ rest ∧ group.Sublist taken ∧ p.role.quantifier.admits group.length = true ∧
    MatchesEach p group s

lemma TakesGroup.assigned {groups : List (List Node)} (h : p.TakesGroup ns rest s) (hrest : groups.flatten.Sublist rest)
    (hps : Assigned ps groups t) :
    ∃ groups, groups.flatten.Sublist ns ∧ Assigned (p :: ps) groups (s ++ t) := by
  obtain ⟨taken, group, rfl, hgroup, hadmits, heach⟩ := h
  refine ⟨group :: groups, ?_, .cons hadmits heach hps⟩
  rw [List.flatten_cons]
  exact hgroup.append hrest

lemma Sound.takesGroup_earliest (hp : p.Sound) (hone : p.role.quantifier.admits 1 = true)
    (h : earliest? p.childSolution? ns = some (s, rest)) : p.TakesGroup ns rest s := by
  obtain ⟨before, n, rfl, -, hn⟩ := earliest?_eq_some_iff.mp h
  obtain ⟨hfits, hmatch⟩ := hp.childSolution? hn
  refine ⟨before ++ [n], [n], by simp, List.sublist_append_right .., hone, ?_⟩
  have heach := MatchesEach.cons hfits hmatch .nil
  rwa [List.append_nil] at heach

lemma takesGroup_nil (hnil : p.role.quantifier.admits 0 = true) : p.TakesGroup ns ns [] :=
  ⟨[], [], rfl, List.Sublist.refl _, hnil, .nil⟩

lemma Sound.takesGroup_gather (hp : p.Sound) (hmany : ∀ k, 1 ≤ k → p.role.quantifier.admits k = true)
    (h : gather? p.childSolution? ns = some (s, rest)) : p.TakesGroup ns rest s := by
  obtain ⟨before, n, rfl, hn, hnone, rfl⟩ := gather?_eq_some h
  have hgroup : (before ++ n :: rest).filter (fun n => (p.childSolution? n).isSome) =
      (before ++ [n]).filter (fun n => (p.childSolution? n).isSome) := by
    have hrest : rest.filter (fun n => (p.childSolution? n).isSome) = [] :=
      List.filter_eq_nil_iff.mpr fun m hm => by simp [hnone m hm]
    rw [List.append_cons, List.filter_append, hrest, List.append_nil]
  refine ⟨before ++ [n], _, by simp, List.filter_sublist, hmany _ ?_, hgroup ▸ hp.each _⟩
  exact List.length_pos_of_mem (List.mem_filter.mpr ⟨by simp, hn⟩)

lemma assigned_of_bind {r : Option (List Capture × List Node)}
    (hps : ∀ ns s, sequence? ps ns = some s → ∃ groups, groups.flatten.Sublist ns ∧ Assigned ps groups s)
    (hr : ∀ t rest, r = some (t, rest) → p.TakesGroup ns rest t)
    (hs : (r.bind fun r => (sequence? ps r.2).map (r.1 ++ ·)) = some s) :
    ∃ groups, groups.flatten.Sublist ns ∧ Assigned (p :: ps) groups s := by
  obtain ⟨⟨t, rest⟩, hfirst, hs⟩ := Option.bind_eq_some_iff.mp hs
  obtain ⟨t', hrest, rfl⟩ := Option.map_eq_some_iff.mp hs
  obtain ⟨groups, hgroups, hassigned⟩ := hps rest t' hrest
  exact (hr t rest hfirst).assigned hgroups hassigned

lemma sequence?_assigned (h : ∀ p ∈ ps, p.Sound) (hs : sequence? ps ns = some s) :
    ∃ groups, groups.flatten.Sublist ns ∧ Assigned ps groups s := by
  induction ps generalizing ns s with
  | nil =>
    rw [sequence?, Option.some.injEq] at hs
    subst hs
    exact ⟨[], List.nil_sublist _, .nil⟩
  | cons p ps ih =>
    obtain ⟨hp, hps⟩ := List.forall_mem_cons.mp h
    have hnext (ns : List Node) (s : List Capture) (hs : sequence? ps ns = some s) :
        ∃ groups, groups.flatten.Sublist ns ∧ Assigned ps groups s := ih hps hs
    rw [sequence?_cons] at hs
    split at hs
    · next hq => exact assigned_of_bind hnext (fun t rest => hp.takesGroup_earliest (by rw [hq]; rfl)) hs
    · next hq =>
      split at hs
      · next t hfound =>
        obtain rfl : t = s := Option.some.inj hs
        exact assigned_of_bind hnext (fun t rest => hp.takesGroup_earliest (by rw [hq]; rfl)) hfound
      · obtain ⟨groups, hgroups, hassigned⟩ := hnext ns s hs
        exact (takesGroup_nil (by rw [hq]; rfl)).assigned hgroups hassigned
    · next hq =>
      refine assigned_of_bind hnext (fun t rest hr => ?_) hs
      rcases gather?_getD (Option.some.inj hr) with ⟨rfl, rfl, -⟩ | hgather
      · exact takesGroup_nil (by rw [hq]; rfl)
      · exact hp.takesGroup_gather (fun k _ => by rw [hq]; rfl) hgather
    · next hq =>
      refine assigned_of_bind hnext (fun t rest => hp.takesGroup_gather fun k hk => ?_) hs
      rw [hq]
      exact decide_eq_true hk

lemma solutionAmong?_sound (h : ∀ p ∈ ps, p.Sound) (hs : solutionAmong? ps n = some s) :
    ∃ p ∈ ps, p.role.fits n = true ∧ p.Matches n s := by
  induction ps with
  | nil => cases hs
  | cons p ps ih =>
    obtain ⟨hp, hps⟩ := List.forall_mem_cons.mp h
    rw [solutionAmong?] at hs
    split at hs
    · next t hfound =>
      obtain rfl : t = s := Option.some.inj hs
      exact ⟨p, List.mem_cons_self, hp.childSolution? hfound⟩
    · obtain ⟨q, hq, hmatch⟩ := ih hps hs
      exact ⟨q, List.mem_cons_of_mem p hq, hmatch⟩

theorem sound (p : Pattern) : p.Sound := by
  induction p using innerInduction with
  | node test children role ih =>
    intro n s hs
    rw [solution?] at hs
    split at hs
    · next haccepts =>
      obtain ⟨t, ht, rfl⟩ := Option.map_eq_some_iff.mp hs
      obtain ⟨groups, hgroups, hassigned⟩ := sequence?_assigned ih ht
      exact .node haccepts hgroups hassigned
    · cases hs
  | choice alternatives role ih =>
    intro n s hs
    rw [solution?] at hs
    obtain ⟨t, ht, rfl⟩ := Option.map_eq_some_iff.mp hs
    obtain ⟨p, hp, hfits, hmatch⟩ := solutionAmong?_sound ih ht
    exact .choice hp hfits hmatch

/-! ## All solutions -/

lemma startingWith_assigned (hone : p.role.quantifier = .one) (hs : s ∈ startingWith p ps ns) :
    ∃ groups, groups.flatten.Sublist ns ∧ Assigned (p :: ps) groups s := by
  induction ns with
  | nil => cases hs
  | cons n ns ih =>
    rw [startingWith] at hs
    rcases List.mem_append.mp hs with hs | hs
    · obtain ⟨t, ht, hs⟩ := Option.bind_eq_some_iff.mp (Option.mem_toList.mp hs)
      obtain ⟨t', ht', rfl⟩ := Option.map_eq_some_iff.mp hs
      obtain ⟨groups, hgroups, hassigned⟩ := sequence?_assigned (fun q _ => q.sound) ht'
      have hearliest : earliest? p.childSolution? (n :: ns) = some (t, ns) :=
        earliest?_eq_some_iff.mpr ⟨[], n, rfl, by simp, ht⟩
      exact (p.sound.takesGroup_earliest (by rw [hone]; rfl) hearliest).assigned hgroups hassigned
    · obtain ⟨groups, hgroups, hassigned⟩ := ih hs
      exact ⟨groups, hgroups.trans (List.sublist_cons_self ..), hassigned⟩

lemma sequenceSolutions_assigned (hs : s ∈ sequenceSolutions ps ns) :
    ∃ groups, groups.flatten.Sublist ns ∧ Assigned ps groups s := by
  rw [sequenceSolutions.eq_def] at hs
  split at hs
  · rw [List.mem_singleton.mp hs]
    exact ⟨[], List.nil_sublist _, .nil⟩
  · split at hs
    · next hone => exact startingWith_assigned hone hs
    · exact sequence?_assigned (fun q _ => q.sound) (Option.mem_toList.mp hs)

lemma mem_solutionsAmong : s ∈ solutionsAmong ps n ↔ ∃ p ∈ ps, p.role.fits n = true ∧ s ∈ p.solutions n := by
  induction ps with
  | nil => simp [solutionsAmong]
  | cons p ps ih =>
    rw [solutionsAmong, List.mem_append, ih, List.exists_mem_cons_iff]
    refine or_congr_left ?_
    cases p.role.fits n <;> simp

/-- Every solution of a pattern at a node is what an embedding captures. -/
theorem matches_of_mem_solutions (p : Pattern) (hs : s ∈ p.solutions n) : p.Matches n s := by
  induction p using innerInduction generalizing s with
  | node test children role ih =>
    rw [solutions] at hs
    split at hs
    · next haccepts =>
      obtain ⟨t, ht, rfl⟩ := List.mem_map.mp hs
      obtain ⟨groups, hgroups, hassigned⟩ := sequenceSolutions_assigned ht
      exact .node haccepts hgroups hassigned
    · cases hs
  | choice alternatives role ih =>
    rw [solutions] at hs
    obtain ⟨t, ht, rfl⟩ := List.mem_map.mp hs
    obtain ⟨p, hp, hfits, ht⟩ := mem_solutionsAmong.mp ht
    exact .choice hp hfits (ih p hp ht)

end

end Pattern

/-! ## Matches of a query -/

/-- The text of a captured node. It is empty if its bytes are no text. -/
def Capture.textIn (source : ByteArray) (c : Capture) : String :=
  (c.node.textInBytes? source).getD ""

/-- What a predicate says of captures: the comparison comes out as asked for with every node under its index, and with
every node under the second index if it compares two. -/
def Predicate.Says [RegexEngine] (source : ByteArray) (captures : List Capture) (p : Predicate) : Prop :=
  ∀ c ∈ captures, c.index = p.capture →
    match p.comparison with
    | .eq (.text t) => c.textIn source = t ↔ p.negated = false
    | .eq (.capture other) => ∀ d ∈ captures, d.index = other → (c.textIn source = d.textIn source ↔ p.negated = false)
    | .matches r => RegexEngine.isMatch r (c.textIn source) = true ↔ p.negated = false
    | .anyOf values => c.textIn source ∈ values ↔ p.negated = false

lemma forall_textsUnder {source : ByteArray} {captures : List Capture} {index : Nat} {P : String → Prop} :
    (∀ t ∈ textsUnder source captures index, P t) ↔ ∀ c ∈ captures, c.index = index → P (c.textIn source) := by
  simp only [textsUnder, List.forall_mem_map, List.mem_filter, decide_eq_true_eq, and_imp, Capture.textIn]

lemma Predicate.holds_iff [RegexEngine] {source : ByteArray} {captures : List Capture} {p : Predicate} :
    p.holds source captures = true ↔ p.Says source captures := by
  obtain ⟨capture, comparison, negated⟩ := p
  have hasked (b : Bool) : (b != negated) = true ↔ (b = true ↔ negated = false) := by
    cases b <;> cases negated <;> decide
  rw [holds, List.all_eq_true, forall_textsUnder, Says]
  refine forall_congr' fun c => imp_congr_right fun _ => imp_congr_right fun _ => ?_
  rw [compares]
  cases comparison with
  | eq other =>
    cases other with
    | text t =>
      dsimp only
      rw [hasked, beq_iff_eq]
    | capture other =>
      dsimp only
      rw [List.all_eq_true, forall_textsUnder]
      simp only [hasked, beq_iff_eq]
  | «matches» r => exact hasked _
  | anyOf values =>
    dsimp only
    rw [hasked, List.contains_iff_mem]

namespace Query

/-- A query reports at each node that it comes to what its patterns give there. A match at a node is one of the pattern
with its index: the node is stored under the field that the pattern asks for, an embedding of the pattern at the node
captures what the match captures, in this order, and every predicate of the pattern holds of that. -/
theorem matches_embed [RegexEngine] (q : Query) (source : ByteArray) (range : Option Span) (start : Node) :
    q.matchesIn source range start = (start.preorderWhere (·.intersects range)).flatMap (q.matchesAt source) ∧
      ∀ n, ∀ m ∈ q.matchesAt source n, ∃ p, q.patterns[m.pattern]? = some p ∧ p.root.role.fits n = true ∧
        p.root.Matches n m.captures ∧ ∀ predicate ∈ p.predicates, predicate.Says source m.captures := by
  refine ⟨matchesIn_eq q source range start, ?_⟩
  intro n m hm
  obtain ⟨⟨p, i⟩, hp, hm⟩ := List.mem_flatMap.mp hm
  obtain ⟨s, hs, rfl⟩ := List.mem_map.mp hm
  have hindex : q.patterns[i]? = some p := List.mk_mem_zipIdx_iff_getElem?.mp hp
  refine ⟨p, hindex, ?_⟩
  rw [QueryPattern.matchesAt] at hs
  split at hs
  · next hfits =>
    obtain ⟨hs, hholds⟩ := List.mem_filter.mp hs
    refine ⟨hfits, p.root.matches_of_mem_solutions hs, ?_⟩
    intro predicate hpredicate
    exact Predicate.holds_iff.mp (List.all_eq_true.mp hholds predicate hpredicate)
  · cases hs

/-- Both statements of a block, by their texts. -/
theorem matches_embed_statements : ∃ q n m,
    ofSource "(block (statement)+ @s (#any-of? @s \"show x\" \"hide y\"))" = .ok q ∧
      n ∈ (Tree.parse "label a:\n    show x\n    hide y\n").root.preorder ∧
      m ∈ q.matchesAt "label a:\n    show x\n    hide y\n".toUTF8 n ∧ m.captures.length = 2 ∧
      ∃ p, q.patterns[m.pattern]? = some p ∧ p.root.role.fits n = true ∧ p.root.Matches n m.captures ∧
        ∀ predicate ∈ p.predicates, predicate.Says "label a:\n    show x\n    hide y\n".toUTF8 m.captures := by
  have hfound : (ofSource "(block (statement)+ @s (#any-of? @s \"show x\" \"hide y\"))").map (fun q =>
      ((Tree.parse "label a:\n    show x\n    hide y\n").root.preorder.find? (·.kind = .block)).map fun n =>
        (q.matchesAt "label a:\n    show x\n    hide y\n".toUTF8 n).map (·.captures.length)) = .ok (some [2]) := by
    decide +kernel
  cases hq : ofSource "(block (statement)+ @s (#any-of? @s \"show x\" \"hide y\"))" with
  | error e =>
    rw [hq] at hfound
    cases hfound
  | ok q =>
    rw [hq] at hfound
    obtain ⟨n, hn, hlengths⟩ := Option.map_eq_some_iff.mp (Except.ok.inj hfound)
    obtain ⟨m, hm, hlength⟩ := List.mem_map.mp (hlengths ▸ List.mem_singleton_self 2)
    exact ⟨q, n, m, rfl, List.mem_of_find?_eq_some hn, hm, hlength, (matches_embed q _ none n).2 n m hm⟩

end Query

end RenpyScript
