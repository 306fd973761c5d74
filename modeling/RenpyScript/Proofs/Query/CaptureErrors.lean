import Mathlib
import RenpyScript.Proofs.Query.Continued
import RenpyScript.Proofs.Query.Mentions
import RenpyScript.Regex.Engine

/-!
# Errors about captures

A query is refused because of a capture for one of two reasons. Where a predicate is read, a capture that it refers to
has not been defined in front of it, by any pattern. Or it is defined somewhere in front, but nowhere in the pattern that
the predicate belongs to.
-/

namespace RenpyScript.Query

lemma getElem?_addName (names : List String) (n : String) : (addName names n)[names.idxOf n]? = some n := by
  have hlt := List.idxOf_lt_length_iff.mpr (mem_addName names n)
  rw [← idxOf_addName, List.getElem?_eq_getElem hlt, List.getElem_idxOf]

lemma prefix_addName (names : List String) (n : String) : names <+: addName names n := by
  rw [addName]
  split
  · exact List.prefix_refl _
  · exact List.prefix_append _ _

lemma offset_behind {source front rest : List Char} (h : source = front ++ rest) (fault : QueryFault) :
    (QueryError.behind (source.take (source.length - rest.length)) fault).offset = byteLength front := by
  rw [h, List.length_append, Nat.add_sub_cancel, List.take_left]
  rfl

section
variable [RegexEngine]

lemma Passes.addPredicate {inside inside' : Bool} {s t : Reading} {used : List (Bool × Nat)} {q : Predicate × List Char}
    (h : Passes inside inside' s used t) (hbegin : q.2 <:+ s.rest) (hlt : t.rest.length < q.2.length)
    (hq : ∀ i ∈ q.1.captures, (true, i) ∈ used) :
    Passes inside inside' s used { t with predicates := t.predicates ++ [q] } := by
  obtain ⟨more, hmore, hcaptures⟩ := h.predicates
  refine ⟨h.names, h.used_lt, h.text, more ++ [q], by rw [hmore, List.append_assoc], ?_⟩
  rw [List.forall_mem_append, List.forall_mem_singleton]
  exact ⟨hcaptures, hbegin, hlt, hq⟩

namespace Read
variable {s t : Reading} {c : Char} {cs : List Char}

/-- The captures behind a pattern, which are no part of a predicate. -/
lemma tells_captures (fuel : Nat) (s : Reading) :
    Tells false (captures fuel) s fun is t => Passes false false s (is.map (false, ·)) t := by
  induction fuel generalizing s with
  | zero => exact tells_pure (.refl s)
  | succ fuel ih =>
    rw [captures]
    refine Tells.next ?_
    have hskip : Passes false false s [] (s.withRest (skipTrivia false s.rest)) := .skip s
    split
    · next cs hcs =>
      rw [hcs] at hskip ⊢
      generalize hn : String.ofList (cs.takeWhile isNameChar) = n
      by_cases hempty : n.isEmpty = true
      · refine tells_of_error (e := ⟨.noCaptureName, cs.dropWhile isNameChar⟩) ?_
          (accounts_of_kind QueryErrorKind.noConfusion)
        change StateT.run (if (String.ofList (cs.takeWhile isNameChar)).isEmpty = true then _ else _) _ = _
        rw [hn, if_pos hempty]
        rfl
      · let t : Reading := { s with rest := cs.dropWhile isNameChar, names := addName s.names n }
        have hpass : Passes false false (s.withRest ('@' :: cs)) [(false, s.names.idxOf n)] t :=
          .mention rfl rfl (prefix_addName _ _) (by rw [hn]; exact getElem?_addName _ _) rfl
        have hmore : Tells false (do return s.names.idxOf n :: (← captures fuel)) t
            fun is u => Passes false false s (is.map (false, ·)) u :=
          (ih t).bind fun is u hu => ⟨false, _, hu, tells_pure ((hskip.trans hpass).trans hu)⟩
        refine hmore.after hpass ?_
        change StateT.run (if (String.ofList (cs.takeWhile isNameChar)).isEmpty = true then _ else _) _ = _
        rw [hn, if_neg hempty, run_bind, Surroundings.run_capture]
        rfl
    · exact tells_pure hskip

lemma tells_quantifier (default : Quantifier) (s : Reading) :
    Tells false (quantifier default s.rest) s fun _ t => Passes false false s [] t := by
  have hsign {c : Char} {rest : List Char} (hrest : s.rest = c :: rest) (hc : c ∈ ['?', '*', '+']) (q : Quantifier) :
      Tells false (do moveTo rest; return q) s fun _ t => Passes false false s [] t := by
    have hpass : Passes false false s [] (s.withRest rest) := by
      simp only [List.mem_cons, List.not_mem_nil, or_false] at hc
      rcases hc with rfl | rfl | rfl <;> exact .char hrest (by decide) (by decide) (by decide) rfl
    exact Tells.moveTo hpass (tells_pure hpass)
  unfold quantifier
  split
  · next rest hrest => exact hsign hrest (by simp) _
  · next rest hrest => exact hsign hrest (by simp) _
  · next rest hrest => exact hsign hrest (by simp) _
  · exact tells_pure (.refl s)

lemma tells_suffix (p : Pattern) (s : Reading) : Tells false (suffix p) s fun q t =>
    ∃ used, Passes false false s used t ∧ ∀ i, i ∈ q.captures ↔ i ∈ p.captures ∨ (false, i) ∈ used := by
  rw [suffix_eq]
  have hskip : Passes false false s [] (s.withRest (skipTrivia false s.rest)) := .skip s
  refine Tells.next ((tells_quantifier _ (s.withRest (skipTrivia false s.rest))).bind fun q t ht => ?_)
  refine ⟨false, [], ht, (tells_captures _ t).bind fun more u hu => ⟨false, _, hu, tells_pure ?_⟩⟩
  refine ⟨_, (hskip.trans ht).trans hu, fun i => ?_⟩
  rw [Pattern.mem_captures_withRole]
  simp

/-! ## Predicates -/

/-- Arguments stand behind `s`: they refer to captures and define none, and those among them that are captures are what
they refer to. -/
def Refers (s : Reading) (args : List Operand) (t : Reading) : Prop :=
  ∃ used, Passes true false s used t ∧ (∀ m ∈ used, m.1 = true) ∧ ∀ i, .capture i ∈ args → (true, i) ∈ used

lemma tells_arguments_cons {fuel : Nat} {used : List (Bool × Nat)} (a : Operand)
    (h : Tells true (arguments fuel) t fun args u => Refers t args u) (hpass : Passes true true s used t)
    (hused : ∀ m ∈ used, m.1 = true) (ha : ∀ i, a = .capture i → (true, i) ∈ used) :
    Tells true (do return a :: (← arguments fuel)) t fun args u => Refers s args u := by
  refine h.bind ?_
  rintro args u ⟨used', hu, hused', hargs⟩
  refine ⟨false, used', hu, tells_pure ?_⟩
  refine ⟨used ++ used', hpass.trans hu, List.forall_mem_append.mpr ⟨hused, hused'⟩, fun i hi => ?_⟩
  rcases List.mem_cons.mp hi with heq | hi
  · exact List.mem_append_left _ (ha i heq.symm)
  · exact List.mem_append_right _ (hargs i hi)

lemma accounts_unknownCapture {n : String} (hn : String.ofList (cs.takeWhile isNameChar) = n) (hunknown : n ∉ s.names) :
    Accounts true (s.withRest ('@' :: cs)) ⟨.unknownCapture n, cs⟩ := by
  refine ⟨fun m => QueryFault.noConfusion, fun m hm => ?_⟩
  obtain rfl := QueryFault.unknownCapture.inj hm
  refine ⟨hn.symm, hunknown, fun p hp => ⟨[], rfl, ?_⟩⟩
  obtain ⟨hcode, hpredicate, -⟩ := hp (List.cons_ne_nil _ _)
  exact ⟨hcode, hpredicate, List.not_mem_nil⟩

lemma tells_arguments_capture {fuel : Nat} {u : Reading}
    (h : Tells true (arguments fuel) (s.withRest (cs.dropWhile isNameChar)) fun args t =>
      Refers (s.withRest (cs.dropWhile isNameChar)) args t)
    (hskip : Passes true true u [] (s.withRest ('@' :: cs))) :
    Tells true (do moveTo cs; let n ← name; afterCapture fuel n cs ((← get).names.idxOf? n)) (s.withRest ('@' :: cs))
      fun args t => Refers u args t := by
  generalize hn : String.ofList (cs.takeWhile isNameChar) = n
  have hrun : (do moveTo cs; let n ← name; afterCapture fuel n cs ((← get).names.idxOf? n)).run (s.withRest ('@' :: cs)) =
      (afterCapture fuel n cs (s.names.idxOf? n)).run (s.withRest (cs.dropWhile isNameChar)) := by
    rw [← hn]
    rfl
  rw [idxOf?_eq] at hrun
  by_cases hknown : n ∈ s.names
  · have hindex : s.names[s.names.idxOf n]? = some n := by
      rw [List.getElem?_eq_getElem (List.idxOf_lt_length_iff.mpr hknown), List.getElem_idxOf]
    have hpass : Passes true true (s.withRest ('@' :: cs)) [(true, s.names.idxOf n)]
        (s.withRest (cs.dropWhile isNameChar)) :=
      .mention rfl rfl (List.prefix_refl _) (by rw [hn]; exact hindex) rfl
    rw [if_pos hknown] at hrun
    exact (tells_arguments_cons (.capture (s.names.idxOf n)) h (hskip.trans hpass) (by simp)
      fun i hi => by simp [Operand.capture.inj hi]).after hpass hrun
  · rw [if_neg hknown] at hrun
    exact tells_of_error hrun (accounts_unknownCapture hn hknown)

/-- Behind the name of a predicate, its arguments refer to captures. -/
lemma tells_arguments (fuel : Nat) (s : Reading) : Tells true (arguments fuel) s fun args t => Refers s args t := by
  induction fuel generalizing s with
  | zero => exact tells_fail QueryErrorKind.noConfusion
  | succ fuel ih =>
    have hskip : Passes true true s [] (s.withRest (skipTrivia false s.rest)) := .skip s
    rw [arguments]
    refine Tells.next ?_
    split
    · exact tells_fail QueryErrorKind.noConfusion
    · next c cs hcs =>
      rw [hcs] at hskip ⊢
      split
      · next hc =>
        subst hc
        have hclose : Passes true false (s.withRest (')' :: cs)) [] (s.withRest cs) :=
          .char rfl (by decide) (by decide) (by decide) rfl
        exact Tells.moveTo hclose (tells_pure ⟨[], hskip.trans hclose, by simp, by simp⟩)
      split
      · next hc =>
        subst hc
        exact tells_arguments_capture (ih _) hskip
      split
      · next hc =>
        subst hc
        refine Tells.string rfl fun value rest hsplit => ?_
        exact tells_arguments_cons _ (ih _) (hskip.trans (.string rfl hsplit)) (by simp) (fun i hi => by cases hi)
      split
      · exact Tells.name (tells_arguments_cons _ (ih _) (hskip.trans (.name _)) (by simp) (fun i hi => by cases hi))
      · exact tells_fail QueryErrorKind.noConfusion

lemma tells_predicate (hrest : s.rest = c :: cs) (hopens : opensPredicate (c :: cs) = true) :
    Tells false (predicate (c :: cs)) s fun _ t => ∃ used, Passes false false s used t ∧ ∀ m ∈ used, m.1 = true := by
  have hsign := Passes.opens hrest hopens
  rw [predicate]
  refine Tells.moveTo hsign (Tells.name ?_)
  refine (tells_arguments _ _).bind ?_
  rintro args t ⟨used, ht, hused, hargs⟩
  have hpass : Passes false false s used t := (hsign.trans (.name _)).trans ht
  have hlt : t.rest.length < (c :: cs).length :=
    Nat.lt_succ_of_le (ht.rest.trans ((List.dropWhile_suffix _).trans
      ((List.drop_suffix _ _).trans (List.dropWhile_suffix _)))).length_le
  refine ⟨false, used, ht, ?_⟩
  split
  · exact tells_pure ⟨used, hpass, hused⟩
  split
  · next p hp =>
    have hcaptures : ∀ i ∈ p.captures, (true, i) ∈ used := fun i hi => hargs i (Predicate.mem_of_ofArguments hp hi)
    exact tells_modify ⟨used, hpass.addPredicate (hrest ▸ List.suffix_refl _) hlt hcaptures, hused⟩
  · exact tells_throw QueryErrorKind.noConfusion

/-! ## Patterns -/

lemma tells_kind (s : Reading) : Tells false kind s fun _ t => Passes false false s [] t := by
  have hskip : Passes false false s [] (s.withRest (skipTrivia false s.rest)) := .skip s
  have hpass := hskip.trans (.name _)
  rw [kind]
  refine Tells.next (Tells.name ?_)
  split
  · exact tells_fail QueryErrorKind.noConfusion
  split
  · exact tells_pure hpass
  split
  · exact tells_pure hpass
  · exact tells_throw QueryErrorKind.noConfusion

lemma tells_field (s : Reading) : Tells false field s fun _ t => Passes false false s [] t := by
  have hskip : Passes false false s [] (s.withRest (skipTrivia false s.rest)) := .skip s
  have hname := (hskip.trans (.name _)).trans (.skip _)
  rw [field]
  refine Tells.next (Tells.name (Tells.next ?_))
  split
  · next cs hcs =>
    have hcolon := hname.trans (.char hcs (by decide) (by decide) (by decide) rfl)
    refine Tells.moveTo (.char hcs (by decide) (by decide) (by decide) rfl) ?_
    split
    · exact tells_pure hcolon
    · exact tells_throw QueryErrorKind.noConfusion
  · exact tells_throw QueryErrorKind.noConfusion

/-- Between two states the captures of a pattern have been read, and no others that define names. -/
def Defines (s : Reading) (captures : List Nat) (t : Reading) : Prop :=
  ∃ used, Passes false false s used t ∧ ∀ i, i ∈ captures ↔ (false, i) ∈ used

/-- With the given fuel the readers of patterns tell which captures they read. -/
structure Telling (fuel : Nat) : Prop where
  pattern : ∀ s, Tells false (pattern fuel) s fun p t => Defines s p.captures t
  alternatives : ∀ s, Tells false (alternatives fuel) s fun ps t => Defines s (Pattern.capturesAmong ps) t
  children : ∀ s, Tells false (children fuel) s fun ps t => Defines s (Pattern.capturesAmong ps) t

section
variable {captures captures' : List Nat} {u : Reading} {fuel : Nat}

lemma Defines.trans (h : Defines s captures t) (h' : Defines t captures' u) : Defines s (captures ++ captures') u := by
  obtain ⟨used, ht, hcaptures⟩ := h
  obtain ⟨used', hu, hcaptures'⟩ := h'
  exact ⟨used ++ used', ht.trans hu, fun i => by simp [hcaptures, hcaptures']⟩

lemma Defines.after {used : List (Bool × Nat)} (ht : Passes false false s used t) (hused : ∀ m ∈ used, m.1 = true)
    (h : Defines t captures u) : Defines s captures u := by
  obtain ⟨used', hu, hcaptures⟩ := h
  refine ⟨used ++ used', ht.trans hu, fun i => ?_⟩
  rw [hcaptures, List.mem_append, or_iff_right fun hi => Bool.false_ne_true (hused _ hi)]

lemma Defines.forward (ht : Passes false false s [] t) (h : Defines t captures u) : Defines s captures u :=
  h.after ht (by simp)

lemma Passes.defines (ht : Passes false false s [] t) : Defines s [] t :=
  ⟨[], ht, by simp⟩

lemma Telling.bare (h : Telling fuel) (s : Reading) :
    Tells false (bare fuel s.rest) s fun p t => Defines s p.captures t := by
  have hchar {c : Char} {cs : List Char} (hrest : s.rest = c :: cs) (hc : c ∈ ['(', '[', '_']) :
      Passes false false s [] (s.withRest cs) := by
    simp only [List.mem_cons, List.not_mem_nil, or_false] at hc
    rcases hc with rfl | rfl | rfl <;> exact .char hrest (by decide) (by decide) (by decide) rfl
  unfold Read.bare
  split
  · exact tells_fail QueryErrorKind.noConfusion
  · next cs hcs =>
    have hparen := hchar hcs (by simp)
    refine Tells.moveTo hparen ((tells_kind _).bind fun test t ht => ⟨false, [], ht, ?_⟩)
    refine (h.children t).bind ?_
    rintro ps u ⟨used, hu, hcaptures⟩
    exact ⟨false, used, hu, tells_pure (Defines.forward (hparen.trans ht) ⟨used, hu, hcaptures⟩)⟩
  · next cs hcs =>
    have hbracket := hchar hcs (by simp)
    refine Tells.moveTo hbracket ((h.alternatives _).bind ?_)
    rintro ps t ⟨used, ht, hcaptures⟩
    refine ⟨false, used, ht, ?_⟩
    dsimp only
    split
    · exact tells_failing QueryErrorKind.noConfusion
    · exact tells_pure (Defines.forward hbracket ⟨used, ht, hcaptures⟩)
  · next cs hcs =>
    refine Tells.string hcs fun value rest hsplit => ?_
    split
    · exact tells_pure (Passes.defines (.string hcs hsplit))
    · exact tells_throw QueryErrorKind.noConfusion
  · next cs hcs =>
    have hany := hchar hcs (by simp)
    exact Tells.moveTo hany (tells_pure (Passes.defines hany))
  · exact tells_fail QueryErrorKind.noConfusion
  · exact tells_fail QueryErrorKind.noConfusion

lemma Telling.pattern_succ (h : Telling fuel) (s : Reading) :
    Tells false (Read.pattern (fuel + 1)) s fun p t => Defines s p.captures t := by
  have hskip : Passes false false s [] (s.withRest (skipTrivia false s.rest)) := .skip s
  rw [Read.pattern_succ]
  refine Tells.next ((h.bare (s.withRest (skipTrivia false s.rest))).bind ?_)
  rintro p t ⟨used, ht, hcaptures⟩
  refine ⟨false, used, ht, (tells_suffix p t).imp ?_⟩
  rintro q u ⟨used', hu, hq⟩
  exact .forward hskip ⟨used ++ used', ht.trans hu, fun i => by simp [hq, hcaptures]⟩

lemma Telling.alternatives_succ (h : Telling fuel) (s : Reading) :
    Tells false (Read.alternatives (fuel + 1)) s fun ps t => Defines s (Pattern.capturesAmong ps) t := by
  have hskip : Passes false false s [] (s.withRest (skipTrivia false s.rest)) := .skip s
  rw [Read.alternatives]
  refine Tells.next ?_
  split
  · exact tells_fail QueryErrorKind.noConfusion
  · next cs hcs =>
    have hclose : Passes false false (s.withRest (skipTrivia false s.rest)) [] (s.withRest cs) :=
      .char hcs (by decide) (by decide) (by decide) rfl
    exact Tells.moveTo hclose (tells_pure (Passes.defines (hskip.trans hclose)))
  · refine (h.pattern _).bind ?_
    rintro p t ⟨used, ht, hp⟩
    refine ⟨false, used, ht, (h.alternatives t).bind ?_⟩
    rintro ps u ⟨used', hu, hps⟩
    exact ⟨false, used', hu, tells_pure (.forward hskip (.trans ⟨used, ht, hp⟩ ⟨used', hu, hps⟩))⟩

lemma Telling.children_succ (h : Telling fuel) (s : Reading) :
    Tells false (Read.children (fuel + 1)) s fun ps t => Defines s (Pattern.capturesAmong ps) t := by
  have hskip : Passes false false s [] (s.withRest (skipTrivia false s.rest)) := .skip s
  rw [Read.children]
  refine Tells.next ?_
  split
  · exact tells_fail QueryErrorKind.noConfusion
  · next c cs hcs =>
    rw [hcs] at hskip ⊢
    split
    · next hc =>
      have hclose : Passes false false (s.withRest (c :: cs)) [] (s.withRest cs) :=
        .char rfl (by simp [hc]) (by simp [hc]) (by simp [hc]) (by simp [hc])
      exact Tells.moveTo hclose (tells_pure (Passes.defines (hskip.trans hclose)))
    split
    · next hopens =>
      have hpredicate : Tells false (predicate (c :: cs)) (s.withRest (c :: cs)) _ := tells_predicate rfl hopens
      refine hpredicate.bind ?_
      rintro _ t ⟨used, ht, hused⟩
      exact ⟨false, used, ht, (h.children t).imp fun ps u hu => .forward hskip (.after ht hused hu)⟩
    split
    · exact tells_fail QueryErrorKind.noConfusion
    split
    · refine (tells_field _).bind fun f t ht => ⟨false, [], ht, ?_⟩
      refine (h.pattern t).bind ?_
      rintro p u ⟨used, hu, hp⟩
      refine ⟨false, used, hu, (h.children u).bind ?_⟩
      rintro ps v ⟨used', hv, hps⟩
      refine ⟨false, used', hv, tells_pure ?_⟩
      have hcaptures : (p.withRole { p.role with field := some f }).captures = p.captures := by
        cases p <;> rfl
      rw [Pattern.capturesAmong, hcaptures]
      exact .forward (hskip.trans ht) (.trans ⟨used, hu, hp⟩ ⟨used', hv, hps⟩)
    · refine (h.pattern _).bind ?_
      rintro p t ⟨used, ht, hp⟩
      refine ⟨false, used, ht, (h.children t).bind ?_⟩
      rintro ps u ⟨used', hu, hps⟩
      exact ⟨false, used', hu, tells_pure (.forward hskip (.trans ⟨used, ht, hp⟩ ⟨used', hu, hps⟩))⟩

end

theorem telling (fuel : Nat) : Telling fuel := by
  induction fuel with
  | zero =>
    exact ⟨fun s => tells_fail QueryErrorKind.noConfusion, fun s => tells_fail QueryErrorKind.noConfusion,
      fun s => tells_fail QueryErrorKind.noConfusion⟩
  | succ fuel ih => exact ⟨ih.pattern_succ, ih.alternatives_succ, ih.children_succ⟩

/-! ## Patterns with predicates -/

lemma tells_group (fuel : Nat) (found : Option Pattern) (s : Reading) : Tells false (group fuel found) s fun r t =>
    ∃ used, Passes false false s used t ∧
      ∀ i, i ∈ Pattern.capturesAmong r.toList ↔ i ∈ Pattern.capturesAmong found.toList ∨ (false, i) ∈ used := by
  induction fuel generalizing s found with
  | zero => exact tells_fail QueryErrorKind.noConfusion
  | succ fuel ih =>
    have hskip : Passes false false s [] (s.withRest (skipTrivia false s.rest)) := .skip s
    rw [group]
    refine Tells.next ?_
    split
    · exact tells_fail QueryErrorKind.noConfusion
    · next c cs hcs =>
      rw [hcs] at hskip ⊢
      split
      · next hc =>
        have hclose : Passes false false (s.withRest (c :: cs)) [] (s.withRest cs) :=
          .char rfl (by simp [hc]) (by simp [hc]) (by simp [hc]) (by simp [hc])
        exact Tells.moveTo hclose (tells_pure ⟨[], hskip.trans hclose, by simp⟩)
      split
      · next hopens =>
        have hpredicate : Tells false (predicate (c :: cs)) (s.withRest (c :: cs)) _ := tells_predicate rfl hopens
        refine hpredicate.bind ?_
        rintro _ t ⟨used, ht, hused⟩
        refine ⟨false, used, ht, (ih found t).imp ?_⟩
        rintro r u ⟨used', hu, hr⟩
        refine ⟨used ++ used', (hskip.trans ht).trans hu, fun i => ?_⟩
        rw [hr, List.mem_append, or_iff_right fun hi => Bool.false_ne_true (hused _ hi)]
      split
      · exact tells_fail QueryErrorKind.noConfusion
      · next hfound =>
        obtain rfl : found = none := by simpa using hfound
        refine ((telling _).pattern _).bind ?_
        rintro p t ⟨used, ht, hp⟩
        refine ⟨false, used, ht, (ih (some p) t).imp ?_⟩
        rintro r u ⟨used', hu, hr⟩
        refine ⟨used ++ used', (hskip.trans ht).trans hu, fun i => ?_⟩
        simp [hr, hp, Pattern.capturesAmong]

lemma tells_outermost (s : Reading) : Tells false outermost s fun p t => Defines s p.captures t := by
  rw [outermost]
  refine Tells.get ?_
  dsimp only
  split
  · next cs hcs =>
    split
    · have hparen : Passes false false s [] (s.withRest cs) := .char hcs (by decide) (by decide) (by decide) rfl
      have hinner := hparen.trans (.skip (s.withRest cs))
      refine Tells.moveTo hinner ((tells_group _ none _).bind ?_)
      rintro r t ⟨used, ht, hr⟩
      refine ⟨false, used, ht, ?_⟩
      cases r with
      | none => exact tells_throw QueryErrorKind.noConfusion
      | some p =>
        refine (tells_suffix p t).imp ?_
        rintro q u ⟨used', hu, hq⟩
        refine .forward hinner ⟨used ++ used', ht.trans hu, fun i => ?_⟩
        have hp : i ∈ p.captures ↔ (false, i) ∈ used := by simpa [Pattern.capturesAmong] using hr i
        rw [hq, hp, List.mem_append]
    · exact (telling _).pattern s
  · exact (telling _).pattern s

lemma exists_of_checks {known : List Nat} {predicates : List (Predicate × List Char)} {e : Flaw}
    (h : (predicates.forM fun p => checkCaptures known p.1 p.2 : Read Unit).run s = .error e) :
    ∃ p ∈ predicates, ∃ i ∈ p.1.captures, i ∉ known ∧ e = ⟨.foreignCapture (s.names.getD i ""), p.2⟩ := by
  induction predicates with
  | nil => cases h
  | cons p ps ih =>
    change (checkCaptures known p.1 p.2 >>= fun _ => ps.forM fun p => checkCaptures known p.1 p.2).run s = _ at h
    cases hfind : p.1.captures.find? fun i => !known.contains i with
    | some i =>
      have hi := List.find?_some hfind
      rw [checkCaptures, hfind] at h
      refine ⟨p, List.mem_cons_self, i, List.mem_of_find?_eq_some hfind, by simpa using hi, ?_⟩
      exact (Except.error.inj h).symm
    | none =>
      have hcheck : checkCaptures known p.1 p.2 = pure () := by rw [checkCaptures, hfind]
      rw [hcheck] at h
      obtain ⟨q, hq, hcaptures⟩ := ih h
      exact ⟨q, List.mem_cons_of_mem p hq, hcaptures⟩

/-- The error is about a predicate of the pattern that begins at `s`: it refers to a capture that the pattern does not
define. -/
def Foreign (s : Reading) (e : Flaw) : Prop :=
  ∃ n root t passed, e.fault = .foreignCapture n ∧ outermost.run s.cleared = .ok (root, t) ∧ s.rest = passed ++ t.rest ∧
    e.rest <:+ s.rest ∧ t.rest.length < e.rest.length ∧
    (true, n) ∈ Spot.start.mentions passed ∧ (false, n) ∉ Spot.start.mentions passed

lemma Defines.foreign {captures : List Nat} {i : Nat} {q : Predicate × List Char} (h : Defines s captures t)
    (hnamed : Named t.names) (hs : s.predicates = []) (hq : q ∈ t.predicates) (hi : i ∈ q.1.captures)
    (hforeign : i ∉ captures) : ∃ passed, s.rest = passed ++ t.rest ∧ q.2 <:+ s.rest ∧ t.rest.length < q.2.length ∧
      (true, t.names.getD i "") ∈ Spot.start.mentions passed ∧ (false, t.names.getD i "") ∉ Spot.start.mentions passed := by
  obtain ⟨used, hpass, hcaptures⟩ := h
  obtain ⟨more, hmore, hpredicates⟩ := hpass.predicates
  rw [hs, List.nil_append] at hmore
  obtain ⟨hbegin, hlt, hreferred⟩ := hpredicates q (hmore ▸ hq)
  obtain ⟨passed, hrest, -, hmentions⟩ :=
    hpass.text .start fun _ => ⟨rfl, rfl, fun hnaming => absurd hnaming Bool.false_ne_true⟩
  refine ⟨passed, hrest, hbegin, hlt, ?_, ?_⟩
  · rw [hmentions]
    exact List.mem_map.mpr ⟨(true, i), hreferred i hi, rfl⟩
  · rw [hmentions]
    rintro hmem
    obtain ⟨⟨b, j⟩, hj, heq⟩ := List.mem_map.mp hmem
    obtain ⟨rfl, hname⟩ := Prod.mk.inj heq
    have hilt : i < t.names.length := hpass.used_lt _ (hreferred i hi)
    have hjlt : j < t.names.length := hpass.used_lt _ hj
    rw [List.getD_eq_getElem _ _ hilt, List.getD_eq_getElem _ _ hjlt] at hname
    obtain rfl := (hnamed.1.getElem_inj_iff).mp hname
    exact hforeign ((hcaptures j).mpr hj)

lemma error_of_queryPattern {source : List Char} {e : Flaw} (hnamed : Named s.names)
    (h : (queryPattern source).run s = .error e) : Accounts false s e ∨ Foreign s e := by
  have houtermost := tells_outermost s.cleared
  rw [Tells] at houtermost
  change (outermost >>= fun root => get >>= fun t =>
    (t.predicates.forM fun p => checkCaptures root.captures p.1 p.2) >>= fun _ =>
      (pure ⟨root, t.predicates.map (·.1), byteLength source - byteLength s.rest⟩ : Read QueryPattern)).run s.cleared =
    .error e at h
  rw [run_bind] at h
  cases hrun : outermost.run s.cleared with
  | error e' =>
    rw [hrun] at h houtermost
    exact .inl (Except.error.inj h ▸ houtermost)
  | ok r =>
    obtain ⟨root, t⟩ := r
    rw [hrun] at h houtermost
    have hchecks : (t.predicates.forM fun p => checkCaptures root.captures p.1 p.2 : Read Unit).run t = .error e := by
      change ((t.predicates.forM fun p => checkCaptures root.captures p.1 p.2) >>= fun _ =>
        (pure ⟨root, t.predicates.map (·.1), byteLength source - byteLength s.rest⟩ : Read QueryPattern)).run t =
        .error e at h
      rw [run_bind] at h
      split at h
      · cases h
      · next e' he => rw [he, Except.error.inj h]
    obtain ⟨q, hq, i, hi, hforeign, rfl⟩ := exists_of_checks hchecks
    have hnamed' : Named t.names := ((ensures_outermost s.cleared) root t hrun).1.1.named hnamed
    obtain ⟨passed, hrest, hbegin, hlt, hmentions⟩ := houtermost.foreign hnamed' rfl hq hi hforeign
    exact .inr ⟨_, root, t, passed, rfl, hrun, hrest, hbegin, hlt, hmentions⟩

lemma Tells.ensures {α : Type} {inside : Bool} {x : Read α} {Q : α → Reading → Prop} (h : Tells inside x s Q) :
    Ensures x s Q := by
  intro a t hrun
  rw [Tells, hrun] at h
  exact h

lemma ensures_queryPattern_passes (source : List Char) (s : Reading) : Ensures (queryPattern source) s fun _ t =>
    ∃ used, Passes false false s.cleared used t.cleared := by
  rw [queryPattern]
  refine Ensures.get (Ensures.modify ?_)
  refine (tells_outermost s.cleared).ensures.bind ?_
  rintro root t ⟨used, ht, -⟩
  refine Ensures.get ((ensures_checks root.captures t.predicates t).bind ?_)
  rintro _ u ⟨rfl, -⟩
  refine ensures_pure ⟨used, ?_⟩
  exact ⟨ht.names, ht.used_lt, ht.text, [], rfl, by simp⟩

lemma error_of_queryPatterns {source : List Char} {fuel : Nat} {e : Flaw} (hnamed : Named s.names)
    (h : (queryPatterns source fuel).run s = .error e) :
    Accounts false s e ∨ ∃ t : Reading, t.rest <:+ s.rest ∧ Foreign t e := by
  induction fuel generalizing s with
  | zero => cases h
  | succ fuel ih =>
    have hskip : Passes false false s.cleared [] (s.withRest (skipTrivia false s.rest)).cleared := .skip s.cleared
    have hrest := skipTrivia_suffix false s.rest
    rw [queryPatterns, run_next] at h
    split at h
    · cases h
    · rw [run_bind] at h
      cases hrun : (queryPattern source).run (s.withRest (skipTrivia false s.rest)) with
      | error e' =>
        rw [hrun] at h
        obtain rfl := Except.error.inj h
        have hnamed' : Named (s.withRest (skipTrivia false s.rest)).names := hnamed
        rcases error_of_queryPattern hnamed' hrun with haccounts | hforeign
        · have hbefore : Accounts false s.cleared e' := Accounts.after hskip haccounts
          exact .inl hbefore
        · exact .inr ⟨_, hrest, hforeign⟩
      | ok r =>
        obtain ⟨p, t⟩ := r
        rw [hrun] at h
        have hmore : (queryPatterns source fuel).run t = .error e := by
          change (queryPatterns source fuel >>= fun ps => pure (p :: ps)).run t = .error e at h
          rw [run_bind] at h
          split at h
          · cases h
          · next e' he => rw [he, Except.error.inj h]
        obtain ⟨⟨hgrows, -⟩, -⟩ := ensures_queryPattern source _ (skipTrivia_skipTrivia false s.rest) p t hrun
        obtain ⟨used, hpass⟩ := ensures_queryPattern_passes source _ p t hrun
        have hnamed' : Named t.names := hgrows.named hnamed
        rcases ih hnamed' hmore with haccounts | ⟨u, hu, hforeign⟩
        · have hbefore : Accounts false s.cleared e := Accounts.after (hskip.trans hpass) haccounts
          exact .inl hbefore
        · exact .inr ⟨u, hu.trans (hgrows.rest.trans hrest), hforeign⟩

end Read

lemma exists_flaw_of_ofSource {text : String} {e : QueryError} (h : ofSource text = .error e) : ∃ flaw,
    (Read.queryPatterns text.toList (text.toList.length + 1)).run ⟨text.toList, [], []⟩ = .error flaw ∧
      e = .behind (text.toList.take (text.toList.length - flaw.rest.length)) flaw.fault := by
  rw [ofSource] at h
  split at h
  · cases h
  · next flaw hrun => exact ⟨flaw, hrun, (Except.error.inj h).symm⟩

/-- The text is what is read as one pattern, with `behind` following it. -/
def IsPattern (pattern behind : List Char) : Prop :=
  ∃ names root t, Read.outermost.run ⟨pattern ++ behind, names, []⟩ = .ok (root, t) ∧ t.rest = behind

/-- Why a query is refused because of a capture. -/
inductive CaptureRefusal (source : List Char) (e : QueryError) : Prop
  /-- A predicate refers to a name that no capture in front of it defines, in this pattern or another. -/
  | unknown {n front behind} (fault : e.fault = .unknownCapture n) (text : source = front ++ '@' :: behind)
      (offset : e.offset = byteLength (front ++ ['@'])) (name : n = String.ofList (behind.takeWhile isNameChar))
      (region : (Spot.start.after front).region = .code) (predicate : (Spot.start.after front).predicate = true)
      (undefined : (false, n) ∉ Spot.start.mentions front)
  /-- A predicate of the pattern that the error lies in refers to a name that this pattern does not define anywhere. -/
  | foreign {n before pattern behind} (fault : e.fault = .foreignCapture n) (text : source = before ++ pattern ++ behind)
      (isPattern : IsPattern pattern behind) (begins : byteLength before ≤ e.offset)
      (ends : e.offset < byteLength (before ++ pattern)) (refers : (true, n) ∈ Spot.start.mentions pattern)
      (undefined : (false, n) ∉ Spot.start.mentions pattern)

/-- A query is refused because of a capture only if a predicate refers to it, and no capture in front of the predicate has
its name, or none in the whole pattern of the predicate. -/
theorem capture_error {text : String} {e : QueryError} (h : ofSource text = .error e) (hkind : e.fault.kind = .capture) :
    CaptureRefusal text.toList e := by
  obtain ⟨flaw, hrun, rfl⟩ := exists_flaw_of_ofSource h
  have hkind : flaw.fault.kind = .capture := hkind
  rcases Read.error_of_queryPatterns ⟨List.nodup_nil, List.not_mem_nil⟩ hrun with haccounts | ⟨s, hs, hforeign⟩
  · cases hflaw : flaw.fault with
    | unknownCapture n =>
      obtain ⟨hname, -, htext⟩ := haccounts.2 n hflaw
      obtain ⟨front, hfront, hregion, hpredicate, hdefines⟩ :=
        htext .start fun _ => ⟨rfl, rfl, fun hnaming => absurd hnaming Bool.false_ne_true⟩
      have hfront : text.toList = front ++ '@' :: flaw.rest := hfront
      refine .unknown rfl hfront (offset_behind ?_ _) hname hregion hpredicate hdefines
      rw [hfront, List.append_assoc, List.singleton_append]
    | foreignCapture n => exact absurd hflaw (haccounts.1 n)
    | _ =>
      rw [hflaw] at hkind
      cases hkind
  · obtain ⟨n, root, t, pattern, hflaw, hread, hrest, hbegin, hlt, hrefers, hdefines⟩ := hforeign
    obtain ⟨before, hbefore⟩ := hs
    have htext : text.toList = before ++ pattern ++ t.rest := by rw [List.append_assoc, ← hrest]; exact hbefore.symm
    obtain ⟨front, hfront⟩ := hbegin
    -- The predicate begins in the pattern, since it is longer than what is left behind that.
    obtain ⟨behind, rfl, hbehind⟩ : ∃ behind, pattern = front ++ behind ∧ flaw.rest = behind ++ t.rest := by
      rcases List.append_eq_append_iff.mp (hfront.trans hrest) with ⟨more, hpattern, hflaw⟩ | ⟨more, hfront, ht⟩
      · exact ⟨more, hpattern, hflaw⟩
      · rw [ht, List.length_append] at hlt
        omega
    have hne : behind ≠ [] := by
      rintro rfl
      rw [hbehind, List.nil_append] at hlt
      exact Nat.lt_irrefl _ hlt
    have hpos := byteLength_pos hne
    have hsource : text.toList = before ++ front ++ flaw.rest := by rw [List.append_assoc, hfront]; exact hbefore.symm
    have hoffset := offset_behind hsource flaw.fault
    refine .foreign hflaw htext ⟨s.names, root, t, ?_, rfl⟩ ?_ ?_ hrefers hdefines
    · rw [← hrest]
      exact hread
    · rw [hoffset, byteLength_append]
      exact Nat.le_add_right ..
    · rw [hoffset, byteLength_append, byteLength_append, byteLength_append]
      omega

end

/-- A capture that is defined behind the predicate. -/
theorem capture_error_behind : ∃ e, ofSource "(identifier (#eq? @x \"a\")) @x" = .error e ∧
    CaptureRefusal "(identifier (#eq? @x \"a\")) @x".toList e := by
  have herror : ofSource "(identifier (#eq? @x \"a\")) @x" = .error ⟨.unknownCapture "x", 19, 0, 19⟩ := by cbv
  exact ⟨_, herror, capture_error herror rfl⟩

/-- The predicate refers to the one capture that its pattern defines, and yet the query is refused because of it. Behind a
pattern with that capture it is not. -/
theorem capture_error_defined : ∃ e, ofSource "(identifier (#eq? @x \"a\")) @x" = .error e ∧ e.fault.kind = .capture ∧
    IsPattern "(identifier (#eq? @x \"a\")) @x".toList [] ∧
    Spot.start.mentions "(identifier (#eq? @x \"a\")) @x".toList = [(true, "x"), (false, "x")] ∧
    ∃ q, ofSource "(comment) @x (identifier (#eq? @x \"a\")) @x" = .ok q ∧ q.patterns.length = 2 := by
  have herror : ofSource "(identifier (#eq? @x \"a\")) @x" = .error ⟨.unknownCapture "x", 19, 0, 19⟩ := by cbv
  let p : Predicate := ⟨0, .eq (.text "a"), false⟩
  let role : Role := ⟨none, [0], .one⟩
  have hread : Read.outermost.run ⟨"(identifier (#eq? @x \"a\")) @x".toList ++ [], ["x"], []⟩ =
      .ok (.node (.rule .identifier) [] role, ⟨[], ["x"], [(p, "(#eq? @x \"a\")) @x".toList)]⟩) := by cbv
  have hbehind : ofSource "(comment) @x (identifier (#eq? @x \"a\")) @x" =
      .ok ⟨[⟨.node (.rule .comment) [] role, [], 0⟩, ⟨.node (.rule .identifier) [] role, [p], 13⟩], ["x"]⟩ := by cbv
  exact ⟨_, herror, rfl, ⟨["x"], _, _, hread, rfl⟩, by decide +kernel, _, hbehind, rfl⟩

end RenpyScript.Query
