import RenpyScript.Proofs.Query.Seam

/-!
# Reading on both sides of a seam

Two queries that differ at a seam are read alike, by every reader with enough fuel for its text: both succeed with the same
result, or both fail for the same cause. A predicate at the seam is read by the loops over child patterns and over the
patterns of a group, and these go on behind it with what the second query has for the predicate.
-/

namespace RenpyScript

namespace Query

namespace Seam
variable [RegexEngine] {c : Seam} {stage : Stage} {s t : Reading} {ch : Char} {cs cs' : List Char}

/-! ## Readers that fail at a predicate -/

lemma Alike.exists_cons (h : c.Alike .there s t) : ∃ w, s.rest = '(' :: w ∧ (skipTrivia false w).head? = some '#' := by
  obtain ⟨hslot, hs, -⟩ := h.rest
  rw [hs]
  exact (clause hslot).begins.exists_cons c.behind

lemma Alike.opensPredicate (h : c.Alike .there s t) : opensPredicate s.rest = true := by
  obtain ⟨hslot, hs, -⟩ := h.rest
  rw [hs]
  exact (clause hslot).begins.opensPredicate c.behind

lemma Alike.head?_notMem (h : c.Alike .there s t) : (∀ ch ∈ s.rest.head?, ch ∉ ['?', '*', '+', '@']) ∧
    ∀ ch ∈ t.rest.head?, ch ∉ ['?', '*', '+', '@'] := by
  obtain ⟨w, hs, -⟩ := h.exists_cons
  obtain ⟨hslot, -, ht⟩ := h.rest
  refine ⟨?_, ht ▸ detached hslot⟩
  rw [hs]
  rintro ch ⟨⟩
  decide

lemma Alike.skipTrivia_eq (h : c.Alike .there s t) : skipTrivia false s.rest = s.rest ∧ skipTrivia false t.rest = t.rest := by
  obtain ⟨hslot, hs, ht⟩ := h.rest
  exact ⟨hs ▸ skipTrivia_gap hslot, ht ▸ skipTrivia_skipTrivia ..⟩

lemma fails_kind (h : ∀ ch ∈ (skipTrivia false s.rest).head?, isNameChar ch = false) :
    Read.kind.Ensures s fun _ _ => False := by
  have hname : ((skipTrivia false s.rest).takeWhile isNameChar) = [] := by
    cases hcs : skipTrivia false s.rest with
    | nil => rfl
    | cons ch cs =>
      rw [hcs] at h
      exact List.takeWhile_cons_of_neg (by simp [h ch rfl])
  rw [Read.kind]
  refine Read.Ensures.next (Read.Ensures.name ?_)
  dsimp only [Reading.withRest]
  rw [hname]
  exact Read.ensures_fail _

lemma fails_bare {w : List Char} (hhash : (skipTrivia false w).head? = some '#') (fuel : Nat) :
    (Read.bare fuel ('(' :: w)).Ensures s fun _ _ => False := by
  refine Read.Ensures.moveTo ((fails_kind fun ch hch => ?_).bind fun _ _ => False.elim)
  obtain rfl : '#' = ch := Option.some.inj (hhash.symm.trans hch)
  rfl

lemma fails_pattern {w : List Char} (hs : s.rest = '(' :: w) (hhash : (skipTrivia false w).head? = some '#') (fuel : Nat) :
    (Read.pattern fuel).Ensures s fun _ _ => False := by
  cases fuel with
  | zero => exact Read.ensures_fail _
  | succ fuel =>
    rw [Read.pattern_succ]
    refine Read.Ensures.next ?_
    rw [hs]
    exact (fails_bare hhash fuel).bind fun _ _ => False.elim

lemma Alike.fails_arguments (h : c.Alike .there s t) (fuel : Nat) :
    (Read.arguments fuel).Ensures s fun _ _ => False := by
  obtain ⟨w, hs, -⟩ := h.exists_cons
  cases fuel with
  | zero => exact Read.ensures_fail _
  | succ fuel =>
    rw [Read.arguments]
    refine Read.Ensures.next ?_
    rw [h.skipTrivia_eq.1, hs]
    exact Read.ensures_fail _

/-! ## Captures and predicates -/

lemma agrees_capture (hst : c.Alike stage s t) (n : String) :
    c.Agrees (· = ·) (Read.capture n) s (Read.capture n) t := by
  rw [Agrees, Surroundings.run_capture, Surroundings.run_capture]
  exact ⟨by rw [hst.names], stage, hst.rest, by rw [hst.names], hst.predicates⟩

lemma length_lt_of_skipTrivia (h : skipTrivia false s.rest = ch :: cs) : cs.length < s.rest.length := by
  have hle := (skipTrivia_suffix false s.rest).length_le
  rw [h, List.length_cons] at hle
  exact hle

lemma run_captures_of_notMem (fuel : Nat) (hskip : skipTrivia false s.rest = s.rest)
    (h : ∀ ch ∈ s.rest.head?, ch ∉ ['?', '*', '+', '@']) : (Read.captures fuel).run s = .ok ([], s) := by
  cases fuel with
  | zero => rfl
  | succ fuel =>
    have hat : (skipTrivia false s.rest).head? ≠ some '@' := by
      rw [hskip]
      exact fun hat => h '@' hat (by decide)
    rw [Surroundings.run_captures_of_ne hat, hskip]
    rfl

lemma agrees_captures_of_notMem (fuel fuel' : Nat) (hst : c.Alike stage s t)
    (hskip : skipTrivia false s.rest = s.rest ∧ skipTrivia false t.rest = t.rest)
    (h : (∀ ch ∈ s.rest.head?, ch ∉ ['?', '*', '+', '@']) ∧ ∀ ch ∈ t.rest.head?, ch ∉ ['?', '*', '+', '@']) :
    c.Agrees (· = ·) (Read.captures fuel) s (Read.captures fuel') t := by
  rw [Agrees, run_captures_of_notMem fuel hskip.1 h.1, run_captures_of_notMem fuel' hskip.2 h.2]
  exact ⟨rfl, stage, hst⟩

lemma agrees_captures_end (fuel fuel' : Nat) (hst : c.Alike stage s t) (h : s.rest = [] ∨ t.rest = []) :
    c.Agrees (· = ·) (Read.captures fuel) s (Read.captures fuel') t := by
  by_cases hstage : stage = .there
  · subst hstage
    exact agrees_captures_of_notMem fuel fuel' hst hst.skipTrivia_eq hst.head?_notMem
  · have hnil := hst.rest.eq_nil_iff hstage
    obtain ⟨hs, ht⟩ : s.rest = [] ∧ t.rest = [] := by tauto
    exact agrees_captures_of_notMem fuel fuel' hst (by rw [hs, ht]; exact ⟨rfl, rfl⟩) (by simp [hs, ht])

lemma agrees_captures {fuel fuel' : Nat} (hst : c.Alike stage s t) (hs : s.rest.length ≤ fuel)
    (ht : t.rest.length ≤ fuel') : c.Agrees (· = ·) (Read.captures fuel) s (Read.captures fuel') t := by
  induction fuel generalizing fuel' stage s t with
  | zero => exact agrees_captures_end _ _ hst (.inl (List.eq_nil_of_length_eq_zero (Nat.le_zero.mp hs)))
  | succ fuel ih =>
    cases fuel' with
    | zero => exact agrees_captures_end _ _ hst (.inr (List.eq_nil_of_length_eq_zero (Nat.le_zero.mp ht)))
    | succ fuel' =>
      rw [Read.captures, Read.captures]
      refine Agrees.next hst (fun hst => agrees_pure hst rfl) (fun stage ch cs cs' hcs hcs' hbehind hst => ?_)
        fun cs cs' _ _ hst => ?_
      · have hlt := length_lt_of_skipTrivia hcs
        have hlt' := length_lt_of_skipTrivia hcs'
        split
        · next ds heq =>
          obtain ⟨rfl, rfl⟩ := List.cons.inj heq
          refine Agrees.moveTo (Agrees.name (hst.withRest (hbehind.tail (by decide) (by decide))) hbehind.ne_there
            fun n huu' => ?_)
          dsimp only
          split
          · exact agrees_failing _
          · refine (agrees_capture huu' n).bind fun i u u' stage hi hi' huu' => ?_
            have hu : u.rest.length ≤ fuel ∧ u'.rest.length ≤ fuel' := by
              rw [Surroundings.run_capture, Except.ok.injEq, Prod.mk.injEq] at hi hi'
              rw [← hi.2, ← hi'.2]
              have hle := (List.dropWhile_suffix isNameChar (l := cs)).length_le
              have hle' := (List.dropWhile_suffix isNameChar (l := cs')).length_le
              dsimp only [Reading.withRest]
              omega
            exact (ih huu' hu.1 hu.2).bind fun is v v' stage _ _ hvv' => agrees_pure hvv' rfl
        · next hne =>
          split
          · next heq =>
            obtain ⟨rfl, -⟩ := List.cons.inj heq
            exact absurd rfl (hne cs)
          · exact agrees_pure hst rfl
      · obtain ⟨hleft, hright⟩ := hst.head?_notMem
        split
        · exact absurd (hleft '@' rfl) (by decide)
        · split
          · exact absurd (hright '@' rfl) (by decide)
          · exact agrees_pure hst rfl

lemma agrees_quantifier (hst : c.Alike stage (s.withRest (ch :: cs)) (t.withRest (ch :: cs'))) (default : Quantifier)
    (hbehind : c.SameBehind ch stage cs cs') :
    c.Agrees (· = ·) (Read.quantifier default (ch :: cs)) (s.withRest (ch :: cs))
      (Read.quantifier default (ch :: cs')) (t.withRest (ch :: cs')) := by
  unfold Read.quantifier
  split
  · next heq =>
    obtain ⟨rfl, rfl⟩ := List.cons.inj heq
    exact Agrees.moveTo (agrees_pure (hst.withRest (hbehind.tail (by decide) (by decide))) rfl)
  · next heq =>
    obtain ⟨rfl, rfl⟩ := List.cons.inj heq
    exact Agrees.moveTo (agrees_pure (hst.withRest (hbehind.tail (by decide) (by decide))) rfl)
  · next heq =>
    obtain ⟨rfl, rfl⟩ := List.cons.inj heq
    exact Agrees.moveTo (agrees_pure (hst.withRest (hbehind.tail (by decide) (by decide))) rfl)
  · next hoptional hzero hone =>
    split
    · next heq => exact (hoptional cs (by rw [(List.cons.inj heq).1])).elim
    · next heq => exact (hzero cs (by rw [(List.cons.inj heq).1])).elim
    · next heq => exact (hone cs (by rw [(List.cons.inj heq).1])).elim
    · exact agrees_pure hst rfl

lemma quantifier_of_notMem (default : Quantifier) (h : ∀ ch ∈ cs.head?, ch ∉ ['?', '*', '+', '@']) :
    Read.quantifier default cs = pure default := by
  unfold Read.quantifier
  split
  · exact absurd (h '?' rfl) (by decide)
  · exact absurd (h '*' rfl) (by decide)
  · exact absurd (h '+' rfl) (by decide)
  · rfl

lemma agrees_suffix (hst : c.Alike stage s t) (p : Pattern) :
    c.Agrees (· = ·) (Read.suffix p) s (Read.suffix p) t := by
  have hcaptures (q : Quantifier) {stage : Stage} {u u' : Reading} {n n' : Nat} (huu' : c.Alike stage u u')
      (hn : u.rest.length ≤ n) (hn' : u'.rest.length ≤ n') :
      c.Agrees (· = ·)
        (Read.captures n >>= fun more =>
          pure (p.withRole { p.role with quantifier := q, captures := p.role.captures ++ more })) u
        (Read.captures n' >>= fun more =>
          pure (p.withRole { p.role with quantifier := q, captures := p.role.captures ++ more })) u' := by
    exact (agrees_captures huu' hn hn').bind fun more v v' _ _ _ hvv' => agrees_pure hvv' rfl
  rw [Read.suffix_eq]
  refine Agrees.next hst (fun hst => hcaptures _ hst (Nat.le_refl _) (Nat.le_refl _))
    (fun stage ch cs cs' _ _ hbehind hst => ?_) fun cs cs' _ _ hst => ?_
  · refine (agrees_quantifier hst _ hbehind).bind fun q u u' _ hu hu' huu' => ?_
    obtain ⟨ds, rfl, hds⟩ := Read.ensures_quantifier _ (s.withRest (ch :: cs)) q u hu
    obtain ⟨ds', rfl, hds'⟩ := Read.ensures_quantifier _ (t.withRest (ch :: cs')) q u' hu'
    exact hcaptures q huu' hds.length_le hds'.length_le
  · obtain ⟨hleft, hright⟩ := hst.head?_notMem
    dsimp only [Reading.withRest] at hleft hright
    rw [quantifier_of_notMem _ hleft, quantifier_of_notMem _ hright, pure_bind, pure_bind]
    exact hcaptures _ hst (Nat.le_refl _) (Nat.le_refl _)

lemma run_arguments_of_nil (fuel : Nat) (h : s.rest = []) :
    ∃ rest, (Read.arguments fuel).run s = .error ⟨.unclosedPredicate, rest⟩ := by
  cases fuel with
  | zero => exact ⟨_, rfl⟩
  | succ fuel =>
    rw [Read.arguments, Read.run_next, h]
    exact ⟨_, rfl⟩

lemma agrees_arguments_end (fuel fuel' : Nat) (hst : c.Alike stage s t) (h : s.rest = [] ∨ t.rest = []) :
    c.Agrees (· = ·) (Read.arguments fuel) s (Read.arguments fuel') t := by
  by_cases hstage : stage = .there
  · subst hstage
    exact agrees_of_fails hst.slotted (hst.fails_arguments fuel)
  · have hnil := hst.rest.eq_nil_iff hstage
    obtain ⟨hs, ht⟩ : s.rest = [] ∧ t.rest = [] := by tauto
    obtain ⟨rest, hrun⟩ := run_arguments_of_nil fuel hs
    obtain ⟨rest', hrun'⟩ := run_arguments_of_nil fuel' ht
    rw [Agrees, hrun, hrun']
    exact .inr rfl

lemma agrees_arguments_cons {fuel fuel' : Nat} (a : Operand)
    (h : c.Agrees (· = ·) (Read.arguments fuel) s (Read.arguments fuel') t) :
    c.Agrees (· = ·) (do return a :: (← Read.arguments fuel)) s (do return a :: (← Read.arguments fuel')) t :=
  h.bind fun _ _ _ _ _ _ huu' => agrees_pure huu' rfl

lemma agrees_arguments {fuel fuel' : Nat} (hst : c.Alike stage s t) (hs : s.rest.length ≤ fuel)
    (ht : t.rest.length ≤ fuel') : c.Agrees (· = ·) (Read.arguments fuel) s (Read.arguments fuel') t := by
  induction fuel generalizing fuel' stage s t with
  | zero => exact agrees_arguments_end _ _ hst (.inl (List.eq_nil_of_length_eq_zero (Nat.le_zero.mp hs)))
  | succ fuel ih =>
    cases fuel' with
    | zero => exact agrees_arguments_end _ _ hst (.inr (List.eq_nil_of_length_eq_zero (Nat.le_zero.mp ht)))
    | succ fuel' =>
      have hcons (a : Operand) {stage : Stage} {u u' : Reading} (huu' : c.Alike stage u u') (hu : u.rest.length ≤ fuel)
          (hu' : u'.rest.length ≤ fuel') := agrees_arguments_cons a (ih huu' hu hu')
      rw [Read.arguments, Read.arguments]
      refine Agrees.next hst (fun _ => agrees_fail _) (fun stage ch cs cs' hcs hcs' hbehind hst => ?_)
        fun cs cs' _ _ hst => ?_
      · have hlt := length_lt_of_skipTrivia hcs
        have hlt' := length_lt_of_skipTrivia hcs'
        dsimp only
        split
        · next hch => exact Agrees.moveTo (agrees_pure (hst.withRest (hbehind.tail (by simp [hch]) (by simp [hch]))) rfl)
        split
        · next hch =>
          refine Agrees.moveTo (Agrees.name (hst.withRest (hbehind.tail (by simp [hch]) (by simp [hch])))
            hbehind.ne_there fun n huu' => ?_)
          refine Agrees.get ?_
          have hle := (List.dropWhile_suffix isNameChar (l := cs)).length_le
          have hle' := (List.dropWhile_suffix isNameChar (l := cs')).length_le
          rw [← huu'.names]
          dsimp only [Reading.withRest] at huu' ⊢
          split
          · exact hcons _ huu' (by dsimp only; omega) (by dsimp only; omega)
          · exact agrees_throw rfl
        split
        · next hch =>
          subst hch
          refine Agrees.string hst hbehind fun value ds ds' hsplit hsplit' hds => ?_
          have hle := (splitString_suffix hsplit).2
          have hle' := (splitString_suffix hsplit').2
          exact hcons (.text _) hds (by dsimp only [Reading.withRest]; omega) (by dsimp only [Reading.withRest]; omega)
        split
        · next hch =>
          have hname : isNameChar ch = true := by
            simp only [isNameChar, Bool.or_eq_true] at hch ⊢
            tauto
          have hle := (List.dropWhile_suffix isNameChar (l := cs)).length_le
          have hle' := (List.dropWhile_suffix isNameChar (l := cs')).length_le
          refine Agrees.name hst hbehind.ne_there fun n huu' => hcons (.text n) huu' ?_ ?_
          · dsimp only [Reading.withRest]
            rw [List.dropWhile_cons_of_pos hname]
            omega
          · dsimp only [Reading.withRest]
            rw [List.dropWhile_cons_of_pos hname]
            omega
        · exact agrees_fail _
      · obtain ⟨w, rfl, -⟩ := hst.exists_cons
        exact agrees_of_fails hst.slotted (Read.ensures_fail _)

/-- A predicate that is not at the seam is read on both sides. -/
lemma agrees_predicate (hst : c.Alike stage s t) (hbehind : c.SameBehind ch stage cs cs')
    (hopens : opensPredicate (ch :: cs) = true) :
    c.Agrees (· = ·) (Read.predicate (ch :: cs)) s (Read.predicate (ch :: cs')) t := by
  obtain rfl := eq_paren_of_opensPredicate hopens
  obtain ⟨stage', hstage, hleads, hname⟩ := hbehind.opensPredicate.2 hopens
  have hsuffix (cs : List Char) : ((cs.dropWhile isWhiteSpace).drop 1).dropWhile isNameChar <:+ cs :=
    (List.dropWhile_suffix _).trans ((List.drop_suffix _ _).trans (List.dropWhile_suffix _))
  rw [Read.predicate, Read.predicate]
  refine Agrees.moveTo (Agrees.name (hst.move hleads hname) hstage fun n huu' => ?_)
  refine (agrees_arguments huu' (Nat.le_succ_of_le (hsuffix cs).length_le) (Nat.le_succ_of_le (hsuffix cs').length_le)).bind
    fun args v v' stage hv hv' hvv' => ?_
  split
  · exact agrees_pure hvv' rfl
  split
  · next p _ =>
    obtain ⟨ds, rfl, hds, -⟩ := Read.ensures_arguments _ _ args v hv
    obtain ⟨ds', rfl, -⟩ := Read.ensures_arguments _ _ args v' hv'
    refine ⟨rfl, stage, hvv'.rest, hvv'.names, hvv'.predicates.append p fun hstage => ?_⟩
    have hle := hvv'.rest.length_le hstage
    exact Nat.lt_succ_of_le (hle.trans (hds.trans (hsuffix cs)).length_le)
  · exact agrees_throw rfl

lemma agrees_predicate_bind {β : Type} {W : β → β → Prop} {f f' : Unit → Read β}
    (hst : c.Alike stage (s.withRest (ch :: cs)) (t.withRest (ch :: cs'))) (hbehind : c.SameBehind ch stage cs cs')
    (hopens : opensPredicate (ch :: cs) = true)
    (hf : ∀ stage u u', c.Alike stage u u' → u.rest.length ≤ cs.length → u'.rest.length ≤ cs'.length →
      c.Agrees W (f ()) u (f' ()) u') :
    c.Agrees W (Read.predicate (ch :: cs) >>= f) (s.withRest (ch :: cs))
      (Read.predicate (ch :: cs') >>= f') (t.withRest (ch :: cs')) :=
  (agrees_predicate hst hbehind hopens).bind fun _ u u' stage hu hu' huu' => hf stage u u' huu'
    (Nat.le_of_lt_succ (Read.ensures_predicate (s.withRest (ch :: cs)) _ u hu).2)
    (Nat.le_of_lt_succ (Read.ensures_predicate (t.withRest (ch :: cs')) _ u' hu').2)

/-- At the seam the first query goes on behind its predicate with `x`. The second goes on with `y` behind another predicate,
or where it is, if there are trivia instead. What comes behind the predicate must not belong to the pattern in front. -/
lemma agrees_there {β : Type} {W : β → β → Prop} {x y : Read β} {z : List Char → Read β}
    (hst : c.Alike .there (s.withRest cs) (t.withRest cs'))
    (hx : ∀ u r, x.run u = .ok r → Detached u.rest ∧ x.run (u.withRest (skipTrivia false u.rest)) = .ok r)
    (hz : ∀ ds, opensPredicate ds = true → z ds = Read.predicate ds >>= fun _ => y)
    (hwithout : ∀ u, c.Alike .past u (t.withRest cs') → u.rest.length < cs.length →
      c.Agrees W x u (Read.next >>= z) (t.withRest cs'))
    (hturned : ∀ u u', c.Alike .past u u' → u.rest.length < cs.length → u'.rest.length < cs'.length →
      c.Agrees W x u y u') :
    c.Agrees W (Read.predicate cs >>= fun _ => x) (s.withRest cs) (z cs') (t.withRest cs') := by
  obtain ⟨⟨hslot, hcs, hcs'⟩, hnames, hpredicates, hbefore⟩ := hst
  obtain rfl : cs = c.gap ++ c.behind := hcs
  have hlt {gap : List Char} (hgap : BeginsPredicate gap) : c.behind.length < (gap ++ c.behind).length := by
    obtain ⟨blanks, name, rfl, -⟩ := hgap
    rw [List.length_append, List.length_cons]
    omega
  have hpast {p : Predicate} (hp : c.Made p) (hdetached : Detached c.behind) (more : List (Predicate × List Char))
      (hmore : more.map (·.1) = c.kept p) :
      c.SamePredicates .past (s.predicates ++ [(p, c.gap ++ c.behind)]) (t.predicates ++ more) := by
    refine .inr ⟨hslot, hdetached, s.predicates, p, [], hp, rfl, fun q hq heq => ?_, ?_⟩
    · exact absurd (heq ▸ hbefore q hq) (Nat.lt_irrefl _)
    · have hmap : s.predicates.map (·.1) = t.predicates.map (·.1) := hpredicates
      rw [List.map_append, hmore, hmap, List.map_nil, List.append_nil]
  refine agrees_of_ok hslot fun r hr => ?_
  rw [Read.run_bind] at hr
  cases hrun : (Read.predicate (c.gap ++ c.behind)).run (s.withRest (c.gap ++ c.behind)) with
  | error e =>
    rw [hrun] at hr
    cases hr
  | ok r' =>
    obtain ⟨⟨⟩, u⟩ := r'
    obtain ⟨p, hp, rfl⟩ := (clause hslot).ends hrun
    rw [hrun] at hr
    have hr : x.run ⟨c.behind, s.names, s.predicates ++ [(p, c.gap ++ c.behind)]⟩ = .ok r := hr
    obtain ⟨hdetached, hskip⟩ := hx _ _ hr
    rw [Agrees, Read.run_bind, hrun]
    cases c.filled with
    | trivia left => exact absurd left hslot.not_trivia
    | without left right _ _ _ keeps =>
      obtain rfl : cs' = skipTrivia false c.behind := hcs'.trans (right.skipTrivia_append _)
      have hagrees := hwithout ⟨skipTrivia false c.behind, s.names, s.predicates ++ [(p, c.gap ++ c.behind)]⟩
        ⟨rfl, hnames, List.append_nil t.predicates ▸ hpast hp hdetached [] (by rw [keeps]; rfl)⟩
        ((skipTrivia_suffix false _).length_le.trans_lt (hlt left.begins))
      have hright : (Read.next >>= z).run (t.withRest (skipTrivia false c.behind)) =
          (z (skipTrivia false c.behind)).run (t.withRest (skipTrivia false c.behind)) := by
        rw [Read.run_next]
        dsimp only [Reading.withRest]
        rw [skipTrivia_skipTrivia]
      rw [Agrees, hright] at hagrees
      dsimp only [Reading.withRest] at hskip hagrees ⊢
      rw [hskip] at hagrees
      rw [hr]
      exact hagrees
    | turned left turn right keeps =>
      obtain rfl : cs' = c.gap' ++ c.behind := hcs'.trans (right.begins.skipTrivia _)
      have hagrees := hturned ⟨c.behind, s.names, s.predicates ++ [(p, c.gap ++ c.behind)]⟩
        ⟨c.behind, t.names, t.predicates ++ [(turn p, c.gap' ++ c.behind)]⟩
        ⟨rfl, hnames, hpast hp hdetached [_] (by rw [keeps]; rfl)⟩ (hlt left.begins) (hlt right.begins)
      have hreads := right.reads hnames hrun
      rw [hz _ (right.begins.opensPredicate _), Read.run_bind, hreads]
      exact hagrees

/-! ## Patterns -/

lemma agrees_kind (hst : c.Alike stage s t) : c.Agrees (· = ·) Read.kind s Read.kind t := by
  rw [Read.kind]
  refine Agrees.begin hst (fun stage cs cs' hstage hst => Agrees.name hst hstage fun n huu' => ?_) fun cs cs' hst => ?_
  · split
    · exact agrees_fail _
    split
    · exact agrees_pure huu' rfl
    split
    · exact agrees_pure huu' rfl
    · exact agrees_throw rfl
  · obtain ⟨w, rfl, -⟩ := hst.exists_cons
    exact agrees_of_fails hst.slotted (Read.Ensures.name (Read.ensures_fail _))

lemma agrees_field (hst : c.Alike stage s t) : c.Agrees (· = ·) Read.field s Read.field t := by
  rw [Read.field]
  refine Agrees.begin hst (fun stage cs cs' hstage hst => Agrees.name hst hstage fun n huu' => ?_) fun cs cs' hst => ?_
  · refine Agrees.next huu' (fun _ => agrees_throw rfl) (fun stage ch ds ds' _ _ hbehind huu' => ?_) fun ds ds' _ _ huu' => ?_
    · split
      · next heq =>
        obtain ⟨rfl, rfl⟩ := List.cons.inj heq
        refine Agrees.moveTo ?_
        split
        · exact agrees_pure (huu'.withRest (hbehind.tail (by decide) (by decide))) rfl
        · exact agrees_throw rfl
      · next hne =>
        split
        · next heq => exact (hne ds (by rw [(List.cons.inj heq).1])).elim
        · exact agrees_throw rfl
    · obtain ⟨w, rfl, -⟩ := huu'.exists_cons
      exact agrees_of_fails huu'.slotted (Read.ensures_throw _)
  · obtain ⟨w, rfl, -⟩ := hst.exists_cons
    exact agrees_of_fails hst.slotted (Read.Ensures.name (Read.Ensures.next (Read.ensures_throw _)))

/-- With fuel for their texts the readers of patterns agree. -/
structure Together (c : Seam) (fuel fuel' : Nat) : Prop where
  pattern : ∀ {stage s t}, c.Alike stage s t → 2 * s.rest.length + 1 ≤ fuel → 2 * t.rest.length + 1 ≤ fuel' →
    c.Agrees (· = ·) (Read.pattern fuel) s (Read.pattern fuel') t
  alternatives : ∀ {stage s t}, c.Alike stage s t → 2 * s.rest.length + 2 ≤ fuel → 2 * t.rest.length + 2 ≤ fuel' →
    c.Agrees (· = ·) (Read.alternatives fuel) s (Read.alternatives fuel') t
  children : ∀ {stage s t}, c.Alike stage s t → 2 * s.rest.length + 2 ≤ fuel → 2 * t.rest.length + 2 ≤ fuel' →
    c.Agrees (· = ·) (Read.children fuel) s (Read.children fuel') t

section
variable {β : Type} {W : β → β → Prop} {fuel fuel' : Nat}

lemma Together.pattern_bind (h : Together c fuel fuel') {f f' : Pattern → Read β} (hst : c.Alike stage s t)
    (hs : 2 * s.rest.length + 1 ≤ fuel) (ht : 2 * t.rest.length + 1 ≤ fuel')
    (hf : ∀ p stage u u', c.Alike stage u u' → u.rest.length < s.rest.length → u'.rest.length < t.rest.length →
      c.Agrees W (f p) u (f' p) u') : c.Agrees W (Read.pattern fuel >>= f) s (Read.pattern fuel' >>= f') t :=
  (h.pattern hst hs ht).bind fun p u u' stage hu hu' huu' =>
    hf p stage u u' huu' ((Read.advance fuel).pattern s p u hu).2 ((Read.advance fuel').pattern t p u' hu').2

lemma Together.bare (h : Together c fuel fuel') (hst : c.Alike stage (s.withRest (ch :: cs)) (t.withRest (ch :: cs')))
    (hbehind : c.SameBehind ch stage cs cs') (hs : 2 * cs.length + 2 ≤ fuel) (ht : 2 * cs'.length + 2 ≤ fuel') :
    c.Agrees (· = ·) (Read.bare fuel (ch :: cs)) (s.withRest (ch :: cs))
      (Read.bare fuel' (ch :: cs')) (t.withRest (ch :: cs')) := by
  unfold Read.bare
  split
  · next heq => cases heq
  · next heq =>
    obtain ⟨rfl, rfl⟩ := List.cons.inj heq
    refine Agrees.moveTo ((agrees_kind (hst.withRest (hbehind.tail (by decide) (by decide)))).bind
      fun test u u' stage hu hu' huu' => ?_)
    obtain ⟨ds, rfl, hds⟩ := Read.ensures_kind _ test u hu
    obtain ⟨ds', rfl, hds'⟩ := Read.ensures_kind _ test u' hu'
    have hle : ds.length ≤ cs.length := hds.length_le
    have hle' : ds'.length ≤ cs'.length := hds'.length_le
    refine (h.children huu' (by dsimp only [Reading.withRest]; omega) (by dsimp only [Reading.withRest]; omega)).bind
      fun ps v v' _ _ _ hvv' => ?_
    exact agrees_pure hvv' rfl
  · next heq =>
    obtain ⟨rfl, rfl⟩ := List.cons.inj heq
    refine Agrees.moveTo ((h.alternatives (hst.withRest (hbehind.tail (by decide) (by decide))) hs ht).bind
      fun ps u u' _ _ _ huu' => ?_)
    cases ps with
    | nil => exact agrees_failing _
    | cons p ps => exact agrees_pure huu' rfl
  · next heq =>
    obtain ⟨rfl, rfl⟩ := List.cons.inj heq
    refine Agrees.string hst hbehind fun value ds ds' _ _ hds => ?_
    split
    · exact agrees_pure hds rfl
    · exact agrees_throw rfl
  · next heq =>
    obtain ⟨rfl, rfl⟩ := List.cons.inj heq
    exact Agrees.moveTo (agrees_pure (hst.withRest (hbehind.tail (by decide) (by decide))) rfl)
  · next heq =>
    obtain ⟨rfl, rfl⟩ := List.cons.inj heq
    exact agrees_fail _
  · next hnil hparen hbracket hquote hany hanchor =>
    split
    · next heq => cases heq
    · next heq => exact (hparen cs (by rw [(List.cons.inj heq).1])).elim
    · next heq => exact (hbracket cs (by rw [(List.cons.inj heq).1])).elim
    · next heq => exact (hquote cs (by rw [(List.cons.inj heq).1])).elim
    · next heq => exact (hany cs (by rw [(List.cons.inj heq).1])).elim
    · next heq => exact (hanchor cs (by rw [(List.cons.inj heq).1])).elim
    · exact agrees_fail _

lemma Together.pattern_succ (h : Together c fuel fuel') (hst : c.Alike stage s t)
    (hs : 2 * s.rest.length + 1 ≤ fuel + 1) (ht : 2 * t.rest.length + 1 ≤ fuel' + 1) :
    c.Agrees (· = ·) (Read.pattern (fuel + 1)) s (Read.pattern (fuel' + 1)) t := by
  rw [Read.pattern_succ, Read.pattern_succ]
  refine Agrees.next hst (fun _ => agrees_failing _) (fun stage ch cs cs' hcs hcs' hbehind hst => ?_) fun cs cs' _ _ hst => ?_
  · have hlt := length_lt_of_skipTrivia hcs
    have hlt' := length_lt_of_skipTrivia hcs'
    exact (h.bare hst hbehind (by omega) (by omega)).bind fun p u u' _ _ _ huu' => agrees_suffix huu' p
  · obtain ⟨w, rfl, hhash⟩ := hst.exists_cons
    exact agrees_of_fails hst.slotted ((fails_bare hhash fuel).bind fun _ _ => False.elim)

lemma Together.alternatives_succ (h : Together c fuel fuel') (hst : c.Alike stage s t)
    (hs : 2 * s.rest.length + 2 ≤ fuel + 1) (ht : 2 * t.rest.length + 2 ≤ fuel' + 1) :
    c.Agrees (· = ·) (Read.alternatives (fuel + 1)) s (Read.alternatives (fuel' + 1)) t := by
  rw [Read.alternatives, Read.alternatives]
  refine Agrees.next hst (fun _ => agrees_fail _) (fun stage ch cs cs' hcs hcs' hbehind hst => ?_) fun cs cs' _ _ hst => ?_
  · have hlt := length_lt_of_skipTrivia hcs
    have hlt' := length_lt_of_skipTrivia hcs'
    have hmore : c.Agrees (· = ·)
        (do let p ← Read.pattern fuel; return p :: (← Read.alternatives fuel)) (s.withRest (ch :: cs))
        (do let p ← Read.pattern fuel'; return p :: (← Read.alternatives fuel')) (t.withRest (ch :: cs')) := by
      refine h.pattern_bind hst ?_ ?_ fun p stage u u' huu' hlt hlt' => ?_
      all_goals dsimp only [Reading.withRest, List.length_cons] at *
      · omega
      · omega
      · exact (h.alternatives huu' (by omega) (by omega)).bind fun ps v v' _ _ _ hvv' => agrees_pure hvv' rfl
    split
    · next heq => cases heq
    · next heq =>
      obtain ⟨rfl, rfl⟩ := List.cons.inj heq
      exact Agrees.moveTo (agrees_pure (hst.withRest (hbehind.tail (by decide) (by decide))) rfl)
    · next hbracket =>
      split
      · next heq => cases heq
      · next heq => exact (hbracket cs (by rw [(List.cons.inj heq).1])).elim
      · exact hmore
  · obtain ⟨w, rfl, hhash⟩ := hst.exists_cons
    exact agrees_of_fails hst.slotted ((fails_pattern rfl hhash fuel).bind fun _ _ => False.elim)

/-- What is read behind white space and comments if child patterns are expected. -/
def childrenAt (fuel : Nat) : List Char → Read (List Pattern)
  | [] => Read.fail .unclosedNode
  | c :: cs => do
    if c = ')' then
      Read.moveTo cs
      return []
    else if opensPredicate (c :: cs) then
      Read.predicate (c :: cs)
      Read.children fuel
    else if c = '!' then Read.fail .negatedField
    else if c.isAlpha then
      let f ← Read.field
      let p ← Read.pattern fuel
      return p.withRole { p.role with field := some f } :: (← Read.children fuel)
    else
      let p ← Read.pattern fuel
      return p :: (← Read.children fuel)

lemma children_succ (fuel : Nat) : Read.children (fuel + 1) = Read.next >>= childrenAt fuel := by
  rw [Read.children]
  rfl

lemma childrenAt_of_opensPredicate {ds : List Char} (h : opensPredicate ds = true) :
    childrenAt fuel ds = Read.predicate ds >>= fun _ => Read.children fuel := by
  cases ds with
  | nil => cases h
  | cons ch cs =>
    obtain rfl := eq_paren_of_opensPredicate h
    rw [childrenAt, if_neg (by decide), if_pos h]

/-- Where child patterns are read, nothing comes that would belong to a pattern in front. -/
lemma run_children {r : List Pattern × Reading} (h : (Read.children fuel).run s = .ok r) :
    Detached s.rest ∧ (Read.children fuel).run (s.withRest (skipTrivia false s.rest)) = .ok r := by
  cases fuel with
  | zero => cases h
  | succ fuel =>
    rw [children_succ, Read.run_next] at h ⊢
    refine ⟨fun ch hch hmem => ?_, ?_⟩
    · obtain ⟨cs, hcs⟩ := List.head?_eq_some_iff.mp hch
      obtain ⟨hclose, hpredicate, hnegated, halpha, hopens⟩ := begins_nothing hmem
      rw [hcs, childrenAt, if_neg hclose, if_neg hpredicate, if_neg hnegated, if_neg (by simp [halpha])] at h
      have hpattern := (Read.ensures_pattern_opens fuel (s.withRest (ch :: cs))).bind
        (fun _ _ hopens _ _ _ => hopens) r.1 r.2 h
      dsimp only [Reading.withRest] at hpattern
      rw [← hcs, skipTrivia_skipTrivia, hcs] at hpattern
      exact hopens hpattern
    · dsimp only [Reading.withRest]
      rw [skipTrivia_skipTrivia]
      exact h

lemma Together.children_succ (h : ∀ fuel', Together c fuel fuel') (hst : c.Alike stage s t)
    (hs : 2 * s.rest.length + 2 ≤ fuel + 1) (ht : 2 * t.rest.length + 2 ≤ fuel' + 1) :
    c.Agrees (· = ·) (Read.children (fuel + 1)) s (Read.children (fuel' + 1)) t := by
  rw [Seam.children_succ, Seam.children_succ]
  refine Agrees.next hst (fun _ => agrees_fail _) (fun stage ch cs cs' hcs hcs' hbehind hst => ?_) fun cs cs' hcs hcs' hst => ?_
  · have hlt := length_lt_of_skipTrivia hcs
    have hlt' := length_lt_of_skipTrivia hcs'
    -- A child, which `g` puts in its role, and those behind it.
    have hchild (g : Pattern → Pattern) {stage : Stage} {u u' : Reading} (huu' : c.Alike stage u u')
        (hu : u.rest.length ≤ (ch :: cs).length) (hu' : u'.rest.length ≤ (ch :: cs').length) :
        c.Agrees (· = ·) (do let p ← Read.pattern fuel; return g p :: (← Read.children fuel)) u
          (do let p ← Read.pattern fuel'; return g p :: (← Read.children fuel')) u' := by
      rw [List.length_cons] at hu hu'
      refine (h fuel').pattern_bind huu' (by omega) (by omega) fun p stage v v' hvv' hlt hlt' => ?_
      exact ((h fuel').children hvv' (by omega) (by omega)).bind fun ps w w' _ _ _ hww' => agrees_pure hww' rfl
    rw [childrenAt, childrenAt, ← hbehind.opensPredicate_eq]
    split
    · next hch => exact Agrees.moveTo (agrees_pure (hst.withRest (hbehind.tail (by simp [hch]) (by simp [hch]))) rfl)
    split
    · next hopens =>
      refine agrees_predicate_bind hst hbehind hopens fun stage u u' huu' hle hle' => ?_
      exact (h fuel').children huu' (by omega) (by omega)
    split
    · exact agrees_fail _
    split
    · refine (agrees_field hst).bind fun f u u' stage hu hu' huu' => ?_
      obtain ⟨ds, rfl, hds⟩ := Read.ensures_field _ f u hu
      obtain ⟨ds', rfl, hds'⟩ := Read.ensures_field _ f u' hu'
      exact hchild (fun p => p.withRole { p.role with field := some f }) huu' hds.length_le hds'.length_le
    · exact hchild id hst (Nat.le_refl _) (Nat.le_refl _)
  · have hle := (skipTrivia_suffix false s.rest).length_le
    have hle' := (skipTrivia_suffix false t.rest).length_le
    rw [hcs] at hle
    rw [hcs'] at hle'
    have hopens : opensPredicate cs = true := hst.opensPredicate
    rw [childrenAt_of_opensPredicate hopens]
    refine agrees_there hst (fun _ _ => run_children) (fun _ => childrenAt_of_opensPredicate) (fun u huu' hu => ?_)
      fun u u' huu' hu hu' => ?_
    · rw [← Seam.children_succ]
      exact (h (fuel' + 1)).children huu' (by omega) (by dsimp only [Reading.withRest]; omega)
    · exact (h fuel').children huu' (by omega) (by omega)

end

lemma together (c : Seam) (fuel fuel' : Nat) : Together c fuel fuel' := by
  induction fuel generalizing fuel' with
  | zero => exact ⟨fun _ hs => absurd hs (by omega), fun _ hs => absurd hs (by omega), fun _ hs => absurd hs (by omega)⟩
  | succ fuel ih =>
    cases fuel' with
    | zero =>
      exact ⟨fun _ _ ht => absurd ht (by omega), fun _ _ ht => absurd ht (by omega), fun _ _ ht => absurd ht (by omega)⟩
    | succ fuel' => exact ⟨(ih fuel').pattern_succ, (ih fuel').alternatives_succ, Together.children_succ ih⟩

/-! ## Patterns with predicates -/

/-- What is read behind white space and comments in a group that has held `found` so far. -/
def groupAt (fuel : Nat) (found : Option Pattern) : List Char → Read (Option Pattern)
  | [] => Read.fail .unclosedGroup
  | c :: cs => do
    if c = ')' then
      Read.moveTo cs
      return found
    else if opensPredicate (c :: cs) then
      Read.predicate (c :: cs)
      Read.group fuel found
    else if found.isSome then Read.fail .siblings
    else
      let p ← Read.pattern (Read.fuelFor (c :: cs))
      Read.group fuel (some p)

lemma group_succ (fuel : Nat) (found : Option Pattern) :
    Read.group (fuel + 1) found = Read.next >>= groupAt fuel found := by
  rw [Read.group]
  rfl

section
variable {fuel fuel' : Nat} {found : Option Pattern}

lemma groupAt_of_opensPredicate {ds : List Char} (h : opensPredicate ds = true) :
    groupAt fuel found ds = Read.predicate ds >>= fun _ => Read.group fuel found := by
  cases ds with
  | nil => cases h
  | cons ch cs =>
    obtain rfl := eq_paren_of_opensPredicate h
    rw [groupAt, if_neg (by decide), if_pos h]

/-- Where the patterns of a group are read, nothing comes that would belong to a pattern in front. -/
lemma run_group {r : Option Pattern × Reading} (h : (Read.group fuel found).run s = .ok r) :
    Detached s.rest ∧ (Read.group fuel found).run (s.withRest (skipTrivia false s.rest)) = .ok r := by
  cases fuel with
  | zero => cases h
  | succ fuel =>
    rw [group_succ, Read.run_next] at h ⊢
    refine ⟨fun ch hch hmem => ?_, ?_⟩
    · obtain ⟨cs, hcs⟩ := List.head?_eq_some_iff.mp hch
      obtain ⟨hclose, hpredicate, -, -, hopens⟩ := begins_nothing hmem
      rw [hcs, groupAt, if_neg hclose, if_neg hpredicate] at h
      split at h
      · cases h
      · have hpattern := (Read.ensures_pattern_opens _ (s.withRest (ch :: cs))).bind
          (fun _ _ hopens _ _ _ => hopens) r.1 r.2 h
        dsimp only [Reading.withRest] at hpattern
        rw [← hcs, skipTrivia_skipTrivia, hcs] at hpattern
        exact hopens hpattern
    · dsimp only [Reading.withRest]
      rw [skipTrivia_skipTrivia]
      exact h

lemma agrees_group (hst : c.Alike stage s t) (hs : s.rest.length < fuel) (ht : t.rest.length < fuel')
    (found : Option Pattern) : c.Agrees (· = ·) (Read.group fuel found) s (Read.group fuel' found) t := by
  induction fuel generalizing fuel' found stage s t with
  | zero => exact absurd hs (Nat.not_lt_zero _)
  | succ fuel ih =>
    obtain ⟨fuel', rfl⟩ : ∃ n, fuel' = n + 1 := ⟨fuel' - 1, by omega⟩
    rw [group_succ, group_succ]
    refine Agrees.next hst (fun _ => agrees_fail _) (fun stage ch cs cs' hcs hcs' hbehind hst => ?_)
      fun cs cs' hcs hcs' hst => ?_
    · have hlt := length_lt_of_skipTrivia hcs
      have hlt' := length_lt_of_skipTrivia hcs'
      rw [groupAt, groupAt, ← hbehind.opensPredicate_eq]
      split
      · next hch => exact Agrees.moveTo (agrees_pure (hst.withRest (hbehind.tail (by simp [hch]) (by simp [hch]))) rfl)
      split
      · next hopens =>
        refine agrees_predicate_bind hst hbehind hopens fun stage u u' huu' hle hle' => ?_
        exact ih huu' (by omega) (by omega) found
      split
      · exact agrees_fail _
      · refine (together c _ _).pattern_bind hst (Nat.le_succ _) (Nat.le_succ _) fun p stage u u' huu' hle hle' => ?_
        dsimp only [Reading.withRest, List.length_cons] at hle hle'
        exact ih huu' (by omega) (by omega) (some p)
    · have hle := (skipTrivia_suffix false s.rest).length_le
      have hle' := (skipTrivia_suffix false t.rest).length_le
      rw [hcs] at hle
      rw [hcs'] at hle'
      have hopens : opensPredicate cs = true := hst.opensPredicate
      rw [groupAt_of_opensPredicate hopens]
      refine agrees_there hst (fun _ _ => run_group) (fun _ => groupAt_of_opensPredicate) (fun u huu' hu => ?_)
        fun u u' huu' hu hu' => ?_
      · rw [← group_succ]
        exact ih huu' (by omega) (by dsimp only [Reading.withRest]; omega) found
      · exact ih huu' (by omega) (by omega) found

end

lemma agrees_outermost (hst : c.Alike stage (s.withRest (ch :: cs)) (t.withRest (ch :: cs')))
    (hbehind : c.SameBehind ch stage cs cs') :
    c.Agrees (· = ·) Read.outermost (s.withRest (ch :: cs)) Read.outermost (t.withRest (ch :: cs')) := by
  have hpattern : c.Agrees (· = ·) (Read.pattern (Read.fuelFor (ch :: cs))) (s.withRest (ch :: cs))
      (Read.pattern (Read.fuelFor (ch :: cs'))) (t.withRest (ch :: cs')) :=
    (together c _ _).pattern hst (Nat.le_succ _) (Nat.le_succ _)
  rw [Read.outermost]
  refine Agrees.get ?_
  dsimp only [Reading.withRest]
  split
  · next heq =>
    obtain ⟨rfl, rfl⟩ := List.cons.inj heq
    obtain ⟨stage', hleads, hinner⟩ := (hbehind.tail (by decide) (by decide)).skipTrivia
    change c.Agrees _ _ _ (if Read.opensGroup (skipTrivia false cs') = true then _ else _) _
    rw [← hbehind.opensGroup]
    split
    · have hfuel (cs : List Char) : cs.length < Read.fuelFor cs := by
        rw [Read.fuelFor]
        omega
      refine Agrees.moveTo ((agrees_group (hst.move hleads hinner.same) (hfuel _) (hfuel _) none).bind
        fun r u u' stage _ _ huu' => ?_)
      cases r with
      | none => exact agrees_throw rfl
      | some p => exact agrees_suffix huu' p
    · exact hpattern
  · next hparen =>
    split
    · next heq => exact (hparen cs (by rw [(List.cons.inj heq).1])).elim
    · exact hpattern

/-! ## Captures of predicates -/

lemma agrees_checks_of_eq {ps ps' : List (Predicate × List Char)} (hst : c.Alike stage s t) (known : List Nat)
    (hps : ps.map (·.1) = ps'.map (·.1)) :
    c.Agrees (· = ·) (ps.forM fun p => Read.checkCaptures known p.1 p.2) s
      (ps'.forM fun p => Read.checkCaptures known p.1 p.2) t := by
  induction ps generalizing ps' stage s t with
  | nil =>
    obtain rfl : ps' = [] := by simpa using hps.symm
    exact agrees_pure hst rfl
  | cons p ps ih =>
    obtain ⟨p', ps', rfl⟩ := List.exists_cons_of_ne_nil (l := ps') (by rintro rfl; cases hps)
    obtain ⟨hp, hmore⟩ := List.cons.inj hps
    have hcheck : c.Agrees (· = ·) (Read.checkCaptures known p.1 p.2) s (Read.checkCaptures known p'.1 p'.2) t := by
      have hp : p.1 = p'.1 := hp
      rw [Read.checkCaptures, Read.checkCaptures, ← hp]
      split
      · refine Agrees.get (agrees_throw ?_)
        rw [hst.names]
      · exact agrees_pure hst rfl
    exact hcheck.bind fun _ u u' stage _ _ huu' => ih huu' hmore

/-- If no predicate of the first query is refused, none of the second is. -/
lemma agrees_checks (hst : c.Alike stage s t) (known : List Nat) :
    c.Agrees (· = ·) (s.predicates.forM fun p => Read.checkCaptures known p.1 p.2) s
      (t.predicates.forM fun p => Read.checkCaptures known p.1 p.2) t := by
  have hps := hst.predicates
  cases stage with
  | ahead | there => exact agrees_checks_of_eq hst known hps.1
  | past =>
    rcases hps with ⟨-, hps⟩ | ⟨hslot, -, before, p, after, -, hps, -, hps'⟩
    · exact agrees_checks_of_eq hst known hps
    refine agrees_of_ok hslot fun r hr => ?_
    obtain ⟨hstate, hknown⟩ := Read.ensures_checks known s.predicates s r.1 r.2 hr
    have hknown' : ∀ q ∈ t.predicates, q.1.captures ⊆ known := by
      rw [hps, List.forall_mem_append, List.forall_mem_cons] at hknown
      obtain ⟨hbefore, hp, hafter⟩ := hknown
      intro q hq
      have hmem : q.1 ∈ t.predicates.map (·.1) := List.mem_map_of_mem hq
      rw [hps', List.mem_append, List.mem_append] at hmem
      rcases hmem with (hmem | hmem) | hmem
      · obtain ⟨q', hq', heq⟩ := List.mem_map.mp hmem
        exact heq ▸ hbefore q' hq'
      · exact captures_kept hslot hmem ▸ hp
      · obtain ⟨q', hq', heq⟩ := List.mem_map.mp hmem
        exact heq ▸ hafter q' hq'
    rw [Agrees, hr, Surroundings.run_checks t hknown']
    exact ⟨rfl, .past, hstate ▸ hst⟩

/-! ## A pattern of a query -/

lemma agrees_queryPattern (hst : c.Alike stage (s.cleared.withRest (ch :: cs)) (t.cleared.withRest (ch :: cs')))
    (hbehind : c.SameBehind ch stage cs cs') (source source' : List Char) :
    c.Agrees (fun p p' => p.root = p'.root) (Read.queryPattern source) (s.withRest (ch :: cs))
      (Read.queryPattern source') (t.withRest (ch :: cs')) := by
  rw [Read.queryPattern, Read.queryPattern]
  refine Agrees.get (Agrees.modify ?_)
  refine (agrees_outermost hst hbehind).bind fun root u u' stage _ _ huu' => Agrees.get ?_
  exact (agrees_checks huu' root.captures).bind fun _ v v' stage _ _ hvv' => agrees_pure hvv' rfl

lemma fails_queryPattern {w : List Char} (hs : s.rest = '(' :: w) (hhash : (skipTrivia false w).head? = some '#')
    (source : List Char) : (Read.queryPattern source).Ensures s fun _ _ => False := by
  have hgroup : Read.opensGroup (skipTrivia false w) = false := by
    obtain ⟨ds, hds⟩ := List.head?_eq_some_iff.mp hhash
    rw [hds]
    rfl
  have houtermost : Read.outermost.Ensures s.cleared fun _ _ => False := by
    have hs : s.cleared.rest = '(' :: w := hs
    rw [Read.outermost]
    refine Read.Ensures.get ?_
    rw [hs]
    change (if Read.opensGroup (skipTrivia false w) = true then _ else _ : Read Pattern).Ensures _ _
    rw [hgroup]
    exact fails_pattern hs hhash _
  exact Read.Ensures.get (Read.Ensures.modify (houtermost.bind fun _ _ => False.elim))

end Seam

end Query

end RenpyScript
