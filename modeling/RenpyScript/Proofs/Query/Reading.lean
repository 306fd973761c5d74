import Mathlib.Data.List.Infix
import RenpyScript.Proofs.Query.Captures
import RenpyScript.Proofs.Text.Boundary
import RenpyScript.Query.Source

/-!
# What is read of a query

A step of reading goes forward in the text, and names of captures are only added to the table. `s.Grows used t`
says this of two states, and that every new name is the name of a capture among `used`. It holds of every reader
with the captures of what it reads, so that in the end each name is used, and each index that a pattern or a
predicate refers to has a name.
-/

namespace RenpyScript

lemma Comparison.eq_singleton_of_ofArguments [RegexEngine] {n : String} {args : List Operand} {other : Operand}
    (h : ofArguments n args = .ok (.eq other)) : args = [other] := by
  unfold ofArguments at h
  split at h
  · split at h
    · obtain rfl := Comparison.eq.inj (Except.ok.inj h)
      rfl
    · cases h
  split at h
  · split at h
    · split at h <;> cases h
    · cases h
  split at h
  · split at h <;> cases h
  · cases h

lemma Predicate.mem_of_ofArguments [RegexEngine] {n : String} {args : List Operand} {p : Predicate} {i : Nat}
    (h : ofArguments n args = .ok p) (hi : i ∈ p.captures) : .capture i ∈ args := by
  unfold ofArguments at h
  split at h
  · next index others =>
    cases hcomparison : Comparison.ofArguments (splitNegation n).1 others with
    | error e =>
      simp only [hcomparison] at h
      cases h
    | ok c =>
      simp only [hcomparison] at h
      obtain rfl := Except.ok.inj h
      simp only [captures] at hi
      split at hi
      · next other =>
        rw [Comparison.eq_singleton_of_ofArguments hcomparison]
        simpa using hi
      · rw [List.mem_singleton.mp hi]
        exact List.mem_cons_self
  · cases h

lemma Pattern.mem_captures_withRole {p : Pattern} {q : Quantifier} {field : Option Field} {more : List Nat} (i : Nat) :
    i ∈ (p.withRole ⟨field, p.role.captures ++ more, q⟩).captures ↔ i ∈ p.captures ∨ i ∈ more := by
  cases p with
  | node test children role | choice children role =>
    simp only [Pattern.withRole, Pattern.captures, Pattern.role, List.mem_append]
    tauto

namespace Query

lemma idxOf?_eq {α : Type} [DecidableEq α] (as : List α) (a : α) :
    as.idxOf? a = if a ∈ as then some (as.idxOf a) else none := by
  rw [List.idxOf?, List.findIdx?_eq_guard_findIdx_lt, Option.guard]
  simp only [← List.idxOf.eq_def, decide_eq_true_eq, List.idxOf_lt_length_iff]

/-! ## Text -/

lemma byteLength_lt_of_suffix {as bs : List Char} (h : as <:+ bs) (hlt : as.length < bs.length) :
    byteLength as < byteLength bs := by
  obtain ⟨cs, rfl⟩ := h
  have hcs : cs ≠ [] := by
    rintro rfl
    exact absurd hlt (Nat.lt_irrefl _)
  have hpos := byteLength_pos hcs
  rw [byteLength_append]
  omega

section
variable {c : Char} {cs rest : List Char} {comment : Bool}

lemma skipTrivia_suffix (comment : Bool) (cs : List Char) : skipTrivia comment cs <:+ cs := by
  induction cs generalizing comment with
  | nil => exact List.suffix_refl []
  | cons c cs ih =>
    rw [skipTrivia]
    split
    · exact (ih _).trans (List.suffix_cons c cs)
    split
    · exact (ih _).trans (List.suffix_cons c cs)
    split
    · exact (ih _).trans (List.suffix_cons c cs)
    · exact List.suffix_refl _

lemma skipTrivia_skipTrivia (comment : Bool) (cs : List Char) :
    skipTrivia false (skipTrivia comment cs) = skipTrivia comment cs := by
  induction cs generalizing comment with
  | nil => rfl
  | cons c cs ih =>
    rw [skipTrivia]
    split
    · exact ih _
    split
    · exact ih _
    split
    · exact ih _
    · next hspace hsemicolon => rw [skipTrivia, if_neg Bool.false_ne_true, if_neg hspace, if_neg hsemicolon]

lemma skipTrivia_dropWhile (cs : List Char) : skipTrivia false (cs.dropWhile isWhiteSpace) = skipTrivia false cs := by
  induction cs with
  | nil => rfl
  | cons c cs ih =>
    rw [List.dropWhile_cons]
    split
    · next hspace => rw [ih, skipTrivia.eq_2, if_neg Bool.false_ne_true, if_pos hspace]
    · rfl

lemma splitString_suffix {value : List Char} (h : splitString cs = some (value, rest)) :
    rest <:+ cs ∧ rest.length < cs.length := by
  fun_induction splitString cs generalizing value with
  | case1 => cases h
  | case2 cs =>
    obtain ⟨-, rfl⟩ := Prod.mk.inj (Option.some.inj h)
    exact ⟨List.suffix_cons _ _, Nat.lt_succ_self _⟩
  | case3 => cases h
  | case4 c cs ih =>
    obtain ⟨⟨value', rest'⟩, hsplit, heq⟩ := Option.map_eq_some_iff.mp h
    obtain ⟨-, rfl⟩ := Prod.mk.inj heq
    obtain ⟨hsuffix, hlength⟩ := ih hsplit
    refine ⟨hsuffix.trans ((List.suffix_cons c cs).trans (List.suffix_cons _ _)), ?_⟩
    simp only [List.length_cons] at hlength ⊢
    omega
  | case5 c cs _ _ _ ih =>
    obtain ⟨⟨value', rest'⟩, hsplit, heq⟩ := Option.map_eq_some_iff.mp h
    obtain ⟨-, rfl⟩ := Prod.mk.inj heq
    obtain ⟨hsuffix, hlength⟩ := ih hsplit
    refine ⟨hsuffix.trans (List.suffix_cons c cs), ?_⟩
    simp only [List.length_cons] at hlength ⊢
    omega

end

/-- A text begins with a character that begins a pattern. -/
def Read.OpensPattern (cs : List Char) : Prop :=
  ∃ c ∈ ['(', '[', '"', '_'], cs.head? = some c

/-! ## States -/

/-- Names that a table of captures may hold. -/
def Named (names : List String) : Prop :=
  names.Nodup ∧ "" ∉ names

section
variable [RegexEngine]

namespace Reading

/-- The state with other text unread. -/
def withRest (s : Reading) (cs : List Char) : Reading :=
  { s with rest := cs }

def cleared (s : Reading) : Reading :=
  { s with predicates := [] }

/-- Reading has gone on from `s` to `t`; the captures `used` have been read meanwhile. -/
structure Grows (s : Reading) (used : List Nat) (t : Reading) : Prop where
  rest : t.rest <:+ s.rest
  names : s.names <+: t.names
  named : Named s.names → Named t.names
  fresh : ∀ i, s.names.length ≤ i → i < t.names.length → i ∈ used
  used_lt : ∀ i ∈ used, i < t.names.length
  /-- Predicates are added at the end; they begin in the text that is read and refer to captures that have names. -/
  predicates : ∃ more, t.predicates = s.predicates ++ more ∧
    ∀ p ∈ more, p.2 <:+ s.rest ∧ ∀ i ∈ p.1.captures, i < t.names.length

variable {s t u : Reading} {used used' : List Nat} {cs : List Char}

lemma Grows.forward (h : cs <:+ s.rest) : s.Grows [] (s.withRest cs) :=
  ⟨h, List.prefix_refl _, id, fun i hle hlt => absurd hlt (Nat.not_lt.mpr hle), by simp, [], by simp [withRest], by simp⟩

lemma Grows.refl (s : Reading) : s.Grows [] s :=
  .forward (List.suffix_refl s.rest)

lemma Grows.trans (h : s.Grows used t) (h' : t.Grows used' u) : s.Grows (used ++ used') u := by
  have hlength := h'.names.length_le
  obtain ⟨more, hmore, hlt⟩ := h.predicates
  obtain ⟨more', hmore', hlt'⟩ := h'.predicates
  refine ⟨h'.rest.trans h.rest, h.names.trans h'.names, h'.named ∘ h.named, fun i hle hi => ?_, ?_,
    more ++ more', by rw [hmore', hmore, List.append_assoc], ?_⟩
  · rcases Nat.lt_or_ge i t.names.length with hold | hnew
    · exact List.mem_append_left _ (h.fresh i hle hold)
    · exact List.mem_append_right _ (h'.fresh i hnew hi)
  · rw [List.forall_mem_append]
    exact ⟨fun i hi => (h.used_lt i hi).trans_le hlength, h'.used_lt⟩
  · rw [List.forall_mem_append]
    exact ⟨fun p hp => ⟨(hlt p hp).1, fun i hi => ((hlt p hp).2 i hi).trans_le hlength⟩,
      fun p hp => ⟨(hlt' p hp).1.trans h.rest, (hlt' p hp).2⟩⟩

lemma Grows.congr (h : s.Grows used t) (hused : ∀ i, i ∈ used ↔ i ∈ used') : s.Grows used' t :=
  ⟨h.rest, h.names, h.named, fun i hle hlt => (hused i).mp (h.fresh i hle hlt),
    fun i hi => h.used_lt i ((hused i).mpr hi), h.predicates⟩

lemma Grows.length_le (h : s.Grows used t) : t.rest.length ≤ s.rest.length :=
  h.rest.length_le

lemma Grows.after (hcs : cs <:+ s.rest) (h : (s.withRest cs).Grows used t) : s.Grows used t :=
  (Grows.forward hcs).trans h

/-- Reading has gone on and at least one character has been read. -/
def Consumes (s : Reading) (used : List Nat) (t : Reading) : Prop :=
  s.Grows used t ∧ t.rest.length < s.rest.length

lemma Consumes.forward (h : cs <:+ s.rest) (hlt : cs.length < s.rest.length) : s.Consumes [] (s.withRest cs) :=
  ⟨.forward h, hlt⟩

lemma Consumes.trans (h : s.Consumes used t) (h' : t.Grows used' u) : s.Consumes (used ++ used') u :=
  ⟨h.1.trans h', h'.length_le.trans_lt h.2⟩

lemma Grows.trans_consumes (h : s.Grows used t) (h' : t.Consumes used' u) : s.Consumes (used ++ used') u :=
  ⟨h.trans h'.1, h'.2.trans_le h.length_le⟩

lemma Consumes.after (hcs : cs <:+ s.rest) (h : (s.withRest cs).Consumes used t) : s.Consumes used t :=
  (Grows.forward hcs).trans_consumes h

end Reading

/-! ## Steps -/

namespace Read
variable {α β : Type} {x : Read α} {f : α → Read β} {s s' : Reading} {Q Q' : α → Reading → Prop} {R : β → Reading → Prop}
  {cs : List Char}

/-- If a step from `s` on succeeds, `Q` holds of what it yields. -/
def Ensures (x : Read α) (s : Reading) (Q : α → Reading → Prop) : Prop :=
  ∀ a s', x.run s = .ok (a, s') → Q a s'

lemma run_bind (x : Read α) (f : α → Read β) (s : Reading) : (x >>= f).run s =
    match x.run s with
    | .ok (a, s') => (f a).run s'
    | .error e => .error e := by
  rw [StateT.run_bind]
  cases x.run s with
  | error e => rfl
  | ok r => rfl

lemma run_next (f : List Char → Read β) (s : Reading) :
    (next >>= f).run s = (f (skipTrivia false s.rest)).run (s.withRest (skipTrivia false s.rest)) :=
  rfl

lemma run_get (f : Reading → Read β) (s : Reading) : (get >>= f).run s = (f s).run s :=
  rfl

/-- What is read behind a capture in the arguments of a predicate, once its name has been looked up. -/
def afterCapture (fuel : Nat) (n : String) (start : List Char) : Option Nat → Read (List Operand)
  | some i => do return .capture i :: (← arguments fuel)
  | none => throw ⟨.unknownCapture n, start⟩

lemma ensures_pure {a : α} (h : Q a s) : Ensures (pure a) s Q := by
  intro b s' hrun
  obtain ⟨rfl, rfl⟩ := Prod.mk.inj (Except.ok.inj hrun)
  exact h

lemma ensures_throw (flaw : Flaw) : Ensures (throw flaw) s Q := by
  intro a s' hrun
  cases hrun

lemma ensures_fail (fault : QueryFault) : Ensures (fail fault) s Q := by
  intro a s' hrun
  cases hrun

lemma Ensures.imp (h : Ensures x s Q) (hQ : ∀ a s', Q a s' → Q' a s') : Ensures x s Q' :=
  fun a s' hrun => hQ a s' (h a s' hrun)

lemma Ensures.bind (h : Ensures x s Q) (hf : ∀ a s', Q a s' → Ensures (f a) s' R) : Ensures (x >>= f) s R := by
  intro b t hrun
  rw [run_bind] at hrun
  cases hx : x.run s with
  | error e =>
    rw [hx] at hrun
    cases hrun
  | ok r =>
    rw [hx] at hrun
    exact hf r.1 r.2 (h r.1 r.2 hx) b t hrun

lemma ensures_failing (fault : QueryFault) : Ensures (fail fault >>= f) s R :=
  (ensures_fail fault (Q := fun _ _ => False)).bind fun _ _ h => h.elim

lemma Ensures.moveTo {f : Unit → Read β} (h : Ensures (f ()) (s.withRest cs) R) : Ensures (moveTo cs >>= f) s R :=
  h

lemma Ensures.next {f : List Char → Read β}
    (h : Ensures (f (skipTrivia false s.rest)) (s.withRest (skipTrivia false s.rest)) R) : Ensures (next >>= f) s R :=
  h

lemma Ensures.name {f : String → Read β}
    (h : Ensures (f (String.ofList (s.rest.takeWhile isNameChar))) (s.withRest (s.rest.dropWhile isNameChar)) R) :
    Ensures (name >>= f) s R :=
  h

lemma Ensures.get {f : Reading → Read β} (h : Ensures (f s) s R) : Ensures (get >>= f) s R :=
  h

lemma Ensures.string {f : String → Read β} (h : ∀ value rest, splitString cs = some (value, rest) →
    Ensures (f (String.ofList value)) (s.withRest rest) R) : Ensures (string cs >>= f) s R := by
  rw [Read.string]
  split
  · next value rest hsplit => exact h value rest hsplit
  · exact (ensures_throw _ (Q := fun _ _ => False)).bind fun _ _ h => h.elim

lemma ensures_string (cs : List Char) (s : Reading) :
    Ensures (string cs) s fun _ t => ∃ rest, t = s.withRest rest ∧ rest <:+ cs := by
  rw [Read.string]
  split
  · next value rest hsplit => exact Ensures.moveTo (ensures_pure ⟨rest, rfl, (splitString_suffix hsplit).1⟩)
  · exact ensures_throw _

lemma Ensures.set {f : PUnit → Read β} {t : Reading} (h : Ensures (f ⟨⟩) t R) : Ensures (set t >>= f) s R :=
  h

lemma Ensures.modify {g : Reading → Reading} {f : PUnit → Read β} (h : Ensures (f ⟨⟩) (g s) R) :
    Ensures (modify g >>= f) s R :=
  h

lemma ensures_modify {g : Reading → Reading} {Q : PUnit → Reading → Prop} (h : Q ⟨⟩ (g s)) : Ensures (modify g) s Q := by
  intro a s' hrun
  obtain ⟨rfl, rfl⟩ := Prod.mk.inj (Except.ok.inj hrun)
  exact h

/-! ## Captures -/

lemma ensures_capture {n : String} (hn : n ≠ "") (s : Reading) : Ensures (capture n) s fun i t => s.Grows [i] t := by
  unfold capture
  refine Ensures.get ?_
  split
  · next i hi =>
    have hlt : i < s.names.length := (List.findIdx?_eq_some_iff_findIdx_eq.mp hi).1
    exact ensures_pure ⟨List.suffix_refl _, List.prefix_refl _, id, fun j hle hlt => absurd hlt (Nat.not_lt.mpr hle),
      by simpa using hlt, [], by simp, by simp⟩
  · next hnone =>
    refine Ensures.set (ensures_pure ⟨List.suffix_refl _, List.prefix_append _ _, fun hnamed => ?_, fun j hle hlt => ?_, ?_,
      [], by simp, by simp⟩)
    · have hnew : n ∉ s.names := by simpa using hnone
      refine ⟨List.nodup_append.mpr ⟨hnamed.1, List.nodup_singleton n, ?_⟩, ?_⟩
      · rintro m hm n' hn' rfl
        exact hnew (List.mem_singleton.mp hn' ▸ hm)
      · rw [List.mem_append, List.mem_singleton]
        exact fun h => h.elim hnamed.2 fun h => hn h.symm
    · rw [List.length_append, List.length_singleton] at hlt
      exact List.mem_singleton.mpr (by omega)
    · simp

lemma ensures_captures (fuel : Nat) (s : Reading) : Ensures (captures fuel) s fun is t => s.Grows is t := by
  induction fuel generalizing s with
  | zero => exact ensures_pure (.refl s)
  | succ fuel ih =>
    have hskip := skipTrivia_suffix false s.rest
    rw [captures]
    refine Ensures.next ?_
    split
    · next cs hcs =>
      have hname : cs.dropWhile isNameChar <:+ s.rest :=
        (List.dropWhile_suffix _).trans ((List.suffix_cons '@' cs).trans (hcs ▸ hskip))
      refine Ensures.moveTo (Ensures.name ?_)
      dsimp only
      split
      · exact ensures_failing _
      · next hne =>
        refine (ensures_capture (fun heq => hne (by rw [heq]; rfl)) _).bind fun i t hi => (ih t).bind fun is u his => ?_
        exact ensures_pure ((hi.trans his).after hname)
    · exact ensures_pure (.forward hskip)

def quantifier (default : Quantifier) : List Char → Read Quantifier
  | '?' :: rest => do moveTo rest; return .optional
  | '*' :: rest => do moveTo rest; return .zeroOrMore
  | '+' :: rest => do moveTo rest; return .oneOrMore
  | _ => return default

lemma suffix_eq (p : Pattern) : suffix p = next >>= fun cs => quantifier p.role.quantifier cs >>= fun q =>
    captures cs.length >>= fun more =>
      pure (p.withRole { p.role with quantifier := q, captures := p.role.captures ++ more }) := by
  rw [suffix]
  congr 1
  funext cs
  unfold quantifier
  dsimp only
  split
  · simp only [bind_assoc, pure_bind]
  · simp only [bind_assoc, pure_bind]
  · simp only [bind_assoc, pure_bind]
  · simp only [pure_bind]

lemma ensures_quantifier (default : Quantifier) (s : Reading) :
    Ensures (quantifier default s.rest) s fun _ t => ∃ cs, t = s.withRest cs ∧ cs <:+ s.rest := by
  unfold quantifier
  split
  · next rest hrest => exact Ensures.moveTo (ensures_pure ⟨rest, rfl, hrest ▸ List.suffix_cons _ _⟩)
  · next rest hrest => exact Ensures.moveTo (ensures_pure ⟨rest, rfl, hrest ▸ List.suffix_cons _ _⟩)
  · next rest hrest => exact Ensures.moveTo (ensures_pure ⟨rest, rfl, hrest ▸ List.suffix_cons _ _⟩)
  · exact ensures_pure ⟨s.rest, rfl, List.suffix_refl _⟩

lemma ensures_suffix (p : Pattern) (s : Reading) : Ensures (suffix p) s fun q t =>
    ∃ more, s.Grows more t ∧ ∀ i, i ∈ q.captures ↔ i ∈ p.captures ∨ i ∈ more := by
  rw [suffix_eq]
  refine Ensures.next ((ensures_quantifier _ (s.withRest (skipTrivia false s.rest))).bind fun q t ⟨cs, ht, hcs⟩ => ?_)
  refine (ensures_captures _ t).bind fun more u hmore => ensures_pure ⟨more, ?_, fun i => Pattern.mem_captures_withRole i⟩
  rw [ht] at hmore
  exact hmore.after (hcs.trans (skipTrivia_suffix false s.rest))

lemma names_of_suffix (p : Pattern) (s : Reading) : Ensures (suffix p) s fun _ t => s.names <+: t.names := by
  refine (ensures_suffix p s).imp fun q t hq => ?_
  obtain ⟨more, hmore, -⟩ := hq
  exact hmore.names

/-! ## Predicates -/

lemma ensures_arguments (fuel : Nat) (s : Reading) : Ensures (arguments fuel) s fun args t =>
    ∃ cs, t = s.withRest cs ∧ cs <:+ s.rest ∧ cs.length < s.rest.length ∧
      ∀ i, .capture i ∈ args → i < s.names.length := by
  induction fuel generalizing s with
  | zero => exact ensures_fail _
  | succ fuel ih =>
    have hskip := skipTrivia_suffix false s.rest
    -- Behind an argument that refers to nothing unknown the others are read.
    have hmore (a : Operand) (ha : ∀ i, .capture i = a → i < s.names.length) {cs : List Char} (hcs : cs <:+ s.rest) :
        Ensures (do return a :: (← arguments fuel)) (s.withRest cs) fun args t =>
          ∃ cs, t = s.withRest cs ∧ cs <:+ s.rest ∧ cs.length < s.rest.length ∧
            ∀ i, .capture i ∈ args → i < s.names.length := by
      refine (ih _).bind fun args t hargs => ensures_pure ?_
      obtain ⟨rest, ht, hrest, hlt, hargs⟩ := hargs
      refine ⟨rest, ht, hrest.trans hcs, hlt.trans_le hcs.length_le, fun i hi => ?_⟩
      rcases List.mem_cons.mp hi with heq | hi
      · exact ha i heq
      · exact hargs i hi
    rw [arguments]
    refine Ensures.next ?_
    split
    · exact ensures_fail _
    · next c cs hcs =>
      rw [hcs] at hskip ⊢
      have hbehind : cs <:+ s.rest := (List.suffix_cons c cs).trans hskip
      have hlength : cs.length < s.rest.length := Nat.lt_of_succ_le hskip.length_le
      split
      · exact Ensures.moveTo (ensures_pure ⟨cs, rfl, hbehind, hlength, by simp⟩)
      split
      · refine Ensures.moveTo (Ensures.name (Ensures.get ?_))
        split
        · next i hi =>
          have hlt : i < s.names.length := (List.findIdx?_eq_some_iff_findIdx_eq.mp hi).1
          exact hmore (.capture i) (fun j hj => Operand.capture.inj hj ▸ hlt) ((List.dropWhile_suffix _).trans hbehind)
        · exact ensures_throw _
      split
      · refine Ensures.string fun value rest hsplit => ?_
        exact hmore (.text _) (fun j hj => by cases hj) ((splitString_suffix hsplit).1.trans hbehind)
      split
      · exact Ensures.name (hmore (.text _) (fun j hj => by cases hj) ((List.dropWhile_suffix _).trans hskip))
      · exact ensures_fail _

lemma ensures_predicate (s : Reading) : Ensures (predicate s.rest) s fun _ t => s.Consumes [] t := by
  have hname : ((s.rest.drop 1).dropWhile isWhiteSpace |>.drop 1).dropWhile isNameChar <:+ s.rest :=
    (List.dropWhile_suffix _).trans ((List.drop_suffix _ _).trans ((List.dropWhile_suffix _).trans (List.drop_suffix _ _)))
  rw [predicate]
  refine Ensures.moveTo (Ensures.name ((ensures_arguments _ _).bind fun args t ⟨cs, ht, hcs, hlt, hargs⟩ => ?_))
  have hgrows : s.Grows [] t := ht ▸ .forward (hcs.trans hname)
  have hshorter : t.rest.length < s.rest.length := ht ▸ hlt.trans_le hname.length_le
  split
  · exact ensures_pure ⟨hgrows, hshorter⟩
  split
  · next p hp =>
    refine ensures_modify ⟨⟨hgrows.rest, hgrows.names, hgrows.named, hgrows.fresh, hgrows.used_lt, [(p, s.rest)], ?_, ?_⟩,
      hshorter⟩
    · rw [ht]
      rfl
    · rw [List.forall_mem_singleton]
      exact ⟨List.suffix_refl _, fun i hi => (hargs i (Predicate.mem_of_ofArguments hp hi)).trans_le hgrows.names.length_le⟩
  · exact ensures_throw _

/-! ## Patterns -/

lemma ensures_kind (s : Reading) : Ensures kind s fun _ t => ∃ cs, t = s.withRest cs ∧ cs <:+ s.rest := by
  have hcs : (skipTrivia false s.rest).dropWhile isNameChar <:+ s.rest :=
    (List.dropWhile_suffix _).trans (skipTrivia_suffix false s.rest)
  rw [kind]
  refine Ensures.next (Ensures.name ?_)
  split
  · exact ensures_fail _
  split
  · exact ensures_pure ⟨_, rfl, hcs⟩
  split
  · exact ensures_pure ⟨_, rfl, hcs⟩
  · exact ensures_throw _

lemma ensures_field (s : Reading) : Ensures field s fun _ t => ∃ cs, t = s.withRest cs ∧ cs <:+ s.rest := by
  have hname : (skipTrivia false s.rest).dropWhile isNameChar <:+ s.rest :=
    (List.dropWhile_suffix _).trans (skipTrivia_suffix false s.rest)
  rw [field]
  refine Ensures.next (Ensures.name (Ensures.next ?_))
  dsimp only [Reading.withRest]
  split
  · next cs hcs =>
    refine Ensures.moveTo ?_
    split
    · refine ensures_pure ⟨cs, rfl, (List.suffix_cons ':' cs).trans ?_⟩
      exact hcs ▸ (skipTrivia_suffix false _).trans hname
    · exact ensures_throw _
  · exact ensures_throw _

/-- Reads a pattern that begins with the given text, up to its quantifier and captures. -/
def bare (fuel : Nat) : List Char → Read Pattern
  | [] => fail .endOfQuery
  | '(' :: cs => do
    moveTo cs
    let test ← kind
    return .node test (← children fuel) .plain
  | '[' :: cs => do
    moveTo cs
    let alternatives ← alternatives fuel
    if alternatives.isEmpty then fail .emptyAlternation
    return .choice alternatives .plain
  | '"' :: cs => do
    let spelling ← string cs
    match Kind.ofName? spelling false with
    | some k => return .node (.token k) [] .plain
    | none => throw ⟨.unknownToken spelling, '"' :: cs⟩
  | '_' :: cs => do
    moveTo cs
    return .node .any [] .plain
  | '.' :: _ => fail .anchor
  | _ => fail .noPattern

lemma pattern_succ (fuel : Nat) : pattern (fuel + 1) = next >>= fun cs => bare fuel cs >>= suffix := by
  rw [pattern]
  congr 1
  funext cs
  split
  · rfl
  · simp only [bare, bind_assoc, pure_bind]
  · simp only [bare, bind_assoc]
    congr! 4 with _ alternatives
    cases alternatives.isEmpty <;> rfl
  · simp only [bare, bind_assoc]
    congr! 2 with spelling
    cases Kind.ofName? spelling false <;> rfl
  · rfl
  · rfl
  · rw [bare] <;> assumption

/-- With the given fuel the readers of patterns go forward. -/
structure Advance (fuel : Nat) : Prop where
  pattern : ∀ s, Ensures (pattern fuel) s fun p t => s.Consumes p.captures t
  alternatives : ∀ s, Ensures (alternatives fuel) s fun ps t => s.Consumes (Pattern.capturesAmong ps) t
  children : ∀ s, Ensures (children fuel) s fun ps t => s.Consumes (Pattern.capturesAmong ps) t

section
variable {fuel : Nat}

lemma Advance.bare (h : Advance fuel) (s : Reading) : Ensures (bare fuel s.rest) s fun p t => s.Consumes p.captures t := by
  unfold Read.bare
  split
  · exact ensures_fail _
  · next cs hcs =>
    refine Ensures.moveTo ((ensures_kind _).bind fun test t ⟨cs', ht, hcs'⟩ =>
      (h.children t).bind fun ps u hu => ensures_pure ?_)
    rw [ht] at hu
    exact hu.after (hcs'.trans (hcs ▸ List.suffix_cons '(' cs))
  · next cs hcs =>
    refine Ensures.moveTo ((h.alternatives _).bind fun ps t ht => ?_)
    dsimp only
    split
    · exact ensures_failing _
    · exact ensures_pure (ht.after (hcs ▸ List.suffix_cons '[' cs))
  · next cs hcs =>
    refine Ensures.string fun value rest hsplit => ?_
    obtain ⟨hsuffix, hlt⟩ := splitString_suffix hsplit
    split
    · refine ensures_pure (.forward (hsuffix.trans (hcs ▸ List.suffix_cons _ cs)) ?_)
      rw [hcs]
      exact Nat.lt_succ_of_lt hlt
    · exact ensures_throw _
  · next cs hcs =>
    refine Ensures.moveTo (ensures_pure (.forward (hcs ▸ List.suffix_cons '_' cs) ?_))
    rw [hcs]
    exact Nat.lt_succ_self _
  · exact ensures_fail _
  · exact ensures_fail _

lemma Advance.pattern_succ (h : Advance fuel) (s : Reading) :
    Ensures (Read.pattern (fuel + 1)) s fun p t => s.Consumes p.captures t := by
  rw [Read.pattern_succ]
  refine Ensures.next ((h.bare (s.withRest (skipTrivia false s.rest))).bind fun p t hp => ?_)
  refine (ensures_suffix p t).imp fun q u ⟨more, hmore, hq⟩ => ?_
  obtain ⟨hgrows, hlt⟩ := hp.trans hmore
  exact .after (skipTrivia_suffix false s.rest) ⟨hgrows.congr fun i => by rw [List.mem_append, hq], hlt⟩

lemma Advance.alternatives_succ (h : Advance fuel) (s : Reading) :
    Ensures (Read.alternatives (fuel + 1)) s fun ps t => s.Consumes (Pattern.capturesAmong ps) t := by
  have hskip := skipTrivia_suffix false s.rest
  rw [Read.alternatives]
  refine Ensures.next ?_
  split
  · exact ensures_fail _
  · next cs hcs =>
    refine Ensures.moveTo (ensures_pure (.forward ((List.suffix_cons ']' cs).trans (hcs ▸ hskip)) ?_))
    exact Nat.lt_of_succ_le (hcs ▸ hskip).length_le
  · refine (h.pattern _).bind fun p t hp => (h.alternatives t).bind fun ps u hps => ensures_pure ?_
    exact (hp.trans hps.1).after hskip

lemma Advance.children_succ (h : Advance fuel) (s : Reading) :
    Ensures (Read.children (fuel + 1)) s fun ps t => s.Consumes (Pattern.capturesAmong ps) t := by
  have hskip := skipTrivia_suffix false s.rest
  rw [Read.children]
  refine Ensures.next ?_
  split
  · exact ensures_fail _
  · next c cs hcs =>
    rw [hcs] at hskip ⊢
    split
    · refine Ensures.moveTo (ensures_pure (.forward ((List.suffix_cons c cs).trans hskip) ?_))
      exact Nat.lt_of_succ_le hskip.length_le
    split
    · refine (ensures_predicate (s.withRest (c :: cs))).bind fun _ t hpredicate => (h.children t).imp fun ps u hps => ?_
      exact (hpredicate.1.trans_consumes hps).after hskip
    split
    · exact ensures_fail _
    split
    · refine (ensures_field _).bind fun f t ⟨cs', ht, hcs'⟩ => (h.pattern t).bind fun p u hp =>
        (h.children u).bind fun ps v hps => ensures_pure ?_
      subst ht
      have hcaptures : (p.withRole { p.role with field := some f }).captures = p.captures := by
        cases p <;> rfl
      rw [Pattern.capturesAmong, hcaptures]
      exact (hp.trans hps.1).after (hcs'.trans hskip)
    · refine (h.pattern _).bind fun p t hp => (h.children t).bind fun ps u hps => ensures_pure ?_
      exact (hp.trans hps.1).after hskip

end

theorem advance (fuel : Nat) : Advance fuel := by
  induction fuel with
  | zero => exact ⟨fun s => ensures_fail _, fun s => ensures_fail _, fun s => ensures_fail _⟩
  | succ fuel ih => exact ⟨ih.pattern_succ, ih.alternatives_succ, ih.children_succ⟩

/-! ## Patterns with predicates -/

/-- `found` is the pattern that the group has held so far. -/
lemma ensures_group (fuel : Nat) (found : Option Pattern) (s : Reading) : Ensures (group fuel found) s fun r t =>
    ∃ used, s.Consumes used t ∧
      ∀ i, i ∈ Pattern.capturesAmong r.toList ↔ i ∈ Pattern.capturesAmong found.toList ∨ i ∈ used := by
  induction fuel generalizing s found with
  | zero => exact ensures_fail _
  | succ fuel ih =>
    have hskip := skipTrivia_suffix false s.rest
    rw [group]
    refine Ensures.next ?_
    split
    · exact ensures_fail _
    · next c cs hcs =>
      rw [hcs] at hskip ⊢
      split
      · refine Ensures.moveTo (ensures_pure ⟨[], ?_, by simp⟩)
        exact .forward ((List.suffix_cons c cs).trans hskip) (Nat.lt_of_succ_le hskip.length_le)
      split
      · refine (ensures_predicate (s.withRest (c :: cs))).bind fun _ t ht => (ih found t).imp fun r u ⟨used, hu, hr⟩ => ?_
        exact ⟨used, (ht.1.trans_consumes hu).after hskip, hr⟩
      split
      · exact ensures_fail _
      · next hfound =>
        obtain rfl : found = none := by simpa using hfound
        refine ((advance _).pattern _).bind fun p t hp => (ih (some p) t).imp fun r u ⟨used, hu, hr⟩ => ?_
        exact ⟨_, (hp.trans hu.1).after hskip, fun i => by simp [hr, Pattern.capturesAmong]⟩

lemma ensures_bare_opens (fuel : Nat) (s : Reading) : Ensures (bare fuel s.rest) s fun _ _ => OpensPattern s.rest := by
  unfold bare
  split
  · exact ensures_fail _
  · next cs hcs => exact fun _ _ _ => ⟨'(', by simp, by rw [hcs, List.head?_cons]⟩
  · next cs hcs => exact fun _ _ _ => ⟨'[', by simp, by rw [hcs, List.head?_cons]⟩
  · next cs hcs => exact fun _ _ _ => ⟨'"', by simp, by rw [hcs, List.head?_cons]⟩
  · next cs hcs => exact fun _ _ _ => ⟨'_', by simp, by rw [hcs, List.head?_cons]⟩
  · exact ensures_fail _
  · exact ensures_fail _

lemma ensures_pattern_opens (fuel : Nat) (s : Reading) :
    Ensures (pattern fuel) s fun _ _ => OpensPattern (skipTrivia false s.rest) := by
  cases fuel with
  | zero => exact ensures_fail _
  | succ fuel =>
    rw [pattern_succ]
    exact Ensures.next ((ensures_bare_opens fuel (s.withRest _)).bind fun p t hopens _ _ _ => hopens)

lemma Ensures.and (h : Ensures x s Q) (h' : Ensures x s Q') : Ensures x s fun a t => Q a t ∧ Q' a t :=
  fun a t hrun => ⟨h a t hrun, h' a t hrun⟩

lemma ensures_outermost (s : Reading) : Ensures outermost s fun p t =>
    s.Consumes p.captures t ∧ OpensPattern (skipTrivia false s.rest) := by
  have hpattern (fuel : Nat) := ((advance fuel).pattern s).and (ensures_pattern_opens fuel s)
  rw [outermost]
  refine Ensures.get ?_
  dsimp only
  split
  · next cs hcs =>
    have hinner : skipTrivia false cs <:+ s.rest := (skipTrivia_suffix false cs).trans (hcs ▸ List.suffix_cons '(' cs)
    have hopens : OpensPattern (skipTrivia false s.rest) := ⟨'(', by simp, by rw [hcs]; rfl⟩
    split
    · refine Ensures.moveTo ((ensures_group _ none _).bind fun r t hr => ?_)
      split
      · next p =>
        obtain ⟨used, ht, hused⟩ := hr
        refine (ensures_suffix p t).imp fun q u ⟨more, hmore, hq⟩ => ⟨?_, hopens⟩
        obtain ⟨hgrows, hlt⟩ := (ht.after hinner).trans hmore
        refine ⟨hgrows.congr fun i => ?_, hlt⟩
        have hp : i ∈ p.captures ↔ i ∈ used := by simpa [Pattern.capturesAmong] using hused i
        rw [List.mem_append, hq, hp]
      · exact ensures_throw _
    · exact hpattern _
  · exact hpattern _

lemma ensures_checks (known : List Nat) (predicates : List (Predicate × List Char)) (s : Reading) :
    Ensures (predicates.forM fun p => checkCaptures known p.1 p.2) s fun _ t =>
      t = s ∧ ∀ p ∈ predicates, p.1.captures ⊆ known := by
  induction predicates with
  | nil => exact ensures_pure ⟨rfl, by simp⟩
  | cons p ps ih =>
    have hcheck : Ensures (checkCaptures known p.1 p.2) s fun _ t => t = s ∧ p.1.captures ⊆ known := by
      unfold checkCaptures
      split
      · exact Ensures.get (ensures_throw _)
      · next hnone => exact ensures_pure ⟨rfl, fun i hi => by simpa using List.find?_eq_none.mp hnone i hi⟩
    refine hcheck.bind fun _ t ht => ?_
    obtain ⟨rfl, hp⟩ := ht
    exact ih.imp fun _ u hu => ⟨hu.1, List.forall_mem_cons.mpr ⟨hp, hu.2⟩⟩

/-- A pattern begins with the text `rest` of the source, and its predicates refer to its own captures. -/
structure Placed (source rest : List Char) (p : QueryPattern) : Prop where
  start : p.start = byteLength source - byteLength rest
  opens : OpensPattern rest
  captures : ∀ c ∈ p.predicates, c.captures ⊆ p.root.captures

lemma ensures_queryPattern (source : List Char) (s : Reading) (hs : skipTrivia false s.rest = s.rest) :
    Ensures (queryPattern source) s fun p t =>
      s.cleared.Consumes p.root.captures t.cleared ∧ Placed source s.rest p := by
  rw [queryPattern]
  refine Ensures.get (Ensures.modify ?_)
  refine (ensures_outermost s.cleared).bind fun root t ⟨⟨hgrows, hlt⟩, hopens⟩ => Ensures.get ?_
  refine (ensures_checks root.captures t.predicates t).bind fun _ u ⟨hu, hchecked⟩ => ensures_pure ⟨⟨?_, ?_⟩, rfl, ?_, ?_⟩
  · subst hu
    exact ⟨hgrows.rest, hgrows.names, hgrows.named, hgrows.fresh, hgrows.used_lt, [], rfl, by simp⟩
  · subst hu
    exact hlt
  · rwa [← hs]
  · exact List.forall_mem_map.mpr hchecked

lemma ensures_queryPatterns (source : List Char) (fuel : Nat) (s : Reading) (hs : s.rest <:+ source) :
    Ensures (queryPatterns source fuel) s fun ps t => s.cleared.Grows (ps.flatMap (·.root.captures)) t.cleared ∧
      (∀ p ∈ ps, ∃ rest, rest <:+ s.rest ∧ Placed source rest p) ∧ ps.Pairwise (·.start < ·.start) := by
  induction fuel generalizing s with
  | zero => exact ensures_pure ⟨.refl _, by simp, .nil⟩
  | succ fuel ih =>
    have hskip := skipTrivia_suffix false s.rest
    rw [queryPatterns]
    refine Ensures.next ?_
    split
    · exact ensures_pure ⟨.forward hskip, by simp, .nil⟩
    · refine (ensures_queryPattern source (s.withRest (skipTrivia false s.rest)) (skipTrivia_skipTrivia _ _)).bind
        fun p t ⟨⟨hgrows, hlt⟩, hp⟩ => ?_
      have ht : t.rest <:+ s.rest := hgrows.rest.trans hskip
      refine (ih t (ht.trans hs)).bind fun ps u ⟨hps, hplaced, hstarts⟩ => ensures_pure ⟨?_, ?_, ?_⟩
      · exact (hgrows.trans hps).after hskip
      · rw [List.forall_mem_cons]
        refine ⟨⟨_, hskip, hp⟩, fun q hq => ?_⟩
        obtain ⟨rest, hrest, hq⟩ := hplaced q hq
        exact ⟨rest, hrest.trans ht, hq⟩
      · refine List.pairwise_cons.mpr ⟨fun q hq => ?_, hstarts⟩
        obtain ⟨rest, hrest, hq⟩ := hplaced q hq
        have hbehind : byteLength rest < byteLength (skipTrivia false s.rest) :=
          byteLength_lt_of_suffix (hrest.trans hgrows.rest) (hrest.length_le.trans_lt hlt)
        have hwithin : byteLength (skipTrivia false s.rest) ≤ byteLength source := by
          obtain ⟨before, hbefore⟩ := hskip.trans hs
          rw [← hbefore, byteLength_append]
          exact Nat.le_add_left ..
        have hstart : p.start = byteLength source - byteLength (skipTrivia false s.rest) := hp.start
        rw [hstart, hq.start]
        omega

end Read

/-! ## Compiled queries -/

/-- A query in order: its patterns begin one behind the other, at characters that begin patterns; every name of a
capture is used, and every index of a capture has a name; predicates refer to captures of their own pattern. -/
structure WellFormed (source : List Char) (q : Query) : Prop where
  ordered : q.patterns.Pairwise (·.start < ·.start)
  opens : ∀ p ∈ q.patterns, ∃ before c behind, source = before ++ c :: behind ∧ p.start = byteLength before ∧
    c ∈ ['(', '[', '"', '_']
  named : Named q.captureNames
  used : ∀ i < q.captureNames.length, ∃ p ∈ q.patterns, i ∈ p.root.captures
  captures_lt : ∀ p ∈ q.patterns, ∀ i, (i ∈ p.root.captures ∨ ∃ c ∈ p.predicates, i ∈ c.captures) →
    i < q.captureNames.length
  predicates : ∀ p ∈ q.patterns, ∀ c ∈ p.predicates, c.captures ⊆ p.root.captures

lemma wellFormed {source : List Char} {fuel : Nat} {ps : List QueryPattern} {t : Reading}
    (h : (Read.queryPatterns source fuel).run ⟨source, [], []⟩ = .ok (ps, t)) : WellFormed source ⟨ps, t.names⟩ := by
  obtain ⟨hgrows, hplaced, hordered⟩ := Read.ensures_queryPatterns source fuel ⟨source, [], []⟩ (List.suffix_refl _) ps t h
  have hpredicates : ∀ p ∈ ps, ∀ c ∈ p.predicates, c.captures ⊆ p.root.captures := by
    intro p hp
    obtain ⟨rest, -, hp⟩ := hplaced p hp
    exact hp.captures
  refine ⟨hordered, fun p hp => ?_, hgrows.named ⟨List.nodup_nil, List.not_mem_nil⟩, fun i hi => ?_,
    fun p hp i hi => ?_, hpredicates⟩
  · obtain ⟨rest, ⟨before, hbefore⟩, hp⟩ := hplaced p hp
    obtain ⟨c, hc, hhead⟩ := hp.opens
    obtain ⟨behind, rfl⟩ := List.head?_eq_some_iff.mp hhead
    have hsource : source = before ++ c :: behind := hbefore.symm
    refine ⟨before, c, behind, hsource, ?_, hc⟩
    rw [hp.start, hsource, byteLength_append, Nat.add_sub_cancel]
  · exact List.mem_flatMap.mp (hgrows.fresh i (Nat.zero_le i) hi)
  · have hroot : i ∈ p.root.captures := hi.elim id fun ⟨c, hc, hi⟩ => hpredicates p hp c hc hi
    exact hgrows.used_lt i (List.mem_flatMap.mpr ⟨p, hp, hroot⟩)

section
variable {text : String} {q : Query}

lemma exists_run_of_ofSource (h : ofSource text = .ok q) : ∃ s, s.names = q.captureNames ∧
    (Read.queryPatterns text.toList (text.toList.length + 1)).run ⟨text.toList, [], []⟩ = .ok (q.patterns, s) := by
  rw [ofSource] at h
  split at h
  · next ps s hrun =>
    obtain rfl := Except.ok.inj h
    exact ⟨s, rfl, hrun⟩
  · cases h

lemma wellFormed_of_ofSource (h : ofSource text = .ok q) : WellFormed text.toList q := by
  obtain ⟨s, hnames, hrun⟩ := exists_run_of_ofSource h
  have hq : q = ⟨q.patterns, s.names⟩ := by rw [hnames]
  rw [hq]
  exact wellFormed hrun

end

end

end Query

end RenpyScript
