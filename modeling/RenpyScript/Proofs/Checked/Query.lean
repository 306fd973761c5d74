import RenpyScript.Checked.Query
import RenpyScript.Proofs.Checked.Bytes
import RenpyScript.Proofs.Query.Reading

/-!
# The compiler of queries over bytes

The compiler stands where reading has come to: at the offset of what is unread. Each of its steps has a value, and does
what the step of reading does. So it comes to an end on every source, with the same query or with the same error.
-/

namespace RenpyScript

lemma byteLength_reverse (cs : List Char) : byteLength cs.reverse = byteLength cs := by
  induction cs with
  | nil => rfl
  | cons c cs ih =>
    rw [List.reverse_cons, byteLength_append, ih, byteLength_cons, byteLength_cons, byteLength_nil]
    omega

namespace Query

lemma lastIndexOf?_of_notMem {b : UInt8} {bytes : List UInt8} (h : b ∉ bytes) : lastIndexOf? b bytes = none := by
  rw [lastIndexOf?, List.idxOf?_eq_none_iff.mpr (by simpa using h), Option.map_none]

lemma lastIndexOf?_append_cons {b : UInt8} (as : List UInt8) {bs : List UInt8} (h : b ∉ bs) :
    lastIndexOf? b (as ++ b :: bs) = some as.length := by
  have hreverse : (as ++ b :: bs).reverse = bs.reverse ++ b :: as.reverse := by simp
  rw [lastIndexOf?, hreverse, idxOf?_eq, if_pos (by simp), List.idxOf_append_of_notMem (by simpa using h),
    List.idxOf_cons_self, Option.map_some, Option.some.injEq, List.length_append, List.length_cons, List.length_reverse]
  omega

section
variable {lines line : List Char}

/-- Lines that have ended, in front of one that has not. -/
def LastLine (lines line : List Char) : Prop :=
  (lines = [] ∨ lines.getLast? = some '\n') ∧ '\n' ∉ line

lemma exists_lastLine (cs : List Char) : ∃ lines line, cs = lines ++ line ∧ LastLine lines line ∧
    byteLength (cs.reverse.takeWhile (· ≠ '\n')) = byteLength line := by
  refine ⟨(cs.reverse.dropWhile (· ≠ '\n')).reverse, (cs.reverse.takeWhile (· ≠ '\n')).reverse, ?_,
    ⟨?_, fun hmem => ?_⟩, ?_⟩
  · rw [← List.reverse_append, List.takeWhile_append_dropWhile, List.reverse_reverse]
  · have hstop := List.head?_dropWhile_not (· ≠ '\n') cs.reverse
    rw [List.reverse_eq_nil_iff, List.getLast?_reverse]
    cases hhead : cs.reverse.dropWhile (· ≠ '\n') with
    | nil => exact .inl rfl
    | cons c _ =>
      rw [hhead] at hstop
      exact .inr (congrArg some (by simpa using hstop))
  · simpa using List.mem_takeWhile_imp (List.mem_reverse.mp hmem)
  · rw [byteLength_reverse]

lemma lastIndexOf?_lines (h : LastLine lines line) :
    ((lastIndexOf? '\n'.toUInt8 (utf8 (lines ++ line))).map (· + 1)).getD 0 = byteLength lines := by
  have hascii : ('\n').val.toNat ≤ 127 := by decide
  have hline : ('\n').toUInt8 ∉ utf8 line := fun hmem => h.2 (mem_of_mem_utf8 hascii hmem)
  rw [utf8_append]
  obtain rfl | hlast := h.1
  · rw [utf8, List.flatMap_nil, List.nil_append, lastIndexOf?_of_notMem hline]
    rfl
  · obtain ⟨ended, rfl⟩ := List.getLast?_eq_some_iff.mp hlast
    have hfeed : utf8 ['\n'] = ['\n'.toUInt8] := by rw [utf8, List.flatMap_singleton, utf8EncodeChar_ascii hascii]
    rw [utf8_append, hfeed, List.append_assoc, List.singleton_append, lastIndexOf?_append_cons _ hline, Option.map_some,
      Option.getD_some, length_utf8, byteLength_append, byteLength_cons, byteLength_nil, utf8Size_ascii hascii]

end

/-! ## Places -/

variable {source : List Char}

section
variable {as bs cs : List Char}

lemma byteLength_sub (h : as ++ bs = source) : byteLength source - byteLength bs = byteLength as := by
  rw [← h, byteLength_append, Nat.add_sub_cancel]

lemma skipTrivia_true (cs : List Char) : skipTrivia true cs = skipTrivia false (cs.dropWhile (· ≠ '\n')) := by
  induction cs with
  | nil => rfl
  | cons c cs ih =>
    rw [skipTrivia, if_pos rfl, List.dropWhile_cons]
    by_cases hc : c = '\n'
    · subst hc
      rfl
    · simp [hc, ih]

lemma skipTrivia_of_trimmed (htrim : cs.dropWhile isWhiteSpace = cs) (hc : cs.head? ≠ some ';') :
    skipTrivia false cs = cs := by
  cases cs with
  | nil => rfl
  | cons c cs =>
    have hspace : ¬isWhiteSpace c = true := by
      intro hspace
      rw [List.dropWhile_cons_of_pos hspace] at htrim
      have hle := (List.dropWhile_suffix isWhiteSpace (l := cs)).length_le
      rw [htrim, List.length_cons] at hle
      omega
    rw [skipTrivia, if_neg Bool.false_ne_true, if_neg hspace, if_neg fun h => hc (by rw [h, List.head?_cons])]

lemma checkedSub_append (as bs : List Char) :
    checkedSub (byteLength (as ++ bs)) (byteLength bs) = some (byteLength as) := by
  rw [checkedSub, byteLength_append, if_pos (Nat.le_add_left _ _), Nat.add_sub_cancel]

def Flaw.error (source : List Char) (flaw : Flaw) : QueryError :=
  .behind (source.take (source.length - flaw.rest.length)) flaw.fault

/-- An error is where the flaw was found. -/
lemma errorAt_eq {α : Type} (hcs : cs <:+ source) (fault : QueryFault) :
    (Compiler.errorAt source (byteLength source - byteLength cs) fault : Compile α) =
      throw (Flaw.error source ⟨fault, cs⟩) := by
  obtain ⟨before, hbefore⟩ := hcs
  obtain ⟨lines, line, hlines, hline, hcolumn⟩ := exists_lastLine before
  have hbytes : byteSlice (utf8 source) 0 (byteLength before) = some (utf8 before) := by
    have hle : byteLength before ≤ (utf8 source).length := by
      rw [length_utf8, ← hbefore, byteLength_append]
      exact Nat.le_add_right _ _
    rw [byteSlice, if_pos ⟨Nat.zero_le _, hle⟩, List.drop_zero, Nat.sub_zero, ← hbefore, utf8_append, ← length_utf8,
      List.take_left]
  have hmin : min (byteLength before) (byteLength source) = byteLength before := by
    rw [← hbefore, byteLength_append]
    exact Nat.min_eq_left (Nat.le_add_right _ _)
  have hsub : checkedSub (byteLength before) (((lastIndexOf? '\n'.toUInt8 (utf8 before)).map (· + 1)).getD 0) =
      some (byteLength line) := by
    rw [hlines, lastIndexOf?_lines hline, checkedSub, byteLength_append, if_pos (Nat.le_add_right _ _),
      Nat.add_sub_cancel_left]
  have htake : source.take (source.length - cs.length) = before := by
    rw [← hbefore, List.length_append, Nat.add_sub_cancel, List.take_left]
  rw [Compiler.errorAt, byteLength_sub hbefore, hmin, hbytes]
  change (do
    let column ← checkedSub (byteLength before) _
    throw _ : Compile α) = _
  rw [hsub, Flaw.error, htake, QueryError.behind, hcolumn, count_utf8 (by decide)]
  rfl

end

/-- An error has its place in the source: it is behind as many line feeds as its row says, and as many bytes of the line
begun there as its column says. -/
def Located (source : List Char) (e : QueryError) : Prop :=
  ∃ lines line behind, source = lines ++ line ++ behind ∧ LastLine lines line ∧ e.offset = byteLength (lines ++ line) ∧
    e.row = (lines ++ line).count '\n' ∧ e.column = byteLength line

lemma located_error (source : List Char) (flaw : Flaw) : Located source (flaw.error source) := by
  obtain ⟨lines, line, hlines, hline, hcolumn⟩ := exists_lastLine (source.take (source.length - flaw.rest.length))
  refine ⟨lines, line, source.drop (source.length - flaw.rest.length), ?_, hline, ?_, ?_, hcolumn⟩
  · rw [← hlines, List.take_append_drop]
  · rw [← hlines]
    rfl
  · rw [← hlines]
    rfl

/-! ## Strings, and the characters that open a group -/

section
variable {cs : List Char}

lemma stringFrom_of_some {value rest : List Char} (i : Nat) (h : splitString cs = some (value, rest)) :
    ∃ inside, cs = inside ++ '"' :: rest ∧ stringFrom i cs = some (value, i + byteLength inside) := by
  fun_induction splitString cs generalizing value i with
  | case1 => cases h
  | case2 cs =>
    obtain ⟨rfl, rfl⟩ := Prod.mk.inj (Option.some.inj h)
    exact ⟨[], rfl, rfl⟩
  | case3 => cases h
  | case4 c cs ih =>
    obtain ⟨⟨value', rest'⟩, hsplit, heq⟩ := Option.map_eq_some_iff.mp h
    obtain ⟨rfl, rfl⟩ := Prod.mk.inj heq
    obtain ⟨inside, rfl, hinside⟩ := ih (i + 1 + c.utf8Size) hsplit
    have hsize : ('\\').utf8Size = 1 := by decide
    refine ⟨'\\' :: c :: inside, rfl, ?_⟩
    rw [stringFrom, hinside, byteLength_cons, byteLength_cons, hsize, Option.map_some, Nat.add_assoc, Nat.add_assoc]
  | case5 c cs hquote hlast hescape ih =>
    obtain ⟨⟨value', rest'⟩, hsplit, heq⟩ := Option.map_eq_some_iff.mp h
    obtain ⟨rfl, rfl⟩ := Prod.mk.inj heq
    obtain ⟨inside, rfl, hinside⟩ := ih (i + c.utf8Size) hsplit
    refine ⟨c :: inside, rfl, ?_⟩
    rw [stringFrom, hinside, byteLength_cons, Option.map_some, Nat.add_assoc]
    · exact hquote
    · exact hlast
    · exact hescape

lemma stringFrom_of_none (i : Nat) (h : splitString cs = none) : stringFrom i cs = none := by
  fun_induction splitString cs generalizing i with
  | case1 => rfl
  | case2 => cases h
  | case3 => rfl
  | case4 c cs ih => rw [stringFrom, ih _ (Option.map_eq_none_iff.mp h), Option.map_none]
  | case5 c cs hquote hlast hescape ih =>
    rw [stringFrom, ih _ (Option.map_eq_none_iff.mp h), Option.map_none]
    · exact hquote
    · exact hlast
    · exact hescape

lemma head?_opensGroup (cs : List Char) :
    (cs.head? = some '(' ∨ cs.head? = some '[' ∨ cs.head? = some '"') ↔ Read.opensGroup cs = true := by
  cases cs with
  | nil => simp [Read.opensGroup]
  | cons c cs => simp [Read.opensGroup, or_assoc]

end

lemma lift_some_bind {γ δ : Type} (c : γ) (k : γ → Compile δ) : ((liftM (some c) : Compile γ) >>= k) = k c :=
  rfl

/-! ## States -/

section
variable [RegexEngine]

/-- What is unread, and the predicates, belong to the source. -/
def Reading.Within (source : List Char) (s : Reading) : Prop :=
  s.rest <:+ source ∧ ∀ p ∈ s.predicates, p.2 <:+ source

def Reading.placed (source : List Char) (s : Reading) : Compiler :=
  ⟨byteLength source - byteLength s.rest, s.names,
    s.predicates.map fun p => (p.1, byteLength source - byteLength p.2)⟩

section
variable {s : Reading} {cs as bs : List Char} {c : Char}

lemma Reading.Within.withRest (hs : s.Within source) (hcs : cs <:+ s.rest) : (s.withRest cs).Within source :=
  ⟨hcs.trans hs.1, hs.2⟩

lemma names_placed (source : List Char) (s : Reading) : (s.placed source).names = s.names :=
  rfl

lemma names_withRest (s : Reading) (cs : List Char) : (s.withRest cs).names = s.names :=
  rfl

lemma left_placed (hs : s.Within source) : (s.placed source).left source = byteLength s.rest := by
  obtain ⟨before, hbefore⟩ := hs.1
  rw [Compiler.left, Reading.placed, byteLength_sub hbefore, ← hbefore, byteLength_append, Nat.add_sub_cancel_left]

lemma rest_placed (hs : s.Within source) : (s.placed source).rest source = some s.rest := by
  obtain ⟨before, hbefore⟩ := hs.1
  have hslice := slice_append before s.rest []
  rw [List.append_nil, hbefore, Span.covering, ← byteLength_append, hbefore] at hslice
  rwa [Compiler.rest, Reading.placed, byteLength_sub hbefore]

lemma forward_placed (hs : s.Within source) (hrest : as ++ bs = s.rest) :
    (s.placed source).forward (byteLength as) = (s.withRest bs).placed source := by
  obtain ⟨before, hbefore⟩ := hs.1
  have hbehind : (before ++ as) ++ bs = source := by rw [List.append_assoc, hrest, hbefore]
  rw [Compiler.forward, Reading.placed, Reading.placed, byteLength_sub hbefore, Reading.withRest, byteLength_sub hbehind,
    byteLength_append]

lemma forward_char_placed (hs : (s.withRest (c :: cs)).Within source) :
    ((s.withRest (c :: cs)).placed source).forward c.utf8Size = (s.withRest cs).placed source :=
  forward_placed hs (List.singleton_append ..)

lemma forward_one_placed (hc : c.utf8Size = 1) (hs : (s.withRest (c :: cs)).Within source) :
    ((s.withRest (c :: cs)).placed source).forward 1 = (s.withRest cs).placed source :=
  hc ▸ forward_char_placed hs

lemma below_placed (bound : Nat) (hs : s.Within source) (h : byteLength s.rest < bound) :
    (s.placed source).below source bound = some ⟨s.placed source, (left_placed hs).symm ▸ h⟩ :=
  dif_pos _

lemma skipTrivia_placed (hs : s.Within source) :
    (s.placed source).skipTrivia source = some ((s.withRest (skipTrivia false s.rest)).placed source) := by
  induction hlength : s.rest.length using Nat.strong_induction_on generalizing s with
  | _ n ih =>
    have hblank := List.takeWhile_append_dropWhile (p := isWhiteSpace) (l := s.rest)
    have htrimmed : s.rest.dropWhile isWhiteSpace <:+ s.rest := List.dropWhile_suffix _
    have htwice : (s.rest.dropWhile isWhiteSpace).dropWhile isWhiteSpace = s.rest.dropWhile isWhiteSpace := by
      rw [List.dropWhile_idempotent]
    have hskip := skipTrivia_dropWhile s.rest
    have hsub := checkedSub_append (s.rest.takeWhile isWhiteSpace) (s.rest.dropWhile isWhiteSpace)
    rw [hblank] at hsub
    rw [Compiler.skipTrivia]
    simp only [rest_placed hs, hsub, forward_placed hs hblank, Option.bind_eq_bind, Option.bind_some]
    generalize s.rest.dropWhile isWhiteSpace = trimmed at htrimmed htwice hskip
    split
    · next hsemicolon =>
      obtain ⟨cs, rfl⟩ := List.head?_eq_some_iff.mp hsemicolon
      have hcomment := List.takeWhile_append_dropWhile (p := (· ≠ '\n')) (l := ';' :: cs)
      have hcs : (';' :: cs).dropWhile (· ≠ '\n') = cs.dropWhile (· ≠ '\n') := rfl
      have hbehind : cs.dropWhile (· ≠ '\n') <:+ cs := List.dropWhile_suffix _
      have hlt : (cs.dropWhile (· ≠ '\n')).length < s.rest.length :=
        Nat.lt_of_lt_of_le (Nat.lt_succ_of_le hbehind.length_le) htrimmed.length_le
      have hwithin : (s.withRest (cs.dropWhile (· ≠ '\n'))).Within source :=
        hs.withRest (hbehind.trans ((List.suffix_cons ';' cs).trans htrimmed))
      have hbelow := below_placed ((s.placed source).left source) hwithin (by
        rw [left_placed hs]
        exact byteLength_lt_of_suffix (hbehind.trans ((List.suffix_cons ';' cs).trans htrimmed)) hlt)
      have hforward : ((s.withRest (';' :: cs)).placed source).forward (byteLength ((';' :: cs).takeWhile (· ≠ '\n'))) =
          (s.withRest (cs.dropWhile (· ≠ '\n'))).placed source := forward_placed (hs.withRest htrimmed) hcomment
      simp only [hforward, hbelow, Option.bind_some]
      have htrivia : skipTrivia false (';' :: cs) = skipTrivia true cs := rfl
      rw [ih _ (hlength ▸ hlt) hwithin rfl, ← hskip, htrivia, skipTrivia_true]
      rfl
    · next hsemicolon => rw [← hskip, skipTrivia_of_trimmed htwice hsemicolon]; rfl

end

/-! ## Steps -/

/-- What reading gives, at the place it has come to. -/
def image {α : Type} (source : List Char) : Except Flaw (α × Reading) → Compile (α × Compiler)
  | .ok (a, s) => pure (a, s.placed source)
  | .error flaw => throw (flaw.error source)

/-- A step of the compiler gives what a step of reading gives from `s` on, which goes on in the source. -/
def Tracks {α : Type} (source : List Char) (f : Compile (α × Compiler)) (x : Read α) (s : Reading) : Prop :=
  f = image source (x.run s) ∧ ∀ a t, x.run s = .ok (a, t) → t.Within source

section
variable {α β : Type} {s t : Reading} {cs : List Char} {f : Compile (α × Compiler)}
  {g : α × Compiler → Compile (β × Compiler)} {x : Read α} {y : α → Read β}

lemma tracks_pure (hs : s.Within source) (a : α) : Tracks source (pure (a, s.placed source)) (pure a) s := by
  refine ⟨rfl, fun b t hrun => ?_⟩
  obtain ⟨-, rfl⟩ := Prod.mk.inj (Except.ok.inj hrun)
  exact hs

lemma tracks_errorAt (hcs : cs <:+ source) (fault : QueryFault) :
    Tracks source (Compiler.errorAt source (byteLength source - byteLength cs) fault : Compile (α × Compiler))
      (throw ⟨fault, cs⟩) s := by
  refine ⟨errorAt_eq hcs fault, fun a t hrun => ?_⟩
  cases hrun

lemma tracks_fail (hs : s.Within source) (fault : QueryFault) :
    Tracks source (Compiler.errorAt source (s.placed source).pos fault : Compile (α × Compiler)) (Read.fail fault) s :=
  tracks_errorAt (s := s) hs.1 fault

lemma tracks_errorAt_bind {γ : Type} {k : γ → Compile (β × Compiler)} (hcs : cs <:+ source) (fault : QueryFault) :
    Tracks source (Compiler.errorAt source (byteLength source - byteLength cs) fault >>= k) (throw ⟨fault, cs⟩) s := by
  have herror : (Compiler.errorAt source (byteLength source - byteLength cs) fault : Compile γ) =
      throw (Flaw.error source ⟨fault, cs⟩) := errorAt_eq hcs fault
  rw [herror]
  exact ⟨rfl, fun b t hrun => by cases hrun⟩

lemma tracks_failing {γ δ : Type} {k : γ → Compile (β × Compiler)} {z : δ → Read β} (hs : s.Within source)
    (fault : QueryFault) :
    Tracks source (Compiler.errorAt source (s.placed source).pos fault >>= k) (Read.fail fault >>= z) s :=
  tracks_errorAt_bind (s := s) hs.1 fault

lemma Tracks.bind (hf : Tracks source f x s)
    (hg : ∀ a t, x.run s = .ok (a, t) → t.Within source → Tracks source (g (a, t.placed source)) (y a) t) :
    Tracks source (f >>= g) (x >>= y) s := by
  rw [Tracks, Read.run_bind, hf.1]
  cases hx : x.run s with
  | error flaw => exact ⟨rfl, fun b u hrun => by cases hrun⟩
  | ok r =>
    obtain ⟨a, t⟩ := r
    exact hg a t hx (hf.2 a t hx)

lemma next_placed (hs : s.Within source) : (s.placed source).next source =
    some ((skipTrivia false s.rest).head?, (s.withRest (skipTrivia false s.rest)).placed source) := by
  have hskip := hs.withRest (skipTrivia_suffix false s.rest)
  simp only [Compiler.next, skipTrivia_placed hs, rest_placed hskip, Option.bind_eq_bind, Option.bind_some]
  rfl

lemma Tracks.next {g : Option Char × Compiler → Compile (β × Compiler)} {y : List Char → Read β} (hs : s.Within source)
    (hg : (s.withRest (skipTrivia false s.rest)).Within source →
      Tracks source (g ((skipTrivia false s.rest).head?, (s.withRest (skipTrivia false s.rest)).placed source))
        (y (skipTrivia false s.rest)) (s.withRest (skipTrivia false s.rest))) :
    Tracks source (liftM ((s.placed source).next source) >>= g) (Read.next >>= y) s := by
  rw [next_placed hs, lift_some_bind]
  exact hg (hs.withRest (skipTrivia_suffix false s.rest))

lemma Tracks.skip {k : Compiler → Compile (β × Compiler)} {y : List Char → Read β} (hs : s.Within source)
    (hk : (s.withRest (skipTrivia false s.rest)).Within source →
      Tracks source (k ((s.withRest (skipTrivia false s.rest)).placed source))
        (y (skipTrivia false s.rest)) (s.withRest (skipTrivia false s.rest))) :
    Tracks source (liftM ((s.placed source).skipTrivia source) >>= k) (Read.next >>= y) s := by
  rw [skipTrivia_placed hs, lift_some_bind]
  exact hk (hs.withRest (skipTrivia_suffix false s.rest))

lemma Tracks.skipped {f : Compile (β × Compiler)} {y : List Char → Read β} (hskip : skipTrivia false s.rest = s.rest)
    (h : Tracks source f (y s.rest) s) : Tracks source f (Read.next >>= y) s := by
  change Tracks source f (y (skipTrivia false s.rest)) (s.withRest (skipTrivia false s.rest))
  rw [hskip]
  exact h

lemma name_placed (hs : s.Within source) : (s.placed source).name source = some
    (String.ofList (s.rest.takeWhile isNameChar), (s.withRest (s.rest.dropWhile isNameChar)).placed source) := by
  have hsplit := List.takeWhile_append_dropWhile (p := isNameChar) (l := s.rest)
  have hslice := slice_append [] (s.rest.takeWhile isNameChar) (s.rest.dropWhile isNameChar)
  rw [List.nil_append, hsplit, Span.covering, byteLength_nil, Nat.zero_add] at hslice
  simp only [Compiler.name, rest_placed hs, hslice, forward_placed hs hsplit, Option.bind_eq_bind, Option.bind_some]
  rfl

lemma Tracks.name {g : String × Compiler → Compile (β × Compiler)} {y : String → Read β} (hs : s.Within source)
    (hg : (s.withRest (s.rest.dropWhile isNameChar)).Within source →
      Tracks source
        (g (String.ofList (s.rest.takeWhile isNameChar), (s.withRest (s.rest.dropWhile isNameChar)).placed source))
        (y (String.ofList (s.rest.takeWhile isNameChar))) (s.withRest (s.rest.dropWhile isNameChar))) :
    Tracks source (liftM ((s.placed source).name source) >>= g) (Read.name >>= y) s := by
  rw [name_placed hs, lift_some_bind]
  exact hg (hs.withRest (List.dropWhile_suffix _))

lemma Tracks.below {bound : Nat} {k : { c : Compiler // c.left source < bound } → Compile (β × Compiler)} {y : Read β}
    (hs : s.Within source) (hlt : byteLength s.rest < bound)
    (hk : Tracks source (k ⟨s.placed source, (left_placed hs).symm ▸ hlt⟩) y s) :
    Tracks source (liftM ((s.placed source).below source bound) >>= k) y s := by
  rw [below_placed bound hs hlt, lift_some_bind]
  exact hk

lemma left_lt (hs : s.Within source) (ht : t.Within source) (hrest : t.rest <:+ s.rest)
    (hlt : t.rest.length < s.rest.length) : (t.placed source).left source < (s.placed source).left source := by
  rw [left_placed hs, left_placed ht]
  exact byteLength_lt_of_suffix hrest hlt

lemma Tracks.shorter {k : { c : Compiler // c.left source < (s.placed source).left source } → Compile (β × Compiler)}
    {y : Read β} (hs : s.Within source) (ht : t.Within source) (hrest : t.rest <:+ s.rest)
    (hlt : t.rest.length < s.rest.length) (hk : Tracks source (k ⟨t.placed source, left_lt hs ht hrest hlt⟩) y t) :
    Tracks source (liftM ((t.placed source).below source ((s.placed source).left source)) >>= k) y t :=
  Tracks.below ht (left_placed ht ▸ left_lt hs ht hrest hlt) hk

lemma Tracks.get {y : Reading → Read β} {f : Compile (β × Compiler)} (h : Tracks source f (y s) s) :
    Tracks source f (get >>= y) s :=
  h

lemma Tracks.modify {h : Reading → Reading} {y : PUnit → Read β} {f : Compile (β × Compiler)}
    (hf : Tracks source f (y ⟨⟩) (h s)) : Tracks source f (modify h >>= y) s :=
  hf

lemma Tracks.moveTo {y : Unit → Read β} {f : Compile (β × Compiler)} (h : Tracks source f (y ()) (s.withRest cs)) :
    Tracks source f (Read.moveTo cs >>= y) s :=
  h

/-! ## Strings and captures -/

lemma tracks_string (hs : (s.withRest ('"' :: cs)).Within source) :
    Tracks source (((s.withRest ('"' :: cs)).placed source).string source) (Read.string cs) (s.withRest ('"' :: cs)) := by
  have hquote : ('"').utf8Size = 1 := by decide
  have hcs : (s.withRest cs).Within source := ⟨(List.suffix_cons _ _).trans hs.1, hs.2⟩
  have hrest : ((s.withRest cs).placed source).rest source = some cs := rest_placed hcs
  rw [Compiler.string, forward_one_placed hquote hs, hrest, lift_some_bind, Read.string]
  cases hsplit : splitString cs with
  | none =>
    rw [stringFrom_of_none 0 hsplit]
    exact tracks_errorAt hs.1 _
  | some r =>
    obtain ⟨value, rest⟩ := r
    obtain ⟨inside, rfl, hinside⟩ := stringFrom_of_some 0 hsplit
    have hforward : ((s.withRest (inside ++ '"' :: rest)).placed source).forward (byteLength (inside ++ ['"'])) =
        (s.withRest rest).placed source :=
      forward_placed hcs (by rw [List.append_assoc, List.singleton_append]; rfl)
    rw [byteLength_append, byteLength_cons, byteLength_nil, hquote] at hforward
    rw [hinside]
    dsimp only
    rw [Nat.zero_add, hforward]
    exact tracks_pure (hcs.withRest ((List.suffix_cons _ _).trans (List.suffix_append _ _))) _

lemma tracks_capture (hs : s.Within source) (n : String) :
    Tracks source (liftM ((s.placed source).capture n)) (Read.capture n) s := by
  rw [Read.capture, Compiler.capture]
  refine Tracks.get ?_
  rw [names_placed]
  cases s.names.idxOf? n with
  | some i => exact tracks_pure hs i
  | none =>
    have hsub : checkedSub (s.names ++ [n]).length 1 = some s.names.length := by
      rw [checkedSub, List.length_append, List.length_singleton, if_pos (Nat.le_add_left _ _), Nat.add_sub_cancel]
    dsimp only
    rw [hsub]
    have hnew : ({ s with names := s.names ++ [n] } : Reading).Within source := hs
    exact tracks_pure hnew s.names.length

lemma tracks_captures {fuel : Nat} (hs : s.Within source) (hfuel : s.rest.length ≤ fuel) :
    Tracks source ((s.placed source).captures source) (Read.captures fuel) s := by
  induction fuel generalizing s with
  | zero =>
    have hnil : s.rest = [] := List.eq_nil_of_length_eq_zero (Nat.le_zero.mp hfuel)
    have hskip : skipTrivia false s.rest = [] := by rw [hnil]; rfl
    have hsame : s.withRest (skipTrivia false s.rest) = s := by rw [hskip, ← hnil]; rfl
    rw [Compiler.captures, next_placed hs, lift_some_bind, hsame, hskip]
    exact tracks_pure hs []
  | succ fuel ih =>
    have hskip := skipTrivia_suffix false s.rest
    rw [Compiler.captures, Read.captures]
    refine Tracks.next hs fun hs' => ?_
    dsimp only
    generalize skipTrivia false s.rest = cs at hs' hskip
    cases cs with
    | nil => exact tracks_pure hs' []
    | cons c cs =>
      rw [List.head?_cons]
      by_cases hc : c = '@'
      · subst hc
        have hcs : (s.withRest cs).Within source := hs.withRest ((List.suffix_cons '@' cs).trans hskip)
        rw [if_pos rfl, forward_one_placed (by decide) hs']
        refine Tracks.moveTo (Tracks.name hcs fun hname => ?_)
        dsimp only
        split
        · exact tracks_failing hname _
        · next hne =>
          refine (tracks_capture hname _).bind fun i t hi ht => ?_
          have hbehind : t.rest <:+ cs :=
            (Read.ensures_capture (fun heq => hne (by rw [heq]; rfl)) _ i t hi).rest.trans (List.dropWhile_suffix _)
          have hlt : t.rest.length < s.rest.length :=
            Nat.lt_of_lt_of_le (Nat.lt_succ_of_le hbehind.length_le) hskip.length_le
          exact Tracks.shorter hs ht (hbehind.trans ((List.suffix_cons _ _).trans hskip)) hlt
            ((ih ht (by omega)).bind fun is u _ hu => tracks_pure hu _)
      · rw [if_neg fun heq => hc (Option.some.inj heq)]
        split
        · next heq => exact absurd (List.cons.inj heq).1 hc
        · exact tracks_pure hs' []

lemma tracks_quantifier (hs : (s.withRest cs).Within source) (default : Quantifier) :
    Tracks source (((s.withRest cs).placed source).quantifier default cs.head?) (Read.quantifier default cs)
      (s.withRest cs) := by
  cases cs with
  | nil => exact tracks_pure hs default
  | cons c cs =>
    have hcs : (s.withRest cs).Within source := hs.withRest (List.suffix_cons c cs)
    rw [List.head?_cons, Compiler.quantifier.eq_def, Read.quantifier.eq_def]
    split
    · next heq =>
      obtain rfl := Option.some.inj heq
      rw [forward_one_placed (by decide) hs]
      exact Tracks.moveTo (tracks_pure hcs _)
    · next heq =>
      obtain rfl := Option.some.inj heq
      rw [forward_one_placed (by decide) hs]
      exact Tracks.moveTo (tracks_pure hcs _)
    · next heq =>
      obtain rfl := Option.some.inj heq
      rw [forward_one_placed (by decide) hs]
      exact Tracks.moveTo (tracks_pure hcs _)
    · next hoptional hzero hone =>
      split
      · next heq => exact (hoptional (congrArg some (List.cons.inj heq).1)).elim
      · next heq => exact (hzero (congrArg some (List.cons.inj heq).1)).elim
      · next heq => exact (hone (congrArg some (List.cons.inj heq).1)).elim
      · exact tracks_pure hs default

lemma tracks_suffix (hs : s.Within source) (p : Pattern) :
    Tracks source ((s.placed source).suffix source p) (Read.suffix p) s := by
  rw [Compiler.suffix, Read.suffix_eq]
  refine Tracks.next hs fun hs' => (tracks_quantifier hs' p.role.quantifier).bind fun q t hq ht => ?_
  obtain ⟨cs, rfl, hcs⟩ := Read.ensures_quantifier _ (s.withRest (skipTrivia false s.rest)) q t hq
  exact (tracks_captures ht hcs.length_le).bind fun more u _ hu => tracks_pure hu _

/-! ## Predicates -/

lemma expect_placed {c : Char} (hs : s.Within source) (hcs : skipTrivia false s.rest = c :: cs) :
    (s.placed source).expect source c = some ((s.withRest cs).placed source) := by
  have hwithin := hs.withRest (skipTrivia_suffix false s.rest)
  have hforward := forward_char_placed (hcs ▸ hwithin)
  simp only [Compiler.expect, next_placed hs, hcs, List.head?_cons, Option.bind_eq_bind, Option.bind_some, if_pos,
    hforward]
  rfl

lemma atPredicate_placed (c : Char) (cs : List Char) (hs : (s.withRest (c :: cs)).Within source) :
    ((s.withRest (c :: cs)).placed source).atPredicate source c = some (opensPredicate (c :: cs)) := by
  rw [Compiler.atPredicate]
  split
  · next hc =>
    subst hc
    have hrest : ((s.withRest ('(' :: cs)).placed source).rest source = some ('(' :: cs) := rest_placed hs
    have hslice := slice_append ['('] cs []
    rw [List.append_nil, List.singleton_append, Span.covering, ← byteLength_append, List.singleton_append] at hslice
    have hparen : byteLength ['('] = 1 := by decide
    rw [hparen] at hslice
    simp only [hrest, hslice, Option.bind_eq_bind, Option.bind_some]
    rfl
  · next hc => rw [opensPredicate.eq_2 _ fun _ heq => hc (List.cons.inj heq).1]

lemma tracks_arguments {fuel : Nat} (hs : s.Within source) (hfuel : s.rest.length < fuel) :
    Tracks source ((s.placed source).arguments source) (Read.arguments fuel) s := by
  induction fuel generalizing s with
  | zero => exact absurd hfuel (Nat.not_lt_zero _)
  | succ fuel ih =>
    have hskip := skipTrivia_suffix false s.rest
    rw [Compiler.arguments, Read.arguments]
    refine Tracks.next hs fun hs' => ?_
    dsimp only
    generalize skipTrivia false s.rest = cs at hs' hskip
    cases cs with
    | nil => exact tracks_fail hs' _
    | cons c cs =>
      have hcs : (s.withRest cs).Within source := hs'.withRest (List.suffix_cons c cs)
      have hbehind : cs <:+ s.rest := (List.suffix_cons c cs).trans hskip
      have hmore (a : Operand) {t : Reading} (ht : t.Within source) (hrest : t.rest <:+ cs) :
          Tracks source (do
            let behind ← (t.placed source).below source ((s.placed source).left source)
            let r ← behind.1.arguments source
            return (a :: r.1, r.2)) (do return a :: (← Read.arguments fuel)) t := by
        have hlt : t.rest.length < s.rest.length := Nat.lt_of_lt_of_le (Nat.lt_succ_of_le hrest.length_le) hskip.length_le
        exact Tracks.shorter hs ht (hrest.trans hbehind) hlt
          ((ih ht (by omega)).bind fun more u _ hu => tracks_pure hu _)
      rw [List.head?_cons]
      dsimp only
      split
      · next hc =>
        subst hc
        rw [forward_one_placed (by decide) hs']
        exact Tracks.moveTo (tracks_pure hcs [])
      split
      · next hc =>
        subst hc
        rw [forward_one_placed (by decide) hs']
        refine Tracks.moveTo (Tracks.name hcs fun hname => Tracks.get ?_)
        dsimp only
        rw [names_placed, names_withRest, names_withRest]
        cases s.names.idxOf? (String.ofList ((s.withRest cs).rest.takeWhile isNameChar)) with
        | some i => exact hmore (.capture i) hname (List.dropWhile_suffix _)
        | none => exact tracks_errorAt_bind hcs.1 _
      split
      · next hc =>
        subst hc
        refine (tracks_string hs').bind fun value t hvalue ht => ?_
        obtain ⟨rest, rfl, hrest⟩ := Read.ensures_string cs _ value t hvalue
        exact hmore (.text value) ht hrest
      split
      · next hc =>
        have hrest : (c :: cs).dropWhile isNameChar <:+ cs := by
          have hname : isNameChar c = true := by
            rw [isNameChar, hc]
            rfl
          rw [List.dropWhile_cons_of_pos hname]
          exact List.dropWhile_suffix _
        exact Tracks.name hs' fun hname => hmore (.text _) hname hrest
      · exact tracks_errorAt_bind (s := s.withRest (c :: cs)) hs'.1 _

lemma tracks_predicate (hs : (s.withRest cs).Within source) (hopens : opensPredicate cs = true) :
    Tracks source (((s.withRest cs).placed source).predicate source) (Read.predicate cs) (s.withRest cs) := by
  unfold opensPredicate at hopens
  split at hopens
  · next cs =>
    obtain ⟨rest, hrest⟩ := List.head?_eq_some_iff.mp (of_decide_eq_true hopens)
    have hblank : cs.dropWhile isWhiteSpace <:+ cs := List.dropWhile_suffix _
    have hhash : skipTrivia false cs = '#' :: rest := by
      rw [← skipTrivia_dropWhile, hrest]
      rfl
    have hcs : (s.withRest cs).Within source := hs.withRest (List.suffix_cons '(' cs)
    have hbehind : rest <:+ cs := (List.suffix_cons '#' rest).trans (hrest ▸ hblank)
    have hname : (s.withRest rest).Within source := hcs.withRest hbehind
    have hparen : ((s.withRest ('(' :: cs)).placed source).expect source '(' = some ((s.withRest cs).placed source) :=
      expect_placed hs rfl
    have hsign : ((s.withRest cs).placed source).expect source '#' = some ((s.withRest rest).placed source) :=
      expect_placed hcs hhash
    have hstart : ((('(' :: cs).drop 1).dropWhile isWhiteSpace).drop 1 = rest := by
      rw [List.drop_succ_cons, List.drop_zero, hrest, List.drop_succ_cons, List.drop_zero]
    rw [Compiler.predicate, Read.predicate, hstart, hparen, lift_some_bind, hsign, lift_some_bind]
    refine Tracks.moveTo (Tracks.name hname fun hargs => (tracks_arguments hargs ?_).bind fun args t hrun ht => ?_)
    · exact Nat.lt_succ_of_le ((List.dropWhile_suffix _).length_le.trans hbehind.length_le)
    · dsimp only
      split
      · exact tracks_pure ht ()
      · cases Predicate.ofArguments (String.ofList ((s.withRest rest).rest.takeWhile isNameChar)) args with
        | ok p =>
          let u : Reading := { t with predicates := t.predicates ++ [(p, '(' :: cs)] }
          have hu : u.Within source := ⟨ht.1, List.forall_mem_append.mpr ⟨ht.2, List.forall_mem_singleton.mpr hs.1⟩⟩
          have hplaced : u.placed source = ⟨(t.placed source).pos, t.names,
              (t.placed source).predicates ++ [(p, ((s.withRest ('(' :: cs)).placed source).pos)]⟩ := by
            rw [Reading.placed, List.map_append]
            rfl
          have hadded : Tracks source (pure ((), u.placed source)) (pure ()) u := tracks_pure hu ()
          rw [hplaced] at hadded
          exact hadded
        | error fault => exact tracks_errorAt hs.1 _
  · cases hopens

lemma shorter_of_predicate (hcs : cs <:+ s.rest) {a : Unit}
    (hrun : (Read.predicate cs).run (s.withRest cs) = .ok (a, t)) :
    t.rest <:+ s.rest ∧ t.rest.length < s.rest.length := by
  obtain ⟨hgrows, hlt⟩ := Read.ensures_predicate (s.withRest cs) a t hrun
  exact ⟨hgrows.rest.trans hcs, Nat.lt_of_lt_of_le hlt hcs.length_le⟩

/-! ## Patterns -/

lemma tracks_kind (hs : s.Within source) : Tracks source ((s.placed source).kind source) Read.kind s := by
  rw [Compiler.kind, Read.kind]
  refine Tracks.skip hs fun hskip => Tracks.name hskip fun hname => ?_
  dsimp only
  split
  · exact tracks_fail hname _
  split
  · exact tracks_pure hname _
  · cases Kind.ofName? (String.ofList ((s.withRest (skipTrivia false s.rest)).rest.takeWhile isNameChar)) true with
    | some k => exact tracks_pure hname _
    | none => exact tracks_errorAt hskip.1 _

lemma tracks_field (hs : s.Within source) (hskip : skipTrivia false s.rest = s.rest) :
    Tracks source ((s.placed source).field source) Read.field s := by
  rw [Compiler.field, Read.field]
  refine Tracks.skipped hskip (Tracks.name hs fun hname => Tracks.next hname fun hcolon => ?_)
  dsimp only
  generalize skipTrivia false (s.withRest (s.rest.dropWhile isNameChar)).rest = cs at hcolon
  cases cs with
  | nil => exact tracks_errorAt hs.1 _
  | cons c cs =>
    have hcs : (s.withRest cs).Within source := hcolon.withRest (List.suffix_cons c cs)
    rw [List.head?_cons]
    by_cases hc : c = ':'
    · subst hc
      rw [if_pos rfl]
      refine Tracks.moveTo ?_
      cases Field.ofName? (String.ofList (s.rest.takeWhile isNameChar)) with
      | some f =>
        rw [forward_one_placed (by decide) hcolon]
        exact tracks_pure hcs f
      | none => exact tracks_errorAt hs.1 _
    · rw [if_neg fun heq => hc (Option.some.inj heq)]
      split
      · next heq => exact absurd (List.cons.inj heq).1 hc
      · exact tracks_errorAt hs.1 _

/-- With the given fuel for what is unread, reading is what the compiler does. -/
structure Followed (source : List Char) (fuel : Nat) : Prop where
  pattern : ∀ {s : Reading}, s.Within source → 2 * s.rest.length + 1 ≤ fuel →
    Tracks source ((s.placed source).pattern source) (Read.pattern fuel) s
  alternatives : ∀ {s : Reading}, s.Within source → 2 * s.rest.length + 2 ≤ fuel →
    Tracks source ((s.placed source).alternatives source) (Read.alternatives fuel) s
  children : ∀ {s : Reading}, s.Within source → 2 * s.rest.length + 2 ≤ fuel →
    Tracks source ((s.placed source).children source) (Read.children fuel) s

section
variable {fuel : Nat}

lemma Followed.pattern_succ (h : Followed source fuel) (hs : s.Within source)
    (hfuel : 2 * s.rest.length + 1 ≤ fuel + 1) :
    Tracks source ((s.placed source).pattern source) (Read.pattern (fuel + 1)) s := by
  have hskip := skipTrivia_suffix false s.rest
  rw [Compiler.pattern, Read.pattern_succ]
  refine Tracks.next hs fun hs' => ?_
  dsimp only
  generalize skipTrivia false s.rest = cs at hs' hskip
  cases cs with
  | nil => exact tracks_failing hs' _
  | cons c cs =>
    have hcs : (s.withRest cs).Within source := hs'.withRest (List.suffix_cons c cs)
    have hbehind : cs <:+ s.rest := (List.suffix_cons c cs).trans hskip
    have hshorter : cs.length < s.rest.length := Nat.lt_of_succ_le hskip.length_le
    rw [List.head?_cons]
    split
    · next heq => cases heq
    · next heq =>
      obtain rfl := Option.some.inj heq
      simp only [Read.bare, bind_assoc, pure_bind]
      rw [forward_one_placed (by decide) hs']
      refine Tracks.moveTo ((tracks_kind hcs).bind fun test t htest ht => ?_)
      obtain ⟨rest, rfl, hrest⟩ := Read.ensures_kind (s.withRest cs) test t htest
      have hlt : rest.length < s.rest.length := Nat.lt_of_le_of_lt hrest.length_le hshorter
      have hfuel' : 2 * rest.length + 2 ≤ fuel := by omega
      exact Tracks.shorter hs ht (hrest.trans hbehind) hlt
        ((h.children ht hfuel').bind fun ps u _ hu => tracks_suffix hu _)
    · next heq =>
      obtain rfl := Option.some.inj heq
      simp only [Read.bare, bind_assoc, pure_bind]
      rw [forward_one_placed (by decide) hs']
      have hfuel' : 2 * cs.length + 2 ≤ fuel := by omega
      refine Tracks.moveTo (Tracks.shorter hs hcs hbehind hshorter
        ((h.alternatives hcs hfuel').bind fun ps u _ hu => ?_))
      cases ps with
      | nil => exact tracks_failing hu _
      | cons p ps => exact tracks_suffix hu _
    · next heq =>
      obtain rfl := Option.some.inj heq
      simp only [Read.bare, bind_assoc, pure_bind]
      refine (tracks_string hs').bind fun spelling t _ ht => ?_
      dsimp only
      cases Kind.ofName? spelling false with
      | some k => exact tracks_suffix ht _
      | none => exact tracks_errorAt_bind hs'.1 _
    · next heq =>
      obtain rfl := Option.some.inj heq
      simp only [Read.bare, bind_assoc, pure_bind]
      rw [forward_one_placed (by decide) hs']
      exact Tracks.moveTo (tracks_suffix hcs _)
    · next heq =>
      obtain rfl := Option.some.inj heq
      exact tracks_failing hs' _
    · next hparen hbracket hquote hunderscore hdot =>
      have hbare : Read.bare fuel (c :: cs) = Read.fail .noPattern := by
        unfold Read.bare
        split
        all_goals simp_all
      rw [hbare]
      exact tracks_failing hs' _

/-- A turn of a loop that begins at `s` and reads a pattern from `t` on. -/
lemma Followed.turn (h : Followed source fuel) (hs : s.Within source) (ht : t.Within source) (hrest : t.rest <:+ s.rest)
    (hfuel : 2 * s.rest.length + 1 ≤ fuel) {y : Pattern → Read β}
    {k : Pattern × Compiler → { c : Compiler // c.left source < (s.placed source).left source } → Compile (β × Compiler)}
    (hk : ∀ p (u : Reading) hlt, u.Within source → u.rest.length < s.rest.length →
      Tracks source (k (p, u.placed source) ⟨u.placed source, hlt⟩) (y p) u) :
    Tracks source (do
      let start ← (t.placed source).below source ((s.placed source).left source + 1)
      let r ← start.1.pattern source
      let behind ← r.2.below source ((s.placed source).left source)
      k r behind) (Read.pattern fuel >>= y) t := by
  have hstart : byteLength t.rest < (s.placed source).left source + 1 := by
    obtain ⟨before, hbefore⟩ := hrest
    rw [left_placed hs, ← hbefore, byteLength_append]
    omega
  have hlength := hrest.length_le
  refine Tracks.below ht hstart ((h.pattern ht (by omega)).bind fun p u hp hu => ?_)
  obtain ⟨hgrows, hlt⟩ := (Read.advance fuel).pattern t p u hp
  have hshorter : u.rest.length < s.rest.length := Nat.lt_of_lt_of_le hlt hlength
  exact Tracks.shorter hs hu (hgrows.rest.trans hrest) hshorter (hk p u _ hu hshorter)

lemma Followed.alternatives_succ (h : Followed source fuel) (hs : s.Within source)
    (hfuel : 2 * s.rest.length + 2 ≤ fuel + 1) :
    Tracks source ((s.placed source).alternatives source) (Read.alternatives (fuel + 1)) s := by
  have hskip := skipTrivia_suffix false s.rest
  rw [Compiler.alternatives, Read.alternatives]
  refine Tracks.next hs fun hs' => ?_
  dsimp only
  generalize skipTrivia false s.rest = cs at hs' hskip
  cases cs with
  | nil => exact tracks_fail hs' _
  | cons c cs =>
    have hcs : (s.withRest cs).Within source := hs'.withRest (List.suffix_cons c cs)
    rw [List.head?_cons]
    split
    · next heq => cases heq
    · next heq =>
      obtain rfl := Option.some.inj heq
      rw [forward_one_placed (by decide) hs']
      exact Tracks.moveTo (tracks_pure hcs [])
    · next c' hbracket heq =>
      obtain rfl := Option.some.inj heq
      split
      · next heq => cases heq
      · next heq => exact (hbracket (List.cons.inj heq).1).elim
      · exact h.turn hs hs' hskip (by omega) fun p u _ hu hlt =>
          (h.alternatives hu (by omega)).bind fun ps v _ hv => tracks_pure hv _

lemma Followed.children_succ (h : Followed source fuel) (hs : s.Within source)
    (hfuel : 2 * s.rest.length + 2 ≤ fuel + 1) :
    Tracks source ((s.placed source).children source) (Read.children (fuel + 1)) s := by
  have hskip := skipTrivia_suffix false s.rest
  have htwice := skipTrivia_skipTrivia false s.rest
  rw [Compiler.children, Read.children]
  refine Tracks.next hs fun hs' => ?_
  dsimp only
  generalize skipTrivia false s.rest = cs at hs' hskip htwice
  cases cs with
  | nil => exact tracks_fail hs' _
  | cons c cs =>
    have hcs : (s.withRest cs).Within source := hs'.withRest (List.suffix_cons c cs)
    rw [List.head?_cons]
    dsimp only
    split
    · next hc =>
      subst hc
      rw [forward_one_placed (by decide) hs']
      exact Tracks.moveTo (tracks_pure hcs [])
    rw [atPredicate_placed c cs hs', lift_some_bind]
    split
    · next hopens =>
      refine (tracks_predicate hs' hopens).bind fun _ t hrun ht => ?_
      obtain ⟨hrest, hlt⟩ := shorter_of_predicate hskip hrun
      exact Tracks.shorter hs ht hrest hlt (h.children ht (by omega))
    split
    · exact tracks_fail hs' _
    split
    · refine (tracks_field hs' htwice).bind fun f t hf ht => ?_
      obtain ⟨rest, rfl, hrest⟩ := Read.ensures_field _ f t hf
      exact h.turn hs ht (hrest.trans hskip) (by omega) fun p u _ hu hlt =>
        (h.children hu (by omega)).bind fun ps v _ hv => tracks_pure hv _
    · exact h.turn hs hs' hskip (by omega) fun p u _ hu hlt =>
        (h.children hu (by omega)).bind fun ps v _ hv => tracks_pure hv _

end

lemma followed (source : List Char) (fuel : Nat) : Followed source fuel := by
  induction fuel with
  | zero => exact ⟨fun _ hfuel => by omega, fun _ hfuel => by omega, fun _ hfuel => by omega⟩
  | succ fuel ih => exact ⟨ih.pattern_succ, ih.alternatives_succ, ih.children_succ⟩

/-! ## Patterns with predicates -/

lemma tracks_pattern (hs : s.Within source) (hcs : cs <:+ s.rest) :
    Tracks source (((s.withRest cs).placed source).pattern source) (Read.pattern (Read.fuelFor cs)) (s.withRest cs) := by
  refine (followed source _).pattern (hs.withRest hcs) ?_
  rw [Read.fuelFor]
  exact Nat.le_succ _

lemma tracks_group {fuel : Nat} (hs : s.Within source) (hfuel : s.rest.length < fuel) (found : Option Pattern) :
    Tracks source ((s.placed source).group source found) (Read.group fuel found) s := by
  induction fuel generalizing s found with
  | zero => exact absurd hfuel (Nat.not_lt_zero _)
  | succ fuel ih =>
    have hskip := skipTrivia_suffix false s.rest
    rw [Compiler.group, Read.group]
    refine Tracks.next hs fun hs' => ?_
    dsimp only
    generalize skipTrivia false s.rest = cs at hs' hskip
    cases cs with
    | nil => exact tracks_fail hs' _
    | cons c cs =>
      have hcs : (s.withRest cs).Within source := hs'.withRest (List.suffix_cons c cs)
      rw [List.head?_cons]
      dsimp only
      split
      · next hc =>
        subst hc
        rw [forward_one_placed (by decide) hs']
        exact Tracks.moveTo (tracks_pure hcs found)
      rw [atPredicate_placed c cs hs', lift_some_bind]
      split
      · next hopens =>
        refine (tracks_predicate hs' hopens).bind fun _ t hrun ht => ?_
        obtain ⟨hrest, hlt⟩ := shorter_of_predicate hskip hrun
        exact Tracks.shorter hs ht hrest hlt (ih ht (by omega) found)
      split
      · exact tracks_fail hs' _
      · refine (tracks_pattern hs hskip).bind fun p t hp ht => ?_
        obtain ⟨hgrows, hlt⟩ := (Read.advance _).pattern _ p t hp
        have hshorter : t.rest.length < s.rest.length := Nat.lt_of_lt_of_le hlt hskip.length_le
        exact Tracks.shorter hs ht (hgrows.rest.trans hskip) hshorter (ih ht (by omega) (some p))

lemma tracks_outermost (hs : s.Within source) : Tracks source ((s.placed source).outermost source) Read.outermost s := by
  have hpattern : Tracks source ((s.placed source).pattern source) (Read.pattern (Read.fuelFor s.rest)) s :=
    tracks_pattern hs (List.suffix_refl s.rest)
  rw [Compiler.outermost, Read.outermost, rest_placed hs, lift_some_bind]
  refine Tracks.get ?_
  dsimp only
  split
  · next hhead =>
    obtain ⟨cs, hcs⟩ := List.head?_eq_some_iff.mp hhead
    have hinner : skipTrivia false cs <:+ s.rest := (skipTrivia_suffix false cs).trans (hcs ▸ List.suffix_cons '(' cs)
    have hopened : (s.withRest cs).Within source := hs.withRest (hcs ▸ List.suffix_cons '(' cs)
    have hparen : byteLength ['('] = 1 := by decide
    have hforward : (s.placed source).forward 1 = (s.withRest cs).placed source := by
      rw [← hparen]
      exact forward_placed hs (hcs ▸ List.singleton_append ..)
    have hnext : ((s.withRest cs).placed source).next source =
        some ((skipTrivia false cs).head?, (s.withRest (skipTrivia false cs)).placed source) := next_placed hopened
    rw [hforward, hnext, lift_some_bind, hcs]
    change Tracks source _ (if Read.opensGroup (skipTrivia false cs) = true then _ else _) s
    dsimp only
    by_cases hopens : Read.opensGroup (skipTrivia false cs) = true
    · rw [if_pos ((head?_opensGroup _).mpr hopens), if_pos hopens]
      have hfuel : (skipTrivia false cs).length < Read.fuelFor (skipTrivia false cs) := by
        rw [Read.fuelFor]
        omega
      refine Tracks.moveTo ((tracks_group (hs.withRest hinner) hfuel none).bind fun found t _ ht => ?_)
      cases found with
      | some p => exact tracks_suffix ht p
      | none => exact hcs ▸ tracks_errorAt hs.1 _
    · rw [if_neg fun h => hopens ((head?_opensGroup _).mp h), if_neg hopens, ← hcs]
      exact hpattern
  · next hhead =>
    split
    · next cs hcs => exact absurd (by rw [hcs]; rfl) hhead
    · exact hpattern

lemma Tracks.check {known : List Nat} {p : Predicate × List Char} (hp : p.2 <:+ source)
    (hcaptures : ∀ i ∈ p.1.captures, i < s.names.length) {k : Unit → Compile (β × Compiler)} {y : Unit → Read β}
    (h : Tracks source (k ()) (y ()) s) :
    Tracks source ((s.placed source).checkCaptures source known (p.1, byteLength source - byteLength p.2) >>= k)
      (Read.checkCaptures known p.1 p.2 >>= y) s := by
  rw [Compiler.checkCaptures, Read.checkCaptures]
  cases hfind : p.1.captures.find? fun i => !known.contains i with
  | none => exact h
  | some i =>
    have hlt : i < s.names.length := hcaptures i (List.mem_of_find?_eq_some hfind)
    have hname : (s.placed source).names[i]? = some (s.names.getD i "") := by
      rw [Reading.placed, List.getD_eq_getElem?_getD, List.getElem?_eq_getElem hlt, Option.getD_some]
    dsimp only
    rw [hname, lift_some_bind]
    exact tracks_errorAt_bind (s := s) hp _

lemma Tracks.checks {known : List Nat} {predicates : List (Predicate × List Char)}
    (hpredicates : ∀ p ∈ predicates, p.2 <:+ source ∧ ∀ i ∈ p.1.captures, i < s.names.length)
    {k : Unit → Compile (β × Compiler)} {y : Unit → Read β} (h : Tracks source (k ()) (y ()) s) :
    Tracks source ((predicates.map fun p => (p.1, byteLength source - byteLength p.2)).forM
        ((s.placed source).checkCaptures source known) >>= k)
      ((predicates.forM fun p => Read.checkCaptures known p.1 p.2) >>= y) s := by
  induction predicates with
  | nil => exact h
  | cons p ps ih =>
    obtain ⟨hp, hps⟩ := List.forall_mem_cons.mp hpredicates
    rw [List.map_cons, List.forM, List.forM, bind_assoc, bind_assoc]
    exact Tracks.check hp.1 hp.2 (ih hps)

lemma tracks_queryPattern (hs : s.Within source) :
    Tracks source ((s.placed source).queryPattern source) (Read.queryPattern source) s := by
  have hcleared : s.cleared.Within source := ⟨hs.1, List.forall_mem_nil _⟩
  have houtermost : Tracks source (({ s.placed source with predicates := [] } : Compiler).outermost source)
      Read.outermost s.cleared := tracks_outermost hcleared
  rw [Compiler.queryPattern, Read.queryPattern]
  refine Tracks.get (Tracks.modify ?_)
  refine houtermost.bind fun root t hrun ht => Tracks.get ?_
  obtain ⟨⟨hgrows, -⟩, -⟩ := Read.ensures_outermost s.cleared root t hrun
  obtain ⟨more, hmore, hpredicates⟩ := hgrows.predicates
  have hchecked : ∀ p ∈ t.predicates, p.2 <:+ source ∧ ∀ i ∈ p.1.captures, i < t.names.length := by
    intro p hp
    refine ⟨ht.2 p hp, (hpredicates p ?_).2⟩
    rwa [hmore] at hp
  have hdone : Tracks source
      (pure ((⟨root, (t.placed source).predicates.map (·.1), (s.placed source).pos⟩ : QueryPattern), t.placed source))
      (pure ⟨root, t.predicates.map (·.1), byteLength source - byteLength s.rest⟩) t := by
    rw [Reading.placed, List.map_map]
    exact tracks_pure ht _
  exact Tracks.checks hchecked hdone

lemma tracks_queryPatterns {fuel : Nat} (hs : s.Within source) (hfuel : s.rest.length < fuel) :
    Tracks source ((s.placed source).queryPatterns source) (Read.queryPatterns source fuel) s := by
  induction fuel generalizing s with
  | zero => exact absurd hfuel (Nat.not_lt_zero _)
  | succ fuel ih =>
    have hskip := skipTrivia_suffix false s.rest
    have htwice := skipTrivia_skipTrivia false s.rest
    rw [Compiler.queryPatterns, Read.queryPatterns]
    refine Tracks.skip hs fun hs' => ?_
    generalize skipTrivia false s.rest = cs at hs' hskip htwice
    have hleft := left_placed hs'
    rw [Compiler.left] at hleft
    cases cs with
    | nil =>
      rw [if_pos (Nat.le_of_sub_eq_zero hleft)]
      exact tracks_pure hs' []
    | cons c cs =>
      have hpos : 0 < byteLength (c :: cs) := byteLength_pos (List.cons_ne_nil c cs)
      have hopen : ¬byteLength source ≤ ((s.withRest (c :: cs)).placed source).pos := by
        intro hle
        rw [Nat.sub_eq_zero_of_le hle] at hleft
        exact absurd hleft hpos.ne
      rw [if_neg hopen]
      refine (tracks_queryPattern hs').bind fun p t hp ht => ?_
      obtain ⟨⟨hgrows, hlt⟩, -⟩ := Read.ensures_queryPattern source _ htwice p t hp
      have hshorter : t.rest.length < s.rest.length := Nat.lt_of_lt_of_le hlt hskip.length_le
      exact Tracks.shorter hs ht (hgrows.rest.trans hskip) hshorter
        ((ih ht (by omega)).bind fun ps u _ hu => tracks_pure hu _)

end

/-! ## Compilation -/

lemma run_compile (text : String) : (Compiler.compile text).run = some (ofSource text) := by
  have hs : (⟨text.toList, [], []⟩ : Reading).Within text.toList := ⟨List.suffix_refl _, List.forall_mem_nil _⟩
  have hplaced : (⟨text.toList, [], []⟩ : Reading).placed text.toList = ⟨0, [], []⟩ := by
    rw [Reading.placed, Nat.sub_self, List.map_nil]
  have hpatterns := (tracks_queryPatterns hs (Nat.lt_succ_self text.toList.length)).1
  rw [hplaced] at hpatterns
  rw [Compiler.compile, ofSource, hpatterns]
  dsimp only
  cases (Read.queryPatterns text.toList (text.toList.length + 1)).run ⟨text.toList, [], []⟩ with
  | error flaw => rfl
  | ok r => rfl

/-- Every source compiles to a query or to an error: the compiler comes to an end, and takes no slice out of range or
inside of a character. An error has its place in the source, and a query is in order. -/
theorem compile_total (text : String) :
    (∃ e, (Compiler.compile text).run = some (.error e) ∧ ofSource text = .error e ∧ Located text.toList e) ∨
      ∃ q, (Compiler.compile text).run = some (.ok q) ∧ ofSource text = .ok q ∧ WellFormed text.toList q := by
  rw [run_compile]
  cases h : ofSource text with
  | error e =>
    refine .inl ⟨e, rfl, rfl, ?_⟩
    rw [ofSource] at h
    split at h
    · cases h
    · next flaw _ => exact Except.error.inj h ▸ located_error text.toList flaw
  | ok q => exact .inr ⟨q, rfl, rfl, wellFormed_of_ofSource h⟩

end

end Query

end RenpyScript
