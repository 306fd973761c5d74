import Mathlib.Data.List.GetD
import RenpyScript.Proofs.Query.Reading
import RenpyScript.Proofs.Query.Renumbering

/-!
# Reading with more around

The text of a query may stand in a longer one: other patterns begin behind it on a new line, and names of captures
are known from those in front of it. Whatever is read of the query by itself is read then too, with the indices that
the names have in the longer table. `Surroundings` are what is added to a query; two states are alike if they
differ by it.
-/

namespace RenpyScript

/-! ## Tables of names -/

/-- A table with the names of another that it lacks. -/
def joinNames (base names : List String) : List String :=
  base ++ names.filter (· ∉ base)

/-- A table with a name, which is put behind the others if it is not there. -/
def addName (names : List String) (n : String) : List String :=
  if n ∈ names then names else names ++ [n]

/-- The index in one table of the name with a given index in another. -/
def reindex (names names' : List String) (i : Nat) : Nat :=
  names'.idxOf (names.getD i "")

section
variable {base names all : List String} {n : String} {i j : Nat}

lemma mem_joinNames : n ∈ joinNames base names ↔ n ∈ base ∨ n ∈ names := by
  rw [joinNames, List.mem_append, List.mem_filter, decide_eq_true_eq]
  tauto

lemma joinNames_nil (names : List String) : joinNames [] names = names := by
  rw [joinNames, List.nil_append, List.filter_eq_self]
  simp

lemma mem_addName (names : List String) (n : String) : n ∈ addName names n := by
  rw [addName]
  split
  · assumption
  · exact List.mem_append_right _ (List.mem_singleton_self n)

lemma idxOf_addName (names : List String) (n : String) : (addName names n).idxOf n = names.idxOf n := by
  rw [addName]
  split
  · rfl
  · next hn => rw [List.idxOf_append_of_notMem hn, List.idxOf_eq_length hn, List.idxOf_cons_self, Nat.add_zero]

lemma joinNames_addName (base names : List String) (n : String) :
    joinNames base (addName names n) = addName (joinNames base names) n := by
  simp only [addName, mem_joinNames]
  by_cases hbase : n ∈ base
  · simp [hbase, joinNames, apply_ite (List.filter _)]
  · by_cases hn : n ∈ names
    · simp [hn]
    · simp [hn, hbase, joinNames]

lemma joinNames_mono (h : names <+: all) : joinNames base names <+: joinNames base all :=
  List.prefix_append_right_inj _ |>.mpr (h.filter _)

lemma idxOf_of_prefix {l l' : List String} (h : l <+: l') (hn : n ∈ l) : l'.idxOf n = l.idxOf n := by
  obtain ⟨more, rfl⟩ := h
  exact List.idxOf_append_of_mem hn

lemma reindex_idxOf (h : names <+: all) (hn : n ∈ names) :
    reindex all (joinNames base all) (names.idxOf n) = (joinNames base names).idxOf n := by
  have hname : all.getD (names.idxOf n) "" = n := by
    rw [← idxOf_of_prefix h hn, List.getD_eq_getElem _ _ (List.idxOf_lt_length_iff.mpr (h.subset hn)), List.getElem_idxOf]
  rw [reindex, hname, idxOf_of_prefix (joinNames_mono h) (mem_joinNames.mpr (.inr hn))]

lemma getElem?_reindex (base : List String) (hi : i < names.length) :
    (joinNames base names)[reindex names (joinNames base names) i]? = names[i]? := by
  have hmem : names[i] ∈ joinNames base names := mem_joinNames.mpr (.inr (List.getElem_mem hi))
  have hlt := List.idxOf_lt_length_iff.mpr hmem
  rw [reindex, List.getD_eq_getElem _ _ hi, List.getElem?_eq_getElem hlt, List.getElem_idxOf, List.getElem?_eq_getElem hi]

lemma reindex_injective (hnames : names.Nodup) (hi : i < names.length) (hj : j < names.length)
    (h : reindex names (joinNames base names) i = reindex names (joinNames base names) j) : i = j := by
  have heq : names[i]? = names[j]? := by rw [← getElem?_reindex base hi, h, getElem?_reindex base hj]
  exact (List.getElem?_inj hi hnames).mp heq

lemma reindex_self (hnames : names.Nodup) (hi : i < names.length) : reindex names (joinNames [] names) i = i := by
  rw [reindex, joinNames_nil, List.getD_eq_getElem _ _ hi, hnames.idxOf_getElem]

end

/-! ## Renumbered arguments -/

section
variable (ρ : Nat → Nat)

lemma Comparison.texts?_renumber (args : List Operand) : texts? (args.map (Operand.renumber ρ)) = texts? args := by
  induction args with
  | nil => rfl
  | cons a args ih =>
    rw [texts?] at ih
    cases a with
    | capture i => rfl
    | text s => simp only [texts?, List.map_cons, List.mapM_cons, Operand.renumber, ih]

lemma Comparison.ofArguments_renumber [RegexEngine] (n : String) (args : List Operand) :
    ofArguments n (args.map (Operand.renumber ρ)) = (ofArguments n args).map (Comparison.renumber ρ) := by
  simp only [ofArguments, texts?_renumber]
  split
  · match args with
    | [] => rfl
    | [_] => rfl
    | _ :: _ :: _ => rfl
  split
  · match args with
    | [] => rfl
    | [.capture _] => rfl
    | [.text pattern] =>
      simp only [List.map_cons, List.map_nil, Operand.renumber]
      cases RegexEngine.compile pattern <;> rfl
    | .capture _ :: _ :: _ => rfl
    | .text _ :: _ :: _ => rfl
  split
  · split <;> rfl
  · rfl

lemma Predicate.ofArguments_renumber [RegexEngine] (n : String) (args : List Operand) :
    ofArguments n (args.map (Operand.renumber ρ)) = (ofArguments n args).map (Predicate.renumber ρ) := by
  match args with
  | [] => rfl
  | .text _ :: _ => rfl
  | .capture index :: others =>
    simp only [ofArguments, List.map_cons, Operand.renumber, Comparison.ofArguments_renumber]
    cases Comparison.ofArguments (splitNegation n).1 others <;> rfl

/-- The pattern of a query with other indices for its captures, further behind. -/
def QueryPattern.moved [RegexEngine] (offset : Nat) (p : QueryPattern) : QueryPattern :=
  ⟨p.root.renumber ρ, p.predicates.map (·.renumber ρ), p.start + offset⟩

lemma Pattern.renumber_withRole (p : Pattern) (field : Option Field) (captures : List Nat) (q : Quantifier) :
    (p.withRole ⟨field, captures, q⟩).renumber ρ = (p.renumber ρ).withRole ⟨field, captures.map ρ, q⟩ := by
  cases p <;> rfl

end

namespace Query

/-! ## More text behind -/

/-- What may stand behind a query: nothing, or a new line on which other patterns begin. -/
def Separate (tail : List Char) : Prop :=
  tail = [] ∨ tail.head? = some '\n' ∧ (skipTrivia false tail = [] ∨ Read.OpensPattern (skipTrivia false tail))

section
variable {tail cs rest : List Char} {c : Char}

lemma Separate.begin (h : Separate tail) (hc : tail.head? = some c) : c = '\n' := by
  rcases h with rfl | ⟨hhead, -⟩
  · cases hc
  · exact Option.some.inj (hc.symm.trans hhead)

lemma Separate.opens (h : Separate tail) (hc : (skipTrivia false tail).head? = some c) : c ∈ ['(', '[', '"', '_'] := by
  rcases h with rfl | ⟨-, hnil | ⟨c', hc', hhead⟩⟩
  · cases hc
  · rw [hnil] at hc
    cases hc
  · exact Option.some.inj (hc.symm.trans hhead) ▸ hc'

lemma Separate.span_name (h : Separate tail) (cs : List Char) :
    (cs ++ tail).takeWhile isNameChar = cs.takeWhile isNameChar ∧
      (cs ++ tail).dropWhile isNameChar = cs.dropWhile isNameChar ++ tail := by
  induction cs with
  | nil =>
    cases tail with
    | nil => exact ⟨rfl, rfl⟩
    | cons c more =>
      obtain rfl := h.begin (List.head?_cons ..)
      exact ⟨rfl, rfl⟩
  | cons c cs ih =>
    rw [List.cons_append, List.takeWhile_cons, List.takeWhile_cons, List.dropWhile_cons, List.dropWhile_cons]
    split
    · exact ⟨congrArg _ ih.1, ih.2⟩
    · exact ⟨rfl, rfl⟩

/-- If only trivia are left of a text, those behind it are passed over as well. A comment ends with its line. -/
lemma Separate.skipTrivia_append (h : Separate tail) (comment : Bool) (cs : List Char) :
    skipTrivia comment (cs ++ tail) =
      if skipTrivia comment cs = [] then skipTrivia false tail else skipTrivia comment cs ++ tail := by
  induction cs generalizing comment with
  | nil =>
    rw [List.nil_append, skipTrivia, if_pos rfl]
    cases tail with
    | nil => rfl
    | cons c more =>
      obtain rfl := h.begin (List.head?_cons ..)
      cases comment <;> rfl
  | cons c cs ih =>
    rw [List.cons_append, skipTrivia, skipTrivia]
    split
    · exact ih _
    split
    · exact ih _
    split
    · exact ih _
    · rw [if_neg (List.cons_ne_nil c cs), List.cons_append]

lemma splitString_append {value : List Char} (h : splitString cs = some (value, rest)) :
    splitString (cs ++ tail) = some (value, rest ++ tail) := by
  fun_induction splitString cs generalizing value with
  | case1 => cases h
  | case2 cs =>
    obtain ⟨rfl, rfl⟩ := Prod.mk.inj (Option.some.inj h)
    rfl
  | case3 => cases h
  | case4 c cs ih =>
    obtain ⟨⟨value', rest'⟩, hsplit, heq⟩ := Option.map_eq_some_iff.mp h
    obtain ⟨rfl, rfl⟩ := Prod.mk.inj heq
    rw [List.cons_append, List.cons_append, splitString, ih hsplit]
    rfl
  | case5 c cs hquote hlast hescape ih =>
    obtain ⟨⟨value', rest'⟩, hsplit, heq⟩ := Option.map_eq_some_iff.mp h
    obtain ⟨rfl, rfl⟩ := Prod.mk.inj heq
    have hbackslash : c ≠ '\\' := by
      rintro rfl
      cases cs with
      | nil => exact hlast rfl rfl
      | cons d cs => exact hescape d cs rfl rfl
    rw [List.cons_append, splitString, ih hsplit]
    · rfl
    · exact hquote
    · rintro rfl
      exact absurd rfl hbackslash
    · rintro d ds rfl
      exact absurd rfl hbackslash

lemma dropWhile_append_of_ne_nil {p : Char → Bool} (h : cs.dropWhile p ≠ []) :
    (cs ++ tail).dropWhile p = cs.dropWhile p ++ tail := by
  rw [List.dropWhile_append, if_neg]
  simpa using h

lemma Separate.opensPredicate_append (h : Separate tail) (c : Char) (cs : List Char) :
    opensPredicate (c :: (cs ++ tail)) = opensPredicate (c :: cs) := by
  by_cases hc : c = '('
  · subst hc
    rw [opensPredicate, opensPredicate]
    by_cases hblank : cs.dropWhile isWhiteSpace = []
    · have htail : (tail.dropWhile isWhiteSpace).head? ≠ some '#' := by
        intro hhead
        obtain ⟨more, hmore⟩ := List.head?_eq_some_iff.mp hhead
        have hopens := h.opens (c := '#') (by rw [← skipTrivia_dropWhile, hmore]; rfl)
        exact absurd hopens (by decide)
      rw [List.dropWhile_append, if_pos (by simp [hblank]), hblank, decide_eq_false htail]
      rfl
    · rw [dropWhile_append_of_ne_nil hblank, List.head?_append_of_ne_nil _ hblank]
  · rw [opensPredicate.eq_2, opensPredicate.eq_2]
    · exact fun _ heq => hc (List.cons.inj heq).1
    · exact fun _ heq => hc (List.cons.inj heq).1

end

/-! ## Alike states -/

/-- What is around a query. -/
structure Surroundings where
  tail : List Char
  base : List String
  /-- The names known in the end if the query is read by itself. -/
  all : List String
  separate : Separate tail

namespace Surroundings

/-- The index of a capture in the longer table. -/
def index (c : Surroundings) (i : Nat) : Nat :=
  reindex c.all (joinNames c.base c.all) i

lemma index_idxOf {c : Surroundings} {names : List String} {n : String} (hall : names <+: c.all) (hn : n ∈ names) :
    c.index (names.idxOf n) = (joinNames c.base names).idxOf n := by
  rw [index, reindex_idxOf hall hn]

lemma head?_tail_ne_at (c : Surroundings) : (skipTrivia false c.tail).head? ≠ some '@' := by
  intro hhead
  have hopens := c.separate.opens hhead
  exact absurd hopens (by decide)

end Surroundings

lemma Read.fuelFor_le (cs tail : List Char) : Read.fuelFor cs ≤ Read.fuelFor (cs ++ tail) := by
  rw [Read.fuelFor, Read.fuelFor, List.length_append]
  omega

section
variable [RegexEngine]

namespace Surroundings
variable (c : Surroundings)

/-- Reading has gone equally far in the query by itself and in its surroundings. -/
structure Alike (s t : Reading) : Prop where
  rest : t.rest = s.rest ++ c.tail ∨ s.rest = [] ∧ t.rest = skipTrivia false c.tail
  names : t.names = joinNames c.base s.names
  predicates : t.predicates.map (·.1) = s.predicates.map (·.1.renumber c.index)

/-- If a step from `s` on succeeds, so does the other from `t` on, with the result that `g` gives. -/
def Lifts {α β : Type} (g : α → β) (x : Read α) (s : Reading) (y : Read β) (t : Reading) : Prop :=
  ∀ a s', x.run s = .ok (a, s') → s'.names <+: c.all → ∃ t', y.run t = .ok (g a, t') ∧ c.Alike s' t'

variable {c} {s t : Reading} {cs : List Char}

lemma Alike.withRest (h : c.Alike s t) (cs : List Char) : c.Alike (s.withRest cs) (t.withRest (cs ++ c.tail)) :=
  ⟨.inl rfl, h.names, h.predicates⟩

lemma Alike.atEnd (h : c.Alike s t) : c.Alike (s.withRest []) (t.withRest (skipTrivia false c.tail)) :=
  ⟨.inr ⟨rfl, rfl⟩, h.names, h.predicates⟩

lemma Alike.rest_of_ne_nil (h : c.Alike s t) (hs : s.rest ≠ []) : t.rest = s.rest ++ c.tail :=
  h.rest.resolve_right fun hend => hs hend.1

lemma Alike.skipTrivia_eq (h : c.Alike s t) : skipTrivia false t.rest =
    if skipTrivia false s.rest = [] then skipTrivia false c.tail else skipTrivia false s.rest ++ c.tail := by
  rcases h.rest with hrest | ⟨hs, hrest⟩
  · rw [hrest, c.separate.skipTrivia_append]
  · rw [hrest, hs, skipTrivia, if_pos rfl, skipTrivia_skipTrivia]

lemma Alike.skipTrivia_of_nil (h : c.Alike s t) (hs : s.rest = []) : skipTrivia false t.rest = skipTrivia false c.tail := by
  rw [h.skipTrivia_eq, hs, skipTrivia, if_pos rfl]

variable {α β γ δ : Type} {g : α → γ} {h : β → δ} {x : Read α} {y : Read γ} {f : α → Read β} {f' : γ → Read δ}

lemma lifts_pure (hst : c.Alike s t) (a : α) : c.Lifts g (pure a) s (pure (g a)) t := by
  intro b s' hrun hall
  obtain ⟨rfl, rfl⟩ := Prod.mk.inj (Except.ok.inj hrun)
  exact ⟨t, rfl, hst⟩

lemma lifts_of_fails (hx : x.Ensures s fun _ _ => False) : c.Lifts g x s y t :=
  fun a s' hrun => (hx a s' hrun).elim

lemma Lifts.bind (hx : c.Lifts g x s y t)
    (hf : ∀ a s' t', x.run s = .ok (a, s') → c.Alike s' t' → c.Lifts h (f a) s' (f' (g a)) t')
    (hnames : ∀ a s', (f a).Ensures s' fun _ u => s'.names <+: u.names) : c.Lifts h (x >>= f) s (y >>= f') t := by
  intro b u hrun hall
  rw [Read.run_bind] at hrun
  cases hx' : x.run s with
  | error e =>
    rw [hx'] at hrun
    cases hrun
  | ok r =>
    obtain ⟨a, s'⟩ := r
    rw [hx'] at hrun
    obtain ⟨t', ht', hst'⟩ := hx a s' hx' ((hnames a s' b u hrun).trans hall)
    obtain ⟨u', hu', huu'⟩ := hf a s' t' hx' hst' b u hrun hall
    refine ⟨u', ?_, huu'⟩
    rw [Read.run_bind, ht']
    exact hu'

lemma Lifts.next {f : List Char → Read β} {f' : List Char → Read δ} (hst : c.Alike s t)
    (hnil : c.Lifts h (f []) (s.withRest []) (f' (skipTrivia false c.tail)) (t.withRest (skipTrivia false c.tail)))
    (hcons : ∀ ch cs, skipTrivia false s.rest = ch :: cs →
      c.Lifts h (f (ch :: cs)) (s.withRest (ch :: cs)) (f' (ch :: (cs ++ c.tail))) (t.withRest (ch :: (cs ++ c.tail)))) :
    c.Lifts h (Read.next >>= f) s (Read.next >>= f') t := by
  change c.Lifts h (f (skipTrivia false s.rest)) (s.withRest (skipTrivia false s.rest))
    (f' (skipTrivia false t.rest)) (t.withRest (skipTrivia false t.rest))
  rw [hst.skipTrivia_eq]
  cases hs : skipTrivia false s.rest with
  | nil => exact hnil
  | cons ch cs => exact hcons ch cs hs

lemma Lifts.moveTo {f : Unit → Read β} {f' : Unit → Read δ} {cs' : List Char}
    (hf : c.Lifts h (f ()) (s.withRest cs) (f' ()) (t.withRest cs')) :
    c.Lifts h (Read.moveTo cs >>= f) s (Read.moveTo cs' >>= f') t :=
  hf

lemma Lifts.name {f : String → Read β} {f' : String → Read δ} (hrest : t.rest = s.rest ++ c.tail)
    (hf : c.Lifts h (f (String.ofList (s.rest.takeWhile isNameChar))) (s.withRest (s.rest.dropWhile isNameChar))
      (f' (String.ofList (s.rest.takeWhile isNameChar))) (t.withRest (s.rest.dropWhile isNameChar ++ c.tail))) :
    c.Lifts h (Read.name >>= f) s (Read.name >>= f') t := by
  obtain ⟨htake, hdrop⟩ := c.separate.span_name s.rest
  change c.Lifts h (f _) _ (f' (String.ofList (t.rest.takeWhile isNameChar))) (t.withRest (t.rest.dropWhile isNameChar))
  rw [hrest, htake, hdrop]
  exact hf

lemma Lifts.string {f : String → Read β} {f' : String → Read δ}
    (hf : ∀ value rest, splitString cs = some (value, rest) →
      c.Lifts h (f (String.ofList value)) (s.withRest rest) (f' (String.ofList value)) (t.withRest (rest ++ c.tail))) :
    c.Lifts h (Read.string cs >>= f) s (Read.string (cs ++ c.tail) >>= f') t := by
  cases hsplit : splitString cs with
  | none =>
    refine lifts_of_fails (Read.Ensures.string fun value rest hvalue => ?_)
    rw [hsplit] at hvalue
    cases hvalue
  | some r =>
    obtain ⟨value, rest⟩ := r
    simp only [Read.string, hsplit, splitString_append hsplit]
    exact hf value rest hsplit

/-! ## Captures -/

lemma run_capture (n : String) (s : Reading) :
    (Read.capture n).run s = .ok (s.names.idxOf n, { s with names := addName s.names n }) := by
  rw [Read.capture, Read.run_get, idxOf?_eq, addName]
  by_cases hn : n ∈ s.names
  · rw [if_pos hn, if_pos hn]
    rfl
  · rw [if_neg hn, if_neg hn, List.idxOf_eq_length hn]
    rfl

lemma lifts_capture (hst : c.Alike s t) (n : String) : c.Lifts c.index (Read.capture n) s (Read.capture n) t := by
  intro i s' hrun hall
  rw [run_capture, Except.ok.injEq, Prod.mk.injEq] at hrun
  obtain ⟨rfl, rfl⟩ := hrun
  have hindex : c.index (s.names.idxOf n) = (joinNames c.base s.names).idxOf n := by
    rw [← idxOf_addName, index_idxOf hall (mem_addName _ _), joinNames_addName, idxOf_addName]
  refine ⟨{ t with names := joinNames c.base (addName s.names n) }, ?_, hst.rest, rfl, hst.predicates⟩
  rw [run_capture, hst.names, hindex, joinNames_addName]

lemma run_captures_of_ne {fuel : Nat} (h : (skipTrivia false t.rest).head? ≠ some '@') :
    (Read.captures (fuel + 1)).run t = .ok ([], t.withRest (skipTrivia false t.rest)) := by
  rw [Read.captures, Read.run_next]
  split
  · next cs hcs =>
    rw [hcs] at h
    exact absurd rfl h
  · rfl

/-- As much fuel as there are characters is enough for all captures. -/
lemma lifts_captures {fuel fuel' : Nat} (hst : c.Alike s t) (hs : s.rest.length ≤ fuel) (hle : fuel ≤ fuel') :
    c.Lifts (List.map c.index) (Read.captures fuel) s (Read.captures fuel') t := by
  induction fuel generalizing fuel' s t with
  | zero =>
    have hnil : s.rest = [] := List.eq_nil_of_length_eq_zero (Nat.le_zero.mp hs)
    cases fuel' with
    | zero => exact lifts_pure hst []
    | succ fuel' =>
      intro is s' hrun hall
      obtain ⟨rfl, rfl⟩ := Prod.mk.inj (Except.ok.inj hrun)
      have hskip := hst.skipTrivia_of_nil hnil
      refine ⟨_, run_captures_of_ne (hskip ▸ c.head?_tail_ne_at), .inr ⟨hnil, hskip⟩, hst.names, hst.predicates⟩
  | succ fuel ih =>
    cases fuel' with
    | zero => exact absurd hle (Nat.not_succ_le_zero _)
    | succ fuel' =>
      rw [Read.captures, Read.captures]
      refine Lifts.next hst ?_ fun ch cs hcs => ?_
      · change c.Lifts _ (pure []) _ _ _
        split
        · next heq => exact absurd (by rw [heq, List.head?_cons]) c.head?_tail_ne_at
        · exact lifts_pure hst.atEnd []
      · have hlength : cs.length ≤ fuel := by
          have hle := (skipTrivia_suffix false s.rest).length_le
          rw [hcs, List.length_cons] at hle
          omega
        split
        · next cs' heq =>
          obtain ⟨rfl, rfl⟩ := List.cons.inj heq
          refine Lifts.moveTo (Lifts.name rfl ?_)
          dsimp only
          split
          · exact lifts_of_fails (Read.ensures_failing _)
          · have hnext := (hst.withRest cs).withRest (cs.dropWhile isNameChar)
            refine (lifts_capture hnext _).bind (fun i u u' hi huu' => ?_) fun i u => ?_
            · have hu : u.rest.length ≤ fuel := by
                rw [run_capture, Except.ok.injEq, Prod.mk.injEq] at hi
                rw [← hi.2]
                exact (List.dropWhile_suffix _).length_le.trans hlength
              refine (ih huu' hu (Nat.le_of_succ_le_succ hle)).bind (fun is v v' _ hvv' => lifts_pure hvv' _) fun is v => ?_
              exact Read.ensures_pure (List.prefix_refl _)
            · exact (Read.ensures_captures fuel u).bind fun is v hv => Read.ensures_pure hv.names
        · next hne =>
          split
          · next cs' heq =>
            obtain ⟨rfl, -⟩ := List.cons.inj heq
            exact absurd rfl (hne cs)
          · exact lifts_pure (hst.withRest (ch :: cs)) []

lemma quantifier_tail (c : Surroundings) (default : Quantifier) :
    Read.quantifier default (skipTrivia false c.tail) = pure default := by
  have hopens {ch : Char} {cs : List Char} (heq : skipTrivia false c.tail = ch :: cs) : ch ∈ ['(', '[', '"', '_'] :=
    c.separate.opens (by rw [heq, List.head?_cons])
  unfold Read.quantifier
  split
  · next heq => exact absurd (hopens heq) (by decide)
  · next heq => exact absurd (hopens heq) (by decide)
  · next heq => exact absurd (hopens heq) (by decide)
  · rfl

lemma lifts_quantifier (hst : c.Alike s t) (default : Quantifier) (ch : Char) (cs : List Char) :
    c.Lifts id (Read.quantifier default (ch :: cs)) (s.withRest (ch :: cs))
      (Read.quantifier default (ch :: (cs ++ c.tail))) (t.withRest (ch :: (cs ++ c.tail))) := by
  unfold Read.quantifier
  split
  · next heq =>
    obtain ⟨rfl, rfl⟩ := List.cons.inj heq
    exact Lifts.moveTo (lifts_pure (hst.withRest cs) _)
  · next heq =>
    obtain ⟨rfl, rfl⟩ := List.cons.inj heq
    exact Lifts.moveTo (lifts_pure (hst.withRest cs) _)
  · next heq =>
    obtain ⟨rfl, rfl⟩ := List.cons.inj heq
    exact Lifts.moveTo (lifts_pure (hst.withRest cs) _)
  · next hoptional hzero hone =>
    split
    · next heq => exact (hoptional cs (by rw [(List.cons.inj heq).1])).elim
    · next heq => exact (hzero cs (by rw [(List.cons.inj heq).1])).elim
    · next heq => exact (hone cs (by rw [(List.cons.inj heq).1])).elim
    · exact lifts_pure (hst.withRest (ch :: cs)) _

lemma lifts_suffix (hst : c.Alike s t) (p : Pattern) :
    c.Lifts (Pattern.renumber c.index) (Read.suffix p) s (Read.suffix (p.renumber c.index)) t := by
  have hcaptures (q : Quantifier) {u u' : Reading} {n n' : Nat} (huu' : c.Alike u u') (hu : u.rest.length ≤ n)
      (hle : n ≤ n') :
      c.Lifts (Pattern.renumber c.index)
        (Read.captures n >>= fun more => pure (p.withRole { p.role with quantifier := q, captures := p.role.captures ++ more })) u
        (Read.captures n' >>= fun more => pure ((p.renumber c.index).withRole
          { (p.renumber c.index).role with quantifier := q, captures := (p.renumber c.index).role.captures ++ more })) u' := by
    refine (lifts_captures huu' hu hle).bind (fun more v v' _ hvv' => ?_)
      fun more v => Read.ensures_pure (List.prefix_refl _)
    rw [Pattern.role_renumber, Role.renumber, ← List.map_append, ← Pattern.renumber_withRole]
    exact lifts_pure hvv' _
  rw [Read.suffix_eq, Read.suffix_eq, Pattern.quantifier_renumber]
  refine Lifts.next hst ?_ fun ch cs hcs => ?_
  · rw [c.quantifier_tail]
    exact hcaptures _ hst.atEnd (Nat.le_refl _) (Nat.zero_le _)
  · refine (lifts_quantifier hst _ ch cs).bind (fun q u u' hq huu' => hcaptures q huu' ?_ ?_) fun q u =>
      (Read.ensures_captures _ u).bind fun is v hv => Read.ensures_pure hv.names
    · obtain ⟨cs', rfl, hcs'⟩ := Read.ensures_quantifier _ (s.withRest (ch :: cs)) q u hq
      exact hcs'.length_le
    · rw [List.length_cons, List.length_cons, List.length_append]
      omega

/-! ## Predicates -/

lemma Lifts.indexOf {f : Nat → Read β} {f' : Nat → Read δ} {n : String} {flaw flaw' : Flaw} (hst : c.Alike s t)
    (hall : s.names <+: c.all) (hf : ∀ i, c.Lifts h (f i) s (f' (c.index i)) t) :
    c.Lifts h (match s.names.idxOf? n with | some i => f i | none => throw flaw) s
      (match t.names.idxOf? n with | some i => f' i | none => throw flaw') t := by
  rw [idxOf?_eq, idxOf?_eq, hst.names]
  by_cases hn : n ∈ s.names
  · rw [if_pos hn, if_pos (mem_joinNames.mpr (.inr hn)), ← index_idxOf hall hn]
    exact hf _
  · rw [if_neg hn]
    exact lifts_of_fails (Read.ensures_throw _)

lemma lifts_arguments {fuel fuel' : Nat} (hst : c.Alike s t) (hall : s.names <+: c.all) (hle : fuel ≤ fuel') :
    c.Lifts (List.map (Operand.renumber c.index)) (Read.arguments fuel) s (Read.arguments fuel') t := by
  induction fuel generalizing fuel' s t with
  | zero => exact lifts_of_fails (Read.ensures_fail _)
  | succ fuel ih =>
    obtain ⟨fuel', rfl⟩ : ∃ n, fuel' = n + 1 := ⟨fuel' - 1, by omega⟩
    have hle' : fuel ≤ fuel' := Nat.le_of_succ_le_succ hle
    have hcons (a : Operand) {u u' : Reading} (huu' : c.Alike u u') (hu : u.names <+: c.all) :
        c.Lifts (List.map (Operand.renumber c.index)) (do return a :: (← Read.arguments fuel)) u
          (do return a.renumber c.index :: (← Read.arguments fuel')) u' :=
      (ih huu' hu hle').bind (fun args v v' _ hvv' => lifts_pure hvv' _)
        fun args v => Read.ensures_pure (List.prefix_refl _)
    rw [Read.arguments, Read.arguments]
    refine Lifts.next hst (lifts_of_fails (Read.ensures_fail _)) fun ch cs hcs => ?_
    dsimp only
    split
    · exact Lifts.moveTo (lifts_pure (hst.withRest cs) [])
    split
    · refine Lifts.moveTo (Lifts.name rfl ?_)
      have hname := (hst.withRest cs).withRest (cs.dropWhile isNameChar)
      exact Lifts.indexOf hname hall fun i => hcons (.capture i) hname hall
    split
    · exact Lifts.string fun value rest _ => hcons (.text _) (hst.withRest rest) hall
    split
    · refine Lifts.name rfl ?_
      exact hcons (.text _) (hst.withRest _) hall
    · exact lifts_of_fails (Read.ensures_fail _)

lemma Lifts.of_names (hx : x.Ensures s fun _ u => s.names <+: u.names) (hlifts : s.names <+: c.all → c.Lifts g x s y t) :
    c.Lifts g x s y t :=
  fun a s' hrun hall => hlifts ((hx a s' hrun).trans hall) a s' hrun hall

lemma lifts_predicate (hst : c.Alike s t) {ch : Char} (hopens : opensPredicate (ch :: cs) = true) :
    c.Lifts id (Read.predicate (ch :: cs)) (s.withRest (ch :: cs))
      (Read.predicate (ch :: (cs ++ c.tail))) (t.withRest (ch :: (cs ++ c.tail))) := by
  refine Lifts.of_names ((Read.ensures_predicate (s.withRest (ch :: cs))).imp fun _ _ hu => hu.1.names) fun hall => ?_
  have hname : cs.dropWhile isWhiteSpace ≠ [] := by
    intro hnil
    unfold opensPredicate at hopens
    split at hopens
    · next heq =>
      obtain ⟨rfl, rfl⟩ := List.cons.inj heq
      rw [hnil] at hopens
      exact absurd hopens (by decide)
    · cases hopens
  have htail : (((ch :: (cs ++ c.tail)).drop 1).dropWhile isWhiteSpace).drop 1 =
      (((ch :: cs).drop 1).dropWhile isWhiteSpace).drop 1 ++ c.tail := by
    rw [List.drop_succ_cons, List.drop_zero, List.drop_succ_cons, List.drop_zero, dropWhile_append_of_ne_nil hname,
      List.drop_append_of_le_length (List.length_pos_iff.mpr hname)]
  rw [Read.predicate, Read.predicate, htail]
  generalize (((ch :: cs).drop 1).dropWhile isWhiteSpace).drop 1 = rest
  refine Lifts.moveTo (Lifts.name rfl ?_)
  have hargs := (hst.withRest rest).withRest (rest.dropWhile isNameChar)
  refine (lifts_arguments hargs hall ?_).bind (fun args u u' _ huu' => ?_) fun args u => ?_
  · rw [List.length_cons, List.length_cons, List.length_append]
    omega
  · split
    · exact lifts_pure huu' _
    · rw [Predicate.ofArguments_renumber]
      split
      · next p hp =>
        rw [hp]
        intro _ v hrun hv
        obtain ⟨rfl, rfl⟩ := Prod.mk.inj (Except.ok.inj hrun)
        exact ⟨_, rfl, huu'.rest, huu'.names, by simp [huu'.predicates]⟩
      · exact lifts_of_fails (Read.ensures_throw _)
  · split
    · exact Read.ensures_pure (List.prefix_refl _)
    split
    · exact Read.ensures_modify (List.prefix_refl _)
    · exact Read.ensures_throw _

/-! ## Patterns -/

lemma lifts_kind (hst : c.Alike s t) : c.Lifts id Read.kind s Read.kind t := by
  rw [Read.kind]
  refine Lifts.next hst (lifts_of_fails (Read.Ensures.name (Read.ensures_fail _))) fun ch cs hcs => ?_
  refine Lifts.name rfl ?_
  have hname := (hst.withRest (ch :: cs)).withRest ((ch :: cs).dropWhile isNameChar)
  split
  · exact lifts_of_fails (Read.ensures_fail _)
  split
  · exact lifts_pure hname _
  split
  · exact lifts_pure hname _
  · exact lifts_of_fails (Read.ensures_throw _)

lemma lifts_field (hst : c.Alike s t) : c.Lifts id Read.field s Read.field t := by
  rw [Read.field]
  refine Lifts.next hst ?_ fun ch cs hcs => ?_
  · exact lifts_of_fails (Read.Ensures.name (Read.Ensures.next (Read.ensures_throw _)))
  · refine Lifts.name rfl ?_
    refine Lifts.next ((hst.withRest (ch :: cs)).withRest ((ch :: cs).dropWhile isNameChar)) ?_ fun ch' cs' _ => ?_
    · exact lifts_of_fails (Read.ensures_throw _)
    · split
      · next heq =>
        obtain ⟨rfl, rfl⟩ := List.cons.inj heq
        refine Lifts.moveTo ?_
        split
        · exact lifts_pure (hst.withRest cs') _
        · exact lifts_of_fails (Read.ensures_throw _)
      · exact lifts_of_fails (Read.ensures_throw _)

/-- With the given fuel the readers of patterns read the same. -/
structure Continues (c : Surroundings) (fuel : Nat) : Prop where
  pattern : ∀ {s t fuel'}, c.Alike s t → fuel ≤ fuel' →
    c.Lifts (Pattern.renumber c.index) (Read.pattern fuel) s (Read.pattern fuel') t
  alternatives : ∀ {s t fuel'}, c.Alike s t → fuel ≤ fuel' →
    c.Lifts (Pattern.renumberAll c.index) (Read.alternatives fuel) s (Read.alternatives fuel') t
  children : ∀ {s t fuel'}, c.Alike s t → fuel ≤ fuel' →
    c.Lifts (Pattern.renumberAll c.index) (Read.children fuel) s (Read.children fuel') t

section
variable {fuel fuel' : Nat}

lemma Continues.bare (hfuel : Continues c fuel) (hst : c.Alike s t) (hle : fuel ≤ fuel') (ch : Char) (cs : List Char) :
    c.Lifts (Pattern.renumber c.index) (Read.bare fuel (ch :: cs)) (s.withRest (ch :: cs))
      (Read.bare fuel' (ch :: (cs ++ c.tail))) (t.withRest (ch :: (cs ++ c.tail))) := by
  have hcs := hst.withRest cs
  unfold Read.bare
  split
  · next heq => cases heq
  · next heq =>
    obtain ⟨rfl, rfl⟩ := List.cons.inj heq
    refine Lifts.moveTo ((lifts_kind hcs).bind (fun test u u' _ huu' => ?_) fun test u => ?_)
    · exact (hfuel.children huu' hle).bind (fun ps v v' _ hvv' => lifts_pure hvv' _)
        fun ps v => Read.ensures_pure (List.prefix_refl _)
    · exact ((Read.advance fuel).children u).bind fun ps v hv => Read.ensures_pure hv.1.names
  · next heq =>
    obtain ⟨rfl, rfl⟩ := List.cons.inj heq
    refine Lifts.moveTo ((hfuel.alternatives hcs hle).bind (fun ps u u' _ huu' => ?_) fun ps u => ?_)
    · cases ps with
      | nil => exact lifts_of_fails (Read.ensures_failing _)
      | cons p ps => exact lifts_pure huu' _
    · cases ps with
      | nil => exact Read.ensures_failing _
      | cons p ps => exact Read.ensures_pure (List.prefix_refl _)
  · next heq =>
    obtain ⟨rfl, rfl⟩ := List.cons.inj heq
    refine Lifts.string fun value rest _ => ?_
    split
    · exact lifts_pure (hst.withRest rest) _
    · exact lifts_of_fails (Read.ensures_throw _)
  · next heq =>
    obtain ⟨rfl, rfl⟩ := List.cons.inj heq
    exact Lifts.moveTo (lifts_pure hcs _)
  · exact lifts_of_fails (Read.ensures_fail _)
  · exact lifts_of_fails (Read.ensures_fail _)

lemma Continues.pattern_succ (hfuel : Continues c fuel) (hst : c.Alike s t) (hle : fuel ≤ fuel') :
    c.Lifts (Pattern.renumber c.index) (Read.pattern (fuel + 1)) s (Read.pattern (fuel' + 1)) t := by
  rw [Read.pattern_succ, Read.pattern_succ]
  refine Lifts.next hst (lifts_of_fails (Read.ensures_failing _)) fun ch cs _ => ?_
  refine (hfuel.bare hst hle ch cs).bind (fun p u u' _ huu' => lifts_suffix huu' p) fun p u => ?_
  exact Read.names_of_suffix p u

lemma Continues.alternatives_succ (hfuel : Continues c fuel) (hst : c.Alike s t) (hle : fuel ≤ fuel') :
    c.Lifts (Pattern.renumberAll c.index) (Read.alternatives (fuel + 1)) s (Read.alternatives (fuel' + 1)) t := by
  have hmore {u u' : Reading} (huu' : c.Alike u u') :
      c.Lifts (Pattern.renumberAll c.index) (do let p ← Read.pattern fuel; return p :: (← Read.alternatives fuel)) u
        (do let p ← Read.pattern fuel'; return p :: (← Read.alternatives fuel')) u' := by
    refine (hfuel.pattern huu' hle).bind (fun p v v' _ hvv' => ?_) fun p v => ?_
    · exact (hfuel.alternatives hvv' hle).bind (fun ps w w' _ hww' => lifts_pure hww' _)
        fun ps w => Read.ensures_pure (List.prefix_refl _)
    · exact ((Read.advance fuel).alternatives v).bind fun ps w hw => Read.ensures_pure hw.1.names
  rw [Read.alternatives, Read.alternatives]
  refine Lifts.next hst (lifts_of_fails (Read.ensures_fail _)) fun ch cs _ => ?_
  split
  · next heq => cases heq
  · next heq =>
    obtain ⟨rfl, rfl⟩ := List.cons.inj heq
    exact Lifts.moveTo (lifts_pure (hst.withRest cs) _)
  · next hbracket =>
    split
    · next heq => cases heq
    · next heq => exact (hbracket cs (by rw [(List.cons.inj heq).1])).elim
    · exact hmore (hst.withRest (ch :: cs))

lemma Continues.children_succ (hfuel : Continues c fuel) (hst : c.Alike s t) (hle : fuel ≤ fuel') :
    c.Lifts (Pattern.renumberAll c.index) (Read.children (fuel + 1)) s (Read.children (fuel' + 1)) t := by
  have hmore (p : Pattern) {u u' : Reading} (huu' : c.Alike u u') :
      c.Lifts (Pattern.renumberAll c.index) (do return p :: (← Read.children fuel)) u
        (do return p.renumber c.index :: (← Read.children fuel')) u' :=
    (hfuel.children huu' hle).bind (fun ps v v' _ hvv' => lifts_pure hvv' _)
      fun ps v => Read.ensures_pure (List.prefix_refl _)
  have hnames (p : Pattern) (u : Reading) :
      Read.Ensures (do return p :: (← Read.children fuel)) u fun _ v => u.names <+: v.names :=
    ((Read.advance fuel).children u).bind fun ps v hv => Read.ensures_pure hv.1.names
  rw [Read.children, Read.children]
  refine Lifts.next hst (lifts_of_fails (Read.ensures_fail _)) fun ch cs _ => ?_
  dsimp only
  rw [c.separate.opensPredicate_append]
  split
  · exact Lifts.moveTo (lifts_pure (hst.withRest cs) _)
  split
  · next hopens =>
    exact (lifts_predicate hst hopens).bind (fun _ u u' _ huu' => hfuel.children huu' hle)
      fun _ u => ((Read.advance fuel).children u).imp fun ps v hv => hv.1.names
  split
  · exact lifts_of_fails (Read.ensures_fail _)
  split
  · refine (lifts_field (hst.withRest (ch :: cs))).bind (fun f u u' _ huu' => ?_) fun f u => ?_
    · refine (hfuel.pattern huu' hle).bind (fun p v v' _ hvv' => ?_) fun p v => hnames _ v
      have hchild := hmore (p.withRole { p.role with field := some f }) hvv'
      rw [Pattern.renumber_withRole] at hchild
      rw [Pattern.role_renumber]
      exact hchild
    · exact ((Read.advance fuel).pattern u).bind fun p v hv => (hnames _ v).imp fun ps w hw => hv.1.names.trans hw
  · exact (hfuel.pattern (hst.withRest (ch :: cs)) hle).bind (fun p u u' _ huu' => hmore p huu') fun p u => hnames p u

end

lemma continues (c : Surroundings) (fuel : Nat) : Continues c fuel := by
  induction fuel with
  | zero =>
    exact ⟨fun _ _ => lifts_of_fails (Read.ensures_fail _), fun _ _ => lifts_of_fails (Read.ensures_fail _),
      fun _ _ => lifts_of_fails (Read.ensures_fail _)⟩
  | succ fuel ih =>
    have hsucc {fuel' : Nat} (hle : fuel + 1 ≤ fuel') : ∃ n, fuel' = n + 1 ∧ fuel ≤ n := ⟨fuel' - 1, by omega, by omega⟩
    refine ⟨fun hst hle => ?_, fun hst hle => ?_, fun hst hle => ?_⟩
    · obtain ⟨n, rfl, hn⟩ := hsucc hle
      exact ih.pattern_succ hst hn
    · obtain ⟨n, rfl, hn⟩ := hsucc hle
      exact ih.alternatives_succ hst hn
    · obtain ⟨n, rfl, hn⟩ := hsucc hle
      exact ih.children_succ hst hn

/-! ## Patterns with predicates -/

lemma lifts_group {fuel fuel' : Nat} (hst : c.Alike s t) (hle : fuel ≤ fuel') (found : Option Pattern) :
    c.Lifts (Option.map (Pattern.renumber c.index)) (Read.group fuel found) s
      (Read.group fuel' (found.map (Pattern.renumber c.index))) t := by
  induction fuel generalizing fuel' found s t with
  | zero => exact lifts_of_fails (Read.ensures_fail _)
  | succ fuel ih =>
    obtain ⟨fuel', rfl⟩ : ∃ n, fuel' = n + 1 := ⟨fuel' - 1, by omega⟩
    have hle' : fuel ≤ fuel' := Nat.le_of_succ_le_succ hle
    have hnames (found : Option Pattern) (u : Reading) : (Read.group fuel found).Ensures u fun _ v => u.names <+: v.names := by
      refine (Read.ensures_group fuel found u).imp fun r v hr => ?_
      obtain ⟨used, hv, -⟩ := hr
      exact hv.1.names
    rw [Read.group, Read.group]
    refine Lifts.next hst (lifts_of_fails (Read.ensures_fail _)) fun ch cs _ => ?_
    dsimp only
    rw [c.separate.opensPredicate_append, Option.isSome_map]
    split
    · exact Lifts.moveTo (lifts_pure (hst.withRest cs) _)
    split
    · next hopens =>
      exact (lifts_predicate hst hopens).bind (fun _ u u' _ huu' => ih huu' hle' found) fun _ u => hnames found u
    split
    · exact lifts_of_fails (Read.ensures_fail _)
    · have hfuel : Read.fuelFor (ch :: cs) ≤ Read.fuelFor (ch :: (cs ++ c.tail)) := by
        simp only [Read.fuelFor, List.length_cons, List.length_append]
        omega
      exact ((continues c _).pattern (hst.withRest (ch :: cs)) hfuel).bind (fun p u u' _ huu' => ih huu' hle' (some p))
        fun p u => hnames (some p) u

/-- A pattern does not begin with a parenthesis that has only trivia behind it. -/
lemma ensures_pattern_inner (fuel : Nat) (s : Reading) : (Read.pattern fuel).Ensures s fun _ _ =>
    ∀ cs, s.rest = '(' :: cs → skipTrivia false cs ≠ [] := by
  intro p t hrun cs hs hnil
  have hkind : Read.kind.Ensures (s.withRest cs) fun _ _ => False := by
    rw [Read.kind]
    refine Read.Ensures.next (Read.Ensures.name ?_)
    change Read.Ensures _ ((s.withRest (skipTrivia false cs)).withRest ((skipTrivia false cs).dropWhile isNameChar)) _
    change Read.Ensures (if (String.ofList ((skipTrivia false cs).takeWhile isNameChar)).isEmpty then _ else _) _ _
    rw [hnil]
    exact Read.ensures_fail _
  cases fuel with
  | zero => cases hrun
  | succ fuel =>
    have hskip : skipTrivia false s.rest = '(' :: cs := by rw [hs]; rfl
    rw [Read.pattern_succ] at hrun
    refine Read.Ensures.next (R := fun _ _ => False) ?_ p t hrun
    rw [hskip]
    exact (Read.Ensures.moveTo (hkind.bind fun _ _ h => h.elim)).bind (Q := fun _ _ => False) fun _ _ h => h.elim

lemma Lifts.get {f : Reading → Read β} {f' : Reading → Read δ} (hf : c.Lifts h (f s) s (f' t) t) :
    c.Lifts h (MonadState.get >>= f) s (MonadState.get >>= f') t :=
  hf

lemma Lifts.modify {k k' : Reading → Reading} {f : PUnit → Read β} {f' : PUnit → Read δ}
    (hf : c.Lifts h (f ⟨⟩) (k s) (f' ⟨⟩) (k' t)) : c.Lifts h (modify k >>= f) s (modify k' >>= f') t :=
  hf

lemma lifts_outermost (hst : c.Alike s t) (hs : s.rest ≠ []) :
    c.Lifts (Pattern.renumber c.index) Read.outermost s Read.outermost t := by
  have ht := hst.rest_of_ne_nil hs
  have hpattern : c.Lifts (Pattern.renumber c.index) (Read.pattern (Read.fuelFor s.rest)) s
      (Read.pattern (Read.fuelFor t.rest)) t := (continues c _).pattern hst (ht ▸ Read.fuelFor_le s.rest c.tail)
  obtain ⟨ch, cs, hch⟩ := List.exists_cons_of_ne_nil hs
  rw [hch, List.cons_append] at ht
  rw [hch, ht] at hpattern
  rw [Read.outermost]
  refine Lifts.get ?_
  dsimp only
  rw [hch, ht]
  split
  · next cs' heq =>
    obtain ⟨rfl, rfl⟩ := List.cons.inj heq
    by_cases hnil : skipTrivia false cs = []
    · rw [hnil]
      exact lifts_of_fails ((ensures_pattern_inner _ s).imp fun _ _ hinner => hinner cs hch hnil)
    · have hinner := c.separate.skipTrivia_append false cs
      rw [if_neg hnil] at hinner
      obtain ⟨ch', cs', hcs'⟩ := List.exists_cons_of_ne_nil hnil
      change c.Lifts _ _ _ (if Read.opensGroup (skipTrivia false (cs ++ c.tail)) = true then _ else _) _
      rw [hinner, hcs', List.cons_append]
      change c.Lifts _ _ _ (if Read.opensGroup (ch' :: cs') = true then _ else _) _
      split
      · refine Lifts.moveTo ((lifts_group (hst.withRest (ch' :: cs')) (Read.fuelFor_le _ _) none).bind (fun r u u' _ huu' => ?_)
          fun r u => ?_)
        · cases r with
          | none => exact lifts_of_fails (Read.ensures_throw _)
          | some p => exact lifts_suffix huu' p
        · cases r with
          | none => exact Read.ensures_throw _
          | some p => exact Read.names_of_suffix p u
      · exact hpattern
  · next hparen =>
    split
    · next heq => exact (hparen cs (by rw [(List.cons.inj heq).1])).elim
    · exact hpattern

lemma run_checks {known : List Nat} {predicates : List (Predicate × List Char)} (s : Reading)
    (hknown : ∀ p ∈ predicates, p.1.captures ⊆ known) :
    (predicates.forM fun p => Read.checkCaptures known p.1 p.2 : Read Unit).run s = .ok ((), s) := by
  induction predicates with
  | nil => rfl
  | cons p ps ih =>
    obtain ⟨hp, hps⟩ := List.forall_mem_cons.mp hknown
    have hcheck : Read.checkCaptures known p.1 p.2 = pure () := by
      have hnone : p.1.captures.find? (fun i => !known.contains i) = none :=
        List.find?_eq_none.mpr fun i hi => by simpa using hp hi
      rw [Read.checkCaptures, hnone]
    change (Read.checkCaptures known p.1 p.2 >>= fun _ => ps.forM fun p => Read.checkCaptures known p.1 p.2).run s = _
    rw [hcheck]
    exact ih hps

lemma lifts_checks (hst : c.Alike s t) (known : List Nat) :
    c.Lifts id (s.predicates.forM fun p => Read.checkCaptures known p.1 p.2) s
      (t.predicates.forM fun p => Read.checkCaptures (known.map c.index) p.1 p.2) t := by
  intro _ s' hrun _
  obtain ⟨rfl, hknown⟩ := Read.ensures_checks known s.predicates s _ s' hrun
  refine ⟨t, run_checks t fun p hp => ?_, hst⟩
  have hmem : p.1 ∈ s'.predicates.map (·.1.renumber c.index) := hst.predicates ▸ List.mem_map.mpr ⟨p, hp, rfl⟩
  obtain ⟨q, hq, heq⟩ := List.mem_map.mp hmem
  rw [← heq, Predicate.captures_renumber]
  exact List.map_subset _ (hknown q hq)

lemma lifts_queryPattern {source source' : List Char} {offset : Nat} (hst : c.Alike s.cleared t.cleared) (hs : s.rest ≠ [])
    (hsuffix : s.rest <:+ source) (hlength : byteLength source' = byteLength source + byteLength c.tail + offset) :
    c.Lifts (QueryPattern.moved c.index offset) (Read.queryPattern source) s (Read.queryPattern source') t := by
  have ht : t.rest = s.rest ++ c.tail := hst.rest_of_ne_nil hs
  rw [Read.queryPattern, Read.queryPattern]
  refine Lifts.get (Lifts.modify ?_)
  refine (lifts_outermost hst hs).bind (fun root u u' _ huu' => ?_) fun root u => ?_
  · refine Lifts.get ?_
    dsimp only
    rw [Pattern.captures_renumber]
    refine (lifts_checks huu' root.captures).bind (fun _ v v' _ hvv' => ?_)
      fun _ v => Read.ensures_pure (List.prefix_refl _)
    have hmoved : QueryPattern.moved c.index offset
        ⟨root, u.predicates.map (·.1), byteLength source - byteLength s.rest⟩ =
          ⟨root.renumber c.index, u'.predicates.map (·.1), byteLength source' - byteLength t.rest⟩ := by
      obtain ⟨before, hbefore⟩ := hsuffix
      rw [QueryPattern.moved, huu'.predicates, List.map_map, ht, hlength, ← hbefore, byteLength_append, byteLength_append]
      congr 1
      dsimp only
      omega
    rw [← hmoved]
    exact lifts_pure hvv' _
  · exact Read.Ensures.get ((Read.ensures_checks _ _ u).bind fun _ v hv => Read.ensures_pure (hv.1 ▸ List.prefix_refl _))

end Surroundings

/-! ## All patterns -/

namespace Read
variable {source : List Char} {s : Reading}

lemma run_queryPatterns_of_nil (fuel : Nat) (h : skipTrivia false s.rest = []) :
    (queryPatterns source (fuel + 1)).run s = .ok ([], s.withRest []) := by
  rw [queryPatterns, run_next, h]
  rfl

lemma run_queryPatterns_of_ne_nil (fuel : Nat) (h : skipTrivia false s.rest ≠ []) :
    (queryPatterns source (fuel + 1)).run s =
      (queryPattern source).run (s.withRest (skipTrivia false s.rest)) >>= fun r =>
        ((queryPatterns source fuel).run r.2).map fun more => (r.1 :: more.1, more.2) := by
  rw [queryPatterns, run_next]
  split
  · next hnil => exact absurd hnil h
  · rw [run_bind]
    cases (queryPattern source).run (s.withRest (skipTrivia false s.rest)) with
    | error e => rfl
    | ok r =>
      obtain ⟨p, t⟩ := r
      change (queryPatterns source fuel >>= fun ps => pure (p :: ps)).run t = ((queryPatterns source fuel).run t).map _
      rw [run_bind]
      cases (queryPatterns source fuel).run t <;> rfl

lemma exists_of_run_queryPatterns {fuel : Nat} {ps : List QueryPattern} {s' : Reading} (h : skipTrivia false s.rest ≠ [])
    (hrun : (queryPatterns source (fuel + 1)).run s = .ok (ps, s')) : ∃ p t ps', ps = p :: ps' ∧
      (queryPattern source).run (s.withRest (skipTrivia false s.rest)) = .ok (p, t) ∧
      (queryPatterns source fuel).run t = .ok (ps', s') := by
  rw [run_queryPatterns_of_ne_nil fuel h] at hrun
  cases hpattern : (queryPattern source).run (s.withRest (skipTrivia false s.rest)) with
  | error e =>
    rw [hpattern] at hrun
    cases hrun
  | ok r =>
    obtain ⟨p, t⟩ := r
    rw [hpattern] at hrun
    change ((queryPatterns source fuel).run t).map _ = _ at hrun
    cases hmore : (queryPatterns source fuel).run t with
    | error e =>
      rw [hmore] at hrun
      cases hrun
    | ok r =>
      rw [hmore] at hrun
      obtain ⟨rfl, rfl⟩ := Prod.mk.inj (Except.ok.inj hrun)
      exact ⟨p, t, r.1, rfl, rfl, hmore⟩

lemma run_queryPatterns_skip (fuel : Nat) (s : Reading) :
    (queryPatterns source (fuel + 1)).run (s.withRest (skipTrivia false s.rest)) =
      (queryPatterns source (fuel + 1)).run s := by
  have hskip : skipTrivia false (s.withRest (skipTrivia false s.rest)).rest = skipTrivia false s.rest :=
    skipTrivia_skipTrivia false s.rest
  by_cases h : skipTrivia false s.rest = []
  · rw [run_queryPatterns_of_nil fuel h, run_queryPatterns_of_nil fuel (hskip.trans h)]
    rfl
  · rw [run_queryPatterns_of_ne_nil fuel h, run_queryPatterns_of_ne_nil fuel (hskip.symm ▸ h), hskip]
    rfl

end Read

namespace Surroundings
variable {c : Surroundings} {source source' : List Char} {offset : Nat}

/-- Once the patterns of a query have been read, the surroundings are read on. -/
theorem run_queryPatterns {fuel : Nat} {s s' t : Reading} {ps : List QueryPattern} (hst : c.Alike s.cleared t.cleared)
    (hsuffix : s.rest <:+ source) (hlength : byteLength source' = byteLength source + byteLength c.tail + offset)
    (hfuel : s.rest.length < fuel) (hrun : (Read.queryPatterns source fuel).run s = .ok (ps, s'))
    (hall : s'.names <+: c.all) :
    ps.length ≤ s.rest.length ∧ ∃ t', c.Alike s'.cleared t'.cleared ∧ s'.rest = [] ∧
      ∀ m, (Read.queryPatterns source' (ps.length + (m + 1))).run t =
        ((Read.queryPatterns source' (m + 1)).run t').map fun r => (ps.map (·.moved c.index offset) ++ r.1, r.2) := by
  induction fuel generalizing s t ps with
  | zero => exact absurd hfuel (Nat.not_lt_zero _)
  | succ fuel ih =>
    have hskip := skipTrivia_suffix false s.rest
    cases hrest : skipTrivia false s.rest with
    | nil =>
      rw [Read.run_queryPatterns_of_nil fuel hrest, Except.ok.injEq, Prod.mk.injEq] at hrun
      obtain ⟨rfl, rfl⟩ := hrun
      have hnext : skipTrivia false t.rest = skipTrivia false c.tail := by
        have heq : skipTrivia false t.rest = if skipTrivia false s.rest = [] then _ else _ := hst.skipTrivia_eq
        rwa [if_pos hrest] at heq
      refine ⟨Nat.zero_le _, t.withRest (skipTrivia false t.rest), ⟨.inr ⟨rfl, hnext⟩, hst.names, rfl⟩, rfl, fun m => ?_⟩
      rw [Read.run_queryPatterns_skip, List.length_nil, Nat.zero_add]
      cases (Read.queryPatterns source' (m + 1)).run t <;> rfl
    | cons ch cs =>
      have hne : skipTrivia false s.rest ≠ [] := by simp [hrest]
      obtain ⟨p, u, ps', rfl, hpattern, hmore⟩ := Read.exists_of_run_queryPatterns hne hrun
      obtain ⟨⟨hgrows, hlt⟩, -⟩ := Read.ensures_queryPattern source _ (skipTrivia_skipTrivia false s.rest) p u hpattern
      have hbehind : u.rest <:+ s.rest := hgrows.rest.trans hskip
      have hshorter : u.rest.length < s.rest.length := Nat.lt_of_lt_of_le hlt hskip.length_le
      have hnames : u.names <+: c.all :=
        (Read.ensures_queryPatterns source fuel u (hbehind.trans hsuffix) ps' s' hmore).1.names.trans hall
      have hnext : skipTrivia false t.rest = skipTrivia false s.rest ++ c.tail := by
        have heq : skipTrivia false t.rest = if skipTrivia false s.rest = [] then _ else _ := hst.skipTrivia_eq
        rwa [if_neg hne] at heq
      have hstart : c.Alike (s.withRest (skipTrivia false s.rest)).cleared
          (t.withRest (skipTrivia false t.rest)).cleared := by
        rw [hnext]
        exact hst.withRest _
      obtain ⟨u', hu', huu'⟩ := lifts_queryPattern hstart hne (hskip.trans hsuffix) hlength p u hpattern hnames
      obtain ⟨hle, t', ht', hend, hread⟩ := ih ⟨huu'.rest, huu'.names, rfl⟩ (hbehind.trans hsuffix) (by omega) hmore
      refine ⟨Nat.succ_le_of_lt (hle.trans_lt hshorter), t', ht', hend, fun m => ?_⟩
      have hne' : skipTrivia false t.rest ≠ [] := by simp [hnext, hne]
      rw [List.length_cons, Nat.add_right_comm, Read.run_queryPatterns_of_ne_nil _ hne', hu']
      change ((Read.queryPatterns source' (ps'.length + (m + 1))).run u').map _ = _
      rw [hread m]
      cases (Read.queryPatterns source' (m + 1)).run t' <;> rfl

end Surroundings

end

end Query

end RenpyScript
