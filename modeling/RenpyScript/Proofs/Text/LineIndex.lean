import Mathlib.Data.Set.Card
import Mathlib.Order.Monotone.Defs
import RenpyScript.Checked.Rope
import RenpyScript.Proofs.Text.Rows

/-!
# Conversions of offsets

An offset in bytes is rounded down to a boundary between two characters, and apart from that the two kinds of offsets are
converted into each other. `BreakEnds` says where a line break is complete: rows count these offsets, columns begin at
the last of them. Carriage return and line feed are one break, which is not complete between the two.
-/

namespace RenpyScript

/-! ## Bytes and characters -/

namespace LineIndex

section
variable {cs : List Char} {b b' c c' : Nat}

lemma charsBefore_within (as : List Char) (c : Char) (bs : List Char) {k : Nat} (hk : k < c.utf8Size) :
    charsBefore (as ++ c :: bs) (byteLength as + k) = as.length := by
  induction as with
  | nil =>
    rw [byteLength_nil, Nat.zero_add]
    exact if_pos hk
  | cons d as ih =>
    rw [List.cons_append, charsBefore, byteLength_cons, if_neg (by omega), Nat.add_assoc, Nat.add_sub_cancel_left, ih,
      List.length_cons]

lemma charsBefore_append (as bs : List Char) : charsBefore (as ++ bs) (byteLength as) = as.length := by
  cases bs with
  | nil =>
    rw [List.append_nil]
    induction as with
    | nil => rfl
    | cons c as ih => rw [charsBefore, byteLength_cons, if_neg (by omega), Nat.add_sub_cancel_left, ih, List.length_cons]
  | cons c bs => exact charsBefore_within as c bs (Char.utf8Size_pos c)

lemma byteOffset_length (as bs : List Char) : byteOffset ⟨as ++ bs⟩ as.length = byteLength as := by
  rw [byteOffset, List.take_left]

/-- The characters in front of a byte, and the one that it belongs to if the text does not end there. -/
lemma exists_charsBefore (cs : List Char) (b : Nat) : ∃ before after, cs = before ++ after ∧
    charsBefore cs b = before.length ∧ byteLength before ≤ b ∧ ∀ c ∈ after.head?, b < byteLength before + c.utf8Size := by
  induction cs generalizing b with
  | nil => exact ⟨[], [], rfl, rfl, Nat.zero_le b, by simp⟩
  | cons c cs ih =>
    rw [charsBefore]
    split
    · next hlt => exact ⟨[], c :: cs, rfl, rfl, Nat.zero_le b, by simpa using hlt⟩
    · next hge =>
      obtain ⟨before, after, rfl, hcount, hle, hhead⟩ := ih (b - c.utf8Size)
      refine ⟨c :: before, after, rfl, by rw [hcount, List.length_cons], ?_, fun d hd => ?_⟩
      · rw [byteLength_cons]
        omega
      · have hlt := hhead d hd
        rw [byteLength_cons]
        omega

lemma prefix_of_le {before after as : List Char} (hhead : ∀ c ∈ after.head?, b < byteLength before + c.utf8Size)
    (has : as <+: before ++ after) (hle : byteLength as ≤ b) : as <+: before := by
  rcases List.prefix_or_prefix_of_prefix has (List.prefix_append before after) with h | ⟨more, rfl⟩
  · exact h
  · cases more with
    | nil => simp
    | cons c more =>
      obtain ⟨rest, hrest⟩ := has
      obtain rfl : c :: (more ++ rest) = after := by simpa using hrest
      have hlt := hhead c rfl
      rw [byteLength_append, byteLength_cons] at hle
      omega

lemma charsBefore_mono (h : b ≤ b') : charsBefore cs b ≤ charsBefore cs b' := by
  obtain ⟨before, after, hsplit, hcount, hle, -⟩ := exists_charsBefore cs b
  obtain ⟨before', after', hsplit', hcount', -, hhead'⟩ := exists_charsBefore cs b'
  have hbegins : before <+: before' ++ after' := hsplit' ▸ hsplit ▸ List.prefix_append before after
  rw [hcount, hcount']
  exact (prefix_of_le hhead' hbegins (hle.trans h)).length_le

lemma charsBefore_of_le (h : byteLength cs ≤ b) : charsBefore cs b = cs.length := by
  obtain ⟨before, after, rfl, hcount, -, hhead⟩ := exists_charsBefore cs b
  rw [hcount, (prefix_of_le hhead (List.prefix_refl _) h).length_le.antisymm (by simp)]

lemma byteOffset_mono (h : c ≤ c') : byteOffset ⟨cs⟩ c ≤ byteOffset ⟨cs⟩ c' := by
  rw [byteOffset, byteOffset]
  obtain ⟨more, hmore⟩ := List.take_prefix_take_left (l := cs) h
  dsimp only
  rw [← hmore, byteLength_append]
  exact Nat.le_add_right _ _

lemma charsBefore_byteOffset (h : c ≤ cs.length) : charsBefore cs (byteOffset ⟨cs⟩ c) = c := by
  have hcount := charsBefore_append (cs.take c) (cs.drop c)
  rwa [List.take_append_drop, List.length_take, Nat.min_eq_left h] at hcount

lemma isGreatest_byteOffset (cs : List Char) (b : Nat) :
    IsGreatest {o | IsBoundary cs o ∧ o ≤ b} (byteOffset ⟨cs⟩ (charsBefore cs b)) := by
  obtain ⟨before, after, rfl, hcount, hle, hhead⟩ := exists_charsBefore cs b
  rw [hcount, byteOffset_length]
  refine ⟨⟨isBoundary_append before after, hle⟩, ?_⟩
  rintro o ⟨⟨as, has, rfl⟩, ho⟩
  obtain ⟨more, rfl⟩ := prefix_of_le hhead has ho
  rw [byteLength_append]
  exact Nat.le_add_right _ _

end

end LineIndex

/-! ## Rows and columns -/

/-- What stands for a line break; carriage return and line feed are one. -/
def lineBreaks : List (List Char) :=
  [['\n'], ['\r', '\n'], ['\r'], ['\x0b'], ['\x0c'], ['\u0085'], ['\u2028'], ['\u2029']]

/-- A line break is complete at a character offset. -/
def BreakEnds (cs : List Char) (o : Nat) : Prop :=
  ∃ before brk after, cs = before ++ brk ++ after ∧ brk ∈ lineBreaks ∧ before.length + brk.length = o ∧
    ¬(brk = ['\r'] ∧ after.head? = some '\n')

/-- The number of line breaks that are complete at an offset or before it. -/
noncomputable def breaksUpTo (cs : List Char) (c : Nat) : Nat :=
  {o | BreakEnds cs o ∧ o ≤ c}.ncard

/-- The line of an offset begins at the last line break that is complete there, or else with the text. -/
def LineBegins (cs : List Char) (c start : Nat) : Prop :=
  (start = 0 ∧ ∀ o, BreakEnds cs o → c < o) ∨ IsGreatest {o | BreakEnds cs o ∧ o ≤ c} start

section
variable {cs : List Char} {c c' o start : Nat}

lemma endsLine_iff {c : Char} {following : List Char} : endsLine c following = true ↔
    c ∈ ['\n', '\x0b', '\x0c', '\u0085', '\u2028', '\u2029'] ∨ c = '\r' ∧ following.head? ≠ some '\n' := by
  rw [List.mem_cons, or_assoc, ← LineIndex.endsOtherLine_iff, LineIndex.endsOtherLine, Bool.and_eq_true, bne_iff_ne]
  by_cases hfeed : c = '\n'
  · subst hfeed
    simp [endsLine]
  · simp [hfeed]

lemma breakEnds_iff : BreakEnds cs o ↔
    ∃ as c bs, cs = as ++ c :: bs ∧ endsLine c bs = true ∧ as.length + 1 = o := by
  constructor
  · rintro ⟨before, brk, after, rfl, hbrk, rfl, halone⟩
    have hsingle : ∀ c, brk = [c] → endsLine c after = true → ∃ as d bs, before ++ brk ++ after = as ++ d :: bs ∧
        endsLine d bs = true ∧ as.length + 1 = before.length + brk.length := by
      rintro c rfl hends
      exact ⟨before, c, after, by simp, hends, rfl⟩
    simp only [lineBreaks, List.mem_cons, List.not_mem_nil, or_false] at hbrk
    rcases hbrk with rfl | rfl | rfl | rfl | rfl | rfl | rfl | rfl
    -- Of carriage return and line feed it is the line feed that ends the line.
    case inr.inl => exact ⟨before ++ ['\r'], '\n', after, by simp, rfl, by simp⟩
    case inr.inr.inl => exact hsingle _ rfl (endsLine_iff.mpr (.inr ⟨rfl, fun hfeed => halone ⟨rfl, hfeed⟩⟩))
    all_goals exact hsingle _ rfl (endsLine_iff.mpr (.inl (by decide)))
  · rintro ⟨as, c, bs, rfl, hends, rfl⟩
    refine ⟨as, [c], bs, by simp, ?_, rfl, ?_⟩
    · rcases endsLine_iff.mp hends with hc | ⟨rfl, -⟩
      · simp only [List.mem_cons, List.not_mem_nil, or_false] at hc
        rcases hc with rfl | rfl | rfl | rfl | rfl | rfl <;> decide
      · decide
    · rintro ⟨hreturn, hfeed⟩
      rcases endsLine_iff.mp hends with hc | ⟨-, hother⟩
      · rw [List.cons.inj hreturn |>.1] at hc
        exact absurd hc (by decide)
      · exact hother hfeed

lemma breakEnds_succ_iff (h : c < cs.length) : BreakEnds cs (c + 1) ↔ endsLine cs[c] (cs.drop (c + 1)) = true := by
  rw [breakEnds_iff]
  constructor
  · rintro ⟨as, d, bs, rfl, hends, hlength⟩
    obtain rfl : as.length = c := by omega
    simpa using hends
  · intro hends
    refine ⟨cs.take c, cs[c], cs.drop (c + 1), ?_, hends, ?_⟩
    · rw [List.cons_getElem_drop_succ, List.take_append_drop]
    · rw [List.length_take, Nat.min_eq_left h.le]

lemma BreakEnds.pos (h : BreakEnds cs o) : 0 < o := by
  obtain ⟨as, c, bs, -, -, rfl⟩ := breakEnds_iff.mp h
  exact Nat.succ_pos _

lemma BreakEnds.le_length (h : BreakEnds cs o) : o ≤ cs.length := by
  obtain ⟨as, c, bs, rfl, -, rfl⟩ := breakEnds_iff.mp h
  simp

lemma finite_breaks (cs : List Char) (c : Nat) : {o | BreakEnds cs o ∧ o ≤ c}.Finite :=
  (Set.finite_le_nat c).subset fun _ ho => ho.2

lemma breaksUpTo_mono (h : c ≤ c') : breaksUpTo cs c ≤ breaksUpTo cs c' :=
  Set.ncard_le_ncard (fun _ ho => ⟨ho.1, ho.2.trans h⟩) (finite_breaks cs c')

lemma BreakEnds.breaksUpTo_lt (h : BreakEnds cs o) (hlt : c < o) : breaksUpTo cs c < breaksUpTo cs o := by
  refine Set.ncard_lt_ncard ⟨fun _ ho => ⟨ho.1, ho.2.trans hlt.le⟩, fun hsub => ?_⟩ (finite_breaks cs o)
  exact absurd (hsub ⟨h, Nat.le_refl o⟩).2 (Nat.not_le.mpr hlt)

lemma breaks_succ_of_ends (h : BreakEnds cs (c + 1)) :
    {o | BreakEnds cs o ∧ o ≤ c + 1} = insert (c + 1) {o | BreakEnds cs o ∧ o ≤ c} := by
  ext o
  constructor
  · rintro ⟨ho, hle⟩
    rcases Nat.le_succ_iff.mp hle with hle | rfl
    · exact .inr ⟨ho, hle⟩
    · exact .inl rfl
  · rintro (rfl | ⟨ho, hle⟩)
    · exact ⟨h, Nat.le_refl _⟩
    · exact ⟨ho, Nat.le_succ_of_le hle⟩

lemma breaks_eq (hle : c ≤ c') (h : ∀ o, BreakEnds cs o → c < o → c' < o) :
    {o | BreakEnds cs o ∧ o ≤ c'} = {o | BreakEnds cs o ∧ o ≤ c} := by
  ext o
  constructor
  · rintro ⟨ho, hle'⟩
    exact ⟨ho, Nat.not_lt.mp fun hlt => absurd (h o ho hlt) (Nat.not_lt.mpr hle')⟩
  · rintro ⟨ho, hle'⟩
    exact ⟨ho, hle'.trans hle⟩

lemma LineBegins.breaksUpTo_eq_zero (h : LineBegins cs c 0) : breaksUpTo cs c = 0 := by
  have hnone : ∀ o, BreakEnds cs o → c < o := by
    rcases h with ⟨-, hnone⟩ | hgreatest
    · exact hnone
    · exact absurd hgreatest.1.1.pos (Nat.lt_irrefl 0)
  have hempty : {o | BreakEnds cs o ∧ o ≤ c} = ∅ :=
    Set.eq_empty_of_forall_notMem fun o ho => absurd (hnone o ho.1) (Nat.not_lt.mpr ho.2)
  rw [breaksUpTo, hempty, Set.ncard_empty]

lemma LineBegins.breaksUpTo_eq (h : LineBegins cs c start) (hstart : 0 < start) :
    BreakEnds cs start ∧ breaksUpTo cs c = breaksUpTo cs start := by
  rcases h with ⟨rfl, -⟩ | hgreatest
  · exact absurd hstart (Nat.lt_irrefl 0)
  · refine ⟨hgreatest.1.1, congrArg Set.ncard (breaks_eq hgreatest.1.2 fun o ho hlt => ?_)⟩
    exact Nat.not_le.mp fun hle => absurd (hgreatest.2 ⟨ho, hle⟩) (Nat.not_le.mpr hlt)

end

namespace LineIndex

section
variable {cs : List Char} {c n : Nat} {p : CharPosition}

lemma advance_succ (h : n < cs.length) : advance p (n + 1) cs = if endsLine cs[n] (cs.drop (n + 1)) then
    ⟨(advance p n cs).row + 1, 0⟩ else ⟨(advance p n cs).row, (advance p n cs).column + 1⟩ := by
  induction n generalizing p cs with
  | zero =>
    cases cs with
    | nil => cases h
    | cons c cs => rfl
  | succ n ih =>
    cases cs with
    | nil => cases h
    | cons c cs =>
      rw [advance, ih (Nat.lt_of_succ_lt_succ h)]
      rfl

lemma advance_of_le (h : cs.length ≤ n) : advance p n cs = advance p cs.length cs := by
  induction cs generalizing p n with
  | nil => cases n <;> rfl
  | cons c cs ih =>
    cases n with
    | zero => cases h
    | succ n =>
      rw [List.length_cons, advance, advance]
      exact ih (Nat.le_of_succ_le_succ h)

/-- The row counts the breaks, and the column what has been passed since the last of them. -/
lemma position_spec (h : c ≤ cs.length) : (position ⟨cs⟩ c).row = breaksUpTo cs c ∧
    ∃ start, LineBegins cs c start ∧ start + (position ⟨cs⟩ c).column = c := by
  induction c with
  | zero =>
    have hnone : {o | BreakEnds cs o ∧ o ≤ 0} = ∅ :=
      Set.eq_empty_of_forall_notMem fun o ho => absurd ho.1.pos (Nat.not_lt.mpr ho.2)
    rw [position, advance, breaksUpTo, hnone, Set.ncard_empty]
    exact ⟨rfl, 0, .inl ⟨rfl, fun o ho => ho.pos⟩, rfl⟩
  | succ c ih =>
    obtain ⟨hrow, start, hstart, hcolumn⟩ := ih (Nat.le_of_succ_le h)
    have hnext : position ⟨cs⟩ (c + 1) = if endsLine cs[c] (cs.drop (c + 1)) then ⟨(position ⟨cs⟩ c).row + 1, 0⟩ else
      ⟨(position ⟨cs⟩ c).row, (position ⟨cs⟩ c).column + 1⟩ := advance_succ h
    rw [hnext]
    by_cases hends : endsLine cs[c] (cs.drop (c + 1)) = true
    · have hbreak := (breakEnds_succ_iff h).mpr hends
      rw [if_pos hends, breaksUpTo, breaks_succ_of_ends hbreak,
        Set.ncard_insert_of_notMem (fun hmem => absurd hmem.2 (by omega)) (finite_breaks cs c), hrow]
      exact ⟨rfl, c + 1, .inr ⟨⟨hbreak, Nat.le_refl _⟩, fun o ho => ho.2⟩, rfl⟩
    · have hnone (o : Nat) (ho : BreakEnds cs o) (hlt : c < o) : c + 1 < o := by
        refine lt_of_le_of_ne hlt fun heq => hends ?_
        subst heq
        exact (breakEnds_succ_iff h).mp ho
      have hsame := breaks_eq (Nat.le_succ c) hnone
      rw [if_neg hends, breaksUpTo, hsame]
      refine ⟨hrow, start, ?_, by dsimp only; omega⟩
      rw [LineBegins, hsame]
      exact hstart.imp_left fun hfirst => ⟨hfirst.1, fun o ho => hnone o ho (hfirst.2 o ho)⟩

lemma position_of_le (h : cs.length ≤ c) : position ⟨cs⟩ c = position ⟨cs⟩ cs.length :=
  advance_of_le h

lemma position_min (cs : List Char) (c : Nat) : position ⟨cs⟩ c = position ⟨cs⟩ (min c cs.length) := by
  rcases Nat.le_total c cs.length with h | h
  · rw [Nat.min_eq_left h]
  · rw [Nat.min_eq_right h, position_of_le h]

lemma breaks_min (cs : List Char) (c : Nat) :
    {o | BreakEnds cs o ∧ o ≤ c} = {o | BreakEnds cs o ∧ o ≤ min c cs.length} := by
  ext o
  exact and_congr_right fun ho => (by have hle := ho.le_length; omega)

end

/-- Offsets in bytes, offsets in characters and positions of a text are converted into each other. -/
structure Converts (i : LineIndex) (cs : List Char) : Prop where
  charOffset_mono : Monotone i.charOffset
  byteOffset_mono : Monotone i.byteOffset
  /-- Past the end of the text an offset stands for the end. -/
  charOffset_end : ∀ b, byteLength cs ≤ b → i.charOffset b = cs.length
  byteOffset_end : ∀ c, cs.length ≤ c → i.byteOffset c = byteLength cs
  charOffset_byteOffset : ∀ c ≤ cs.length, i.charOffset (i.byteOffset c) = c
  /-- An offset in bytes is rounded down to a boundary. -/
  byteOffset_charOffset : ∀ b ≤ byteLength cs,
    IsGreatest {o | IsBoundary cs o ∧ o ≤ b} (i.byteOffset (i.charOffset b))
  row_mono : Monotone fun c => (i.position c).row
  row_eq : ∀ c, (i.position c).row = breaksUpTo cs c
  /-- The column is the number of characters behind the last of them. -/
  column_eq : ∀ c, ∃ start, LineBegins cs c start ∧ start + (i.position c).column = min c cs.length

lemma converts (cs : List Char) : Converts ⟨cs⟩ cs := by
  have hrow (c : Nat) : (position ⟨cs⟩ c).row = breaksUpTo cs c := by
    rw [position_min, (position_spec (Nat.min_le_right c cs.length)).1, breaksUpTo, breaksUpTo, breaks_min cs c]
  constructor
  case charOffset_mono => exact fun b b' => charsBefore_mono
  case byteOffset_mono => exact fun c c' => byteOffset_mono
  case charOffset_end => exact fun b => charsBefore_of_le
  case byteOffset_end => exact fun c h => congrArg byteLength (List.take_of_length_le h)
  case charOffset_byteOffset => exact fun c => charsBefore_byteOffset
  case byteOffset_charOffset => exact fun b _ => isGreatest_byteOffset cs b
  case row_mono =>
    intro c c' h
    dsimp only
    rw [hrow, hrow]
    exact breaksUpTo_mono h
  case row_eq => exact hrow
  case column_eq =>
    intro c
    obtain ⟨-, start, hstart, hcolumn⟩ := position_spec (Nat.min_le_right c cs.length)
    refine ⟨start, ?_, by rw [position_min, hcolumn]⟩
    rw [LineBegins, breaks_min]
    exact hstart.imp_left fun hfirst => ⟨hfirst.1, fun o ho => by
      have hlt := hfirst.2 o ho
      have hle := ho.le_length
      omega⟩

end LineIndex

/-! ## Ropes -/

namespace Rope

/-- What a rope over a text is known to answer. -/
structure Over (r : Rope) (cs : List Char) : Prop where
  byteCount_eq : r.byteCount = byteLength cs
  charCount_eq : r.charCount = cs.length
  /-- A character has as many bytes as its encoding, and each belongs to it. -/
  charOfByte : ∀ before c after, cs = before ++ c :: after → ∀ k < c.utf8Size,
    r.charOfByte? (byteLength before + k) = some before.length
  charOfByte_end : r.charOfByte? (byteLength cs) = some cs.length
  byteOfChar : ∀ before after, cs = before ++ after → r.byteOfChar? before.length = some (byteLength before)
  /-- Lines are counted by the breaks in front of a character. -/
  lineOfChar : ∀ c ≤ cs.length, r.lineOfChar? c = some (breaksUpTo cs c)
  charOfLine_zero : r.charOfLine? 0 = some 0
  charOfLine : ∀ o, BreakEnds cs o → r.charOfLine? (breaksUpTo cs o) = some o

section
variable {r : Rope} {cs : List Char}

lemma Over.charOffset?_eq (h : r.Over cs) (b : Nat) : r.charOffset? b = some (LineIndex.charOffset ⟨cs⟩ b) := by
  rw [charOffset?, h.byteCount_eq, LineIndex.charOffset]
  by_cases hend : byteLength cs ≤ b
  · rw [Nat.min_eq_right hend, h.charOfByte_end, LineIndex.charsBefore_of_le hend]
  · obtain ⟨before, after, rfl, hcount, hle, hhead⟩ := LineIndex.exists_charsBefore cs b
    rw [Nat.min_eq_left (Nat.le_of_not_le hend), hcount]
    cases after with
    | nil => simp [hle] at hend
    | cons c after =>
      have hlt := hhead c rfl
      have hbyte := h.charOfByte before c after rfl (b - byteLength before) (by omega)
      rwa [Nat.add_sub_cancel' hle] at hbyte

lemma Over.byteOffset?_eq (h : r.Over cs) (c : Nat) : r.byteOffset? c = some (LineIndex.byteOffset ⟨cs⟩ c) := by
  have hchar := h.byteOfChar (cs.take c) (cs.drop c) (List.take_append_drop c cs).symm
  rwa [List.length_take, ← h.charCount_eq] at hchar

lemma Over.position?_eq (h : r.Over cs) (c : Nat) : r.position? c = some (LineIndex.position ⟨cs⟩ c) := by
  obtain ⟨hrow, start, hstart, hcolumn⟩ := LineIndex.position_spec (Nat.min_le_right c cs.length)
  have hline : r.charOfLine? (breaksUpTo cs (min c cs.length)) = some start := by
    rcases Nat.eq_zero_or_pos start with rfl | hpos
    · rw [hstart.breaksUpTo_eq_zero, h.charOfLine_zero]
    · obtain ⟨hbreak, heq⟩ := hstart.breaksUpTo_eq hpos
      rw [heq, h.charOfLine start hbreak]
  have hsub : checkedSub (min c cs.length) start = some (LineIndex.position ⟨cs⟩ (min c cs.length)).column := by
    rw [checkedSub, if_pos (by omega)]
    exact congrArg some (by omega)
  simp only [position?, h.charCount_eq, h.lineOfChar _ (Nat.min_le_right c cs.length), Option.bind_eq_bind,
    Option.bind_some, hline, hsub]
  rw [LineIndex.position_min cs c, ← hrow]
  rfl

end

end Rope

namespace LineIndex

def rope (i : LineIndex) : Rope where
  byteCount := byteLength i.chars
  charCount := i.chars.length
  charOfByte? b := if b ≤ byteLength i.chars then some (i.charOffset b) else none
  byteOfChar? c := if c ≤ i.chars.length then some (i.byteOffset c) else none
  lineOfChar? c := if c ≤ i.chars.length then some (i.position c).row else none
  charOfLine? row := (List.range (i.chars.length + 1)).find? fun c => (i.position c).row = row

lemma rope_over (cs : List Char) : (rope ⟨cs⟩).Over cs := by
  have hrow := (converts cs).row_eq
  constructor
  case byteCount_eq => rfl
  case charCount_eq => rfl
  case charOfByte =>
    rintro before c after rfl k hk
    have hle : byteLength before + k ≤ byteLength (before ++ c :: after) := by
      rw [byteLength_append, byteLength_cons]
      omega
    exact (if_pos hle).trans (congrArg some (charsBefore_within before c after hk))
  case charOfByte_end => exact (if_pos (Nat.le_refl _)).trans (congrArg some (charsBefore_of_le (Nat.le_refl _)))
  case byteOfChar =>
    rintro before after rfl
    exact (if_pos (by simp)).trans (congrArg some (byteOffset_length before after))
  case lineOfChar => exact fun c hc => (if_pos hc).trans (congrArg some (hrow c))
  case charOfLine_zero =>
    refine List.find?_range_eq_some.mpr ⟨?_, by simp, fun c hc => absurd hc (Nat.not_lt_zero c)⟩
    exact decide_eq_true rfl
  case charOfLine =>
    intro o ho
    refine List.find?_range_eq_some.mpr ⟨?_, ?_, fun c hc => ?_⟩
    · exact decide_eq_true (hrow o)
    · exact List.mem_range.mpr (Nat.lt_succ_of_le ho.le_length)
    · have hlt := ho.breaksUpTo_lt hc
      rw [← hrow] at hlt
      simpa using hlt.ne

/-- The conversions between bytes, characters and positions of a text do what they should for offsets of any size, and so
does every rope over the text that is asked with offsets cut off at its ends. There is such a rope. -/
theorem ofText_converts (text : String) : (ofText text).Converts text.toList ∧
    (∃ r : Rope, r.Over text.toList) ∧ ∀ r : Rope, r.Over text.toList → ∀ n,
      r.charOffset? n = some ((ofText text).charOffset n) ∧ r.byteOffset? n = some ((ofText text).byteOffset n) ∧
        r.position? n = some ((ofText text).position n) :=
  ⟨converts _, ⟨_, rope_over _⟩, fun _ hr n => ⟨hr.charOffset?_eq n, hr.byteOffset?_eq n, hr.position?_eq n⟩⟩

/-- No line ends between carriage return and line feed. An offset inside of a character is rounded down, and one past
the end is cut off. -/
theorem ofText_converts_between : ∃ r : Rope, r.Over "a\r\né".toList ∧ r.position? 2 = some ⟨0, 2⟩ ∧
    r.position? 3 = some ⟨1, 0⟩ ∧ r.charOffset? 4 = some 3 ∧ r.byteOffset? 9 = some 5 := by
  obtain ⟨-, ⟨r, hr⟩, hanswers⟩ := ofText_converts "a\r\né"
  exact ⟨r, hr, (hanswers r hr 2).2.2.trans (by decide), (hanswers r hr 3).2.2.trans (by decide),
    (hanswers r hr 4).1.trans (by decide), (hanswers r hr 9).2.1.trans (by decide)⟩

end LineIndex

end RenpyScript
