import Mathlib.Order.Monotone.Defs
import RenpyScript.Proofs.Text.Points
import RenpyScript.Text.LineIndex

/-!
# Rows

The row of an offset is the number of line feeds in front of it. A line index ends lines at other characters as
well, so its rows run ahead of the physical ones by the number of these.
-/

namespace RenpyScript

/-! ## Physical rows -/

namespace LineTable
variable (before after : List Char)

lemma starts_takeWhile : (ofText (before ++ after)).starts.takeWhile (· ≤ byteLength before) =
    0 :: startsAfterBreaks 0 before := by
  have hsplit : (ofText (before ++ after)).starts =
      0 :: startsAfterBreaks 0 before ++ startsAfterBreaks (byteLength before) after := by
    rw [ofText, startsAfterBreaks_append, Nat.zero_add, List.cons_append]
  have hbehind (s : Nat) (hs : s ∈ startsAfterBreaks (byteLength before) after) :
      decide (s ≤ byteLength before) = false := by
    have hgt := (mem_startsAfterBreaks hs).1
    simpa using hgt
  have hbefore (s : Nat) (hs : s ∈ 0 :: startsAfterBreaks 0 before) : decide (s ≤ byteLength before) = true := by
    rw [decide_eq_true_eq]
    rcases List.mem_cons.mp hs with rfl | hs
    · exact Nat.zero_le _
    · simpa using (mem_startsAfterBreaks hs).2
  rw [hsplit, takeWhile_append_left hbehind, List.takeWhile_eq_self_iff.mpr hbefore]

/-- The row of an offset is the number of line feeds in front of it. -/
theorem point_row : ((ofText (before ++ after)).point (byteLength before)).row = before.count '\n' := by
  rw [point, starts_takeWhile, List.length_cons, Nat.add_sub_cancel, length_startsAfterBreaks]

lemma monotone_row (t : LineTable) : Monotone fun offset => (t.point offset).row := by
  intro a b hle
  have hsub : (t.starts.takeWhile (· ≤ a)).length ≤ (t.starts.takeWhile (· ≤ b)).length := by
    induction t.starts with
    | nil => exact Nat.le_refl 0
    | cons s ss ih =>
      by_cases ha : s ≤ a
      · simp [ha, ha.trans hle, ih]
      · simp [ha]
  exact Nat.sub_le_sub_right hsub 1

lemma row_lt_row {a b : Nat} (ha : a ≤ byteLength before) (hb : byteLength before < b) :
    ((ofText (before ++ '\n' :: after)).point a).row < ((ofText (before ++ '\n' :: after)).point b).row := by
  have hfront := monotone_row (ofText (before ++ '\n' :: after)) ha
  have hbehind := monotone_row (ofText (before ++ ['\n'] ++ after)) (show byteLength (before ++ ['\n']) ≤ b by
    rw [byteLength_append, show byteLength ['\n'] = 1 by decide]
    omega)
  dsimp only at hfront hbehind
  rw [point_row] at hfront
  rw [point_row, List.append_assoc, List.singleton_append, List.count_append, List.count_singleton_self] at hbehind
  omega

end LineTable

/-! ## Rows of a line index -/

namespace LineIndex

/-- Whether a line of the index ends with a character that is no line feed. -/
def endsOtherLine (c : Char) (following : List Char) : Bool :=
  endsLine c following && c != '\n'

/-- How many lines of the index end in `before` with another character than a line feed; `after` follows. -/
def otherBreaks : List Char → List Char → Nat
  | [], _ => 0
  | c :: cs, after => (if endsOtherLine c (cs ++ after) then 1 else 0) + otherBreaks cs after

/-- The characters that end a line of the index but no physical one. A carriage return in front of a line feed is
a part of that line's end. -/
lemma endsOtherLine_iff {c : Char} {following : List Char} : endsOtherLine c following = true ↔
    c ∈ ['\x0b', '\x0c', '\u0085', '\u2028', '\u2029'] ∨ c = '\r' ∧ following.head? ≠ some '\n' := by
  have hrange : ('\n' ≤ c ∧ c ≤ '\x0c') ∧ c ≠ '\n' ↔ c = '\x0b' ∨ c = '\x0c' := by
    simp only [Char.le_def, UInt32.le_iff_toNat_le, Char.ext_iff, ← UInt32.toNat_inj, ne_eq]
    change (10 ≤ c.val.toNat ∧ c.val.toNat ≤ 12) ∧ ¬c.val.toNat = 10 ↔ c.val.toNat = 11 ∨ c.val.toNat = 12
    omega
  by_cases hreturn : c = '\r'
  · subst hreturn
    simp [endsOtherLine, endsLine]
  · by_cases hfeed : c = '\n'
    · subst hfeed
      simp [endsOtherLine]
    · simp only [endsOtherLine, endsLine, hreturn, hfeed, if_false, Bool.and_eq_true, Bool.or_eq_true, decide_eq_true_eq,
        bne_iff_ne, List.mem_cons, List.not_mem_nil, ne_eq, not_false_eq_true, and_true, or_false, false_and]
      rw [← or_assoc (a := c = '\x0b'), ← hrange]
      tauto

variable {p : CharPosition} {before after : List Char}

lemma advance_row : (advance p before.length (before ++ after)).row =
    p.row + before.count '\n' + otherBreaks before after := by
  induction before generalizing p with
  | nil => simp [advance, otherBreaks]
  | cons c cs ih =>
    rw [List.length_cons, List.cons_append, advance, ih, otherBreaks, List.count_cons]
    by_cases hfeed : c = '\n'
    · subst hfeed
      simp [endsOtherLine, endsLine]
      omega
    · by_cases hends : endsLine c (cs ++ after) = true
      · simp [endsOtherLine, hends, hfeed]
        omega
      · simp [endsOtherLine, hends, hfeed]

/-- The row of a line index is ahead of the physical row by the other line ends. -/
theorem position_row (before after : List Char) : (position ⟨before ++ after⟩ before.length).row =
    before.count '\n' + otherBreaks before after := by
  rw [position, advance_row, Nat.zero_add]

lemma otherBreaks_eq_zero_iff : otherBreaks before after = 0 ↔
    ∀ as c bs, before = as ++ c :: bs → endsOtherLine c (bs ++ after) = false := by
  induction before with
  | nil => simp [otherBreaks]
  | cons c cs ih =>
    rw [otherBreaks, Nat.add_eq_zero_iff, ih]
    constructor
    · rintro ⟨hc, hcs⟩ as d bs hsplit
      cases as with
      | nil =>
        obtain ⟨rfl, rfl⟩ := List.cons.inj hsplit
        simpa using hc
      | cons a as =>
        obtain ⟨-, rfl⟩ := List.cons.inj hsplit
        exact hcs as d bs rfl
    · intro h
      refine ⟨?_, fun as d bs hsplit => h (c :: as) d bs (by rw [hsplit, List.cons_append])⟩
      rw [h [] c cs rfl]
      rfl

end LineIndex

end RenpyScript
