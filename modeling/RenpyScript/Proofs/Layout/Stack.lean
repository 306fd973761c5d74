import Mathlib.Data.List.DropRight
import Mathlib.Order.Monotone.Basic
import RenpyScript.Layout.IndentStack

/-!
# Widths on an indent stack

What a dedent and a new block do to the widths on the stack. Both only compare widths, so a change of
widths that keeps their order makes no difference.
-/

namespace RenpyScript

namespace IndentStack

lemma drop_eq_dropWhile (p : Nat → Bool) (ws : List Nat) :
    ws.drop (ws.length - (ws.dropWhile p).length) = ws.dropWhile p :=
  (List.suffix_iff_eq_drop.mp (List.dropWhile_suffix p)).symm

lemma dedentTo_widths (s : IndentStack) (width : Nat) :
    (s.dedentTo width).2.widths = s.widths.dropWhile (width < ·) := rfl

lemma dedentTo_closed (s : IndentStack) (width : Nat) :
    (s.dedentTo width).1.closed = s.widths.length - (s.widths.dropWhile (width < ·)).length := by
  unfold dedentTo
  dsimp only
  split
  · rfl
  · rfl

lemma dedentTo_isInconsistent (s : IndentStack) (width : Nat) :
    (s.dedentTo width).1.isInconsistent = decide ((s.dedentTo width).2.current ≠ width) := by
  unfold dedentTo
  dsimp only
  split
  · next h => simp [h, Dedent.isInconsistent]
  · next h => simp [h, Dedent.isInconsistent]

lemma headD_dropWhile_le (width : Nat) (ws : List Nat) : (ws.dropWhile (width < ·)).headD 0 ≤ width := by
  induction ws with
  | nil => simp
  | cons w ws ih =>
    rw [List.dropWhile_cons]
    split
    · exact ih
    · next h => simpa using h

lemma headD_max {levels : List Nat} (h : (levels ++ [0]).Pairwise (· > ·)) {w : Nat} (hw : w ∈ levels ++ [0]) :
    w ≤ levels.headD 0 := by
  cases levels with
  | nil => simpa using hw
  | cons v levels =>
    rcases List.mem_cons.mp hw with rfl | hw
    · exact Nat.le_refl _
    · exact Nat.le_of_lt (List.rel_of_pairwise_cons h hw)

lemma dropWhile_eq_filter {α : Type*} {f : α → Nat} {xs : List α} {p : Nat → Bool}
    (hfalls : xs.Pairwise fun a b => f b < f a) (hp : ∀ a b, b < a → p b = true → p a = true) :
    xs.dropWhile (fun x => p (f x)) = xs.filter fun x => !p (f x) := by
  induction xs with
  | nil => rfl
  | cons x xs ih =>
    obtain ⟨hx, hfalls⟩ := List.pairwise_cons.mp hfalls
    rw [List.dropWhile_cons, List.filter_cons]
    by_cases hdropped : p (f x) = true
    · rw [if_pos hdropped, if_neg (by simp [hdropped]), ih hfalls]
    · have hkept : (xs.filter fun x => !p (f x)) = xs := by
        rw [List.filter_eq_self]
        intro y hy
        simpa using mt (hp (f x) (f y) (hx y hy)) hdropped
      rw [if_neg hdropped, if_pos (by simpa using hdropped), hkept]

lemma dropWhile_deeper {ws : List Nat} (h : ws.Pairwise (· > ·)) (width : Nat) :
    ws.dropWhile (width < ·) = ws.filter (· ≤ width) := by
  have hfilter : ws.dropWhile (width < ·) = ws.filter fun w => !decide (width < w) := by
    refine dropWhile_eq_filter (f := id) (p := (width < ·)) h fun a b hlt hb => ?_
    simp only [decide_eq_true_eq] at hb ⊢
    omega
  rw [hfilter]
  refine List.filter_congr fun w _ => ?_
  rw [← decide_not, decide_eq_decide]
  exact Nat.not_lt

lemma length_sub_filter (levels : List Nat) (width : Nat) :
    levels.length - (levels.filter (· ≤ width)).length = (levels.filter (width < ·)).length := by
  have hsum := List.length_eq_length_filter_add (l := levels) (· ≤ width)
  have hnot : levels.filter (fun w => !decide (w ≤ width)) = levels.filter (width < ·) := by
    refine List.filter_congr fun w _ => ?_
    rw [← decide_not, decide_eq_decide]
    exact Nat.not_le
  rw [hnot] at hsum
  omega

lemma push_widths (t : IndentStack) (width : Nat) :
    (t.push width).widths = if t.current < width then width :: t.widths else t.widths := by
  unfold push push?
  split
  · rfl
  · rfl

end IndentStack

/-- A change of widths that leaves the top level alone and keeps the order of the widths in `s`. -/
structure KeepsOrder (f : Nat → Nat) (s : Set Nat) : Prop where
  zero_mem : 0 ∈ s
  map_zero : f 0 = 0
  strictMonoOn : StrictMonoOn f s

namespace KeepsOrder
variable {f : Nat → Nat} {s : Set Nat} {a b : Nat}

lemma lt_iff (h : KeepsOrder f s) (ha : a ∈ s) (hb : b ∈ s) : f a < f b ↔ a < b :=
  h.strictMonoOn.lt_iff_lt ha hb

lemma le_iff (h : KeepsOrder f s) (ha : a ∈ s) (hb : b ∈ s) : f a ≤ f b ↔ a ≤ b :=
  h.strictMonoOn.le_iff_le ha hb

lemma eq_iff (h : KeepsOrder f s) (ha : a ∈ s) (hb : b ∈ s) : f a = f b ↔ a = b :=
  h.strictMonoOn.eq_iff_eq ha hb

lemma headD_map (h : KeepsOrder f s) (ws : List Nat) : (ws.map f).headD 0 = f (ws.headD 0) := by
  cases ws with
  | nil => exact h.map_zero.symm
  | cons w ws => rfl

lemma headD_mem (h : KeepsOrder f s) {ws : List Nat} (hws : ∀ w ∈ ws, w ∈ s) : ws.headD 0 ∈ s := by
  cases ws with
  | nil => exact h.zero_mem
  | cons w ws => exact hws w (by simp)

lemma dropWhile_map (h : KeepsOrder f s) {width : Nat} (hwidth : width ∈ s) {ws : List Nat}
    (hws : ∀ w ∈ ws, w ∈ s) :
    (ws.map f).dropWhile (f width < ·) = (ws.dropWhile (width < ·)).map f := by
  induction ws with
  | nil => rfl
  | cons w ws ih =>
    have hw : f width < f w ↔ width < w := h.lt_iff hwidth (hws w (by simp))
    rw [List.map_cons, List.dropWhile_cons, List.dropWhile_cons]
    by_cases hlt : width < w
    · rw [if_pos (by simpa using hw.mpr hlt), if_pos (by simpa using hlt)]
      exact ih fun v hv => hws v (List.mem_cons_of_mem w hv)
    · rw [if_neg (by simpa using fun hf => hlt (hw.mp hf)), if_neg (by simpa using hlt), List.map_cons]

variable {t t' : IndentStack} {width : Nat}

lemma dedentTo_widths (h : KeepsOrder f s) (ht : t'.widths = t.widths.map f) (hmem : ∀ w ∈ t.widths, w ∈ s)
    (hwidth : width ∈ s) :
    (t'.dedentTo (f width)).2.widths = (t.dedentTo width).2.widths.map f := by
  rw [IndentStack.dedentTo_widths, IndentStack.dedentTo_widths, ht, h.dropWhile_map hwidth hmem]

lemma dedentTo_closed (h : KeepsOrder f s) (ht : t'.widths = t.widths.map f) (hmem : ∀ w ∈ t.widths, w ∈ s)
    (hwidth : width ∈ s) : (t'.dedentTo (f width)).1.closed = (t.dedentTo width).1.closed := by
  rw [IndentStack.dedentTo_closed, IndentStack.dedentTo_closed, ht, h.dropWhile_map hwidth hmem, List.length_map,
    List.length_map]

lemma dedentTo_isInconsistent (h : KeepsOrder f s) (ht : t'.widths = t.widths.map f)
    (hmem : ∀ w ∈ t.widths, w ∈ s) (hwidth : width ∈ s) :
    (t'.dedentTo (f width)).1.isInconsistent = (t.dedentTo width).1.isInconsistent := by
  have hkept : ∀ w ∈ (t.dedentTo width).2.widths, w ∈ s :=
    fun w hw => hmem w ((List.dropWhile_suffix _).subset hw)
  rw [IndentStack.dedentTo_isInconsistent, IndentStack.dedentTo_isInconsistent, decide_eq_decide, IndentStack.current,
    h.dedentTo_widths ht hmem hwidth, h.headD_map]
  exact not_congr (h.eq_iff (h.headD_mem hkept) hwidth)

lemma push_widths_map (h : KeepsOrder f s) (ht : t'.widths = t.widths.map f) (hmem : ∀ w ∈ t.widths, w ∈ s)
    (hwidth : width ∈ s) : (t'.push (f width)).widths = (t.push width).widths.map f := by
  have hlt : t'.current < f width ↔ t.current < width := by
    rw [IndentStack.current, ht, h.headD_map]
    exact h.lt_iff (h.headD_mem hmem) hwidth
  rw [IndentStack.push_widths, IndentStack.push_widths]
  by_cases hdeeper : t.current < width
  · rw [if_pos hdeeper, if_pos (hlt.mpr hdeeper), ht, List.map_cons]
  · rw [if_neg hdeeper, if_neg (mt hlt.mp hdeeper), ht]

end KeepsOrder

end RenpyScript
