import RenpyScript.Proofs.Layout.Lines

/-!
# Seams between logical lines

Where one logical line of a text ends, the text can be cut: the lines of the whole are the lines of
the two parts. The splitter looks two characters ahead, for tripled quotes, but a line feed that ends
a line is no quote, so it never looks across a seam.
-/

namespace RenpyScript

lemma beginsWithCopies_seam {c : Char} (hc : c ≠ '\n') (n : Nat) (xs ys zs : List Char) :
    beginsWithCopies n c (xs ++ '\n' :: ys) = beginsWithCopies n c (xs ++ '\n' :: zs) := by
  unfold beginsWithCopies
  induction n generalizing xs with
  | zero => rfl
  | succ n ih =>
    cases xs with
    | nil => simp [List.replicate_succ, Ne.symm hc]
    | cons x xs =>
      have hxs := ih xs
      rw [decide_eq_decide] at hxs ⊢
      simp only [List.cons_append, List.take_succ_cons, List.replicate_succ, List.cons.injEq, hxs]

namespace LineScan

def Sound (s : LineScan) : Prop :=
  ∀ q, s.context = .tripled q → isQuote q = true

lemma initial_sound : initial.Sound := by
  intro q hq
  simp [initial] at hq

lemma afterCode_sound (depth : Nat) (c : Char) (following : List Char) :
    (afterCode depth c following).Sound := by
  intro q hq
  unfold afterCode at hq
  split_ifs at hq with hash hquote hcopies
  obtain rfl : c = q := by simpa using hq
  exact hquote

lemma next_sound {s : LineScan} (h : s.Sound) (c : Char) (following : List Char) :
    (s.next c following).Sound := by
  intro q hq
  unfold next at hq
  split at hq
  · exact h q hq
  split at hq
  · exact afterCode_sound s.depth c following q hq
  · split_ifs at hq
    exact h q hq
  · split_ifs at hq
    · exact h q hq
    · exact h q hq
  · split_ifs at hq
    · exact h q hq
    · exact h q hq

lemma isQuote_ne {c : Char} (h : isQuote c = true) : c ≠ '\n' := by
  rintro rfl
  simp [isQuote] at h

lemma next_seam {s : LineScan} (h : s.Sound) (c : Char) (xs ys zs : List Char) :
    s.next c (xs ++ '\n' :: ys) = s.next c (xs ++ '\n' :: zs) := by
  unfold next
  split
  · rfl
  · split
    · unfold afterCode
      split
      · rfl
      · split
        · next hquote => rw [beginsWithCopies_seam (isQuote_ne hquote) 2 xs ys zs]
        · rfl
    · rfl
    · rfl
    · next q hcontext =>
      by_cases hc : c = q
      · rw [beginsWithCopies_seam (hc ▸ isQuote_ne (h q hcontext)) 2 xs ys zs]
      · simp [hc]

lemma splitLine_seam {s : LineScan} (h : s.Sound) {xs ys : List Char}
    (hsplit : (s.splitLine (xs ++ '\n' :: ys)).1 = xs) (zs : List Char) :
    s.splitLine (xs ++ '\n' :: zs) = (xs, '\n' :: zs) := by
  induction xs generalizing s with
  | nil =>
    rw [List.nil_append, splitLine] at hsplit ⊢
    by_cases hends : s.endsAt '\n' = true
    · rw [if_pos hends]
    · rw [if_neg hends] at hsplit
      simp at hsplit
  | cons x xs ih =>
    rw [List.cons_append, splitLine] at hsplit ⊢
    by_cases hends : s.endsAt x = true
    · rw [if_pos hends] at hsplit
      simp at hsplit
    · rw [if_neg hends] at hsplit ⊢
      rw [List.cons.injEq] at hsplit
      rw [next_seam h x xs zs ys, ih (next_sound h _ _) hsplit.2]

end LineScan

/-! ## Texts of whole lines -/

lemma measureIndent_seam (width : Nat) (xs ys : List Char) : measureIndent width (xs ++ '\n' :: ys) =
    ((measureIndent width xs).1, (measureIndent width xs).2 ++ '\n' :: ys) := by
  induction xs generalizing width with
  | nil => simp [measureIndent]
  | cons x xs ih =>
    rw [List.cons_append, measureIndent, measureIndent]
    split_ifs
    · exact ih _
    · exact ih _
    · exact ih _
    · rfl

lemma measureIndent_length (width : Nat) (xs : List Char) :
    byteLength xs = byteLength (xs.takeWhile isIndentation) + byteLength (measureIndent width xs).2 := by
  rw [measureIndent_snd, ← byteLength_append, List.takeWhile_append_dropWhile]

lemma measureIndent_count (width : Nat) (xs : List Char) :
    (measureIndent width xs).2.count '\n' = xs.count '\n' := by
  have hindent : (xs.takeWhile isIndentation).count '\n' = 0 := by
    rw [List.count_eq_zero]
    intro hmem
    exact absurd (takeWhile_onlyGap isIndentation xs '\n' hmem) (by decide)
  have hsplit := congrArg (List.count '\n') (List.takeWhile_append_dropWhile (p := isIndentation) (l := xs))
  rw [List.count_append, hindent, Nat.zero_add] at hsplit
  rw [measureIndent_snd, hsplit]

namespace LogicalLine

/-- A line feed behind `xs` ends a logical line, whatever follows. -/
def EndsLine (xs : List Char) : Prop :=
  ∀ ys, LineScan.initial.splitLine ((measureIndent 0 xs).2 ++ '\n' :: ys) = ((measureIndent 0 xs).2, '\n' :: ys)

/-- The text consists of lines with their line feeds. -/
inductive WholeLines : List Char → Prop
  | nil : WholeLines []
  | cons {xs cs : List Char} (line : EndsLine xs) (lines : WholeLines cs) : WholeLines (xs ++ '\n' :: cs)

/-- The logical line with the text `xs` in front of its line feed. -/
def ofText (pos row : Nat) (xs : List Char) : LogicalLine :=
  ⟨(measureIndent 0 xs).1, pos + byteLength (xs.takeWhile isIndentation),
    trimEnd isLinePadding (measureIndent 0 xs).2, pos + byteLength (xs ++ ['\n']), row⟩

lemma scanFrom_endsLine {xs : List Char} (h : EndsLine xs) (pos row : Nat) (ys : List Char) :
    scanFrom pos row (xs ++ '\n' :: ys) = ofText pos row xs ::
      scanFrom (pos + byteLength (xs ++ ['\n'])) (row + (xs ++ ['\n']).count '\n') ys := by
  have hlength := measureIndent_length 0 xs
  have hbody : firstBody (xs ++ '\n' :: ys) = (measureIndent 0 xs).2 := by
    rw [firstBody, measureIndent_seam, h ys]
  have hafter : afterFirst (xs ++ '\n' :: ys) = '\n' :: ys := by
    rw [afterFirst, measureIndent_seam, h ys]
  have hfirst : first pos row (xs ++ '\n' :: ys) = ofText pos row xs := by
    simp only [first, measureIndent_seam, h ys, ofText, byteLength_append, byteLength_cons, LogicalLine.mk.injEq,
      List.take_succ_cons, List.take_zero, byteLength_nil, true_and, and_true]
    omega
  rw [scanFrom_eq pos row (by simp), hfirst, hbody, hafter, List.take_succ_cons, List.take_zero,
    List.drop_succ_cons, List.drop_zero, List.count_append, List.count_append, measureIndent_count]
  rfl

lemma exists_endsLine {cs : List Char} (h : cs ≠ []) :
    (∀ pos row, scanFrom pos row cs = [first pos row cs]) ∨ ∃ xs ys, cs = xs ++ '\n' :: ys ∧ EndsLine xs := by
  rcases take_afterFirst cs with hnone | hfeed
  · left
    intro pos row
    rw [scanFrom_eq pos row h, drop_afterFirst hnone, scanFrom]
  · right
    have hsplit := first_split cs
    rw [hfeed, List.append_assoc _ ['\n']] at hsplit
    refine ⟨cs.takeWhile isIndentation ++ firstBody cs, (afterFirst cs).drop 1, hsplit, ?_⟩
    have hafter : afterFirst cs = '\n' :: (afterFirst cs).drop 1 := by
      rw [← List.singleton_append, ← hfeed, List.take_append_drop]
    have hrest := LineScan.initial.splitLine_append (measureIndent 0 cs).2
    rw [← firstBody, ← afterFirst, hafter] at hrest
    have hindent := measureIndent_seam 0 (cs.takeWhile isIndentation ++ firstBody cs) ((afterFirst cs).drop 1)
    have hbody : (measureIndent 0 (cs.takeWhile isIndentation ++ firstBody cs)).2 = firstBody cs := by
      rw [← List.singleton_append, ← hsplit] at hindent
      rw [hindent] at hrest
      exact (List.append_cancel_right hrest).symm
    have hends : (LineScan.initial.splitLine (firstBody cs ++ '\n' :: (afterFirst cs).drop 1)).1 =
        firstBody cs := by
      rw [hrest]
      rfl
    intro zs
    rw [hbody]
    exact LineScan.splitLine_seam LineScan.initial_sound hends zs

/-- Up to the end of one of its logical lines a text consists of whole lines, if more follows. -/
theorem wholeLines_of_lineEnd {pos row : Nat} {as bs : List Char} {l : LogicalLine} (hbs : bs ≠ [])
    (hl : l ∈ scanFrom pos row (as ++ bs)) (hend : l.lineEnd = pos + byteLength as) : WholeLines as := by
  induction hn : as.length using Nat.strong_induction_on generalizing pos row as with
  | _ n ih =>
    have hne : as ++ bs ≠ [] := by simp [hbs]
    rcases exists_endsLine hne with hone | ⟨xs, ys, hsplit, hline⟩
    · have htiles := scanFrom_tiles pos row (as ++ bs)
      rw [hone] at hl htiles
      obtain rfl := List.mem_singleton.mp hl
      have hlast := htiles.lineEnd_singleton
      have hpos := byteLength_pos hbs
      rw [byteLength_append] at hlast
      omega
    · have hseam : xs ++ ['\n'] ++ ys = as ++ bs := by
        rw [hsplit, List.append_assoc, List.singleton_append]
      rw [hsplit, scanFrom_endsLine hline, List.mem_cons] at hl
      -- The cut is behind the first line, or else in it: then that line ends at the cut.
      rcases List.append_eq_append_iff.mp hseam with ⟨us, rfl, rfl⟩ | ⟨us, hus, -⟩
      · rw [List.append_assoc, List.singleton_append]
        apply WholeLines.cons hline
        by_cases hus : us = []
        · rw [hus]
          exact .nil
        · have hpos := byteLength_pos hus
          rw [byteLength_append] at hend
          rcases hl with rfl | hl
          · simp only [ofText] at hend
            omega
          · apply ih us.length _ hl _ rfl
            · rw [← hn, List.length_append, List.length_append, List.length_singleton]
              omega
            · rw [hend, Nat.add_assoc]
      · have hlength := congrArg byteLength hus
        rw [byteLength_append as us] at hlength
        rcases hl with rfl | hl
        · simp only [ofText] at hend
          have hnil : us = [] := by
            by_contra hne
            have hpos := byteLength_pos hne
            omega
          rw [hnil, List.append_nil] at hus
          rw [← hus]
          exact .cons hline .nil
        · have hgt := (scanFrom_tiles _ _ ys).lineEnd_gt hl
          omega

lemma WholeLines.eq_nil_or_concat {cs : List Char} (h : WholeLines cs) : cs = [] ∨ ∃ xs, cs = xs ++ ['\n'] := by
  induction h with
  | nil => exact Or.inl rfl
  | @cons xs cs line lines ih =>
    right
    rcases ih with rfl | ⟨ys, rfl⟩
    · exact ⟨xs, rfl⟩
    · exact ⟨xs ++ '\n' :: ys, by simp⟩

/-- The lines behind whole lines are those of the text behind them. -/
theorem WholeLines.scanFrom_append {as : List Char} (h : WholeLines as) (pos row : Nat) (bs : List Char) :
    scanFrom pos row (as ++ bs) =
      scanFrom pos row as ++ scanFrom (pos + byteLength as) (row + as.count '\n') bs := by
  induction h generalizing pos row with
  | nil =>
    rw [scanFrom.eq_1]
    rfl
  | @cons xs cs line lines ih =>
    have hseam : xs ++ '\n' :: cs = xs ++ ['\n'] ++ cs := by rw [List.append_assoc, List.singleton_append]
    have hpos : pos + byteLength (xs ++ ['\n']) + byteLength cs = pos + byteLength (xs ++ '\n' :: cs) := by
      rw [hseam, byteLength_append (xs ++ ['\n']), Nat.add_assoc]
    have hrow : row + (xs ++ ['\n']).count '\n' + cs.count '\n' = row + (xs ++ '\n' :: cs).count '\n' := by
      rw [Nat.add_assoc, ← List.count_append, ← hseam]
    rw [List.append_assoc, List.cons_append, scanFrom_endsLine line, scanFrom_endsLine line, ih, hpos, hrow,
      List.cons_append]

/-- The line further to the right and further down. -/
def shift (k rows : Nat) (l : LogicalLine) : LogicalLine :=
  { l with start := l.start + k, lineEnd := l.lineEnd + k, row := l.row + rows }

lemma first_shift (k rows pos row : Nat) (cs : List Char) :
    first (pos + k) (row + rows) cs = (first pos row cs).shift k rows := by
  have hle : byteLength (measureIndent 0 cs).2 ≤ byteLength cs := by
    have hlength := measureIndent_length 0 cs
    omega
  simp only [first, shift, LogicalLine.mk.injEq, true_and, and_true]
  omega

theorem scanFrom_shift (k rows pos row : Nat) (cs : List Char) :
    scanFrom (pos + k) (row + rows) cs = (scanFrom pos row cs).map (shift k rows) := by
  induction hn : cs.length using Nat.strong_induction_on generalizing pos row cs with
  | _ n ih =>
    by_cases hcs : cs = []
    · subst hcs
      rw [scanFrom, scanFrom, List.map_nil]
    · have hlt : ((afterFirst cs).drop 1).length < n := by
        have hlength := congrArg List.length (first_split cs)
        have hpos := List.length_pos_of_ne_nil (first_ne_nil hcs)
        rw [List.length_append] at hlength
        omega
      have htail := ih _ hlt (first pos row cs).lineEnd
        (row + (firstBody cs ++ (afterFirst cs).take 1).count '\n') _ rfl
      rw [scanFrom_eq _ _ hcs, scanFrom_eq _ _ hcs, first_shift, List.map_cons, ← htail, Nat.add_right_comm row]
      rfl

lemma scan_unmarked {cs : List Char} (h : cs.head? ≠ some '\ufeff') : scan cs = scanFrom 0 0 cs := by
  unfold scan
  split
  · simp at h
  · rfl

lemma wholeLines_split {pos row : Nat} {as bs : List Char} {l : LogicalLine} (hbs : bs ≠ [])
    (hl : l ∈ scanFrom pos row (as ++ bs)) (hend : l.lineEnd = pos + byteLength as) :
    scanFrom pos row (as ++ bs) =
        scanFrom pos row as ++ scanFrom (pos + byteLength as) (row + as.count '\n') bs ∧
      ∃ xs, as = xs ++ ['\n'] := by
  have hlines := wholeLines_of_lineEnd hbs hl hend
  refine ⟨hlines.scanFrom_append pos row bs, hlines.eq_nil_or_concat.resolve_left ?_⟩
  rintro rfl
  have hgt := (scanFrom_tiles pos row ([] ++ bs)).lineEnd_gt hl
  rw [byteLength_nil] at hend
  omega

/-- The lines of a document in two parts, the first of which ends where a line ends. -/
theorem scan_append {as bs : List Char} {l : LogicalLine} (hmark : bs.head? ≠ some '\ufeff') (hbs : bs ≠ [])
    (hl : l ∈ scan (as ++ bs)) (hend : l.lineEnd = byteLength as) :
    scan (as ++ bs) = scan as ++ (scan bs).map (shift (byteLength as) (as.count '\n')) ∧
      ∃ xs, as = xs ++ ['\n'] := by
  have hshift := scanFrom_shift (byteLength as) (as.count '\n') 0 0 bs
  rw [Nat.zero_add, Nat.zero_add] at hshift
  rw [scan_unmarked hmark, ← hshift]
  by_cases has : as.head? = some '\ufeff'
  · obtain ⟨as, rfl⟩ := List.head?_eq_some_iff.mp has
    have hlength : byteLength ('\ufeff' :: as) = 3 + byteLength as := rfl
    have hcount : ('\ufeff' :: as).count '\n' = as.count '\n' := List.count_cons_of_ne (by decide)
    have hl : l ∈ scanFrom 3 0 (as ++ bs) := hl
    obtain ⟨hsplit, xs, hxs⟩ := wholeLines_split hbs hl (hend.trans hlength)
    rw [Nat.zero_add] at hsplit
    rw [hlength, hcount]
    exact ⟨hsplit, '\ufeff' :: xs, by rw [hxs, List.cons_append]⟩
  · have hunmarked : (as ++ bs).head? ≠ some '\ufeff' := by
      cases as with
      | nil => exact hmark
      | cons a as => exact has
    rw [scan_unmarked hunmarked] at hl ⊢
    rw [scan_unmarked has]
    have hsplit := wholeLines_split hbs hl (by rw [hend, Nat.zero_add])
    rwa [Nat.zero_add, Nat.zero_add] at hsplit

end LogicalLine

end RenpyScript
