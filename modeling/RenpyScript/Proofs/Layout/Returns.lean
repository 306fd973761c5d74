import RenpyScript.Proofs.Layout.Seams
import RenpyScript.Proofs.Text.Returns

/-!
# Logical lines with carriage returns

The splitter passes over a carriage return in front of a line feed without a change of its state, unless
the two belong to an escape: then it is the carriage return that is escaped. Apart from this a text has
the same logical lines, whether its line feeds have carriage returns in front of them or not.
-/

namespace RenpyScript

namespace LineScan

/-- Strings are delimited by quotes, and none of the characters to pass over is a line feed. -/
structure Ready (s : LineScan) (cs : List Char) : Prop where
  quotes : ∀ q, s.context = .string q ∨ s.context = .tripled q → isQuote q = true
  skip : '\n' ∉ cs.take s.skip

lemma initial_ready (cs : List Char) : initial.Ready cs :=
  ⟨fun q hq => by simp [initial] at hq, by simp [initial]⟩

lemma isQuote_ne_return {c : Char} (h : isQuote c = true) : c ≠ '\r' := by
  rintro rfl
  simp [isQuote] at h

section
variable {s : LineScan} {c : Char} {cs cs' : List Char}

lemma not_mem_take_copies {n : Nat} (hquote : isQuote c = true) (hcopies : beginsWithCopies n c cs = true) :
    '\n' ∉ cs.take n := by
  have htake : cs.take n = List.replicate n c := of_decide_eq_true hcopies
  rw [htake, List.mem_replicate]
  exact fun h => isQuote_ne hquote h.2.symm

lemma afterCode_ready (depth : Nat) (c : Char) (cs : List Char) : (afterCode depth c cs).Ready cs := by
  unfold afterCode
  split
  · exact ⟨fun q hq => by simp at hq, by simp⟩
  split
  · next hquote =>
    split
    · next hcopies =>
      refine ⟨fun q hq => ?_, not_mem_take_copies hquote hcopies⟩
      obtain rfl : c = q := by simpa using hq
      exact hquote
    · refine ⟨fun q hq => ?_, by simp⟩
      obtain rfl : c = q := by simpa using hq
      exact hquote
  split
  · exact ⟨fun q hq => by simp at hq, by simp⟩
  split
  · exact ⟨fun q hq => by simp at hq, by simp⟩
  · exact ⟨fun q hq => by simp at hq, by simp⟩

lemma escape_ready (hs : s.Ready ('\\' :: cs))
    (hline : FeedsUnescaped ('\\' :: (splitLine { s with skip := 1 } cs).1)) :
    Ready { s with skip := 1 } cs := by
  refine ⟨hs.quotes, ?_⟩
  cases cs with
  | nil => simp
  | cons e cs =>
    intro hfeed
    obtain rfl : '\n' = e := by simpa using hfeed
    have hgoes : endsAt { s with skip := 1 } '\n' = false := by simp [endsAt]
    rw [splitLine, hgoes] at hline
    exact hline.ne_feed rfl

lemma next_ready (hs : s.Ready (c :: cs)) (hline : FeedsUnescaped (c :: ((s.next c cs).splitLine cs).1)) :
    (s.next c cs).Ready cs := by
  obtain ⟨context, depth, skip⟩ := s
  cases skip with
  | succ k =>
    have hmem := hs.skip
    rw [List.take_succ_cons, List.mem_cons, not_or] at hmem
    exact ⟨hs.quotes, hmem.2⟩
  | zero =>
    cases context with
    | code => exact afterCode_ready depth c cs
    | comment =>
      unfold next
      dsimp only
      split
      · exact ⟨fun q hq => by simp at hq, by simp⟩
      · exact ⟨hs.quotes, by simp⟩
    | string q =>
      by_cases hc : c = '\\'
      · subst hc
        exact escape_ready hs hline
      · simp only [next, if_neg hc]
        split
        · exact ⟨fun q hq => by simp at hq, by simp⟩
        · exact ⟨hs.quotes, by simp⟩
    | tripled q =>
      by_cases hc : c = '\\'
      · subst hc
        exact escape_ready hs hline
      · simp only [next, if_neg hc]
        split
        · next hcloses =>
          obtain ⟨hcq, hcopies⟩ : c = q ∧ beginsWithCopies 2 c cs = true := by simpa using hcloses
          have hquote := hs.quotes q (Or.inr rfl)
          exact ⟨fun q hq => by simp at hq, not_mem_take_copies (hcq ▸ hquote) hcopies⟩
        · exact ⟨hs.quotes, by simp⟩

/-- The splitter looks ahead for quotes only. -/
lemma next_returned (hs : s.Ready (c :: cs)) (h : Returned cs cs') : s.next c cs' = s.next c cs := by
  have hcopies : isQuote c = true → beginsWithCopies 2 c cs' = beginsWithCopies 2 c cs := fun hquote =>
    h.beginsWithCopies_eq (isQuote_ne hquote) (isQuote_ne_return hquote) 2
  obtain ⟨context, depth, skip⟩ := s
  cases skip with
  | succ k => rfl
  | zero =>
    cases context with
    | code =>
      simp only [next, afterCode]
      split
      · rfl
      split
      · next hquote => rw [hcopies hquote]
      · rfl
    | comment => rfl
    | string q => rfl
    | tripled q =>
      simp only [next]
      by_cases hc : c = q
      · rw [hcopies (hc ▸ hs.quotes q (Or.inr rfl))]
      · simp [hc]

lemma skip_eq_zero (hs : s.Ready ('\n' :: cs)) : s.skip = 0 := by
  by_contra hskip
  obtain ⟨k, hk⟩ := Nat.exists_eq_succ_of_ne_zero hskip
  have hmem := hs.skip
  rw [hk, List.take_succ_cons] at hmem
  exact hmem (List.mem_cons_self ..)

/-- A carriage return in front of a line feed leaves everything as it is. -/
lemma next_return (hs : s.Ready ('\n' :: cs)) (following : List Char) : s.next '\r' following = s := by
  have hskip := skip_eq_zero hs
  obtain ⟨context, depth, skip⟩ := s
  obtain rfl : skip = 0 := hskip
  cases context with
  | code => rfl
  | comment => rfl
  | string q =>
    have hq := isQuote_ne_return (hs.quotes q (Or.inl rfl))
    simp [next, Ne.symm hq]
  | tripled q =>
    have hq := isQuote_ne_return (hs.quotes q (Or.inr rfl))
    simp [next, Ne.symm hq]

/-- The line is the same but for carriage returns, one of which may stand at its end. -/
theorem splitLine_returned (h : Returned cs cs') (hs : s.Ready cs) (hline : FeedsUnescaped (s.splitLine cs).1) :
    ∃ line spaces, (s.splitLine cs').1 = line ++ spaces ∧ Returned (s.splitLine cs).1 line ∧
      OnlyGap isLinePadding spaces ∧ Returned (s.splitLine cs).2 (s.splitLine cs').2 := by
  induction h generalizing s with
  | nil => exact ⟨[], [], rfl, .nil, .nil, .nil⟩
  | @cons c cs cs' rest ih =>
    rw [splitLine] at hline ⊢
    rw [splitLine, next_returned hs rest]
    by_cases hends : s.endsAt c = true
    · rw [if_pos hends, if_pos hends]
      exact ⟨[], [], rfl, .nil, .nil, .cons c rest⟩
    · rw [if_neg hends] at hline ⊢
      rw [if_neg hends]
      obtain ⟨line, spaces, heq, hreturned, hspaces, hrest⟩ := ih (next_ready hs hline) hline.tail
      exact ⟨c :: line, spaces, congrArg (c :: ·) heq, .cons c hreturned, hspaces, hrest⟩
  | @feed cs cs' rest ih =>
    have hgoes : s.endsAt '\r' = false := by simp [endsAt]
    rw [splitLine] at hline ⊢
    rw [splitLine, hgoes, if_neg Bool.false_ne_true, next_return hs, splitLine, next_returned hs rest]
    by_cases hends : s.endsAt '\n' = true
    · rw [if_pos hends, if_pos hends]
      have hreturn : OnlyGap isLinePadding ['\r'] := by
        intro c hc
        obtain rfl := List.mem_singleton.mp hc
        rfl
      exact ⟨[], ['\r'], rfl, .nil, hreturn, .cons '\n' rest⟩
    · rw [if_neg hends] at hline ⊢
      rw [if_neg hends]
      obtain ⟨line, spaces, heq, hreturned, hspaces, hrest⟩ := ih (next_ready hs hline) hline.tail
      exact ⟨'\r' :: '\n' :: line, spaces, congrArg ('\r' :: '\n' :: ·) heq, .feed hreturned, hspaces, hrest⟩

end

end LineScan

namespace LogicalLine

/-- The same line with carriage returns in front of line feeds of its content, none of which is escaped. -/
structure Returned (l l' : LogicalLine) : Prop where
  indent : l'.indent = l.indent
  content : RenpyScript.Returned l.content l'.content
  unescaped : FeedsUnescaped l.content

section
variable {cs cs' : List Char}

lemma measureIndent_returned (width : Nat) (h : RenpyScript.Returned cs cs') :
    (measureIndent width cs').1 = (measureIndent width cs).1 := by
  induction h generalizing width with
  | nil => rfl
  | cons c rest ih =>
    rw [measureIndent, measureIndent]
    split
    · exact ih _
    split
    · exact ih _
    split
    · exact ih _
    · rfl
  | feed rest ih => simp [measureIndent]

lemma drop_returned (h : RenpyScript.Returned (afterFirst cs) (afterFirst cs')) :
    RenpyScript.Returned ((afterFirst cs).drop 1) ((afterFirst cs').drop 1) := by
  rcases LineScan.splitLine_snd .initial (measureIndent 0 cs').2 with hafter | ⟨rest', hafter⟩
  · change afterFirst cs' = [] at hafter
    rw [hafter] at h ⊢
    rw [h.eq_nil_iff.mp rfl]
    exact .nil
  · change afterFirst cs' = '\n' :: rest' at hafter
    rw [hafter] at h ⊢
    generalize afterFirst cs = after at h ⊢
    cases h with
    | cons c rest => exact rest

theorem scanFrom_returned (h : RenpyScript.Returned cs cs') (pos row pos' row' : Nat)
    (hlines : ∀ l ∈ scanFrom pos row cs, FeedsUnescaped l.content) :
    List.Forall₂ Returned (scanFrom pos row cs) (scanFrom pos' row' cs') := by
  induction hn : cs.length using Nat.strong_induction_on generalizing cs cs' pos row pos' row' with
  | _ n ih =>
    by_cases hcs : cs = []
    · rw [hcs, h.eq_nil_iff.mpr hcs, scanFrom, scanFrom]
      exact .nil
    · rw [scanFrom_eq pos row hcs] at hlines ⊢
      rw [scanFrom_eq pos' row' (mt h.eq_nil_iff.mp hcs)]
      obtain ⟨hline, hlines⟩ := List.forall_mem_cons.mp hlines
      have hindent : RenpyScript.Returned (measureIndent 0 cs).2 (measureIndent 0 cs').2 := by
        rw [measureIndent_snd, measureIndent_snd]
        exact h.dropWhile rfl
      obtain ⟨line, spaces, heq, hreturned, hspaces, hrest⟩ := LineScan.splitLine_returned hindent
        (LineScan.initial_ready _) (FeedsUnescaped.of_trimEnd rfl hline)
      have hcontent : RenpyScript.Returned (first pos row cs).content (first pos' row' cs').content := by
        change RenpyScript.Returned _ (trimEnd isLinePadding (LineScan.initial.splitLine _).1)
        rw [heq, trimEnd_append_of_onlyGap hspaces]
        exact hreturned.trimEnd (by decide)
      have hlt : ((afterFirst cs).drop 1).length < n := by
        have hlength := congrArg List.length (first_split cs)
        have hpos := List.length_pos_of_ne_nil (first_ne_nil hcs)
        rw [List.length_append] at hlength
        omega
      exact .cons ⟨measureIndent_returned 0 h, hcontent, hline⟩
        (ih _ hlt (drop_returned hrest) _ _ _ _ hlines rfl)

/-- A document has the same lines with carriage returns and without, if no line feed is escaped. -/
theorem scan_returned (h : RenpyScript.Returned cs cs') (hlines : ∀ l ∈ scan cs, FeedsUnescaped l.content) :
    List.Forall₂ Returned (scan cs) (scan cs') := by
  by_cases hmark : cs.head? = some '\ufeff'
  · obtain ⟨cs, rfl⟩ := List.head?_eq_some_iff.mp hmark
    cases h with
    | cons c rest => exact scanFrom_returned rest 3 0 3 0 hlines
  · have hunmarked := mt (h.head?_eq_some_iff (by decide) (by decide)).mp hmark
    rw [scan_unmarked hmark] at hlines ⊢
    rw [scan_unmarked hunmarked]
    exact scanFrom_returned h 0 0 0 0 hlines

end

end LogicalLine

end RenpyScript
