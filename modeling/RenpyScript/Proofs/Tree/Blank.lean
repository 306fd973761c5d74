import RenpyScript.Proofs.Outline.Alignment
import RenpyScript.Proofs.Outline.Kept

/-!
# Blank lines

The splitter takes a line for blank if nothing but indentation and padding is in it; the readers of tokens pass
over more characters than that. The two agree on every line whose content does not begin with one of the
characters that only the readers pass over: such a line has a token in the tree, or it does nothing to the tree.
-/

namespace RenpyScript

namespace LogicalLine
variable {cs : List Char} {l : LogicalLine} {c : Char}

lemma splitLine_head (cs : List Char) (h : (LineScan.initial.splitLine cs).1.head? = some c) :
    cs.head? = some c ∧ c ≠ '\n' := by
  cases cs with
  | nil => cases h
  | cons d ds =>
    rw [LineScan.splitLine] at h
    split at h
    · cases h
    · next hends =>
      obtain rfl : d = c := Option.some.inj h
      refine ⟨rfl, ?_⟩
      rintro rfl
      exact hends rfl

lemma first_content_head (pos row : Nat) (h : (first pos row cs).content.head? = some c) :
    isIndentation c = false ∧ c ≠ '\n' := by
  have hbody : (firstBody cs).head? = some c := by
    obtain ⟨dropped, hsplit, -⟩ := trimEnd_split isLinePadding (firstBody cs)
    rw [hsplit, List.head?_append]
    change (trimEnd isLinePadding (firstBody cs)).head? = some c at h
    rw [h, Option.some_or]
  obtain ⟨hhead, hfeed⟩ := splitLine_head _ hbody
  refine ⟨?_, hfeed⟩
  rw [measureIndent_snd, ← List.find?_not_eq_head?_dropWhile] at hhead
  simpa using List.find?_some hhead

lemma content_head_of_mem_scanFrom {pos row : Nat} (hl : l ∈ scanFrom pos row cs) (h : l.content.head? = some c) :
    isIndentation c = false ∧ c ≠ '\n' := by
  induction hn : cs.length using Nat.strong_induction_on generalizing pos row cs with
  | _ n ih =>
    by_cases hcs : cs = []
    · subst hcs
      rw [scanFrom] at hl
      cases hl
    · rw [scanFrom_eq pos row hcs] at hl
      rcases List.mem_cons.mp hl with rfl | hl
      · exact first_content_head pos row h
      · refine ih _ ?_ hl rfl
        have hlength := congrArg List.length (first_split cs)
        have hpos := List.length_pos_of_ne_nil (first_ne_nil hcs)
        rw [List.length_append] at hlength
        omega

lemma content_head_of_mem_scan (hl : l ∈ scan cs) (h : l.content.head? = some c) :
    isIndentation c = false ∧ c ≠ '\n' := by
  unfold scan at hl
  split at hl
  · exact content_head_of_mem_scanFrom hl h
  · exact content_head_of_mem_scanFrom hl h

/-- Characters that readers of tokens pass over, but that belong neither to indentation nor to line ends. -/
def hiddenBlanks : List Char :=
  ['\r', '\ufeff', '\u2060', '\u200b']

lemma mem_hiddenBlanks (hl : l ∈ scan cs) (h : l.content.head? = some c) (hblank : isBlank c = true) :
    c ∈ hiddenBlanks := by
  obtain ⟨hindentation, hfeed⟩ := content_head_of_mem_scan hl h
  simp only [isIndentation, Bool.or_eq_false_iff, decide_eq_false_iff_not] at hindentation
  simp only [isBlank, Bool.or_eq_true, decide_eq_true_eq] at hblank
  simp only [hiddenBlanks, List.mem_cons, List.not_mem_nil, or_false]
  tauto

lemma peek?_unread (h : ∀ c, l.content.head? = some c → isBlank c = false) : l.unread.peek? = l.content.head? := by
  rw [Unread.peek?, Unread.skipBlanks_rest, unread]
  cases hcontent : l.content with
  | nil => rfl
  | cons c cs =>
    have hc : ¬isBlank c = true := by
      rw [h c (by rw [hcontent]; rfl)]
      exact Bool.false_ne_true
    rw [List.dropWhile_cons_of_neg hc]

lemma kind_eq_comment_iff : l.kind = .comment ↔ l.content.head? = some '#' := by
  unfold kind
  cases l.content with
  | nil => simp
  | cons c cs =>
    by_cases hc : c = '#'
    · subst hc
      simp
    · simp [hc]

/-- The splitter and the readers of tokens disagree on those lines only that begin with a hidden blank and have
nothing else, or a comment, behind blanks. -/
lemma kind_iff (hl : l ∈ scan cs)
    (hhidden : (∃ c ∈ hiddenBlanks, l.content.head? = some c) → l.unread.atLineEnd = false) :
    (l.kind = .blank ↔ l.unread.peek? = none) ∧ (l.kind = .comment ↔ l.unread.peek? = some '#') := by
  rw [kind_eq_blank_iff, kind_eq_comment_iff, ← List.head?_eq_none_iff]
  by_cases hstart : ∃ c ∈ hiddenBlanks, l.content.head? = some c
  · have hend := hhidden hstart
    obtain ⟨c, hc, hhead⟩ := hstart
    have hne : c ≠ '#' := by
      rintro rfl
      exact absurd hc (by decide)
    rw [Unread.atLineEnd, Bool.or_eq_false_iff, decide_eq_false_iff_not, decide_eq_false_iff_not] at hend
    simp [hhead, hend, hne]
  · rw [peek?_unread]
    · exact ⟨Iff.rfl, Iff.rfl⟩
    · intro c hc
      by_contra hblank
      exact hstart ⟨c, mem_hiddenBlanks hl hc (by simpa using hblank), hc⟩

end LogicalLine

namespace Tree

/-- The splitter and the readers of tokens agree on what is blank and what is a comment, but for lines that begin
with a blank of the readers only and have no token but a comment. So the first token of every line of code is in the
tree, and a line without tokens changes nothing, in particular it opens and closes no block. -/
theorem parse_blank_lines (text : String) {l : LogicalLine} (hl : l ∈ LogicalLine.scan text.toList)
    (hhidden : (∃ c ∈ LogicalLine.hiddenBlanks, l.content.head? = some c) → l.unread.atLineEnd = false) :
    (l.kind = .blank ↔ l.unread.peek? = none) ∧
    (l.kind = .comment ↔ l.unread.peek? = some '#') ∧
    (l.kind = .code → ∃ n ∈ Node.preorderAll (parse text).root.children, n.children = [] ∧ n.missing = false ∧
      n.span.start = l.unread.skipBlanks.pos ∧ n.span.start < n.span.stop ∧ n.span.stop ≤ l.span.stop) ∧
    (l.unread.peek? = none → ∀ (o : Outline) (rest : List LogicalLine), o.step l rest = o) := by
  obtain ⟨hblank, hcomment⟩ := LogicalLine.kind_iff hl hhidden
  refine ⟨hblank, hcomment, fun hcode => ?_, fun hnone o rest => Outline.step_blank (hblank.mpr hnone)⟩
  have hpeek : l.unread.peek? ≠ none := by
    rw [Ne, ← hblank, hcode]
    decide
  obtain ⟨c, hc⟩ := Option.ne_none_iff_exists'.mp hpeek
  obtain ⟨n, hn, htoken⟩ := Outline.firstToken_mem_itemsOf hl hcode hc
  exact ⟨n, hn, htoken.children, htoken.missing, htoken.start, htoken.nonempty, htoken.stop_le⟩

/-- A line of code with a carriage return in front. -/
theorem parse_blank_lines_return : ∃ l ∈ LogicalLine.scan "\rlabel a:\n".toList, l.content.head? = some '\r' ∧
    ∃ n ∈ Node.preorderAll (parse "\rlabel a:\n").root.children, n.children = [] ∧ n.missing = false ∧
      n.span.start = 1 ∧ n.span.start < n.span.stop ∧ n.span.stop ≤ l.span.stop := by
  have hl : (⟨0, 0, "\rlabel a:".toList, 10, 0⟩ : LogicalLine) ∈ LogicalLine.scan "\rlabel a:\n".toList := by
    decide +kernel
  obtain ⟨-, -, htoken, -⟩ := parse_blank_lines "\rlabel a:\n" hl (fun _ => by decide +kernel)
  exact ⟨_, hl, by decide, htoken (by decide)⟩

/-- A line with nothing but a zero-width space behind its indentation is a line of code without tokens, and it opens a
block. -/
theorem parse_blank_lines_zeroWidth : ∃ l ∈ LogicalLine.scan "    \u200b\n".toList, l.kind = .code ∧
    l.unread.peek? = none ∧ (parse "    \u200b\n").root.sexp = "(source_file (block))" := by
  decide +kernel

end Tree

end RenpyScript
