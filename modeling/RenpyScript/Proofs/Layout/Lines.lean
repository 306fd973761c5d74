import RenpyScript.Proofs.Text.Boundary

/-!
# Logical lines tile a text

Every character of a text belongs to one logical line: to its indentation, to its content, to the
spaces behind the content, or to its terminator. `Tiles pos row cs ls` says this of a text that
begins at offset `pos` in row `row`.
-/

namespace RenpyScript

def isIndentation (c : Char) : Bool :=
  c = ' ' || c = '\t' || c = '\x0c'

lemma isBlank_of_isIndentation {c : Char} (h : isIndentation c = true) : isBlank c = true := by
  simp only [isIndentation, Bool.or_eq_true, decide_eq_true_eq] at h
  rcases h with (rfl | rfl) | rfl <;> decide

lemma measureIndent_snd (width : Nat) (cs : List Char) :
    (measureIndent width cs).2 = cs.dropWhile isIndentation := by
  induction cs generalizing width with
  | nil => rfl
  | cons c cs ih =>
    rw [measureIndent]
    split
    · next h => simp [ih, isIndentation, h]
    split
    · next h => simp [ih, isIndentation, h]
    split
    · next h => simp [ih, isIndentation, h]
    · next h₁ h₂ h₃ => simp [isIndentation, h₁, h₂, h₃]

namespace LineScan

lemma splitLine_snd (s : LineScan) (cs : List Char) :
    (s.splitLine cs).2 = [] ∨ ∃ rest, (s.splitLine cs).2 = '\n' :: rest := by
  induction cs generalizing s with
  | nil => exact Or.inl rfl
  | cons c cs ih =>
    rw [splitLine]
    split
    · next h =>
      simp only [endsAt, Bool.and_eq_true, decide_eq_true_eq] at h
      exact Or.inr ⟨cs, by rw [h.1.1.2]⟩
    · exact ih (s.next c cs)

end LineScan

/-- The parts of a logical line that begins at offset `pos` in row `row`. -/
structure LineAt (pos row : Nat) (l : LogicalLine) (before spaces terminator : List Char) : Prop where
  onlyIndentation : OnlyGap isIndentation before
  onlyPadding : OnlyGap isLinePadding spaces
  terminator_eq : terminator = [] ∨ terminator = ['\n']
  nonempty : before ++ l.content ++ spaces ++ terminator ≠ []
  start_eq : l.start = pos + byteLength before
  lineEnd_eq : l.lineEnd = l.start + byteLength (l.content ++ spaces ++ terminator)
  row_eq : l.row = row

/-- The lines take up the whole text, each beginning where the line before it ends. -/
inductive Tiles : Nat → Nat → List Char → List LogicalLine → Prop
  | nil (pos row : Nat) : Tiles pos row [] []
  | cons {pos row : Nat} {l : LogicalLine} {ls : List LogicalLine}
      {before spaces terminator rest : List Char} (line : LineAt pos row l before spaces terminator)
      (last : terminator = [] → rest = [])
      (tiles : Tiles l.lineEnd (row + (l.content ++ spaces ++ terminator).count '\n') rest ls) :
      Tiles pos row (before ++ l.content ++ spaces ++ terminator ++ rest) (l :: ls)

section
variable {pos row : Nat} {cs : List Char} {l : LogicalLine} {ls : List LogicalLine}

lemma LineAt.lineEnd_eq_add {before spaces terminator : List Char}
    (h : LineAt pos row l before spaces terminator) :
    l.lineEnd = pos + byteLength (before ++ l.content ++ spaces ++ terminator) := by
  rw [h.lineEnd_eq, h.start_eq]
  simp only [byteLength_append]
  omega

lemma Tiles.lineEnd_gt (h : Tiles pos row cs ls) (hl : l ∈ ls) : pos < l.lineEnd := by
  induction h with
  | nil => simp at hl
  | cons line last tiles ih =>
    have hpos := byteLength_pos line.nonempty
    have hend := line.lineEnd_eq_add
    rcases List.mem_cons.mp hl with rfl | hl
    · omega
    · have hgt := ih hl
      omega

lemma Tiles.start_ge (h : Tiles pos row cs ls) (hl : l ∈ ls) : pos ≤ l.start := by
  induction h with
  | nil => simp at hl
  | cons line last tiles ih =>
    have hstart := line.start_eq
    have hend := line.lineEnd_eq
    rcases List.mem_cons.mp hl with rfl | hl
    · omega
    · have hge := ih hl
      omega

lemma Tiles.start_lt (h : Tiles pos row cs ls) (hl : l ∈ ls) (hcontent : l.content ≠ []) :
    l.start < pos + byteLength cs := by
  induction h with
  | nil => simp at hl
  | cons line last tiles ih =>
    have hend := line.lineEnd_eq_add
    rw [byteLength_append, ← Nat.add_assoc, ← hend]
    rcases List.mem_cons.mp hl with rfl | hl
    · have hpos := byteLength_pos hcontent
      have hlineEnd := line.lineEnd_eq
      simp only [byteLength_append] at hlineEnd
      omega
    · exact ih hl

lemma Tiles.lineEnd_singleton (h : Tiles pos row cs [l]) : l.lineEnd = pos + byteLength cs := by
  cases h with
  | cons line last tiles =>
    cases tiles
    rw [List.append_nil, line.lineEnd_eq_add]

end

namespace LogicalLine

/-- The first line of a text that is not empty. -/
def first (pos row : Nat) (cs : List Char) : LogicalLine :=
  let indent := measureIndent 0 cs
  let parts := LineScan.initial.splitLine indent.2
  let start := pos + byteLength cs - byteLength indent.2
  ⟨indent.1, start, trimEnd isLinePadding parts.1,
    start + byteLength parts.1 + byteLength (parts.2.take 1), row⟩

/-- The first line of a text without its indentation and its terminator. -/
def firstBody (cs : List Char) : List Char :=
  (LineScan.initial.splitLine (measureIndent 0 cs).2).1

/-- What follows the body of the first line: its terminator and the other lines. -/
def afterFirst (cs : List Char) : List Char :=
  (LineScan.initial.splitLine (measureIndent 0 cs).2).2

lemma scanFrom_eq (pos row : Nat) {cs : List Char} (h : cs ≠ []) :
    scanFrom pos row cs = first pos row cs ::
      scanFrom (first pos row cs).lineEnd
        (row + (firstBody cs ++ (afterFirst cs).take 1).count '\n') ((afterFirst cs).drop 1) := by
  cases cs with
  | nil => exact absurd rfl h
  | cons c cs => rw [scanFrom]; rfl

lemma first_split (cs : List Char) :
    cs = cs.takeWhile isIndentation ++ firstBody cs ++ (afterFirst cs).take 1 ++ (afterFirst cs).drop 1 := by
  have hbody := LineScan.initial.splitLine_append (measureIndent 0 cs).2
  rw [measureIndent_snd] at hbody
  rw [List.append_assoc, List.take_append_drop, List.append_assoc, firstBody, afterFirst,
    measureIndent_snd, hbody, List.takeWhile_append_dropWhile]

lemma first_start (pos row : Nat) (cs : List Char) :
    (first pos row cs).start = pos + byteLength (cs.takeWhile isIndentation) := by
  have hsplit : byteLength cs =
      byteLength (cs.takeWhile isIndentation) + byteLength (cs.dropWhile isIndentation) := by
    rw [← byteLength_append, List.takeWhile_append_dropWhile]
  simp only [first, measureIndent_snd]
  omega

lemma drop_afterFirst {cs : List Char} (h : (afterFirst cs).take 1 = []) : (afterFirst cs).drop 1 = [] := by
  rcases hr : afterFirst cs with _ | ⟨c, rest⟩
  · rfl
  · simp [hr] at h

lemma first_ne_nil {cs : List Char} (h : cs ≠ []) :
    cs.takeWhile isIndentation ++ firstBody cs ++ (afterFirst cs).take 1 ≠ [] := by
  intro hnil
  have hsplit := first_split cs
  rw [hnil, drop_afterFirst (List.append_eq_nil_iff.mp hnil).2] at hsplit
  exact h (by simpa using hsplit)

lemma take_afterFirst (cs : List Char) :
    (afterFirst cs).take 1 = [] ∨ (afterFirst cs).take 1 = ['\n'] := by
  rcases LineScan.splitLine_snd .initial (measureIndent 0 cs).2 with h | ⟨rest, h⟩
  · exact Or.inl (by rw [afterFirst, h]; rfl)
  · exact Or.inr (by rw [afterFirst, h]; rfl)

lemma first_lineEnd (pos row : Nat) (cs : List Char) : (first pos row cs).lineEnd =
    (first pos row cs).start + byteLength (firstBody cs ++ (afterFirst cs).take 1) := by
  rw [byteLength_append, ← Nat.add_assoc]
  rfl

theorem scanFrom_tiles (pos row : Nat) (cs : List Char) : Tiles pos row cs (scanFrom pos row cs) := by
  induction hn : cs.length using Nat.strong_induction_on generalizing pos row cs with
  | _ n ih =>
    by_cases hcs : cs = []
    · subst hcs
      rw [scanFrom]
      exact .nil pos row
    · obtain ⟨spaces, hbody, hspaces⟩ := trimEnd_split isLinePadding (firstBody cs)
      change firstBody cs = (first pos row cs).content ++ spaces at hbody
      have hne := first_ne_nil hcs
      have hline : LineAt pos row (first pos row cs) (cs.takeWhile isIndentation) spaces
          ((afterFirst cs).take 1) := by
        refine ⟨takeWhile_onlyGap _ cs, hspaces, take_afterFirst cs, ?_, first_start pos row cs, ?_, rfl⟩
        · rwa [hbody, ← List.append_assoc] at hne
        · rw [first_lineEnd, hbody]
      have hlt : ((afterFirst cs).drop 1).length < n := by
        have hlength := congrArg List.length (first_split cs)
        have hpos := List.length_pos_of_ne_nil hne
        rw [List.length_append] at hlength
        omega
      have htail := Tiles.cons hline drop_afterFirst (ih _ hlt _ _ _ rfl)
      rw [scanFrom_eq pos row hcs]
      have hsplit := first_split cs
      rw [hbody, ← List.append_assoc] at hsplit
      rw [← hsplit, ← hbody] at htail
      exact htail

/-- The lines of a document tile what follows a byte order mark. -/
theorem scan_tiles (cs : List Char) :
    ∃ mark rest, cs = mark ++ rest ∧ (mark = [] ∨ mark = ['\ufeff']) ∧
      Tiles (byteLength mark) 0 rest (scan cs) := by
  unfold scan
  split
  · next rest => exact ⟨['\ufeff'], rest, rfl, Or.inr rfl, scanFrom_tiles 3 0 rest⟩
  · next h => exact ⟨[], cs, rfl, Or.inl rfl, scanFrom_tiles 0 0 cs⟩

end LogicalLine

end RenpyScript
