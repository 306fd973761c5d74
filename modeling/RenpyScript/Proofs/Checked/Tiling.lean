import RenpyScript.Proofs.Checked.Scan
import RenpyScript.Proofs.Outline.Steps

/-!
# Lines of bytes tile a text

The loops over the bytes of a text split it into lines and leave nothing out: a line begins where the line before it
ends, and the last one ends with the text. The offsets of a line lie between its indentation, its content and the white
space behind the content, always between two characters.
-/

namespace RenpyScript

/-- A line that begins at an offset of the text: indentation, the content, white space and at most one line feed. -/
structure ByteLine.FillsFrom (text : List Char) (offset : Nat) (l : ByteLine) : Prop where
  nonempty : offset < l.lineEnd
  start_ge : offset ≤ l.start
  stop_ge : l.start ≤ l.stop
  lineEnd_ge : l.stop ≤ l.lineEnd
  boundaries : ∀ i ∈ [offset, l.start, l.stop, l.lineEnd], IsBoundary text i
  indentation : ∃ before, slice text ⟨offset, l.start⟩ = some before ∧ OnlyGap isIndentation before
  padding : ∃ spaces terminator, slice text ⟨l.stop, l.lineEnd⟩ = some (spaces ++ terminator) ∧
    OnlyGap isLinePadding spaces ∧ (terminator = [] ∨ terminator = ['\n'])
  blank_iff : l.kind = .blank ↔ l.start = l.stop

/-- The lines are all of the text behind an offset: each begins where the one before it ends. -/
inductive ByteLine.TileFrom (text : List Char) : Nat → List ByteLine → Prop
  | nil {offset : Nat} (atEnd : offset = byteLength text) : TileFrom text offset []
  | cons {offset : Nat} {l : ByteLine} {ls : List ByteLine} (fills : l.FillsFrom text offset)
      (tile : TileFrom text l.lineEnd ls) : TileFrom text offset (l :: ls)

namespace ByteLine
variable {text : List Char} {offset : Nat} {ls : List ByteLine}

lemma TileFrom.lineEnd_last (h : TileFrom text offset ls) {l : ByteLine} (hl : ls.getLast? = some l) :
    l.lineEnd = byteLength text := by
  induction h with
  | nil => simp at hl
  | @cons offset m ms fills tile ih =>
    cases tile with
    | nil atEnd =>
      rw [List.getLast?_singleton, Option.some.injEq] at hl
      rwa [← hl]
    | cons => exact ih (by simpa using hl)

lemma TileFrom.eq_nil_iff (h : TileFrom text offset ls) : ls = [] ↔ offset = byteLength text := by
  cases h with
  | nil atEnd => simpa using atEnd
  | @cons _ m ms fills tile =>
    have hlt := fills.nonempty
    have hle := (fills.boundaries m.lineEnd (by simp)).le_byteLength
    constructor
    · intro hnil
      cases hnil
    · intro heq
      omega

end ByteLine

/-! ## From characters to offsets -/

lemma LogicalLine.raw_kind_eq_blank_iff (l : LogicalLine) : l.raw.kind = .blank ↔ l.raw.start = l.raw.stop := by
  have hstop : l.raw.stop = l.raw.start + byteLength l.content := rfl
  change l.kind = .blank ↔ _
  rw [kind_eq_blank_iff, ← byteLength_eq_zero_iff, hstop]
  omega

section
variable {pos row : Nat} {text as cs before spaces terminator rest : List Char} {l : LogicalLine}
  {ls : List LogicalLine}

/-- The parts of a line stand in the text between the line's offsets. -/
lemma LineAt.fillsFrom (h : LineAt pos row l before spaces terminator) (hpos : byteLength as = pos)
    (htext : text = as ++ (before ++ l.content ++ spaces ++ terminator ++ rest)) : l.raw.FillsFrom text pos := by
  have hstart : l.raw.start = byteLength (as ++ before) := by
    rw [byteLength_append, hpos]
    exact h.start_eq
  have hstop : l.raw.stop = byteLength (as ++ before ++ l.content) := by
    rw [byteLength_append, ← hstart]
    rfl
  have hend : l.raw.lineEnd = byteLength (as ++ before ++ l.content ++ (spaces ++ terminator)) := by
    have hlineEnd := h.lineEnd_eq_add
    simp only [byteLength_append] at hlineEnd ⊢
    rw [hpos]
    change l.lineEnd = _
    omega
  have hnonempty := byteLength_pos h.nonempty
  have hlineEnd := h.lineEnd_eq_add
  constructor
  case nonempty =>
    change pos < l.lineEnd
    omega
  case start_ge =>
    rw [hstart, byteLength_append]
    omega
  case stop_ge =>
    rw [hstart, hstop, byteLength_append _ l.content]
    omega
  case lineEnd_ge =>
    rw [hstop, hend, byteLength_append _ (spaces ++ terminator)]
    omega
  case boundaries =>
    intro i hi
    simp only [List.mem_cons, List.not_mem_nil, or_false] at hi
    rcases hi with rfl | rfl | rfl | rfl
    · rw [htext, ← hpos]
      exact isBoundary_append _ _
    · rw [htext, hstart]
      simpa using isBoundary_append (as ++ before) (l.content ++ (spaces ++ (terminator ++ rest)))
    · rw [htext, hstop]
      simpa using isBoundary_append (as ++ before ++ l.content) (spaces ++ (terminator ++ rest))
    · rw [htext, hend]
      simpa using isBoundary_append (as ++ before ++ l.content ++ (spaces ++ terminator)) rest
  case indentation =>
    refine ⟨before, ?_, h.onlyIndentation⟩
    have hslice := slice_append as before (l.content ++ spaces ++ terminator ++ rest)
    rw [Span.covering, ← byteLength_append, ← hstart, hpos] at hslice
    rw [htext, ← hslice]
    simp
  case padding =>
    refine ⟨spaces, terminator, ?_, h.onlyPadding, h.terminator_eq⟩
    have hslice := slice_append (as ++ before ++ l.content) (spaces ++ terminator) rest
    rw [Span.covering, ← byteLength_append, ← hend, ← hstop] at hslice
    rw [htext, ← hslice]
    simp
  case blank_iff => exact LogicalLine.raw_kind_eq_blank_iff l

lemma Tiles.tileFrom (as : List Char) (h : Tiles pos row cs ls) (hpos : byteLength as = pos) (htext : text = as ++ cs) :
    ByteLine.TileFrom text pos (ls.map LogicalLine.raw) := by
  induction h generalizing as with
  | nil =>
    apply ByteLine.TileFrom.nil
    rw [htext, List.append_nil, hpos]
  | @cons pos row l ls before spaces terminator rest line last tiles ih =>
    apply ByteLine.TileFrom.cons
    · exact line.fillsFrom hpos htext
    · apply ih (as ++ (before ++ l.content ++ spaces ++ terminator))
      · rw [byteLength_append, hpos, ← line.lineEnd_eq_add]
      · rw [htext, List.append_assoc as]

end

namespace LogicalLine

/-- Where the first line of a text begins: at zero, or behind a byte order mark there. -/
def origin (text : List Char) : Nat :=
  if text.head? = some '\ufeff' then byteLength ['\ufeff'] else 0

lemma origin_eq_byteLength_iff (text : List Char) : origin text = byteLength text ↔ text = [] ∨ text = ['\ufeff'] := by
  cases text with
  | nil => simp [origin]
  | cons c cs =>
    have hsize := Char.utf8Size_pos c
    by_cases hmark : c = '\ufeff'
    · simp [origin, hmark, byteLength_eq_zero_iff]
    · have hne : ¬0 = c.utf8Size + byteLength cs := by omega
      simp [origin, hmark, hne]

lemma scan_tileFrom (text : List Char) : ByteLine.TileFrom text (origin text) ((scan text).map raw) := by
  unfold origin
  by_cases hmark : text.head? = some '\ufeff'
  · obtain ⟨rest, rfl⟩ := List.head?_eq_some_iff.mp hmark
    rw [if_pos hmark]
    exact (scanFrom_tiles 3 0 rest).tileFrom ['\ufeff'] rfl rfl
  · rw [if_neg hmark, scan_unmarked hmark]
    exact (scanFrom_tiles 0 0 text).tileFrom [] rfl rfl

/-- On every text the loops over its bytes come to an end. The lines they find take up all of the text that follows a
byte order mark at its beginning, one line behind the other, and there are none only if nothing follows. -/
theorem byteScan_tiles (text : List Char) : ∃ lines, byteScan text = some lines ∧ lines = (scan text).map raw ∧
    ByteLine.TileFrom text (origin text) lines ∧ (∀ l, lines.getLast? = some l → l.lineEnd = byteLength text) ∧
    (lines = [] ↔ text = [] ∨ text = ['\ufeff']) := by
  have htile := scan_tileFrom text
  refine ⟨_, byteScan_eq text, rfl, htile, fun l hl => htile.lineEnd_last hl, ?_⟩
  rw [htile.eq_nil_iff, origin_eq_byteLength_iff]

end LogicalLine

end RenpyScript
