import RenpyScript.Proofs.Arena.Places
import RenpyScript.Proofs.Text.Rows

/-!
# Points count line feeds

The row of an offset is the number of line feeds in front of it, and its column is the number of bytes behind the last
of them. The search in the table of rows, the entries of nodes and the splitter of lines each have rows of their own,
and they are the same.
-/

namespace RenpyScript

def pointAmong (bytes : List UInt8) (i : Nat) : Point :=
  ⟨(bytes.take i).count '\n'.toUInt8, ((bytes.take i).reverse.takeWhile (· ≠ '\n'.toUInt8)).length⟩

/-- Points are ordered by their rows, and in a row by their columns. -/
def Point.Before (p q : Point) : Prop :=
  p.row < q.row ∨ p.row = q.row ∧ p.column < q.column

/-- The indices just past each line feed among bytes that begin at an index. -/
def behindFeeds : Nat → List UInt8 → List Nat
  | _, [] => []
  | i, b :: bs => if b = '\n'.toUInt8 then (i + 1) :: behindFeeds (i + 1) bs else behindFeeds (i + 1) bs

section
variable {i j pos : Nat} {bytes : List UInt8} {cs : List Char}

/-! ## Rows begin behind line feeds -/

lemma behindFeeds_append (pos : Nat) (as bs : List UInt8) :
    behindFeeds pos (as ++ bs) = behindFeeds pos as ++ behindFeeds (pos + as.length) bs := by
  induction as generalizing pos with
  | nil => rfl
  | cons a as ih =>
    rw [List.cons_append, behindFeeds, behindFeeds, ih, List.length_cons, Nat.add_right_comm pos, Nat.add_assoc pos]
    split
    · rw [List.cons_append]
    · rfl

lemma behindFeeds_eq_nil (h : '\n'.toUInt8 ∉ bytes) : behindFeeds pos bytes = [] := by
  induction bytes generalizing pos with
  | nil => rfl
  | cons b bs ih =>
    rw [List.mem_cons, not_or] at h
    rw [behindFeeds, if_neg (Ne.symm h.1), ih h.2]

lemma mem_behindFeeds (h : i ∈ behindFeeds pos bytes) : pos < i ∧ i ≤ pos + bytes.length := by
  induction bytes generalizing pos with
  | nil => simp [behindFeeds] at h
  | cons b bs ih =>
    rw [List.length_cons]
    rw [behindFeeds] at h
    split at h
    · rcases List.mem_cons.mp h with rfl | h
      · omega
      · have hi := ih h
        omega
    · have hi := ih h
      omega

lemma length_behindFeeds (pos : Nat) (bytes : List UInt8) :
    (behindFeeds pos bytes).length = bytes.count '\n'.toUInt8 := by
  induction bytes generalizing pos with
  | nil => rfl
  | cons b bs ih =>
    rw [behindFeeds]
    split
    · next hb => rw [List.length_cons, ih, hb, List.count_cons_self]
    · next hb => rw [ih, List.count_cons_of_ne hb]

lemma getLastD_behindFeeds (pos : Nat) (bytes : List UInt8) :
    (behindFeeds pos bytes).getLastD pos + (bytes.reverse.takeWhile (· ≠ '\n'.toUInt8)).length = pos + bytes.length := by
  induction bytes using List.reverseRecOn with
  | nil => rfl
  | append_singleton bs b ih =>
    rw [behindFeeds_append, List.reverse_append, List.reverse_singleton, List.singleton_append, List.takeWhile_cons,
      List.length_append, List.length_singleton]
    by_cases hb : b = '\n'.toUInt8
    · simp [behindFeeds, hb, Nat.add_assoc]
    · simp only [behindFeeds, hb, if_false, List.append_nil, ne_eq, not_false_eq_true, decide_true, if_true,
        List.length_cons]
      simp only [ne_eq] at ih
      omega

lemma behindFeeds_takeWhile (h : i ≤ bytes.length) :
    (behindFeeds 0 bytes).takeWhile (· ≤ i) = behindFeeds 0 (bytes.take i) := by
  have hsplit : behindFeeds 0 bytes = behindFeeds 0 (bytes.take i) ++ behindFeeds i (bytes.drop i) := by
    have happend := behindFeeds_append 0 (bytes.take i) (bytes.drop i)
    rwa [List.take_append_drop, List.length_take, Nat.min_eq_left h, Nat.zero_add] at happend
  have hbehind (s : Nat) (hs : s ∈ behindFeeds i (bytes.drop i)) : decide (s ≤ i) = false := by
    have hgt := (mem_behindFeeds hs).1
    simpa using hgt
  have hbefore (s : Nat) (hs : s ∈ behindFeeds 0 (bytes.take i)) : decide (s ≤ i) = true := by
    have hle := (mem_behindFeeds hs).2
    rw [List.length_take] at hle
    rw [decide_eq_true_eq]
    omega
  rw [hsplit, takeWhile_append_left hbehind, List.takeWhile_eq_self_iff.mpr hbefore]

lemma startsAfterBreaks_eq (pos : Nat) (cs : List Char) : startsAfterBreaks pos cs = behindFeeds pos (utf8 cs) := by
  induction cs generalizing pos with
  | nil => rfl
  | cons c cs ih =>
    have hascii : ('\n').val.toNat ≤ 127 := by decide
    rw [startsAfterBreaks, utf8_cons, behindFeeds_append, String.length_utf8EncodeChar]
    by_cases hc : c = '\n'
    · rw [if_pos hc, hc, utf8Size_ascii hascii, utf8EncodeChar_ascii hascii, ih]
      rfl
    · have hnone : '\n'.toUInt8 ∉ String.utf8EncodeChar c := by
        intro hmem
        have hmem' : '\n'.toUInt8 ∈ utf8 [c] := by rwa [utf8, List.flatMap_singleton]
        exact hc (List.mem_singleton.mp (mem_of_mem_utf8 hascii hmem')).symm
      rw [if_neg hc, behindFeeds_eq_nil hnone, List.nil_append, ih]

lemma LineTable.point_eq (h : i ≤ byteLength cs) : (ofText cs).point i = pointAmong (utf8 cs) i := by
  have hle : i ≤ (utf8 cs).length := by rwa [length_utf8]
  have htake : (ofText cs).starts.takeWhile (· ≤ i) = 0 :: behindFeeds 0 ((utf8 cs).take i) := by
    rw [ofText, startsAfterBreaks_eq, List.takeWhile_cons, if_pos (by simp), behindFeeds_takeWhile hle]
  have hlast := getLastD_behindFeeds 0 ((utf8 cs).take i)
  rw [List.length_take, Nat.min_eq_left hle] at hlast
  rw [point, htake, pointAmong, ← length_behindFeeds 0, List.length_cons, List.getLastD_cons, Point.mk.injEq]
  omega

lemma pointAmong_before (hij : i < j) (hj : j ≤ bytes.length) : (pointAmong bytes i).Before (pointAmong bytes j) := by
  obtain ⟨more, hmore⟩ : ∃ more, more = (bytes.drop i).take (j - i) := ⟨_, rfl⟩
  have htake : bytes.take j = bytes.take i ++ more := by
    rw [hmore, ← List.take_add, Nat.add_sub_cancel' hij.le]
  have hlength : 0 < more.length := by
    rw [hmore, List.length_take, List.length_drop]
    omega
  unfold Point.Before pointAmong
  rw [htake, List.count_append, List.reverse_append]
  by_cases hfeed : '\n'.toUInt8 ∈ more
  · left
    have hcount := List.count_pos_iff.mpr hfeed
    dsimp only
    omega
  · right
    have hall : ∀ b ∈ more.reverse, decide (b ≠ '\n'.toUInt8) = true := by
      intro b hb
      rw [decide_eq_true_eq]
      rintro rfl
      exact hfeed (List.mem_reverse.mp hb)
    rw [List.count_eq_zero.mpr hfeed, List.takeWhile_append_of_pos hall, List.length_append, List.length_reverse]
    dsimp only
    omega

end

/-! ## Lines and entries -/

lemma count_indentation {cs : List Char} (h : OnlyGap isIndentation cs) : cs.count '\n' = 0 := by
  rw [List.count_eq_zero]
  intro hmem
  exact absurd (h '\n' hmem) (by decide)

/-- The rows that the splitter counts are those of the table. -/
lemma Tiles.point_row {pos row : Nat} {cs : List Char} {ls : List LogicalLine} (as : List Char)
    (h : Tiles pos row cs ls) (hpos : byteLength as = pos) (hrow : as.count '\n' = row) {l : LogicalLine} (hl : l ∈ ls) :
    ((LineTable.ofText (as ++ cs)).point l.start).row = l.row := by
  induction h generalizing as with
  | nil => simp at hl
  | @cons pos row m ms before spaces terminator rest line last tiles ih =>
    have hindentation := count_indentation line.onlyIndentation
    rcases List.mem_cons.mp hl with rfl | hl
    · have hpoint := LineTable.point_row (as ++ before) (l.content ++ spaces ++ terminator ++ rest)
      rw [List.count_append, hindentation, Nat.add_zero, hrow, byteLength_append, hpos, ← line.start_eq] at hpoint
      rw [line.row_eq, ← hpoint]
      simp
    · have hbehind : byteLength (as ++ (before ++ m.content ++ spaces ++ terminator)) = m.lineEnd := by
        rw [byteLength_append, hpos, ← line.lineEnd_eq_add]
      have hfeeds : (as ++ (before ++ m.content ++ spaces ++ terminator)).count '\n' =
          row + (m.content ++ spaces ++ terminator).count '\n' := by
        simp only [List.count_append, hindentation, hrow]
        omega
      have hpoint := ih _ hbehind hfeeds hl
      rw [← hpoint]
      simp

lemma LogicalLine.StandsIn.start_boundary {text : List Char} {l : LogicalLine} (h : l.StandsIn text) :
    IsBoundary text l.start := by
  obtain ⟨as, bs, rfl, hstart⟩ := h
  rw [hstart, List.append_assoc]
  exact isBoundary_append as (l.content ++ bs)

lemma LogicalLine.scan_point_row {cs : List Char} {l : LogicalLine} (hl : l ∈ scan cs) :
    ((LineTable.ofText cs).point l.start).row = l.row := by
  obtain ⟨mark, rest, rfl, hmark, htiles⟩ := scan_tiles cs
  refine htiles.point_row mark rfl ?_ hl
  rcases hmark with rfl | rfl <;> decide

lemma Arena.Represents.points {a : Arena} {text : String} {i : Nat} {e : Entry} (h : a.Represents (Tree.parse text))
    (he : a.nodes[i]? = some e) : e.startPoint = pointAmong (utf8 text.toList) e.span.start ∧
      e.stopPoint = pointAmong (utf8 text.toList) e.span.stop := by
  obtain ⟨n, ⟨parent, field, hdenotes⟩, htext⟩ := exists_inText h he
  obtain ⟨is, hget⟩ := hdenotes.get
  rw [he, Option.some.injEq] at hget
  subst hget
  exact ⟨LineTable.point_eq htext.start_boundary.le_byteLength, LineTable.point_eq htext.stop_boundary.le_byteLength⟩

/-- The point of every offset in a text counts the line feeds in front of the offset and the bytes behind the last of
them, so points go up with the offsets. Every node begins and ends at the points of its offsets, and the row of every
line is that of the point where its content begins. -/
theorem Descent.parse_points (text : String) : ∃ lines r, byteScan text.toList = some lines ∧
    parse text.toList = some r ∧
    (∀ i ≤ byteLength text.toList, ∀ b : TreeBuilder, b.text = text.toList →
      b.point? i = some (pointAmong (utf8 text.toList) i)) ∧
    (∀ i j, i < j → j ≤ byteLength text.toList →
      (pointAmong (utf8 text.toList) i).Before (pointAmong (utf8 text.toList) j)) ∧
    (∀ e ∈ r.final.builder.nodes, e.startPoint = pointAmong (utf8 text.toList) e.span.start ∧
      e.stopPoint = pointAmong (utf8 text.toList) e.span.stop) ∧
    ∀ l ∈ lines, l.row = (pointAmong (utf8 text.toList) l.start).row := by
  obtain ⟨r, hparse, h⟩ := parse_represents text
  refine ⟨_, r, byteScan_eq _, hparse, ?_, ?_, ?_, ?_⟩
  · intro i hi b hb
    rw [b.point?_eq, hb, LineTable.point_eq hi]
  · intro i j hij hj
    exact pointAmong_before hij (by rwa [length_utf8])
  · intro e he
    obtain ⟨i, hi⟩ := List.mem_iff_getElem?.mp he
    exact Arena.Represents.points h hi
  · intro l hl
    obtain ⟨m, hm, rfl⟩ := List.mem_map.mp hl
    have hboundary := (LogicalLine.scan_standsIn hm).start_boundary
    change m.row = (pointAmong (utf8 text.toList) m.start).row
    rw [← LineTable.point_eq hboundary.le_byteLength, LogicalLine.scan_point_row hm]

end RenpyScript
