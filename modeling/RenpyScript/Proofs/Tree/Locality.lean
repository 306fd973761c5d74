import RenpyScript.Proofs.Outline.Alignment
import RenpyScript.Proofs.Outline.Shift
import RenpyScript.Proofs.Text.Points
import RenpyScript.Proofs.Tree.WellFormed

/-!
# Scripts in two parts

A script can be cut where a line ends and the next code line stands at the top level: its tree is
then put together from the trees of the two parts.
-/

namespace RenpyScript

open LogicalLine

namespace Outline

lemma beginsAtTop_shift {k rows : Nat} {lines : List LogicalLine} :
    BeginsAtTop (lines.map (shift k rows)) ↔ BeginsAtTop lines := by
  have hfind : (lines.map (shift k rows)).find? (·.kind ≠ .blank) =
      (lines.find? (·.kind ≠ .blank)).map (shift k rows) := List.find?_map
  unfold BeginsAtTop
  rw [hfind]
  simp only [Option.map_eq_some_iff]
  constructor
  · rintro ⟨_, ⟨l, hl, rfl⟩, hkind, hindent⟩
    exact ⟨l, hl, hkind, hindent⟩
  · rintro ⟨l, hl, hkind, hindent⟩
    exact ⟨_, ⟨l, hl, rfl⟩, hkind, hindent⟩

theorem itemsOf_append (k rows : Nat) (lines : List LogicalLine) {ahead : List LogicalLine}
    (h : BeginsAtTop ahead) : itemsOf (lines ++ ahead.map (shift k rows)) =
      itemsOf lines ++ (itemsOf ahead).map (Node.shift k) := by
  have hmoved : BeginsAtTop (ahead.map (shift k rows)) := beginsAtTop_shift.mpr h
  have haligned := (empty_aligned lines).run
  have hbehind : ended (empty.run lines).finish = empty.behind k (itemsOf lines) := by
    simp only [ended, behind, itemsOf, empty, List.map_nil, List.append_nil, Awaiting.shift]
  have hbegun := run_begun (o := empty) .nothing ahead
  rw [itemsOf, run_append (empty_aligned lines) (nextWidth_beginsAtTop hmoved),
    run_beginsAtTop haligned hmoved, hbehind, run_behind k rows _ .nothing, finish_behind k _ hbegun,
    ← itemsOf]

end Outline

lemma LogicalLine.scan_start_lt {cs : List Char} {l : LogicalLine} (hl : l ∈ scan cs)
    (hkind : l.kind ≠ .blank) : l.start < byteLength cs := by
  obtain ⟨mark, rest, rfl, -, htiles⟩ := scan_tiles cs
  have hlt := htiles.start_lt hl (fun hnil => hkind (kind_eq_blank_iff.mpr hnil))
  rwa [byteLength_append]

lemma beginsAtTop_of_find? {k rows : Nat} {cs : List Char} {ahead : List LogicalLine} {l : LogicalLine}
    (hk : k = byteLength cs)
    (hfind : (scan cs ++ ahead.map (shift k rows)).find? (fun l => l.kind ≠ .blank ∧ k ≤ l.start) = some l)
    (hkind : l.kind = .code) (hindent : l.indent = 0) : Outline.BeginsAtTop ahead := by
  have hnone : (scan cs).find? (fun l => l.kind ≠ .blank ∧ k ≤ l.start) = none := by
    rw [List.find?_eq_none]
    intro l hl
    rw [decide_eq_true_eq]
    rintro ⟨hblank, hle⟩
    have hlt := scan_start_lt hl hblank
    omega
  have hsame : (fun l : LogicalLine => decide (l.kind ≠ .blank ∧ k ≤ l.start)) ∘ shift k rows =
      fun l => decide (l.kind ≠ .blank) := by
    funext l
    have hle : k ≤ (shift k rows l).start := Nat.le_add_left k l.start
    rw [Function.comp_apply, decide_eq_decide]
    exact and_iff_left hle
  rw [List.find?_append, hnone, Option.none_or, List.find?_map, hsame, Option.map_eq_some_iff] at hfind
  obtain ⟨l', hl', rfl⟩ := hfind
  exact ⟨l', hl', hkind, hindent⟩

namespace Tree

/-- The points where a node begins and ends. -/
def extent (t : Tree) (n : Node) : Point × Point :=
  (t.lineTable.point n.span.start, t.lineTable.point n.span.stop)

/-- If the first part of a script ends with a line and the next line that is not blank is code at the
top level, the nodes of the script are those of the first part and, further to the right and further
down, those of the second part. -/
theorem parse_append (a b : String) (hmark : b.toList.head? ≠ some '\ufeff')
    (hend : ∃ l ∈ scan (a ++ b).toList, l.lineEnd = byteLength a.toList)
    (hnext : ∃ l, (scan (a ++ b).toList).find?
        (fun l => l.kind ≠ .blank ∧ byteLength a.toList ≤ l.start) = some l ∧
      l.kind = .code ∧ l.indent = 0) :
    (parse (a ++ b)).root.children =
        (parse a).root.children ++ (parse b).root.children.map (Node.shift (byteLength a.toList)) ∧
      (∀ n ∈ Node.preorderAll (parse a).root.children, (parse (a ++ b)).extent n = (parse a).extent n) ∧
      ∀ n ∈ Node.preorderAll (parse b).root.children,
        (parse (a ++ b)).extent (n.shift (byteLength a.toList)) =
          (((parse b).extent n).1.down (a.toList.count '\n'), ((parse b).extent n).2.down (a.toList.count '\n')) := by
  rw [String.toList_append] at hend hnext
  obtain ⟨l, hl, hlineEnd⟩ := hend
  obtain ⟨first, hfind, hkind, hindent⟩ := hnext
  have hb : b.toList ≠ [] := by
    intro hnil
    have hmem := List.mem_of_find?_eq_some hfind
    have hprop := List.find?_some hfind
    rw [hnil, List.append_nil] at hmem
    rw [decide_eq_true_eq] at hprop
    have hlt := scan_start_lt hmem hprop.1
    omega
  obtain ⟨hscan, xs, hxs⟩ := scan_append hmark hb hl hlineEnd
  rw [hscan] at hfind
  have htop := beginsAtTop_of_find? rfl hfind hkind hindent
  have hlines : (parse (a ++ b)).lineTable = .ofText (a.toList ++ b.toList) := by
    rw [← String.toList_append]
    rfl
  refine ⟨?_, ?_, ?_⟩
  · change Outline.itemsOf (scan (a ++ b).toList) = _
    rw [String.toList_append, hscan, Outline.itemsOf_append _ _ _ htop]
    rfl
  · intro n hn
    have hmem : n ∈ (parse a).root.preorder := by
      rw [Node.preorder_eq, ← Node.preorderAll_eq]
      exact List.mem_cons_of_mem _ hn
    have hin := parse_inText a hmem
    have hstop := hin.stop_le
    have hstart := Nat.le_trans hin.start_le_stop hstop
    rw [extent, hlines, LineTable.point_append_left hstart, LineTable.point_append_left hstop]
    rfl
  · intro n hn
    rw [extent, hlines, Node.shift_span, Span.shift, LineTable.point_append_right hxs,
      LineTable.point_append_right hxs]
    rfl

theorem parse_append_two_labels :
    (parse ("label a:\n  $ x\n\n" ++ "label b:\n")).root.children =
      (parse "label a:\n  $ x\n\n").root.children ++
        (parse "label b:\n").root.children.map (Node.shift 16) := by
  have hend : ∃ l ∈ scan ("label a:\n  $ x\n\n" ++ "label b:\n").toList,
      l.lineEnd = byteLength "label a:\n  $ x\n\n".toList := by
    decide +kernel
  have hfind : (scan ("label a:\n  $ x\n\n" ++ "label b:\n").toList).find?
      (fun l => l.kind ≠ .blank ∧ byteLength "label a:\n  $ x\n\n".toList ≤ l.start) =
        some ⟨0, 16, "label b:".toList, 25, 3⟩ := by
    decide +kernel
  exact (parse_append _ _ (by decide) hend ⟨_, hfind, by decide, rfl⟩).1

end Tree

end RenpyScript
