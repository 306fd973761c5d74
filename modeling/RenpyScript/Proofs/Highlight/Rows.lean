import RenpyScript.Proofs.Highlight.Intervals
import RenpyScript.Proofs.Text.Rows

/-!
# Rows of highlights and of folds

Folds have the rows of a tree's points, highlights are shown with the rows of a line index. Both agree where no
line has ended but with a line feed.
-/

namespace RenpyScript

namespace Tree

/-- Where a node begins or ends, the row of the line index is the row of the point and one more for each line that
has ended with another character than a line feed: a vertical tab, a form feed, a next line, a line or paragraph
separator, or a carriage return with no line feed behind it. -/
theorem position_row_eq_point_row_add (text : String) {n : Node} (hn : n ∈ (parse text).root.preorder) {offset : Nat}
    (hoffset : offset = n.span.start ∨ offset = n.span.stop) :
    ∃ before after, text.toList = before ++ after ∧ byteLength before = offset ∧
      ((LineIndex.ofText text).position ((LineIndex.ofText text).charOffset offset)).row =
        ((parse text).lineTable.point offset).row + LineIndex.otherBreaks before after ∧
      (((LineIndex.ofText text).position ((LineIndex.ofText text).charOffset offset)).row =
          ((parse text).lineTable.point offset).row ↔
        ∀ as c bs, before = as ++ c :: bs → c ∉ ['\x0b', '\x0c', '\u0085', '\u2028', '\u2029'] ∧
          (c = '\r' → (bs ++ after).head? = some '\n')) := by
  have htext := parse_inText text hn
  have hboundary : IsBoundary text.toList offset := by
    rcases hoffset with rfl | rfl
    · exact htext.start_boundary
    · exact htext.stop_boundary
  obtain ⟨before, ⟨after, hsplit⟩, rfl⟩ := hboundary
  have hindex : ((LineIndex.ofText text).position ((LineIndex.ofText text).charOffset (byteLength before))).row =
      before.count '\n' + LineIndex.otherBreaks before after := by
    rw [LineIndex.ofText, ← hsplit, LineIndex.charOffset, LineIndex.charsBefore_append, LineIndex.position_row]
  have hpoint : ((parse text).lineTable.point (byteLength before)).row = before.count '\n' := by
    change ((LineTable.ofText text.toList).point _).row = _
    rw [← hsplit, LineTable.point_row]
  refine ⟨before, after, hsplit.symm, rfl, by rw [hindex, hpoint], ?_⟩
  rw [hindex, hpoint, Nat.add_eq_left, LineIndex.otherBreaks_eq_zero_iff]
  refine forall₄_congr fun as c bs _ => ?_
  rw [← Bool.not_eq_true, LineIndex.endsOtherLine_iff]
  tauto

/-- In front of the end of the script stands a form feed. -/
theorem position_row_eq_point_row_add_end :
    (parse "label a:\x0c\n    jump b\n").root ∈ (parse "label a:\x0c\n    jump b\n").root.preorder ∧
      21 = (parse "label a:\x0c\n    jump b\n").root.span.stop ∧
      ∃ before after, "label a:\x0c\n    jump b\n".toList = before ++ after ∧ byteLength before = 21 ∧
        ((LineIndex.ofText "label a:\x0c\n    jump b\n").position
            ((LineIndex.ofText "label a:\x0c\n    jump b\n").charOffset 21)).row =
          ((parse "label a:\x0c\n    jump b\n").lineTable.point 21).row + LineIndex.otherBreaks before after := by
  have hroot := Node.self_mem_preorder (parse "label a:\x0c\n    jump b\n").root
  have hstop : 21 = (parse "label a:\x0c\n    jump b\n").root.span.stop := by decide +kernel
  obtain ⟨before, after, hsplit, hlength, hrow, -⟩ := position_row_eq_point_row_add _ hroot (.inr hstop)
  exact ⟨hroot, hstop, before, after, hsplit, hlength, hrow⟩

/-- A form feed behind the colon of a header ends no physical line, but a line of the index: the statement behind it
has two rows. -/
theorem position_row_ne_point_row_formFeed : ∃ n ∈ (parse "label a:\x0c\n    jump b\n").root.preorder,
    n.kind = .renpyStatement ∧
      ((LineIndex.ofText "label a:\x0c\n    jump b\n").position
        ((LineIndex.ofText "label a:\x0c\n    jump b\n").charOffset n.span.start)).row = 2 ∧
      ((parse "label a:\x0c\n    jump b\n").lineTable.point n.span.start).row = 1 := by
  decide +kernel

end Tree

end RenpyScript
