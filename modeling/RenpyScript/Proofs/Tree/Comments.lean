import RenpyScript.Proofs.Outline.Comments
import RenpyScript.Proofs.Outline.Grown

/-!
# Comments in the tree

Where a comment line ends up that nothing waits for: in the block that the outline puts it into, which is a node
of the tree that begins with the first line of that block.
-/

namespace RenpyScript

open Node

/-- In the text nothing but blanks is between the start of the block and the offset. -/
def Block.BeginsAt (b : Block) (text : List Char) (offset : Nat) : Prop :=
  ∃ before gap, before ++ gap <+: text ∧ OnlyGap isGap gap ∧ byteLength before = b.start ∧
    byteLength (before ++ gap) = offset

/-- The node is a child of the innermost one of the blocks, and of the root if there is none. -/
def Tree.Attaches (tree : Tree) (n : Node) (blocks : List Block) : Prop :=
  match blocks with
  | [] => n ∈ tree.root.children
  | b :: _ =>
    ∃ m ∈ tree.root.preorder, m.kind = .block ∧ b.BeginsAt tree.text.toList m.span.start ∧ n ∈ m.children

namespace Outline

section
variable {o : Outline} {cs text : List Char} {line : LogicalLine} {before after rest : List LogicalLine} {n : Node}

lemma Placed.runBefore {row : Nat} (h : o.Placed cs) (ht : Tiles (byteLength cs) row text (before ++ after)) :
    ∃ read ahead row', text = read ++ ahead ∧ (o.runBefore before after).Placed (cs ++ read) ∧
      Tiles (byteLength (cs ++ read)) row' ahead after := by
  induction before generalizing o cs row text with
  | nil => exact ⟨[], text, row, rfl, by rwa [List.append_nil], by rwa [List.append_nil]⟩
  | cons line before ih =>
    rw [List.cons_append] at ht
    generalize hpos : byteLength cs = pos at ht
    cases ht with
    | @cons _ _ _ _ indentation spaces terminator later hline last tiles =>
      subst hpos
      rw [hline.lineEnd_eq_add, ← byteLength_append] at tiles
      obtain ⟨read, ahead, row', rfl, hplaced, htiles⟩ := ih (h.addLine hline) tiles
      rw [List.append_assoc] at hplaced htiles
      exact ⟨_, ahead, row', (List.append_assoc ..).symm, hplaced, htiles⟩

lemma exists_runBefore_placed {text : List Char} (hlines : LogicalLine.scan text = before ++ after) :
    ∃ read ahead row, text = read ++ ahead ∧ (empty.runBefore before after).Placed read ∧
      Tiles (byteLength read) row ahead after := by
  obtain ⟨mark, rest, htext, hmark, htiles⟩ := LogicalLine.scan_tiles text
  rw [hlines] at htiles
  have hplaced : empty.Placed mark := placed_empty.gap_after (onlyGap_mark hmark)
  obtain ⟨read, ahead, row, rfl, hplaced, htiles⟩ := hplaced.runBefore htiles
  exact ⟨mark ++ read, ahead, row, by rw [htext, List.append_assoc], hplaced, htiles⟩

lemma Holds.beginsAt {f : Frame} {fs : List Frame} {ns : List Node} (h : o.Holds cs) (hframes : o.frames = f :: fs)
    (hitems : f.items = n :: ns) : f.block.BeginsAt cs n.span.start := by
  unfold Holds at h
  rw [hframes] at h
  cases h with
  | @cons _ _ outer head body outside opening start laid =>
    rw [hitems] at laid
    obtain ⟨gap, core, rfl, hgap, -, hn⟩ := laid.tight_left
    exact ⟨outer ++ head, gap, ⟨core, by simp⟩, hgap, start.symm, by rw [hn, start, byteLength_append]⟩

lemma addComment_last (o : Outline) (line : LogicalLine) (rest : List LogicalLine) :
    match (o.addComment line rest).frames with
    | [] => line.commentNode ∈ (o.addComment line rest).items
    | f :: _ => line.commentNode ∈ f.items := by
  rw [addComment_eq]
  generalize (if o.commentCloses line rest then o.dedent ((nextCodeIndent? rest).getD 0) else o) = left
  unfold Outline.add
  cases left.frames with
  | nil => simp
  | cons f fs => simp

/-- What the innermost block of an outline holds, a block of the document holds; without a block it is at the top
level. -/
lemma attaches_of_last {text : String} (hholds : o.Holds cs) (hcs : cs <+: text.toList)
    (hdocument : (o.run after).finish = (Tree.parse text).root.children)
    (hlast : match o.frames with
      | [] => n ∈ o.items
      | f :: _ => n ∈ f.items) : (Tree.parse text).Attaches n o.blocks := by
  have hgrows := grows_run o after
  rw [blocks]
  rcases hframes : o.frames with _ | ⟨f, fs⟩
  · rw [hframes] at hlast
    change n ∈ (Tree.parse text).root.children
    rw [← hdocument]
    exact (hgrows.items.trans (items_prefix_finish _)).subset hlast
  · rw [hframes] at hlast
    obtain ⟨first, more, hitems⟩ := List.exists_cons_of_ne_nil (List.ne_nil_of_mem hlast)
    obtain ⟨m, hm, hkind, ⟨fallback, hspan⟩, hbegins⟩ := (hgrows.opened f (hframes ▸ List.mem_cons_self ..)).finish
    obtain ⟨later, hchildren⟩ := hbegins
    have hstart : m.span.start = first.span.start := by
      rw [hspan, ← hchildren, hitems]
      rfl
    rw [hdocument] at hm
    refine ⟨m, children_subset_preorder _ (preorderAll_eq .. ▸ hm), hkind, ?_, hchildren ▸ List.mem_append_left _ hlast⟩
    obtain ⟨start, gap, hprefix, hgap, hblock, hoffset⟩ := hholds.beginsAt hframes hitems
    exact ⟨start, gap, hprefix.trans hcs, hgap, hblock, hstart ▸ hoffset⟩

lemma endPython_awaiting (hkind : line.kind = .comment) (hfree : o.awaiting.takes line rest = false) :
    o.endPython.awaiting = .nothing := by
  unfold endPython
  cases hawaiting : o.awaiting with
  | nothing => exact hawaiting
  | block opening => simp [hawaiting, Awaiting.takes, hkind] at hfree
  | python body => exact resume_awaiting ..

/-- Behind a comment that nothing waits for the finished items and the open blocks hold all that has been read. -/
lemma Placed.holds_comment {row : Nat} (h : o.Placed cs) (ht : Tiles (byteLength cs) row text (line :: rest))
    (hkind : line.kind = .comment) (hfree : o.awaiting.takes line rest = false) :
    ∃ read ahead, text = read ++ ahead ∧ (o.step line rest).Holds (cs ++ read) := by
  generalize hpos : byteLength cs = pos at ht
  cases ht with
  | @cons _ _ _ _ indentation spaces terminator later hline last tiles =>
    subst hpos
    have hnothing : (o.step line rest).awaiting = .nothing := by
      rw [step_comment hkind hfree, addComment_awaiting, endPython_awaiting hkind hfree]
    have hadded : (o.step line rest).Placed _ := h.addLine hline
    obtain ⟨done, waiting, hread, hdone, hwaiting⟩ := hadded
    rw [hnothing] at hwaiting
    cases hwaiting
    rw [List.append_nil] at hread
    exact ⟨_, later, rfl, hread ▸ hdone⟩

end

end Outline

namespace Tree

/-- A comment line that nothing waits for becomes a child of the innermost of the blocks that it goes to. That is the
innermost block that the comment or the next code line is indented as far as, unless the comment skips a block. -/
theorem comment_attaches (text : String) {before after : List LogicalLine} {line : LogicalLine}
    (hlines : LogicalLine.scan text.toList = before ++ line :: after) (hkind : line.kind = .comment)
    (hfree : (Outline.empty.runBefore before (line :: after)).awaiting.takes line after = false) :
    let blocks := Outline.empty.openBlocks [] before (line :: after)
    (parse text).Attaches line.commentNode (commentBlocks line.indent (nextWidth after) blocks) ∧
      (commentBlocks line.indent (nextWidth after) blocks = reachedBlocks line.indent (nextWidth after) blocks ↔
        ¬SkipsBlock line.indent (nextWidth after) blocks) := by
  have haligned := Outline.empty_aligned (before ++ line :: after)
  have hblocks : Outline.empty.openBlocks [] before (line :: after) =
      (Outline.empty.runBefore before (line :: after)).blocks := Outline.openBlocks_eq haligned
  have hfalls := Outline.runBefore_levelsFall haligned List.Pairwise.nil
  dsimp only
  rw [hblocks]
  refine ⟨?_, commentBlocks_eq_reachedBlocks_iff hfalls⟩
  obtain ⟨read, ahead, row, htext, hplaced, htiles⟩ := Outline.exists_runBefore_placed hlines
  have hlevelled := (Outline.runBefore_aligned haligned).toLevelled
  have hrun := Outline.runBefore_run .empty before (line :: after)
  generalize Outline.empty.runBefore before (line :: after) = o at *
  have hstep : o.step line after = o.endPython.addComment line after := Outline.step_comment hkind hfree
  have hafter : (o.step line after).blocks = commentBlocks line.indent (nextWidth after) o.blocks := by
    rw [hstep, Outline.addComment_blocks hlevelled.endPython, Outline.endPython_blocks]
  have hdocument : ((o.step line after).run after).finish = (parse text).root.children := by
    change (o.run (line :: after)).finish = _
    rw [hrun, ← hlines]
    rfl
  have hlast := o.endPython.addComment_last line after
  rw [← hstep] at hlast
  obtain ⟨more, later, rfl, hholds⟩ := hplaced.holds_comment htiles hkind hfree
  rw [← hafter]
  exact Outline.attaches_of_last hholds ⟨later, by rw [htext, List.append_assoc]⟩ hdocument hlast

/-- A comment in front of the line that closes the inner one of two blocks is in the outer one. -/
theorem comment_attaches_outer : ∃ before line after,
    LogicalLine.scan "label a:\n    if x:\n        jump b\n    # c\n    jump d\n".toList = before ++ line :: after ∧
      line.kind = .comment ∧ (Outline.empty.runBefore before (line :: after)).awaiting.takes line after = false ∧
      Outline.empty.openBlocks [] before (line :: after) = [⟨8, 27⟩, ⟨4, 13⟩] ∧
      (parse "label a:\n    if x:\n        jump b\n    # c\n    jump d\n").Attaches line.commentNode [⟨4, 13⟩] := by
  let text := "label a:\n    if x:\n        jump b\n    # c\n    jump d\n"
  let lines := LogicalLine.scan text.toList
  have hlines : lines = lines.take 3 ++ lines[3]! :: lines.drop 4 := by decide +kernel
  have hkind : lines[3]!.kind = .comment := by decide +kernel
  have hfree : (Outline.empty.runBefore (lines.take 3) (lines[3]! :: lines.drop 4)).awaiting.takes lines[3]!
      (lines.drop 4) = false := by decide +kernel
  have hblocks : Outline.empty.openBlocks [] (lines.take 3) (lines[3]! :: lines.drop 4) = [⟨8, 27⟩, ⟨4, 13⟩] := by
    decide +kernel
  have hparent : commentBlocks lines[3]!.indent (nextWidth (lines.drop 4)) [⟨8, 27⟩, ⟨4, 13⟩] = [⟨4, 13⟩] := by
    decide +kernel
  have hattaches := (comment_attaches text hlines hkind hfree).1
  rw [hblocks, hparent] at hattaches
  exact ⟨_, _, _, hlines, hkind, hfree, hblocks, hattaches⟩

/-- The comment is indented as far as the outer block, and still it is not in it: the line behind it closes both
blocks, and only the inner one is asked about the comment. -/
theorem comment_attaches_skipped : ∃ before line after,
    LogicalLine.scan "label a:\n    if x:\n        jump b\n    # c\nlabel d:\n    jump e\n".toList =
        before ++ line :: after ∧
      line.kind = .comment ∧ (Outline.empty.runBefore before (line :: after)).awaiting.takes line after = false ∧
      ¬(parse "label a:\n    if x:\n        jump b\n    # c\nlabel d:\n    jump e\n").Attaches line.commentNode
        (reachedBlocks line.indent (nextWidth after) (Outline.empty.openBlocks [] before (line :: after))) := by
  let text := "label a:\n    if x:\n        jump b\n    # c\nlabel d:\n    jump e\n"
  let lines := LogicalLine.scan text.toList
  have hlines : lines = lines.take 3 ++ lines[3]! :: lines.drop 4 := by decide +kernel
  have hkind : lines[3]!.kind = .comment := by decide +kernel
  have hfree : (Outline.empty.runBefore (lines.take 3) (lines[3]! :: lines.drop 4)).awaiting.takes lines[3]!
      (lines.drop 4) = false := by decide +kernel
  have hreached : reachedBlocks lines[3]!.indent (nextWidth (lines.drop 4))
      (Outline.empty.openBlocks [] (lines.take 3) (lines[3]! :: lines.drop 4)) = [⟨4, 13⟩] := by decide +kernel
  have hnone : ∀ m ∈ (parse text).root.preorder, m.kind = .block → ∀ c ∈ m.children, c.kind ≠ .comment := by
    decide +kernel
  refine ⟨_, _, _, hlines, hkind, hfree, ?_⟩
  rw [hreached]
  rintro ⟨m, hm, hblock, -, hcomment⟩
  exact hnone m hm hblock _ hcomment rfl

end Tree

end RenpyScript
