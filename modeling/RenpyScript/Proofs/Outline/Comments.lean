import RenpyScript.Proofs.Outline.Alignment

/-!
# The blocks that comments go to

A comment line that nothing waits for goes to one of the open blocks, or to the top level.
`Outline.openBlocks` follows the open blocks along the lines: a code line that is not part of a Python
body has its own, a comment leaves the ones that are deeper than the block it goes to, and what waits
for a block or a Python body takes its lines without a change to the blocks around it.
-/

namespace RenpyScript

/-- An open block, by the indentation of its lines and the offset of its first one. -/
structure Block where
  level : Nat
  start : Nat
deriving DecidableEq, Repr

def Frame.block (f : Frame) : Block :=
  ⟨f.level, f.start⟩

/-- The block that a comment goes to, with the blocks around it. `indent` is that of the comment, `width`
that of the next code line. The innermost block is asked about both, the blocks around it only about the
next code line. -/
def commentBlocks (indent width : Nat) (blocks : List Block) : List Block :=
  if blocks.head?.any (·.level ≤ indent) then blocks else blocks.dropWhile (width < ·.level)

/-- The innermost block that either the comment or the next code line is indented as far as, with the
blocks around it. -/
def reachedBlocks (indent width : Nat) (blocks : List Block) : List Block :=
  blocks.dropWhile fun b => indent < b.level && width < b.level

/-- The levels fall from the innermost block to the outermost. -/
def LevelsFall (blocks : List Block) : Prop :=
  blocks.Pairwise fun a b => b.level < a.level

/-- The comment is indented as far as a block around the innermost one, which the next code line closes, but not as
far as the innermost one itself. -/
def SkipsBlock (indent width : Nat) (blocks : List Block) : Prop :=
  ∃ b ∈ blocks, width < b.level ∧ b.level ≤ indent ∧ ∀ a ∈ blocks.head?, indent < a.level

section
variable {indent width : Nat} {blocks : List Block}

lemma commentBlocks_suffix (indent width : Nat) (blocks : List Block) :
    commentBlocks indent width blocks <:+ blocks := by
  unfold commentBlocks
  split
  · exact List.suffix_refl _
  · exact List.dropWhile_suffix _

/-- The two rules agree unless a block is skipped. -/
theorem commentBlocks_eq_reachedBlocks_iff (hfalls : LevelsFall blocks) :
    commentBlocks indent width blocks = reachedBlocks indent width blocks ↔ ¬SkipsBlock indent width blocks := by
  have hcomment : blocks.dropWhile (width < ·.level) = blocks.filter fun b => !decide (width < b.level) := by
    refine IndentStack.dropWhile_eq_filter hfalls (p := (width < ·)) fun a b hlt hb => ?_
    simp only [decide_eq_true_eq] at hb ⊢
    omega
  have hreached : reachedBlocks indent width blocks =
      blocks.filter fun b => !(indent < b.level && width < b.level) := by
    refine IndentStack.dropWhile_eq_filter hfalls (p := fun l => indent < l && width < l) fun a b hlt hb => ?_
    simp only [Bool.and_eq_true, decide_eq_true_eq] at hb ⊢
    omega
  cases blocks with
  | nil => simp [commentBlocks, reachedBlocks, SkipsBlock]
  | cons a blocks =>
    by_cases hstays : a.level ≤ indent
    · have hall : reachedBlocks indent width (a :: blocks) = commentBlocks indent width (a :: blocks) := by
        simp [reachedBlocks, commentBlocks, hstays]
      have hnone : ¬SkipsBlock indent width (a :: blocks) := by
        rintro ⟨b, -, -, -, hleaves⟩
        exact absurd hstays (Nat.not_le.mpr (hleaves a rfl))
      exact iff_of_true hall.symm hnone
    · have hleaves : commentBlocks indent width (a :: blocks) = (a :: blocks).dropWhile (width < ·.level) := by
        simp [commentBlocks, hstays]
      rw [hleaves, hcomment, hreached]
      constructor
      · rintro heq ⟨b, hb, hcloses, hreaches, -⟩
        have hmem : b ∈ (a :: blocks).filter fun b => !(indent < b.level && width < b.level) := by
          simpa [Nat.not_lt.mpr hreaches] using hb
        rw [← heq] at hmem
        exact absurd (List.mem_filter.mp hmem).2 (by simp [hcloses])
      · intro hnone
        refine List.filter_congr fun b hb => ?_
        by_cases hcloses : width < b.level
        · have hdeeper : indent < b.level := by
            by_contra hreaches
            exact hnone ⟨b, hb, hcloses, Nat.le_of_not_lt hreaches, by simpa using hstays⟩
          simp [hdeeper]
        · simp [hcloses]

end

/-- Whether a line goes to what the last line waits for, and not to a block. -/
def Awaiting.takes (awaiting : Awaiting) (line : LogicalLine) (rest : List LogicalLine) : Bool :=
  match awaiting with
  | .nothing => false
  | .block _ => line.kind ≠ .code
  | .python body => body.holds line rest

namespace Outline

/-- The open blocks, the innermost first. -/
def blocks (o : Outline) : List Block :=
  o.frames.map (·.block)

/-- Adds the lines `before`; `after` are the lines behind them. -/
def runBefore : Outline → List LogicalLine → List LogicalLine → Outline
  | o, [], _ => o
  | o, line :: before, after => (o.step line (before ++ after)).runBefore before after

/-- The open blocks behind a line, from those in front of it. A code line that nothing waits for, or that a block waits
for, is in the blocks that are open once it has been added. -/
def nextBlocks (o : Outline) (line : LogicalLine) (rest : List LogicalLine) (blocks : List Block) : List Block :=
  if o.awaiting.takes line rest then blocks
  else
    match line.kind with
    | .blank => blocks
    | .comment => commentBlocks line.indent (nextWidth rest) blocks
    | .code => (o.step line rest).blocks

/-- The open blocks behind the lines `before`: those of the last code line that is not part of a Python body,
without the ones that comments behind it have left. -/
def openBlocks : Outline → List Block → List LogicalLine → List LogicalLine → List Block
  | _, blocks, [], _ => blocks
  | o, blocks, line :: before, after =>
    (o.step line (before ++ after)).openBlocks (o.nextBlocks line (before ++ after) blocks) before after

section
variable {o : Outline} {line : LogicalLine} {rest before after : List LogicalLine}

lemma runBefore_run (o : Outline) (before after : List LogicalLine) :
    (o.runBefore before after).run after = o.run (before ++ after) := by
  induction before generalizing o with
  | nil => rfl
  | cons line before ih => exact ih _

/-! ## Blocks of an outline -/

lemma blocks_levels (o : Outline) : o.blocks.map (·.level) = o.levels := by
  rw [blocks, levels, List.map_map]
  rfl

@[simp] lemma add_blocks (o : Outline) (items : List Node) : (o.add items).blocks = o.blocks := by
  unfold blocks Outline.add
  split
  · rfl
  · next h => simp [h, Frame.block]

lemma resume_blocks (o : Outline) (items : List Node) : (o.resume items).blocks = o.blocks :=
  add_blocks ..

lemma closeFrame_blocks (o : Outline) : o.closeFrame.blocks = o.blocks.tail := by
  unfold closeFrame
  split
  · next h => simp [blocks, h]
  · next h =>
    rw [add_blocks]
    simp [blocks, h]

lemma closeFrames_blocks (k : Nat) (o : Outline) : (closeFrames k o).blocks = o.blocks.drop k := by
  induction k generalizing o with
  | zero => rfl
  | succ k ih => rw [closeFrames, ih, closeFrame_blocks, List.drop_tail]

lemma dedent_blocks (h : o.Levelled) (width : Nat) :
    (o.dedent width).blocks = o.blocks.dropWhile (width < ·.level) := by
  have hlevels : o.levels.dropWhile (width < ·) = (o.blocks.dropWhile (width < ·.level)).map (·.level) := by
    rw [← blocks_levels, List.dropWhile_map]
    rfl
  rw [dedent_eq, closeFrames_blocks, IndentStack.dedentTo_closed, h.widths_eq, hlevels, ← blocks_levels,
    List.length_map, List.length_map]
  exact (List.suffix_iff_eq_drop.mp (List.dropWhile_suffix _)).symm

lemma addForm_blocks (o : Outline) (line : LogicalLine) (misaligned bodyFollows : Bool) (form : Form) :
    (o.addForm line misaligned bodyFollows form).blocks = o.blocks := by
  unfold addForm
  split
  · exact add_blocks ..
  · split
    · rfl
    · exact add_blocks ..
  · rfl

lemma addItem_blocks (o : Outline) (line : LogicalLine) (rest : List LogicalLine) :
    (o.addItem line rest).blocks = o.blocks := by
  rw [addItem_eq, addForm_blocks]
  rfl

lemma closedTo_blocks_suffix (h : o.Levelled) (width : Nat) : (o.closedTo width).blocks <:+ o.blocks := by
  unfold closedTo
  split
  · rw [dedent_blocks h]
    exact List.dropWhile_suffix _
  · exact List.suffix_refl _

lemma level_lt_of_head (h : o.level < line.indent) : ∀ b ∈ o.blocks.head?, b.level < line.indent := by
  intro b hb
  have hhead : o.levels.head? = some b.level := by rw [← blocks_levels, List.head?_map, Option.mem_def.mp hb]; rfl
  rwa [level_eq, List.headD_eq_head?_getD, hhead] at h

lemma addComment_blocks (h : o.Levelled) (line : LogicalLine) (rest : List LogicalLine) :
    (o.addComment line rest).blocks = commentBlocks line.indent (nextWidth rest) o.blocks := by
  rw [addComment_eq, add_blocks, commentCloses_eq h, ← nextWidth, level_eq, ← blocks_levels, commentBlocks]
  rcases hblocks : o.blocks with _ | ⟨b, bs⟩
  · simp [hblocks]
  · simp only [List.map_cons, List.headD_cons, List.head?_cons, Option.any_some, decide_eq_true_eq]
    by_cases hstays : b.level ≤ line.indent
    · rw [if_neg (by omega), if_pos hstays, hblocks]
    · rw [if_neg hstays, List.dropWhile_cons]
      by_cases hcloses : nextWidth rest < b.level
      · rw [if_pos (by omega), dedent_blocks h, hblocks, List.dropWhile_cons]
      · rw [if_neg (by omega), if_neg (by simpa using hcloses), hblocks]

/-! ## Steps -/

/-- What a line does to the open blocks: some are left, and then the line may open one. -/
inductive BlocksStep (line : LogicalLine) (blocks : List Block) : List Block → Prop
  | leaves {kept : List Block} (kept_suffix : kept <:+ blocks) : BlocksStep line blocks kept
  | opens {kept : List Block} (kept_suffix : kept <:+ blocks) (deeper : ∀ b ∈ kept.head?, b.level < line.indent) :
      BlocksStep line blocks (⟨line.indent, line.start⟩ :: kept)

lemma addCode_blocksStep (h : o.Levelled) (line : LogicalLine) (rest : List LogicalLine) :
    BlocksStep line o.blocks (o.addCode line rest).blocks := by
  have hkept := closedTo_blocks_suffix h line.indent
  rw [addCode_eq, addItem_blocks, openedFor]
  split
  · next hopens =>
    simp only [Bool.and_eq_true, decide_eq_true_eq] at hopens
    exact .opens hkept (level_lt_of_head hopens.1)
  · exact .leaves hkept

lemma place_blocksStep (h : o.Levelled) (line : LogicalLine) (rest : List LogicalLine) :
    BlocksStep line o.blocks (o.place line rest).blocks := by
  unfold place
  split
  · exact .leaves (List.suffix_refl _)
  · rw [addComment_blocks h]
    exact .leaves (commentBlocks_suffix ..)
  · exact addCode_blocksStep h line rest

theorem step_blocksStep (h : o.Aligned (line :: rest)) : BlocksStep line o.blocks (o.step line rest).blocks := by
  cases hawaiting : o.awaiting with
  | nothing =>
    rw [step_nothing hawaiting]
    exact place_blocksStep h.toLevelled line rest
  | block opening =>
    rw [step_block hawaiting]
    split
    · exact .leaves (List.suffix_refl _)
    · exact .leaves (List.suffix_refl _)
    · next hkind =>
      have hdeeper := h.deeper (.inr ⟨opening, hawaiting⟩)
      rw [nextWidth_code hkind] at hdeeper
      rw [addItem_blocks]
      exact .opens (List.suffix_refl _) (level_lt_of_head hdeeper)
  | python body =>
    rw [step_python hawaiting]
    split
    · exact .leaves (List.suffix_refl _)
    · rw [← resume_blocks o body.close]
      exact place_blocksStep (h.toLevelled.resume _) line rest

theorem BlocksStep.levelsFall {bs bs' : List Block} (h : BlocksStep line bs bs') (hbs : LevelsFall bs) :
    LevelsFall bs' := by
  cases h with
  | leaves hkept => exact hbs.sublist hkept.sublist
  | @opens kept hkept hdeeper =>
    have hfalls : LevelsFall kept := hbs.sublist hkept.sublist
    refine List.pairwise_cons.mpr ⟨fun b hb => ?_, hfalls⟩
    cases hb with
    | head => exact hdeeper _ rfl
    | tail a hb => exact Nat.lt_trans ((List.pairwise_cons.mp hfalls).1 b hb) (hdeeper a rfl)

theorem runBefore_aligned (h : o.Aligned (before ++ after)) : (o.runBefore before after).Aligned after := by
  induction before generalizing o with
  | nil => exact h
  | cons line before ih => exact ih h.step

/-- The levels of the open blocks fall all along the lines. -/
theorem runBefore_levelsFall (h : o.Aligned (before ++ after)) (hblocks : LevelsFall o.blocks) :
    LevelsFall (o.runBefore before after).blocks := by
  induction before generalizing o with
  | nil => exact hblocks
  | cons line before ih => exact ih h.step ((step_blocksStep h).levelsFall hblocks)

/-! ## Lines that are taken and lines that are not -/

/-- The outline in front of a line that is not part of the Python body. -/
def endPython (o : Outline) : Outline :=
  match o.awaiting with
  | .python body => o.resume body.close
  | _ => o

lemma endPython_blocks (o : Outline) : o.endPython.blocks = o.blocks := by
  unfold endPython
  split
  · exact resume_blocks ..
  · rfl

lemma Levelled.endPython (h : o.Levelled) : o.endPython.Levelled := by
  unfold Outline.endPython
  split
  · exact h.resume _
  · exact h

lemma step_taken_blocks (htaken : o.awaiting.takes line rest = true) : (o.step line rest).blocks = o.blocks := by
  cases hawaiting : o.awaiting with
  | nothing => simp [hawaiting, Awaiting.takes] at htaken
  | block opening =>
    rw [step_block hawaiting]
    split
    · rfl
    · rfl
    · next hkind => simp [hawaiting, Awaiting.takes, hkind] at htaken
  | python body =>
    rw [hawaiting, Awaiting.takes] at htaken
    rw [step_python hawaiting, if_pos htaken]
    rfl

lemma step_comment (hkind : line.kind = .comment) (hfree : o.awaiting.takes line rest = false) :
    o.step line rest = o.endPython.addComment line rest := by
  unfold endPython
  cases hawaiting : o.awaiting with
  | nothing => rw [step_nothing hawaiting, place, hkind]
  | block opening => simp [hawaiting, Awaiting.takes, hkind] at hfree
  | python body =>
    rw [hawaiting, Awaiting.takes] at hfree
    rw [step_python hawaiting, if_neg (by simp [hfree]), place, hkind]

lemma nextBlocks_eq (h : o.Levelled) : o.nextBlocks line rest o.blocks = (o.step line rest).blocks := by
  unfold nextBlocks
  split
  · next htaken => exact (step_taken_blocks htaken).symm
  · next hfree =>
    rw [Bool.not_eq_true] at hfree
    split
    · next hkind => rw [step_blank hkind]
    · next hkind => rw [step_comment hkind hfree, addComment_blocks h.endPython, endPython_blocks]
    · rfl

/-- The blocks that are followed along the lines are the open blocks of the outline. -/
theorem openBlocks_eq (h : o.Aligned (before ++ after)) :
    o.openBlocks o.blocks before after = (o.runBefore before after).blocks := by
  induction before generalizing o with
  | nil => rfl
  | cons line before ih =>
    rw [openBlocks, nextBlocks_eq h.toLevelled]
    exact ih h.step

end

end Outline

end RenpyScript
