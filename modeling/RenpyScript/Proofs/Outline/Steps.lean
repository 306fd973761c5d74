import Mathlib.Tactic.Lemma
import RenpyScript.Outline

/-!
# Steps of an outline

The parts that a step is made of, and which fields of the outline each of them changes.
-/

namespace RenpyScript

namespace LogicalLine
variable {l : LogicalLine}

lemma kind_eq_blank_iff : l.kind = .blank ↔ l.content = [] := by
  unfold kind
  split
  · simp_all
  · simp_all
  · simp_all

end LogicalLine

namespace Outline

/-- Whether the comment closes blocks: it stands to the left of the innermost block, and that block
does not go on behind it. -/
def commentCloses (o : Outline) (line : LogicalLine) (rest : List LogicalLine) : Bool :=
  match o.frames with
  | [] => false
  | f :: _ => line.indent < f.level && !(nextCodeIndent? rest).any (f.level ≤ ·)

lemma addComment_eq (o : Outline) (line : LogicalLine) (rest : List LogicalLine) :
    o.addComment line rest =
      (if o.commentCloses line rest then o.dedent ((nextCodeIndent? rest).getD 0) else o).add
        [line.commentNode] :=
  rfl

/-- The form of a line, which depends on where it stands and whether a deeper line follows. -/
def formOf (o : Outline) (line : LogicalLine) (rest : List LogicalLine) : Form :=
  if o.frames.isEmpty then .topLevel (deeperFollows line.indent rest) line.unread
  else .nested line.unread

def addForm (o : Outline) (line : LogicalLine) (misaligned bodyFollows : Bool) : Form → Outline
  | .items nodes => o.add (settle misaligned line.start nodes)
  | .opens owner =>
    if bodyFollows then { o with awaiting := .block ⟨owner, line.start, misaligned⟩ }
    else o.add (Opening.closeWithout ⟨owner, line.start, misaligned⟩)
  | .opensPython head =>
    { o with awaiting := .python ⟨head, false, line.indent, line.start, misaligned⟩ }

lemma addItem_eq (o : Outline) (line : LogicalLine) (rest : List LogicalLine) :
    o.addItem line rest =
      { o with misaligned := false }.addForm line o.misaligned (deeperFollows line.indent rest)
        (o.formOf line rest) := by
  unfold addItem formOf
  dsimp only
  split
  · next h => rw [h, addForm]
  · next h => rw [h, addForm]
  · next h => rw [h, addForm]

/-- The outline once the blocks are closed that a code line of the given width is not part of. -/
def closedTo (o : Outline) (width : Nat) : Outline :=
  if width < o.level then o.dedent width else o

/-- The outline in which a code line is added: a block is opened for a line that is deeper. -/
def openedFor (o : Outline) (line : LogicalLine) : Outline :=
  if o.level < line.indent && !o.misaligned then o.openFrame line none else o

lemma addCode_eq (o : Outline) (line : LogicalLine) (rest : List LogicalLine) :
    o.addCode line rest = ((o.closedTo line.indent).openedFor line).addItem line rest :=
  rfl

def waitFor (o : Outline) (awaiting : Awaiting) : Outline :=
  { o with awaiting }

/-- The outline once what the last line waits for has come to an end. -/
def resume (o : Outline) (items : List Node) : Outline :=
  (o.waitFor .nothing).add items

section
variable {o : Outline} {line : LogicalLine} {rest : List LogicalLine}

lemma dedent_eq (o : Outline) (width : Nat) :
    o.dedent width = closeFrames (o.indents.dedentTo width).1.closed
      { o with
        indents := (o.indents.dedentTo width).2
        misaligned := o.misaligned || (o.indents.dedentTo width).1.isInconsistent } :=
  rfl

lemma step_nothing (h : o.awaiting = .nothing) : o.step line rest = o.place line rest := by
  rw [step, h]

lemma step_block {opening : Opening} (h : o.awaiting = .block opening) :
    o.step line rest =
      match line.kind with
      | .blank => o
      | .comment => o.waitFor (.block (opening.addComment line.commentNode))
      | .code => ((o.waitFor .nothing).openFrame line (some opening)).addItem line rest := by
  rw [step, h]
  rfl

lemma step_python {body : PythonBody} (h : o.awaiting = .python body) :
    o.step line rest =
      if body.holds line rest then o.waitFor (.python (body.add line))
      else (o.resume body.close).place line rest := by
  rw [step, h]
  rfl

lemma endAwaiting_nothing (h : o.awaiting = .nothing) : o.endAwaiting = o := by
  rw [endAwaiting, h]

lemma endAwaiting_block {opening : Opening} (h : o.awaiting = .block opening) :
    o.endAwaiting = o.resume opening.closeWithout := by
  rw [endAwaiting, h]
  rfl

lemma endAwaiting_python {body : PythonBody} (h : o.awaiting = .python body) :
    o.endAwaiting = o.resume body.close := by
  rw [endAwaiting, h]
  rfl

end

/-! ## What changes and what stays as it is -/

lemma add_frames_length (o : Outline) (items : List Node) :
    (o.add items).frames.length = o.frames.length := by
  unfold Outline.add
  split
  · rfl
  · next h => simp [h]

lemma closeFrame_frames_length (o : Outline) : o.closeFrame.frames.length = o.frames.length - 1 := by
  unfold closeFrame
  split
  · next h => simp [h]
  · next h => simp [h, add_frames_length]

lemma closeFrames_frames_length (k : Nat) (o : Outline) :
    (closeFrames k o).frames.length = o.frames.length - k := by
  induction k generalizing o with
  | zero => rfl
  | succ k ih =>
    rw [closeFrames, ih, closeFrame_frames_length]
    omega

lemma closeFrames_all (o : Outline) : (closeFrames o.frames.length o).frames = [] := by
  rw [← List.length_eq_zero_iff, closeFrames_frames_length, Nat.sub_self]

section
variable (o : Outline) (items : List Node)

@[simp] lemma add_indents : (o.add items).indents = o.indents := by
  unfold Outline.add
  split
  · rfl
  · rfl

@[simp] lemma add_awaiting : (o.add items).awaiting = o.awaiting := by
  unfold Outline.add
  split
  · rfl
  · rfl

@[simp] lemma add_misaligned : (o.add items).misaligned = o.misaligned := by
  unfold Outline.add
  split
  · rfl
  · rfl

lemma resume_awaiting : (o.resume items).awaiting = .nothing := by
  rw [resume, add_awaiting]
  rfl

lemma resume_misaligned : (o.resume items).misaligned = o.misaligned := by
  rw [resume, add_misaligned]
  rfl

lemma add_nil : o.add [] = o := by
  obtain ⟨indents, frames, items, awaiting, misaligned⟩ := o
  cases frames with
  | nil => simp [Outline.add]
  | cons f fs => simp [Outline.add]

@[simp] lemma closeFrame_awaiting : o.closeFrame.awaiting = o.awaiting := by
  unfold closeFrame
  split
  · rfl
  · rw [add_awaiting]

@[simp] lemma closeFrames_awaiting (k : Nat) : (closeFrames k o).awaiting = o.awaiting := by
  induction k generalizing o with
  | zero => rfl
  | succ k ih => rw [closeFrames, ih, closeFrame_awaiting]

@[simp] lemma closeFrame_indents : o.closeFrame.indents = o.indents := by
  unfold closeFrame
  split
  · rfl
  · rw [add_indents]

@[simp] lemma closeFrames_indents (k : Nat) : (closeFrames k o).indents = o.indents := by
  induction k generalizing o with
  | zero => rfl
  | succ k ih => rw [closeFrames, ih, closeFrame_indents]

@[simp] lemma closeFrame_misaligned : o.closeFrame.misaligned = o.misaligned := by
  unfold closeFrame
  split
  · rfl
  · rw [add_misaligned]

@[simp] lemma closeFrames_misaligned (k : Nat) :
    (closeFrames k o).misaligned = o.misaligned := by
  induction k generalizing o with
  | zero => rfl
  | succ k ih => rw [closeFrames, ih, closeFrame_misaligned]

@[simp] lemma dedent_awaiting (width : Nat) : (o.dedent width).awaiting = o.awaiting := by
  unfold dedent
  rw [closeFrames_awaiting]

lemma closedTo_awaiting (width : Nat) : (o.closedTo width).awaiting = o.awaiting := by
  unfold closedTo
  split
  · rw [dedent_awaiting]
  · rfl

lemma openedFor_awaiting (line : LogicalLine) : (o.openedFor line).awaiting = o.awaiting := by
  unfold openedFor
  split
  · rfl
  · rfl

lemma addComment_awaiting (line : LogicalLine) (rest : List LogicalLine) :
    (o.addComment line rest).awaiting = o.awaiting := by
  rw [addComment_eq, add_awaiting]
  split
  · rw [dedent_awaiting]
  · rfl

end

end Outline

end RenpyScript
