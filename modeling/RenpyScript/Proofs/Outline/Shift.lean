import RenpyScript.Proofs.Layout.Seams
import RenpyScript.Proofs.Line.Shift
import RenpyScript.Proofs.Outline.Placement

/-!
# Outlines behind other items

`o.behind k before` is the outline `o` as it looks if its text begins `k` bytes further to the right
and the items `before` are finished already. Adding a line, moved as well, commutes with this: what
is finished is never looked at again, and offsets are only passed on.
-/

namespace RenpyScript

def Opening.shift (k : Nat) (o : Opening) : Opening :=
  { o with owner := o.owner.shift k, start := o.start + k }

def PythonBody.shift (k : Nat) (p : PythonBody) : PythonBody :=
  { p with children := p.children.map (Node.shift k), start := p.start + k }

def Frame.shift (k : Nat) (f : Frame) : Frame :=
  { f with
    start := f.start + k
    items := f.items.map (Node.shift k)
    opening := f.opening.map (Opening.shift k) }

/-- What is waited for, further to the right. -/
def Awaiting.shift (k : Nat) : Awaiting → Awaiting
  | .nothing => .nothing
  | .block opening => .block (opening.shift k)
  | .python body => .python (body.shift k)

/-- What is waited for has a first node. -/
inductive Awaiting.Begun : Awaiting → Prop
  | nothing : Begun .nothing
  | block {opening : Opening} (nonempty : opening.owner.head ≠ []) : Begun (.block opening)
  | python {body : PythonBody} (nonempty : body.children ≠ []) : Begun (.python body)

section
variable {k rows : Nat} {l : LogicalLine} {ls : List LogicalLine}

@[simp] lemma shift_line_kind (k rows : Nat) (l : LogicalLine) : (l.shift k rows).kind = l.kind := rfl

lemma commentNode_shift (k rows : Nat) (l : LogicalLine) :
    (l.shift k rows).commentNode = l.commentNode.shift k := by
  rw [LogicalLine.commentNode, LogicalLine.commentNode, ← Node.leaf_shift, LogicalLine.span,
    LogicalLine.span, ← Span.covering_shift]
  rfl

lemma unread_shift (k rows : Nat) (l : LogicalLine) : (l.shift k rows).unread = l.unread.shift k := rfl

lemma nextCodeIndent?_shift (k rows : Nat) (ls : List LogicalLine) :
    nextCodeIndent? (ls.map (LogicalLine.shift k rows)) = nextCodeIndent? ls := by
  rw [nextCodeIndent?, nextCodeIndent?, List.find?_map, Option.map_map]
  rfl

lemma deeperFollows_shift (k rows width : Nat) (ls : List LogicalLine) :
    deeperFollows width (ls.map (LogicalLine.shift k rows)) = deeperFollows width ls := by
  rw [deeperFollows, deeperFollows, nextCodeIndent?_shift]

end

lemma settle_shift (misaligned : Bool) (k start : Nat) (items : List Node) :
    settle misaligned (start + k) (items.map (Node.shift k)) =
      (settle misaligned start items).map (Node.shift k) := by
  unfold settle
  cases misaligned with
  | false => rfl
  | true =>
    rcases items with _ | ⟨n, _ | ⟨m, ns⟩⟩
    · exact congrArg (fun n => [n]) (Node.branch_shift k [] .error start)
    · simp only [List.map_cons, List.map_nil, Node.shift_isError]
      split
      · split
        · rfl
        · exact congrArg (fun n => [n]) (Node.branch_shift k [n] .error start)
      · rfl
    · exact congrArg (fun n => [n]) (Node.branch_shift k (n :: m :: ns) .error start)

namespace Opening

lemma close_shift (k : Nat) (o : Opening) (block : Node) :
    (o.shift k).close (block.shift k) = (o.close block).map (Node.shift k) := by
  rw [close, close, ← settle_shift, List.map_cons, ← Owner.close_shift]
  rfl

lemma closeWithout_shift (k : Nat) (o : Opening) (hne : o.owner.head ≠ []) :
    (o.shift k).closeWithout = o.closeWithout.map (Node.shift k) := by
  have hend : (o.shift k).owner.headEnd = o.owner.headEnd + k := Owner.headEnd_shift k o.owner hne
  rw [closeWithout, closeWithout, hend, Node.absent_shift, close_shift]

lemma addComment_shift (k : Nat) (o : Opening) (comment : Node) :
    (o.shift k).addComment (comment.shift k) = (o.addComment comment).shift k := by
  simp only [addComment, shift, Owner.shift, List.map_append, List.map_cons, List.map_nil]

end Opening

namespace PythonBody

lemma holds_shift (k rows : Nat) (p : PythonBody) (line : LogicalLine) (rest : List LogicalLine) :
    (p.shift k).holds (line.shift k rows) (rest.map (LogicalLine.shift k rows)) = p.holds line rest := by
  unfold holds
  rw [shift_line_kind, deeperFollows_shift]
  rfl

lemma add_shift (k rows : Nat) (p : PythonBody) (line : LogicalLine) :
    (p.shift k).add (line.shift k rows) = (p.add line).shift k := by
  unfold add
  rw [shift_line_kind]
  split
  · rfl
  · rw [commentNode_shift]
    simp only [shift, List.map_append, List.map_cons, List.map_nil]
  · rw [unread_shift, Unread.expressionPieces_shift]
    simp only [shift, List.map_append, List.any_map, Function.comp_def, Node.shift_kind]

lemma close_shift (k : Nat) (p : PythonBody) (hne : p.children ≠ []) :
    (p.shift k).close = p.close.map (Node.shift k) := by
  have hend : (p.shift k).childrenEnd = p.childrenEnd + k := Node.lastStop_shift k p.children hne
  have hcode : (p.shift k).hasCode = p.hasCode := rfl
  have hchildren : (if p.hasCode then (p.shift k).children
        else (p.shift k).children ++ [.absent .pythonExpression (p.shift k).childrenEnd]) =
      (if p.hasCode then p.children
        else p.children ++ [.absent .pythonExpression p.childrenEnd]).map (Node.shift k) := by
    rw [hend, Node.absent_shift]
    split
    · rfl
    · rw [List.map_append]
      rfl
  unfold close
  dsimp only
  rw [hcode, hchildren, ← settle_shift, List.map_cons, ← Node.branch_shift]
  rfl

end PythonBody

lemma Frame.close_shift (k : Nat) (f : Frame) : (f.shift k).close = f.close.map (Node.shift k) := by
  obtain ⟨level, start, items, opening⟩ := f
  have hblock : Node.branch .block (items.map (Node.shift k)) (start + k) =
      (Node.branch .block items start).shift k := Node.branch_shift k items .block start
  unfold Frame.close Frame.shift
  dsimp only
  rw [hblock]
  cases opening with
  | none => rfl
  | some opening => exact opening.close_shift k _

namespace Outline

/-- The outline further to the right and behind the items `before`. -/
def behind (k : Nat) (before : List Node) (o : Outline) : Outline :=
  { o with
    frames := o.frames.map (Frame.shift k)
    items := before ++ o.items.map (Node.shift k)
    awaiting := o.awaiting.shift k }

section
variable (k rows : Nat) (before : List Node) (o : Outline)

lemma add_behind (items : List Node) :
    (o.behind k before).add (items.map (Node.shift k)) = (o.add items).behind k before := by
  obtain ⟨indents, frames, done, awaiting, misaligned⟩ := o
  cases frames with
  | nil => simp [Outline.add, behind]
  | cons f fs => simp [Outline.add, behind, Frame.shift]

lemma resume_behind (items : List Node) :
    (o.behind k before).resume (items.map (Node.shift k)) = (o.resume items).behind k before := by
  rw [resume, resume, ← add_behind]
  rfl

lemma closeFrame_behind : (o.behind k before).closeFrame = o.closeFrame.behind k before := by
  obtain ⟨indents, frames, done, awaiting, misaligned⟩ := o
  cases frames with
  | nil => rfl
  | cons f fs =>
    have hadd := add_behind k before ⟨indents, fs, done, awaiting, misaligned⟩ f.close
    rw [← Frame.close_shift] at hadd
    exact hadd

lemma closeFrames_behind (n : Nat) :
    closeFrames n (o.behind k before) = (closeFrames n o).behind k before := by
  induction n generalizing o with
  | zero => rfl
  | succ n ih => rw [closeFrames, closeFrame_behind, ih, closeFrames]

lemma dedent_behind (width : Nat) : (o.behind k before).dedent width = (o.dedent width).behind k before := by
  rw [dedent_eq, dedent_eq]
  exact closeFrames_behind k before { o with
    indents := (o.indents.dedentTo width).2
    misaligned := o.misaligned || (o.indents.dedentTo width).1.isInconsistent } _

lemma level_behind : (o.behind k before).level = o.level := by
  obtain ⟨indents, frames, done, awaiting, misaligned⟩ := o
  cases frames with
  | nil => rfl
  | cons f fs => rfl

lemma openFrame_behind (line : LogicalLine) (opening : Option Opening) :
    (o.behind k before).openFrame (line.shift k rows) (opening.map (Opening.shift k)) =
      (o.openFrame line opening).behind k before :=
  rfl

lemma commentCloses_behind (line : LogicalLine) (rest : List LogicalLine) :
    (o.behind k before).commentCloses (line.shift k rows) (rest.map (LogicalLine.shift k rows)) =
      o.commentCloses line rest := by
  obtain ⟨indents, frames, done, awaiting, misaligned⟩ := o
  unfold commentCloses
  rw [nextCodeIndent?_shift]
  cases frames with
  | nil => rfl
  | cons f fs => rfl

lemma addComment_behind (line : LogicalLine) (rest : List LogicalLine) :
    (o.behind k before).addComment (line.shift k rows) (rest.map (LogicalLine.shift k rows)) =
      (o.addComment line rest).behind k before := by
  rw [addComment_eq, addComment_eq, commentCloses_behind, nextCodeIndent?_shift, commentNode_shift,
    ← add_behind, List.map_cons, List.map_nil, dedent_behind]
  split
  · rfl
  · rfl

lemma formOf_behind (line : LogicalLine) (rest : List LogicalLine) :
    (o.behind k before).formOf (line.shift k rows) (rest.map (LogicalLine.shift k rows)) =
      (o.formOf line rest).shift k := by
  have hframes : (o.behind k before).frames.isEmpty = o.frames.isEmpty := List.isEmpty_map
  unfold formOf
  rw [hframes, deeperFollows_shift, unread_shift]
  split
  · exact Form.topLevel_shift _ k line.unread
  · exact Form.nested_shift k line.unread

variable {o}

lemma addForm_behind {pos : Nat} {cs : List Char} {form : Form} (h : form.LaidOn pos cs)
    (line : LogicalLine) (misaligned bodyFollows : Bool) :
    (o.behind k before).addForm (line.shift k rows) misaligned bodyFollows (form.shift k) =
      (o.addForm line misaligned bodyFollows form).behind k before := by
  cases h with
  | @items nodes laid =>
    have hsettle := settle_shift misaligned k line.start nodes
    rw [Form.shift, Outline.addForm, Outline.addForm, ← add_behind, ← hsettle]
    rfl
  | @opens owner laid nonempty kind =>
    rw [Form.shift, Outline.addForm, Outline.addForm]
    split
    · rfl
    · rw [← add_behind, ← Opening.closeWithout_shift k _ nonempty]
      rfl
  | opensPython laid nonempty => rfl

lemma addItem_behind (line : LogicalLine) (rest : List LogicalLine) :
    (o.behind k before).addItem (line.shift k rows) (rest.map (LogicalLine.shift k rows)) =
      (o.addItem line rest).behind k before := by
  have hindent : (line.shift k rows).indent = line.indent := rfl
  rw [addItem_eq, addItem_eq, formOf_behind, deeperFollows_shift, hindent]
  exact addForm_behind k rows before (o := { o with misaligned := false }) (formOf_laidOn o line rest)
    line o.misaligned _

lemma closedTo_behind (width : Nat) :
    (o.behind k before).closedTo width = (o.closedTo width).behind k before := by
  unfold closedTo
  rw [level_behind, dedent_behind]
  split
  · rfl
  · rfl

lemma openedFor_behind (line : LogicalLine) :
    (o.behind k before).openedFor (line.shift k rows) = (o.openedFor line).behind k before := by
  have hindent : (line.shift k rows).indent = line.indent := rfl
  have hmisaligned : (o.behind k before).misaligned = o.misaligned := rfl
  unfold openedFor
  rw [level_behind, hindent, hmisaligned]
  split
  · exact openFrame_behind k rows before o line none
  · rfl

lemma addCode_behind (line : LogicalLine) (rest : List LogicalLine) :
    (o.behind k before).addCode (line.shift k rows) (rest.map (LogicalLine.shift k rows)) =
      (o.addCode line rest).behind k before := by
  have hindent : (line.shift k rows).indent = line.indent := rfl
  rw [addCode_eq, addCode_eq, hindent, closedTo_behind, openedFor_behind, addItem_behind]

lemma place_behind (line : LogicalLine) (rest : List LogicalLine) :
    (o.behind k before).place (line.shift k rows) (rest.map (LogicalLine.shift k rows)) =
      (o.place line rest).behind k before := by
  unfold Outline.place
  rw [shift_line_kind]
  split
  · rfl
  · exact addComment_behind k rows before o line rest
  · exact addCode_behind k rows before line rest

theorem step_behind (h : o.awaiting.Begun) (line : LogicalLine) (rest : List LogicalLine) :
    (o.behind k before).step (line.shift k rows) (rest.map (LogicalLine.shift k rows)) =
      (o.step line rest).behind k before := by
  have hmoved : (o.behind k before).awaiting = o.awaiting.shift k := rfl
  generalize hawaiting : o.awaiting = awaiting at h
  rw [hawaiting] at hmoved
  cases h with
  | nothing =>
    rw [step_nothing hmoved, step_nothing hawaiting, place_behind]
  | @block opening nonempty =>
    rw [step_block hmoved, step_block hawaiting, shift_line_kind]
    split
    · rfl
    · rw [commentNode_shift, Opening.addComment_shift]
      rfl
    · rw [← addItem_behind k rows, ← openFrame_behind k rows]
      rfl
  | @python body nonempty =>
    rw [step_python hmoved, step_python hawaiting, PythonBody.holds_shift, PythonBody.add_shift,
      PythonBody.close_shift k body nonempty, resume_behind, place_behind]
    split
    · rfl
    · rfl

end

/-! ## What is waited for has begun -/

section
variable {o : Outline} {line : LogicalLine} {rest : List LogicalLine}

lemma addForm_begun {pos : Nat} {cs : List Char} {form : Form} {misaligned bodyFollows : Bool}
    (h : form.LaidOn pos cs) (hawaiting : o.awaiting = .nothing) :
    (o.addForm line misaligned bodyFollows form).awaiting.Begun := by
  cases h with
  | items laid =>
    rw [Outline.addForm, add_awaiting, hawaiting]
    exact .nothing
  | opens laid nonempty kind =>
    rw [Outline.addForm]
    split
    · exact .block nonempty
    · rw [add_awaiting, hawaiting]
      exact .nothing
  | opensPython laid nonempty => exact .python nonempty

lemma addItem_begun (hawaiting : o.awaiting = .nothing) : (o.addItem line rest).awaiting.Begun := by
  rw [addItem_eq]
  exact addForm_begun (formOf_laidOn o line rest) hawaiting

lemma place_begun (hawaiting : o.awaiting = .nothing) : (o.place line rest).awaiting.Begun := by
  unfold Outline.place
  split
  · rw [hawaiting]
    exact .nothing
  · rw [addComment_awaiting, hawaiting]
    exact .nothing
  · rw [addCode_eq]
    exact addItem_begun (by rw [openedFor_awaiting, closedTo_awaiting, hawaiting])

lemma step_begun (h : o.awaiting.Begun) : (o.step line rest).awaiting.Begun := by
  generalize hawaiting : o.awaiting = awaiting at h
  cases h with
  | nothing =>
    rw [step_nothing hawaiting]
    exact place_begun hawaiting
  | block nonempty =>
    rw [step_block hawaiting]
    split
    · rw [hawaiting]
      exact .block nonempty
    · exact .block (by simp [Opening.addComment])
    · exact addItem_begun rfl
  | python nonempty =>
    rw [step_python hawaiting]
    split
    · exact .python (python_add_ne_nil nonempty line)
    · exact place_begun (resume_awaiting _ _)

end

/-! ## Whole documents -/

section
variable {o : Outline} (k rows : Nat) (before : List Node)

theorem run_behind (h : o.awaiting.Begun) (lines : List LogicalLine) :
    (o.behind k before).run (lines.map (LogicalLine.shift k rows)) = (o.run lines).behind k before := by
  induction lines generalizing o with
  | nil => rfl
  | cons line rest ih =>
    rw [List.map_cons, Outline.run, Outline.run, step_behind k rows before h]
    exact ih (step_begun h)

lemma run_begun {o : Outline} (h : o.awaiting.Begun) (lines : List LogicalLine) :
    (o.run lines).awaiting.Begun := by
  induction lines generalizing o with
  | nil => exact h
  | cons line rest ih => exact ih (step_begun h)

lemma endAwaiting_behind (h : o.awaiting.Begun) :
    (o.behind k before).endAwaiting = o.endAwaiting.behind k before := by
  have hmoved : (o.behind k before).awaiting = o.awaiting.shift k := rfl
  generalize hawaiting : o.awaiting = awaiting at h
  rw [hawaiting] at hmoved
  cases h with
  | nothing => rw [endAwaiting_nothing hmoved, endAwaiting_nothing hawaiting]
  | @block opening nonempty =>
    rw [endAwaiting_block hmoved, endAwaiting_block hawaiting, opening.closeWithout_shift k nonempty,
      resume_behind]
  | @python body nonempty =>
    rw [endAwaiting_python hmoved, endAwaiting_python hawaiting, body.close_shift k nonempty, resume_behind]

theorem finish_behind (h : o.awaiting.Begun) :
    (o.behind k before).finish = before ++ o.finish.map (Node.shift k) := by
  have hlength : (o.endAwaiting.behind k before).frames.length = o.endAwaiting.frames.length :=
    List.length_map ..
  unfold Outline.finish
  dsimp only
  rw [endAwaiting_behind k before h, hlength, closeFrames_behind]
  rfl

end

end Outline

end RenpyScript
