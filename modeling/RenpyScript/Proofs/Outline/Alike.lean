import Mathlib.Data.List.Forall2
import RenpyScript.Proofs.Line.Shift
import RenpyScript.Proofs.Outline.Steps
import RenpyScript.Proofs.Outline.Levels

/-!
# Outlines side by side

Two documents whose lines correspond are run side by side. Corresponding lines are of one kind, say the
same, and have widths in the same order. Then the outlines stay alike: the open blocks correspond, with
changed widths, and everything that has been read has the same shape.
-/

namespace RenpyScript

open Node

/-! ## Lines -/

/-- The two lines say the same in their texts; `f` takes the width of the one to that of the other. -/
structure LogicalLine.Alike (f : Nat → Nat) (s : Set Nat) (text text' : List Char) (l l' : LogicalLine) : Prop where
  kind : l'.kind = l.kind
  indent : l'.indent = f l.indent
  mem : l.indent ∈ s
  comment : SameShapes text text' [l.commentNode] [l'.commentNode]
  topLevel : ∀ bodyFollows, (Form.topLevel bodyFollows l.unread).Alike text text' (.topLevel bodyFollows l'.unread)
  nested : (Form.nested l.unread).Alike text text' (.nested l'.unread)
  pieces : SameShapes text text' (l.unread.expressionPieces .pythonExpression)
    (l'.unread.expressionPieces .pythonExpression)

section
variable {f : Nat → Nat} {s : Set Nat} {text text' : List Char} {ls ls' : List LogicalLine}

lemma nextCodeIndent?_alike (h : List.Forall₂ (LogicalLine.Alike f s text text') ls ls') :
    nextCodeIndent? ls' = (nextCodeIndent? ls).map f := by
  induction h with
  | nil => rfl
  | @cons l l' ls ls' hl _ ih =>
    by_cases hkind : l.kind = .code
    · rw [nextCodeIndent?_code hkind, nextCodeIndent?_code (hl.kind.trans hkind), hl.indent, Option.map_some]
    · rw [nextCodeIndent?_other hkind, nextCodeIndent?_other (hl.kind ▸ hkind), ih]

lemma nextCodeIndent?_mem (h : List.Forall₂ (LogicalLine.Alike f s text text') ls ls') {w : Nat}
    (hw : nextCodeIndent? ls = some w) : w ∈ s := by
  induction h with
  | nil => simp [nextCodeIndent?] at hw
  | @cons l l' ls ls' hl _ ih =>
    by_cases hkind : l.kind = .code
    · rw [nextCodeIndent?_code hkind, Option.some.injEq] at hw
      exact hw ▸ hl.mem
    · rw [nextCodeIndent?_other hkind] at hw
      exact ih hw

lemma deeperFollows_alike (hf : KeepsOrder f s) (h : List.Forall₂ (LogicalLine.Alike f s text text') ls ls')
    {width : Nat} (hwidth : width ∈ s) : deeperFollows (f width) ls' = deeperFollows width ls := by
  rw [deeperFollows, deeperFollows, nextCodeIndent?_alike h]
  rcases hnext : nextCodeIndent? ls with _ | w
  · rfl
  · have hlt := hf.lt_iff hwidth (nextCodeIndent?_mem h hnext)
    simp only [Option.map_some, Option.any_some, hlt]

end

/-! ## Items -/

section
variable {text text' : List Char} {ns ns' : List Node}

lemma SameShapes.settle (misaligned : Bool) (start start' : Nat) (h : SameShapes text text' ns ns') :
    SameShapes text text' (settle misaligned start ns) (settle misaligned start' ns') := by
  unfold RenpyScript.settle
  cases misaligned with
  | false => exact h
  | true =>
    have hlength : ns'.length = ns.length := by
      have hl := congrArg List.length h
      rwa [List.length_map, List.length_map] at hl
    rcases ns with _ | ⟨n, _ | ⟨m, ns⟩⟩
    · obtain rfl : ns' = [] := List.eq_nil_of_length_eq_zero hlength
      exact h.branch .error start start'
    · obtain ⟨n', rfl⟩ := List.length_eq_one_iff.mp hlength
      have hkind : n'.isError = n.isError := by
        have hn : n'.shape text' = n.shape text := by simpa [SameShapes] using h
        rw [isError, isError, (sameShape_of_eq hn).kind]
      simp only [hkind]
      split
      · split
        · exact h
        · exact h.branch .error start start'
      · exact h
    · rcases ns' with _ | ⟨n', _ | ⟨m', ns'⟩⟩
      · simp at hlength
      · simp at hlength
      · exact h.branch .error start start'

lemma Owner.close_sameShapes {o o' : Owner} {start start' : Nat} {block block' : Node} (hkind : o'.kind = o.kind)
    (hhead : SameShapes text text' o.head o'.head) (hblock : SameShapes text text' [block] [block']) :
    SameShapes text text' [o.close start block] [o'.close start' block'] := by
  have hnode := (hhead.append (hblock.under .body)).branch o.kind start start'
  unfold Owner.close
  rw [hkind]
  dsimp only
  split
  · exact hnode
  · exact hnode.branch .statement start start'

end

/-! ## Outlines -/

section
variable (f : Nat → Nat) (s : Set Nat) (text text' : List Char)

structure Opening.Alike (o o' : Opening) : Prop where
  kind : o'.owner.kind = o.owner.kind
  head : SameShapes text text' o.owner.head o'.owner.head
  misaligned : o'.misaligned = o.misaligned

structure PythonBody.Alike (p p' : PythonBody) : Prop where
  children : SameShapes text text' p.children p'.children
  hasCode : p'.hasCode = p.hasCode
  indent : p'.indent = f p.indent
  mem : p.indent ∈ s
  misaligned : p'.misaligned = p.misaligned

structure Frame.Alike (a a' : Frame) : Prop where
  level : a'.level = f a.level
  mem : a.level ∈ s
  items : SameShapes text text' a.items a'.items
  opening : Option.Rel (Opening.Alike text text') a.opening a'.opening

inductive Awaiting.Alike : Awaiting → Awaiting → Prop
  | nothing : Alike .nothing .nothing
  | block {opening opening' : Opening} (alike : opening.Alike text text' opening') :
      Alike (.block opening) (.block opening')
  | python {body body' : PythonBody} (alike : body.Alike f s text text' body') :
      Alike (.python body) (.python body')

/-- Two outlines that differ in the widths of their blocks and in offsets only. -/
structure Outline.Alike (o o' : Outline) : Prop where
  widths : o'.indents.widths = o.indents.widths.map f
  mem : ∀ w ∈ o.indents.widths, w ∈ s
  frames : List.Forall₂ (Frame.Alike f s text text') o.frames o'.frames
  items : SameShapes text text' o.items o'.items
  awaiting : Awaiting.Alike f s text text' o.awaiting o'.awaiting
  misaligned : o'.misaligned = o.misaligned

end

section
variable {f : Nat → Nat} {s : Set Nat} {text text' : List Char}

lemma Opening.Alike.close {o o' : Opening} {block block' : Node} (h : o.Alike text text' o')
    (hblock : SameShapes text text' [block] [block']) :
    SameShapes text text' (o.close block) (o'.close block') := by
  rw [Opening.close, Opening.close, h.misaligned]
  apply SameShapes.settle
  exact Owner.close_sameShapes h.kind h.head hblock

lemma Opening.Alike.closeWithout {o o' : Opening} (h : o.Alike text text' o') :
    SameShapes text text' o.closeWithout o'.closeWithout :=
  h.close (sameShapes_absent .block _ _)

lemma PythonBody.Alike.close {p p' : PythonBody} (h : p.Alike f s text text' p') :
    SameShapes text text' p.close p'.close := by
  unfold PythonBody.close
  dsimp only
  rw [h.hasCode, h.misaligned]
  apply SameShapes.settle
  apply SameShapes.branch
  split
  · exact h.children
  · exact h.children.append (sameShapes_absent .pythonExpression _ _)

lemma Frame.Alike.close {a a' : Frame} (h : a.Alike f s text text' a') :
    SameShapes text text' a.close a'.close := by
  have hblock := h.items.branch .block a.start a'.start
  have hopening := h.opening
  unfold Frame.close
  dsimp only
  generalize a.opening = opening at hopening
  generalize a'.opening = opening' at hopening
  cases hopening with
  | none => exact hblock
  | some halike => exact halike.close hblock

namespace Outline.Alike
variable {o o' : Outline} {ns ns' : List Node} {width : Nat}

lemma add (h : o.Alike f s text text' o') (hns : SameShapes text text' ns ns') :
    (o.add ns).Alike f s text text' (o'.add ns') := by
  obtain ⟨indents, frames, items, awaiting, misaligned⟩ := o
  obtain ⟨indents', frames', items', awaiting', misaligned'⟩ := o'
  obtain ⟨hwidths, hmem, hframes, hitems, hawaiting, hmisaligned⟩ := h
  cases hframes with
  | nil => exact ⟨hwidths, hmem, .nil, hitems.append hns, hawaiting, hmisaligned⟩
  | cons hframe hframes =>
    refine ⟨hwidths, hmem, .cons ?_ hframes, hitems, hawaiting, hmisaligned⟩
    exact ⟨hframe.level, hframe.mem, hframe.items.append hns, hframe.opening⟩

lemma closeFrame (h : o.Alike f s text text' o') : o.closeFrame.Alike f s text text' o'.closeFrame := by
  obtain ⟨indents, frames, items, awaiting, misaligned⟩ := o
  obtain ⟨indents', frames', items', awaiting', misaligned'⟩ := o'
  obtain ⟨hwidths, hmem, hframes, hitems, hawaiting, hmisaligned⟩ := h
  cases hframes with
  | nil => exact ⟨hwidths, hmem, .nil, hitems, hawaiting, hmisaligned⟩
  | @cons a a' frames frames' hframe hframes =>
    have houter : Outline.Alike f s text text' ⟨indents, frames, items, awaiting, misaligned⟩
        ⟨indents', frames', items', awaiting', misaligned'⟩ :=
      ⟨hwidths, hmem, hframes, hitems, hawaiting, hmisaligned⟩
    exact houter.add hframe.close

lemma closeFrames (k : Nat) (h : o.Alike f s text text' o') :
    (closeFrames k o).Alike f s text text' (closeFrames k o') := by
  induction k generalizing o o' with
  | zero => exact h
  | succ k ih => exact ih h.closeFrame

lemma dedent (hf : KeepsOrder f s) (h : o.Alike f s text text' o') (hwidth : width ∈ s) :
    (o.dedent width).Alike f s text text' (o'.dedent (f width)) := by
  have hwidths := hf.dedentTo_widths h.widths h.mem hwidth
  have hkept : ∀ w ∈ (o.indents.dedentTo width).2.widths, w ∈ s :=
    fun w hw => h.mem w ((List.dropWhile_suffix _).subset hw)
  rw [dedent_eq, dedent_eq, hf.dedentTo_closed h.widths h.mem hwidth,
    hf.dedentTo_isInconsistent h.widths h.mem hwidth, h.misaligned]
  exact closeFrames _ ⟨hwidths, hkept, h.frames, h.items, h.awaiting, rfl⟩

lemma level (hf : KeepsOrder f s) (h : o.Alike f s text text' o') : o'.level = f o.level ∧ o.level ∈ s := by
  have hframes := h.frames
  unfold Outline.level
  generalize o.frames = frames at hframes
  generalize o'.frames = frames' at hframes
  cases hframes with
  | nil => exact ⟨hf.map_zero.symm, hf.zero_mem⟩
  | cons hframe _ => exact ⟨hframe.level, hframe.mem⟩

lemma isEmpty (h : o.Alike f s text text' o') : o'.frames.isEmpty = o.frames.isEmpty := by
  have hframes := h.frames
  generalize o.frames = frames at hframes
  generalize o'.frames = frames' at hframes
  cases hframes with
  | nil => rfl
  | cons _ _ => rfl

lemma waitFor {awaiting awaiting' : Awaiting} (h : o.Alike f s text text' o')
    (ha : awaiting.Alike f s text text' awaiting') :
    (o.waitFor awaiting).Alike f s text text' (o'.waitFor awaiting') :=
  ⟨h.widths, h.mem, h.frames, h.items, ha, h.misaligned⟩

lemma resume (h : o.Alike f s text text' o') (hns : SameShapes text text' ns ns') :
    (o.resume ns).Alike f s text text' (o'.resume ns') :=
  (h.waitFor .nothing).add hns

/-! ## Adding a line to both -/

variable {l l' : LogicalLine} {rest rest' : List LogicalLine}

lemma openFrame (hf : KeepsOrder f s) (h : o.Alike f s text text' o') (hl : l.Alike f s text text' l')
    {opening opening' : Option Opening} (ho : Option.Rel (Opening.Alike text text') opening opening') :
    (o.openFrame l opening).Alike f s text text' (o'.openFrame l' opening') := by
  refine ⟨?_, ?_, .cons ⟨hl.indent, hl.mem, rfl, ho⟩ h.frames, h.items, h.awaiting, h.misaligned⟩
  · have hpush := hf.push_widths_map h.widths h.mem hl.mem
    rw [← hl.indent] at hpush
    exact hpush
  · intro w hw
    have hpush := IndentStack.push_widths o.indents l.indent
    unfold Outline.openFrame at hw
    rw [hpush] at hw
    split at hw
    · rcases List.mem_cons.mp hw with rfl | hw
      · exact hl.mem
      · exact h.mem w hw
    · exact h.mem w hw

lemma closedTo (hf : KeepsOrder f s) (h : o.Alike f s text text' o') (hwidth : width ∈ s) :
    (o.closedTo width).Alike f s text text' (o'.closedTo (f width)) := by
  obtain ⟨hlevel, hmem⟩ := h.level hf
  have hlt := hf.lt_iff hwidth hmem
  unfold Outline.closedTo
  rw [hlevel]
  by_cases hclose : width < o.level
  · rw [if_pos hclose, if_pos (hlt.mpr hclose)]
    exact h.dedent hf hwidth
  · rw [if_neg hclose, if_neg (mt hlt.mp hclose)]
    exact h

lemma openedFor (hf : KeepsOrder f s) (h : o.Alike f s text text' o') (hl : l.Alike f s text text' l') :
    (o.openedFor l).Alike f s text text' (o'.openedFor l') := by
  obtain ⟨hlevel, hmem⟩ := h.level hf
  have hlt := hf.lt_iff hmem hl.mem
  have hopens : (decide (o'.level < l'.indent) && !o'.misaligned) =
      (decide (o.level < l.indent) && !o.misaligned) := by
    rw [hlevel, hl.indent, h.misaligned, decide_eq_decide.mpr hlt]
  unfold Outline.openedFor
  rw [hopens]
  split
  · exact h.openFrame hf hl .none
  · exact h

lemma commentCloses (hf : KeepsOrder f s) (h : o.Alike f s text text' o') (hl : l.Alike f s text text' l')
    (hrest : List.Forall₂ (LogicalLine.Alike f s text text') rest rest') :
    o'.commentCloses l' rest' = o.commentCloses l rest := by
  have hframes := h.frames
  unfold Outline.commentCloses
  rw [nextCodeIndent?_alike hrest, hl.indent]
  generalize o.frames = frames at hframes
  generalize o'.frames = frames' at hframes
  cases hframes with
  | nil => rfl
  | cons hframe _ =>
    have hlt := hf.lt_iff hl.mem hframe.mem
    dsimp only
    rw [hframe.level, decide_eq_decide.mpr hlt]
    rcases hnext : nextCodeIndent? rest with _ | w
    · rfl
    · have hle := hf.le_iff hframe.mem (nextCodeIndent?_mem hrest hnext)
      rw [Option.map_some, Option.any_some, Option.any_some, decide_eq_decide.mpr hle]

lemma addComment (hf : KeepsOrder f s) (h : o.Alike f s text text' o') (hl : l.Alike f s text text' l')
    (hrest : List.Forall₂ (LogicalLine.Alike f s text text') rest rest') :
    (o.addComment l rest).Alike f s text text' (o'.addComment l' rest') := by
  have hnext : (nextCodeIndent? rest').getD 0 = f ((nextCodeIndent? rest).getD 0) ∧
      (nextCodeIndent? rest).getD 0 ∈ s := by
    rw [nextCodeIndent?_alike hrest]
    rcases hw : nextCodeIndent? rest with _ | w
    · exact ⟨hf.map_zero.symm, hf.zero_mem⟩
    · exact ⟨rfl, nextCodeIndent?_mem hrest hw⟩
  rw [addComment_eq, addComment_eq, h.commentCloses hf hl hrest, hnext.1]
  apply add _ hl.comment
  split
  · exact h.dedent hf hnext.2
  · exact h

lemma formOf (hf : KeepsOrder f s) (h : o.Alike f s text text' o') (hl : l.Alike f s text text' l')
    (hrest : List.Forall₂ (LogicalLine.Alike f s text text') rest rest') :
    (o.formOf l rest).Alike text text' (o'.formOf l' rest') := by
  unfold Outline.formOf
  rw [h.isEmpty, hl.indent, deeperFollows_alike hf hrest hl.mem]
  split
  · exact hl.topLevel _
  · exact hl.nested

lemma addForm {form form' : Form} (h : o.Alike f s text text' o') (hl : l.Alike f s text text' l')
    (hform : form.Alike text text' form') (misaligned bodyFollows : Bool) :
    (o.addForm l misaligned bodyFollows form).Alike f s text text'
      (o'.addForm l' misaligned bodyFollows form') := by
  cases hform with
  | items shapes => exact h.add (shapes.settle misaligned l.start l'.start)
  | @opens owner owner' kind head =>
    have hopening : Opening.Alike text text' ⟨owner, l.start, misaligned⟩ ⟨owner', l'.start, misaligned⟩ :=
      ⟨kind, head, rfl⟩
    unfold Outline.addForm
    dsimp only
    split
    · exact h.waitFor (.block hopening)
    · exact h.add hopening.closeWithout
  | opensPython shapes => exact h.waitFor (.python ⟨shapes, rfl, hl.indent, hl.mem, rfl⟩)

lemma addItem (hf : KeepsOrder f s) (h : o.Alike f s text text' o') (hl : l.Alike f s text text' l')
    (hrest : List.Forall₂ (LogicalLine.Alike f s text text') rest rest') :
    (o.addItem l rest).Alike f s text text' (o'.addItem l' rest') := by
  have hready : Outline.Alike f s text text' { o with misaligned := false } { o' with misaligned := false } :=
    ⟨h.widths, h.mem, h.frames, h.items, h.awaiting, rfl⟩
  rw [addItem_eq, addItem_eq, h.misaligned, hl.indent, deeperFollows_alike hf hrest hl.mem]
  exact hready.addForm hl (h.formOf hf hl hrest) _ _

lemma addCode (hf : KeepsOrder f s) (h : o.Alike f s text text' o') (hl : l.Alike f s text text' l')
    (hrest : List.Forall₂ (LogicalLine.Alike f s text text') rest rest') :
    (o.addCode l rest).Alike f s text text' (o'.addCode l' rest') := by
  have hclosed := h.closedTo hf hl.mem
  rw [addCode_eq, addCode_eq, hl.indent]
  exact (hclosed.openedFor hf hl).addItem hf hl hrest

lemma place (hf : KeepsOrder f s) (h : o.Alike f s text text' o') (hl : l.Alike f s text text' l')
    (hrest : List.Forall₂ (LogicalLine.Alike f s text text') rest rest') :
    (o.place l rest).Alike f s text text' (o'.place l' rest') := by
  unfold Outline.place
  rw [hl.kind]
  split
  · exact h
  · exact h.addComment hf hl hrest
  · exact h.addCode hf hl hrest

lemma holds {body body' : PythonBody} (hf : KeepsOrder f s) (hb : body.Alike f s text text' body')
    (hl : l.Alike f s text text' l') (hrest : List.Forall₂ (LogicalLine.Alike f s text text') rest rest') :
    body'.holds l' rest' = body.holds l rest := by
  have hlt := hf.lt_iff hb.mem hl.mem
  unfold PythonBody.holds
  rw [hl.kind, hb.indent, hl.indent, deeperFollows_alike hf hrest hb.mem, decide_eq_decide.mpr hlt]

lemma pythonAdd {body body' : PythonBody} (hb : body.Alike f s text text' body') (hl : l.Alike f s text text' l') :
    (body.add l).Alike f s text text' (body'.add l') := by
  unfold PythonBody.add
  rw [hl.kind]
  split
  · exact hb
  · exact ⟨hb.children.append hl.comment, hb.hasCode, hb.indent, hb.mem, hb.misaligned⟩
  · refine ⟨hb.children.append hl.pieces, ?_, hb.indent, hb.mem, hb.misaligned⟩
    dsimp only
    rw [hb.hasCode, hl.pieces.any_kind (· = .pythonExpression)]

theorem step (hf : KeepsOrder f s) (h : o.Alike f s text text' o') (hl : l.Alike f s text text' l')
    (hrest : List.Forall₂ (LogicalLine.Alike f s text text') rest rest') :
    (o.step l rest).Alike f s text text' (o'.step l' rest') := by
  have hawaiting := h.awaiting
  generalize ha : o.awaiting = awaiting at hawaiting
  generalize ha' : o'.awaiting = awaiting' at hawaiting
  cases hawaiting with
  | nothing =>
    rw [step_nothing ha, step_nothing ha']
    exact h.place hf hl hrest
  | @block opening opening' halike =>
    rw [step_block ha, step_block ha', hl.kind]
    split
    · exact h
    · apply h.waitFor (.block ?_)
      exact ⟨halike.kind, halike.head.append hl.comment, halike.misaligned⟩
    · have hopened := (h.waitFor .nothing).openFrame hf hl (.some halike)
      exact hopened.addItem hf hl hrest
  | @python body body' halike =>
    rw [step_python ha, step_python ha', holds hf halike hl hrest]
    split
    · exact h.waitFor (.python (pythonAdd halike hl))
    · exact (h.resume halike.close).place hf hl hrest

theorem run {lines lines' : List LogicalLine} (hf : KeepsOrder f s) (h : o.Alike f s text text' o')
    (hl : List.Forall₂ (LogicalLine.Alike f s text text') lines lines') :
    (o.run lines).Alike f s text text' (o'.run lines') := by
  induction hl generalizing o o' with
  | nil => exact h
  | cons hline hrest ih => exact ih (h.step hf hline hrest)

lemma endAwaiting (h : o.Alike f s text text' o') : o.endAwaiting.Alike f s text text' o'.endAwaiting := by
  have hawaiting := h.awaiting
  generalize ha : o.awaiting = awaiting at hawaiting
  generalize ha' : o'.awaiting = awaiting' at hawaiting
  cases hawaiting with
  | nothing =>
    rw [endAwaiting_nothing ha, endAwaiting_nothing ha']
    exact h
  | block halike =>
    rw [endAwaiting_block ha, endAwaiting_block ha']
    exact h.resume halike.closeWithout
  | python halike =>
    rw [endAwaiting_python ha, endAwaiting_python ha']
    exact h.resume halike.close

theorem finish (h : o.Alike f s text text' o') : SameShapes text text' o.finish o'.finish := by
  have hlength := h.endAwaiting.frames.length_eq
  unfold Outline.finish
  dsimp only
  rw [← hlength]
  exact (h.endAwaiting.closeFrames _).items

end Outline.Alike

end

end RenpyScript
