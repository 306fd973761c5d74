import RenpyScript.Proofs.Outline.Placement
import RenpyScript.Proofs.Text.Rows
import RenpyScript.Proofs.Tree.Spread
import RenpyScript.Proofs.Tree.WellFormed

/-!
# Compound nodes of a document begin on different rows

A compound node begins with a line, and what belongs to it comes with later lines. `o.Spreads last` says this of an
outline whose last line ends on row `last`: its finished items are spread over rows, the items of every open block
over later ones, and the beginning of a node that waits for its block is on a row behind them. Adding a line that
begins on a row behind `last` keeps it so.
-/

namespace RenpyScript

open Node

variable {row : Nat → Nat}

/-! ## What a line adds -/

section
variable {line : LogicalLine} {ns : List Node}

lemma leads_of_laid (hrow : Monotone row) (hl : Laid isGap line.start line.content ns) (hne : ns ≠ [])
    (hns : ∀ n ∈ ns, n.Simple) : Leads row (row line.start) (row line.span.stop) ns := by
  obtain ⟨n, ns, rfl⟩ := List.exists_cons_of_ne_nil hne
  have hn : n ∈ n :: ns := List.mem_cons_self ..
  obtain ⟨before, filled, after, hcontent, hfills⟩ := hl.of_mem hn
  refine ⟨hns, ⟨n, rfl, hrow (hl.start_ge hn), hrow ?_⟩, fun m hm => hrow (hl.stop_le hm)⟩
  rw [hfills.span_eq, LogicalLine.span, hcontent]
  simp only [Span.covering, byteLength_append]
  omega

lemma spread_of_shallow (hrow : Monotone row) (hl : Laid isGap line.start line.content ns)
    (hshallow : (Form.items ns).Shallow) : Spread row (row line.start) (row line.span.stop) ns := by
  have hstop : ∀ n ∈ ns, row n.span.stop ≤ row line.span.stop := fun n hn => hrow (hl.stop_le hn)
  generalize hform : Form.items ns = form at hshallow
  cases hshallow with
  | simple nodes_simple =>
    obtain rfl := Form.items.inj hform
    exact spread_of_simple _ nodes_simple hstop
  | @statement node comments children_simple comments_simple =>
    obtain rfl := Form.items.inj hform
    obtain ⟨hnode, hcomments⟩ := List.forall_mem_cons.mp hstop
    have hmem : branch .statement [node] node.span.start ∈ branch .statement [node] node.span.start :: comments :=
      List.mem_cons_self ..
    have hfirst : line.start ≤ (branch .statement [node] node.span.start).span.start := hl.start_ge hmem
    have hstart : row line.start ≤ row node.span.start := hrow hfirst
    have hstatement : Spread row (row line.start) (row line.span.stop) [branch .statement [node] node.span.start] :=
      (spread_of_children children_simple hstart hnode).branch rfl (by simp)
    exact hstatement.append_simple comments_simple hcomments
  | opens => cases hform
  | opensPython => cases hform

end

/-! ## Closing -/

section
variable {first middle last : Nat} {ns : List Node} {block : Node}

lemma settle_spread {misaligned : Bool} {start : Nat} (h : Spread row first last ns)
    (hstart : ns = [] → row start ≤ last) : Spread row first last (settle misaligned start ns) := by
  unfold settle
  split
  · split
    · split
      · exact h
      · exact h.branch rfl (by simp)
    · exact h.branch rfl hstart
  · exact h

/-- The beginning of a node that lacks its block. -/
def Opening.Leads (row : Nat → Nat) (first last : Nat) (o : Opening) : Prop :=
  Node.Leads row first last o.owner.head ∧ o.owner.kind.isCompound = true

lemma Opening.Leads.close {o : Opening} (h : o.Leads row first middle)
    (hblock : Spread row (middle + 1) last [block]) (hlast : middle ≤ last) : Spread row first last (o.close block) := by
  have hnode : Spread row first last [branch o.owner.kind (o.owner.head ++ [block.under .body]) o.start] :=
    h.1.branch _ _ hblock.under hlast
  refine settle_spread ?_ (by simp)
  unfold Owner.close
  split
  · exact hnode
  · exact hnode.branch rfl (by simp)

lemma Opening.Leads.closeWithout {o : Opening} (h : o.Leads row first last) :
    Spread row first last o.closeWithout := by
  have hlast := List.getLast?_eq_some_getLast h.1.ne_nil
  have hstop : row o.owner.headEnd ≤ last := by
    rw [Owner.headEnd, hlast]
    exact h.1.stop_le _ (List.getLast_mem h.1.ne_nil)
  have hblock : Spread row (last + 1) last [absent .block o.owner.headEnd] :=
    spread_of_simple _ (by simpa using simple_absent rfl _) (by simpa [absent] using hstop)
  exact h.close hblock (le_refl last)

lemma PythonBody.close_spread {body : PythonBody} (h : Leads row first last body.children) :
    Spread row first last body.close := by
  have hlast := List.getLast?_eq_some_getLast h.ne_nil
  have hstop : row body.childrenEnd ≤ last := by
    rw [childrenEnd, hlast]
    exact h.stop_le _ (List.getLast_mem h.ne_nil)
  have hchildren : Leads row first last
      (if body.hasCode then body.children else body.children ++ [absent .pythonExpression body.childrenEnd]) := by
    split
    · exact h
    · exact h.append (by simpa using simple_absent rfl _) (by simpa [absent] using hstop)
  have hblock := hchildren.branch .pythonBlock body.start (spread_nil (last + 1) last) (le_refl last)
  rw [List.append_nil] at hblock
  exact settle_spread hblock (by simp)

end

/-! ## Open blocks -/

/-- Finished items, and behind them the open blocks, the innermost last, each on rows behind those outside of it and
behind the beginning that it belongs to. All of it ends on row `last` at the latest; a block without items stands on
row `reach` at the latest. -/
inductive FramesSpread (row : Nat → Nat) (items : List Node) : List Frame → Nat → Nat → Prop
  | nil {last reach : Nat} (spread : Spread row 0 last items) (last_le : last ≤ reach) :
      FramesSpread row items [] last reach
  | cons {f : Frame} {fs : List Frame} {outer outerReach middle last reach : Nat}
      (outside : FramesSpread row items fs outer outerReach) (outerReach_le : outerReach ≤ middle)
      (opening : ∀ o ∈ f.opening, o.Leads row (outer + 1) middle) (spread : Spread row (middle + 1) last f.items)
      (middle_le : middle ≤ last) (last_le : last ≤ reach) (start_le : row f.start ≤ reach) :
      FramesSpread row items (f :: fs) last reach

/-- What the last line waits for begins on a row behind `done`. -/
inductive AwaitingSpread (row : Nat → Nat) (done last : Nat) : Awaiting → Prop
  | nothing : AwaitingSpread row done last .nothing
  | block {opening : Opening} (leads : opening.Leads row (done + 1) last) : AwaitingSpread row done last (.block opening)
  | python {body : PythonBody} (leads : Leads row (done + 1) last body.children) :
      AwaitingSpread row done last (.python body)

section
variable {items : List Node} {frames : List Frame} {f : Frame} {first last reach outer middle : Nat}

lemma FramesSpread.last_le_reach (h : FramesSpread row items frames last reach) : last ≤ reach := by
  cases h with
  | nil spread last_le => exact last_le
  | cons outside outerReach_le opening spread middle_le last_le start_le => exact last_le

lemma Frame.close_spread (hopening : ∀ o ∈ f.opening, o.Leads row first middle)
    (hspread : Spread row (middle + 1) last f.items) (hfirst : first ≤ middle + 1) (hmiddle : middle ≤ last)
    (hlast : last ≤ reach) (hstart : row f.start ≤ reach) : Spread row first reach f.close := by
  have hblock : Spread row (middle + 1) reach [branch .block f.items f.start] :=
    (hspread.mono (le_refl _) hlast).branch rfl fun _ => hstart
  unfold Frame.close
  split
  · exact hblock.mono hfirst (le_refl _)
  · next o ho => exact (hopening o ho).close hblock (hmiddle.trans hlast)

end

namespace Outline

/-- The finished items and the open blocks are spread over rows. -/
def HoldsSpread (row : Nat → Nat) (o : Outline) (last reach : Nat) : Prop :=
  FramesSpread row o.items o.frames last reach

/-- All of the outline is spread over rows up to `last`. -/
def Spreads (row : Nat → Nat) (o : Outline) (last : Nat) : Prop :=
  ∃ done reach, reach ≤ last ∧ o.HoldsSpread row done reach ∧ AwaitingSpread row done last o.awaiting

variable {o : Outline} {ns : List Node} {first last last' reach : Nat} {line : LogicalLine} {rest : List LogicalLine}

lemma HoldsSpread.spreads (h : o.HoldsSpread row last reach) (hawaiting : o.awaiting = .nothing) :
    o.Spreads row reach :=
  ⟨last, reach, le_refl reach, h, hawaiting ▸ .nothing⟩

lemma HoldsSpread.add (h : o.HoldsSpread row last reach) (hns : Spread row first last' ns) (hfirst : last < first)
    (hreach : reach ≤ last') : (o.add ns).HoldsSpread row last' last' := by
  have hlast := h.last_le_reach.trans hreach
  unfold HoldsSpread Outline.add at *
  split
  · next hframes =>
    rw [hframes] at h ⊢
    cases h with
    | nil spread last_le => exact .nil (spread.append hns hfirst (Nat.zero_le _) hlast) (le_refl _)
  · next f fs hframes =>
    rw [hframes] at h
    cases h with
    | cons outside outerReach_le opening spread middle_le last_le start_le =>
      refine .cons outside outerReach_le opening (spread.append hns hfirst ?_ hlast) ?_ (le_refl _)
        (start_le.trans hreach)
      · omega
      · omega

lemma HoldsSpread.closeFrame (h : o.HoldsSpread row last reach) : ∃ last', o.closeFrame.HoldsSpread row last' reach := by
  unfold Outline.closeFrame
  split
  · exact ⟨last, h⟩
  · next f fs hframes =>
    unfold HoldsSpread at h
    rw [hframes] at h
    cases h with
    | @cons _ _ outer outerReach middle _ _ outside outerReach_le opening spread middle_le last_le start_le =>
      have houter : HoldsSpread row { o with frames := fs } outer outerReach := outside
      have houter_le := outside.last_le_reach
      have hclose := Frame.close_spread opening spread (by omega) middle_le last_le start_le
      exact ⟨reach, houter.add hclose (Nat.lt_succ_self outer) (by omega)⟩

lemma HoldsSpread.closeFrames (k : Nat) (h : o.HoldsSpread row last reach) :
    ∃ last', (closeFrames k o).HoldsSpread row last' reach := by
  induction k generalizing o last with
  | zero => exact ⟨last, h⟩
  | succ k ih =>
    obtain ⟨last', hclosed⟩ := h.closeFrame
    exact ih hclosed

lemma HoldsSpread.dedent (width : Nat) (h : o.HoldsSpread row last reach) :
    ∃ last', (o.dedent width).HoldsSpread row last' reach := by
  rw [dedent_eq]
  exact HoldsSpread.closeFrames _ h

lemma HoldsSpread.openFrame {middle : Nat} (h : o.HoldsSpread row last reach) (line : LogicalLine)
    (opening : Option Opening) (hopening : ∀ a ∈ opening, a.Leads row (last + 1) middle) (hmiddle : reach ≤ middle)
    (hstart : middle ≤ row line.start) : (o.openFrame line opening).HoldsSpread row middle (row line.start) :=
  .cons h hmiddle hopening (spread_nil _ _) (le_refl middle) hstart (le_refl _)

/-! ## Adding a line -/

lemma commentNode_spread (row : Nat → Nat) (line : LogicalLine) :
    line.commentNode.Simple ∧ row line.commentNode.span.stop ≤ row line.span.stop :=
  ⟨simple_leaf rfl _, le_refl _⟩

lemma formOf_shallow (o : Outline) (line : LogicalLine) (rest : List LogicalLine) : (o.formOf line rest).Shallow := by
  unfold formOf
  split
  · exact Form.topLevel_shallow _ _
  · exact Form.nested_shallow _

variable (hrow : Monotone row)
include hrow

lemma start_le_stop (line : LogicalLine) : row line.start ≤ row line.span.stop :=
  hrow (Nat.le_add_right line.start (byteLength line.content))

lemma HoldsSpread.addComment (h : o.HoldsSpread row last reach) (hline : reach < row line.start)
    (rest : List LogicalLine) :
    ∃ last', (o.addComment line rest).HoldsSpread row last' (row line.span.stop) := by
  have hstop := start_le_stop hrow line
  obtain ⟨hsimple, hcomment⟩ := commentNode_spread row line
  have hclosed : ∃ last', (if o.commentCloses line rest then o.dedent ((nextCodeIndent? rest).getD 0) else o).HoldsSpread
      row last' reach := by
    split
    · exact h.dedent _
    · exact ⟨last, h⟩
  obtain ⟨last', hclosed⟩ := hclosed
  have hle := hclosed.last_le_reach
  have hspread : Spread row (row line.start) (row line.span.stop) [line.commentNode] :=
    spread_of_simple _ (by simpa using hsimple) (by simpa using hcomment)
  rw [addComment_eq]
  exact ⟨_, hclosed.add hspread (by omega) (by omega)⟩

/-- A line may be added to a block that it is the first one of. -/
lemma HoldsSpread.addForm {form : Form} {misaligned bodyFollows : Bool} (h : o.HoldsSpread row last reach)
    (hawaiting : o.awaiting = .nothing) (hlast : last < row line.start) (hreach : reach ≤ row line.start)
    (hlaid : form.LaidOn line.start line.content) (hshallow : form.Shallow) :
    (o.addForm line misaligned bodyFollows form).Spreads row (row line.span.stop) := by
  have hstop := start_le_stop hrow line
  cases hlaid with
  | items laid =>
    have hitems : Spread row (row line.start) (row line.span.stop) (settle misaligned line.start _) :=
      settle_spread (spread_of_shallow hrow laid hshallow) fun _ => hstop
    exact (h.add hitems hlast (hreach.trans hstop)).spreads (by rw [add_awaiting, hawaiting])
  | @opens owner laid nonempty =>
    cases hshallow with
    | opens head_simple kind =>
      have hleads : Opening.Leads row (row line.start) (row line.span.stop) ⟨owner, line.start, misaligned⟩ :=
        ⟨leads_of_laid hrow laid nonempty head_simple, kind⟩
      rw [Outline.addForm]
      split
      · exact ⟨last, reach, hreach.trans hstop, h, .block ⟨hleads.1.mono hlast (le_refl _), kind⟩⟩
      · exact (h.add hleads.closeWithout hlast (hreach.trans hstop)).spreads (by rw [add_awaiting, hawaiting])
  | opensPython laid nonempty =>
    cases hshallow with
    | opensPython head_simple =>
      have hleads := leads_of_laid hrow laid nonempty head_simple
      exact ⟨last, reach, hreach.trans hstop, h, .python (hleads.mono hlast (le_refl _))⟩

lemma HoldsSpread.addItem (h : o.HoldsSpread row last reach) (hawaiting : o.awaiting = .nothing)
    (hlast : last < row line.start) (hreach : reach ≤ row line.start) :
    (o.addItem line rest).Spreads row (row line.span.stop) := by
  have hready : HoldsSpread row { o with misaligned := false } last reach := h
  rw [addItem_eq]
  exact hready.addForm hrow hawaiting hlast hreach (formOf_laidOn o line rest) (formOf_shallow o line rest)

lemma HoldsSpread.addCode (h : o.HoldsSpread row last reach) (hawaiting : o.awaiting = .nothing)
    (hline : reach < row line.start) : (o.addCode line rest).Spreads row (row line.span.stop) := by
  have hclosed : ∃ last', (o.closedTo line.indent).HoldsSpread row last' reach := by
    unfold closedTo
    split
    · exact h.dedent _
    · exact ⟨last, h⟩
  obtain ⟨last', hclosed⟩ := hclosed
  have hle := hclosed.last_le_reach
  have hstill : ((o.closedTo line.indent).openedFor line).awaiting = .nothing := by
    rw [openedFor_awaiting, closedTo_awaiting, hawaiting]
  rw [addCode_eq]
  unfold openedFor at hstill ⊢
  split
  · next hopens =>
    rw [if_pos hopens] at hstill
    have hopened := hclosed.openFrame line none (by simp) (le_refl reach) hline.le
    exact hopened.addItem hrow hstill hline (le_refl _)
  · next hopens =>
    rw [if_neg hopens] at hstill
    exact hclosed.addItem hrow hstill (by omega) hline.le

lemma HoldsSpread.place (h : o.HoldsSpread row last reach) (hawaiting : o.awaiting = .nothing)
    (hline : reach < row line.start) : (o.place line rest).Spreads row (row line.span.stop) := by
  have hstop := start_le_stop hrow line
  unfold Outline.place
  split
  · exact ⟨last, reach, by omega, h, hawaiting ▸ .nothing⟩
  · obtain ⟨last', hadded⟩ := h.addComment hrow hline rest
    exact hadded.spreads (by rw [addComment_awaiting, hawaiting])
  · exact h.addCode hrow hawaiting hline

lemma python_add_leads {body : PythonBody} (h : Leads row first last body.children) (hline : last ≤ row line.span.stop) :
    Leads row first (row line.span.stop) (body.add line).children := by
  have hbody := h.mono (le_refl first) hline
  obtain ⟨hsimple, hcomment⟩ := commentNode_spread row line
  unfold PythonBody.add
  split
  · exact hbody
  · exact hbody.append (by simpa using hsimple) (by simpa using hcomment)
  · have hlaid : Laid isGap line.start line.content (line.unread.expressionPieces .pythonExpression) :=
      Unread.expressionPieces_laid line.unread .pythonExpression
    exact hbody.append (Unread.expressionPieces_simple rfl line.unread) fun n hn => hrow (hlaid.stop_le hn)

theorem Spreads.step (h : o.Spreads row last) (hline : last < row line.start) :
    (o.step line rest).Spreads row (row line.span.stop) := by
  obtain ⟨done, reach, hreach, hdone, hwaiting⟩ := h
  have hdone_le := hdone.last_le_reach
  have hstop := start_le_stop hrow line
  generalize hawaiting : o.awaiting = awaiting at hwaiting
  cases hwaiting with
  | nothing =>
    rw [step_nothing hawaiting]
    exact hdone.place hrow hawaiting (by omega)
  | @block opening leads =>
    have hhead : Leads row (done + 1) (row line.span.stop) opening.owner.head := leads.1.mono (le_refl _) (by omega)
    rw [step_block hawaiting]
    split
    · exact ⟨done, reach, by omega, hdone, hawaiting ▸ .block ⟨hhead, leads.2⟩⟩
    · obtain ⟨hsimple, hcomment⟩ := commentNode_spread row line
      have hlonger : Leads row (done + 1) (row line.span.stop) (opening.owner.head ++ [line.commentNode]) :=
        hhead.append (by simpa using hsimple) (by simpa using hcomment)
      exact ⟨done, reach, by omega, hdone, .block ⟨hlonger, leads.2⟩⟩
    · have hready : (o.waitFor .nothing).HoldsSpread row done reach := hdone
      have hopened := hready.openFrame line (some opening) (fun a ha => Option.mem_some_iff.mp ha ▸ leads) hreach hline.le
      exact hopened.addItem hrow rfl hline (le_refl _)
  | @python body leads =>
    rw [step_python hawaiting]
    split
    · exact ⟨done, reach, by omega, hdone, .python (python_add_leads hrow leads (by omega))⟩
    · have hready : (o.waitFor .nothing).HoldsSpread row done reach := hdone
      have hresumed : (o.resume body.close).HoldsSpread row last last :=
        hready.add (PythonBody.close_spread leads) (Nat.lt_succ_self done) hreach
      exact hresumed.place hrow (resume_awaiting _ _) hline

/-! ## Whole documents -/

theorem Spreads.run {lines : List LogicalLine} (h : o.Spreads row last) (hlast : ∀ l ∈ lines, last < row l.start)
    (hlines : lines.Pairwise fun a b => row a.span.stop < row b.start) : ∃ last', (o.run lines).Spreads row last' := by
  induction lines generalizing o last with
  | nil => exact ⟨last, h⟩
  | cons line rest ih =>
    obtain ⟨hline, hrest⟩ := List.pairwise_cons.mp hlines
    exact ih (h.step hrow (hlast line (List.mem_cons_self ..))) hline hrest

omit hrow in
lemma Spreads.endAwaiting (h : o.Spreads row last) : ∃ last' reach', o.endAwaiting.HoldsSpread row last' reach' := by
  obtain ⟨done, reach, hreach, hdone, hwaiting⟩ := h
  have hready : (o.waitFor .nothing).HoldsSpread row done reach := hdone
  generalize hawaiting : o.awaiting = awaiting at hwaiting
  cases hwaiting with
  | nothing =>
    rw [endAwaiting_nothing hawaiting]
    exact ⟨done, reach, hdone⟩
  | block leads =>
    rw [endAwaiting_block hawaiting]
    exact ⟨last, last, hready.add leads.closeWithout (Nat.lt_succ_self done) hreach⟩
  | python leads =>
    rw [endAwaiting_python hawaiting]
    exact ⟨last, last, hready.add (PythonBody.close_spread leads) (Nat.lt_succ_self done) hreach⟩

omit hrow in
theorem Spreads.finish (h : o.Spreads row last) : ∃ last', Spread row 0 last' o.finish := by
  obtain ⟨last', reach', hended⟩ := h.endAwaiting
  obtain ⟨last', hclosed⟩ := hended.closeFrames o.endAwaiting.frames.length
  unfold HoldsSpread at hclosed
  rw [closeFrames_all] at hclosed
  cases hclosed with
  | nil spread last_le => exact ⟨last', spread⟩

end Outline

/-! ## Scripts -/

section
variable {before cs : List Char} {pos r : Nat} {lines : List LogicalLine}

lemma Tiles.eq_nil_of_eq_nil (ht : Tiles pos r cs lines) (hcs : cs = []) : lines = [] := by
  cases ht with
  | nil => rfl
  | cons line last tiles => exact absurd (List.append_eq_nil_iff.mp hcs).1 line.nonempty

/-- Logical lines begin on later physical rows than those in front end. -/
lemma Tiles.pairwise_row (ht : Tiles (byteLength before) r cs lines) : lines.Pairwise fun a b =>
    ((LineTable.ofText (before ++ cs)).point a.span.stop).row < ((LineTable.ofText (before ++ cs)).point b.start).row := by
  generalize hpos : byteLength before = pos at ht
  induction ht generalizing before with
  | nil => exact .nil
  | @cons pos row l ls indentation spaces terminator rest line last tiles ih =>
    have hstop : l.span.stop ≤ byteLength (before ++ indentation ++ l.content ++ spaces) := by
      have hstart := line.start_eq
      simp only [LogicalLine.span, Span.covering, byteLength_append]
      omega
    have hend : l.lineEnd = byteLength (before ++ indentation ++ l.content ++ spaces ++ terminator) := by
      rw [line.lineEnd_eq_add, ← hpos]
      simp only [byteLength_append]
      omega
    have hrest := ih hend.symm
    simp only [← List.append_assoc] at hrest ⊢
    refine List.pairwise_cons.mpr ⟨fun b hb => ?_, hrest⟩
    rcases line.terminator_eq with rfl | rfl
    · rw [tiles.eq_nil_of_eq_nil (last rfl)] at hb
      cases hb
    · have hstart := tiles.start_ge hb
      rw [hend, byteLength_append, show byteLength ['\n'] = 1 by decide] at hstart
      simpa using LineTable.row_lt_row _ rest hstop (by omega)

end

lemma Tree.parse_spread (text : String) : ∃ last,
    Spread (fun offset => ((Tree.parse text).lineTable.point offset).row + 1) 0 last (Tree.parse text).root.children := by
  obtain ⟨mark, rest, htext, -, ht⟩ := LogicalLine.scan_tiles text.toList
  have hrow : Monotone fun offset => ((Tree.parse text).lineTable.point offset).row + 1 :=
    fun a b hle => Nat.succ_le_succ (LineTable.monotone_row _ hle)
  have hlines := ht.pairwise_row
  rw [← htext] at hlines
  have hempty : Outline.empty.Spreads (fun offset => ((Tree.parse text).lineTable.point offset).row + 1) 0 :=
    ⟨0, 0, le_refl 0, .nil (spread_nil 0 0) (le_refl 0), .nothing⟩
  obtain ⟨last, hrun⟩ := hempty.run hrow (fun _ _ => Nat.succ_pos _) (hlines.imp fun hlt => Nat.succ_lt_succ hlt)
  exact hrun.finish

/-- Of two compound nodes of a script, the second begins on a later row than the first, and it ends no later than the
first or begins on a later row than the first ends. -/
theorem Tree.pairwise_row (text : String) : (Tree.parse text).root.preorder.Pairwise fun a b =>
    a.kind.isCompound = true → b.kind.isCompound = true →
      ((Tree.parse text).lineTable.point a.span.start).row < ((Tree.parse text).lineTable.point b.span.start).row ∧
      (((Tree.parse text).lineTable.point b.span.stop).row ≤ ((Tree.parse text).lineTable.point a.span.stop).row ∨
        ((Tree.parse text).lineTable.point a.span.stop).row <
          ((Tree.parse text).lineTable.point b.span.start).row) := by
  obtain ⟨last, hspread⟩ := Tree.parse_spread text
  have hrow : Monotone fun offset => ((Tree.parse text).lineTable.point offset).row + 1 :=
    fun a b hle => Nat.succ_le_succ (LineTable.monotone_row _ hle)
  have hstaggered : ∀ m ∈ (Tree.parse text).root.preorder,
      m.Staggered fun offset => ((Tree.parse text).lineTable.point offset).row + 1 := by
    rw [preorder_eq, List.forall_mem_cons]
    exact ⟨⟨hspread.precede, fun hcompound => absurd hcompound Bool.false_ne_true⟩, hspread.staggered⟩
  refine (pairwise_preorder hrow (fun m => Tree.parse_inText text) hstaggered).imp fun h ha hb => ?_
  have hrows := h ha hb
  omega

end RenpyScript
