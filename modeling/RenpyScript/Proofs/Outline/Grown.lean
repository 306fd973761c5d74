import RenpyScript.Proofs.Outline.Kept

/-!
# Outlines only grow

Lines are added at the ends of what an outline holds: of its items, and of the items of its open blocks.
`o.Grows o'` says that `o'` has come of `o` in this way. A block that has been closed is a node with all
of its items, so the document has a block for every block that has been open.
-/

namespace RenpyScript

open Node

/-- The node is a block, and its first items are the nodes `ns`. -/
structure Node.BlockOver (n : Node) (ns : List Node) : Prop where
  kind : n.kind = .block
  span : ∃ fallback, n.span = hull n.children fallback
  begins : ns <+: n.children

section
variable {n : Node} {ns ms : List Node}

lemma Node.BlockOver.under (field : Field) (h : n.BlockOver ns) : (n.under field).BlockOver ns :=
  ⟨h.kind, h.span, h.begins⟩

lemma Opening.mem_preorderAll_close (opening : Opening) (block : Node) :
    block.under .body ∈ preorderAll (opening.close block) := by
  have hnode (fallback : Nat) :
      block.under .body ∈ preorderAll [.branch opening.owner.kind (opening.owner.head ++ [block.under .body]) fallback] :=
    mem_preorderAll_branch (mem_preorderAll.mpr ⟨block.under .body, by simp, self_mem_preorder _⟩)
  apply mem_preorderAll_settle
  unfold Owner.close
  split
  · exact hnode _
  · exact mem_preorderAll_branch (hnode _)

lemma Frame.exists_blockOver_close {f : Frame} (h : ns <+: f.items) : ∃ n ∈ preorderAll f.close, n.BlockOver ns := by
  have hblock : (Node.branch .block f.items f.start).BlockOver ns := ⟨rfl, ⟨f.start, rfl⟩, h⟩
  unfold Frame.close
  split
  · exact ⟨_, mem_preorderAll.mpr ⟨_, List.mem_singleton_self _, self_mem_preorder _⟩, hblock⟩
  · next opening hsome => exact ⟨_, opening.mem_preorderAll_close _, hblock.under .body⟩

end

namespace Outline

/-- The nodes that an outline holds already, apart from what it waits for. -/
def placed (o : Outline) : List Node :=
  o.items ++ o.frames.flatMap Frame.nodes

/-- There is a block with the nodes `ns` as its first items; it is open or it has been closed. -/
inductive HasBlock (o : Outline) (ns : List Node) : Prop
  | opened {f : Frame} (mem : f ∈ o.frames) (begins : ns <+: f.items)
  | closed {n : Node} (mem : n ∈ preorderAll o.placed) (block : n.BlockOver ns)

/-- There is a block that belongs to the line `opening`; it is open, or it has been closed and put behind the line. -/
inductive HasOpening (o : Outline) (opening : Opening) : Prop
  | opened {f : Frame} (mem : f ∈ o.frames) (owner : f.opening = some opening)
  | closed {block : Node} (placed : ∀ n ∈ preorderAll (opening.close block), n ∈ preorderAll o.placed)

/-- What the second outline holds has grown out of what the first one holds. -/
structure Grows (o o' : Outline) : Prop where
  items : o.items <+: o'.items
  placed : ∀ n ∈ preorderAll o.placed, n ∈ preorderAll o'.placed
  opened : ∀ f ∈ o.frames, o'.HasBlock f.items
  openings : ∀ f ∈ o.frames, ∀ opening, f.opening = some opening → o'.HasOpening opening

section
variable {o o' o'' : Outline} {ns : List Node} {line : LogicalLine} {rest : List LogicalLine}

lemma HasBlock.mono {ms : List Node} (h : o.HasBlock ns) (hms : ms <+: ns) : o.HasBlock ms := by
  cases h with
  | opened hf hns => exact .opened hf (hms.trans hns)
  | closed hn hblock => exact .closed hn ⟨hblock.kind, hblock.span, hms.trans hblock.begins⟩

lemma HasBlock.grows (h : o.HasBlock ns) (hgrows : o.Grows o') : o'.HasBlock ns := by
  cases h with
  | opened hf hns => exact (hgrows.opened _ hf).mono hns
  | closed hn hblock => exact .closed (hgrows.placed _ hn) hblock

lemma HasOpening.grows {opening : Opening} (h : o.HasOpening opening) (hgrows : o.Grows o') : o'.HasOpening opening := by
  cases h with
  | opened hf howner => exact hgrows.openings _ hf _ howner
  | closed hplaced => exact .closed fun n hn => hgrows.placed n (hplaced n hn)

lemma Grows.of_eq (hitems : o'.items = o.items) (hframes : o'.frames = o.frames) : o.Grows o' := by
  refine ⟨hitems ▸ List.prefix_refl _, fun n hn => ?_, fun f hf => .opened (hframes ▸ hf) (List.prefix_refl _),
    fun f hf opening howner => .opened (hframes ▸ hf) howner⟩
  rwa [Outline.placed, hitems, hframes]

lemma Grows.refl (o : Outline) : o.Grows o :=
  .of_eq rfl rfl

lemma Grows.trans (h : o.Grows o') (h' : o'.Grows o'') : o.Grows o'' :=
  ⟨h.items.trans h'.items, fun n hn => h'.placed n (h.placed n hn), fun f hf => (h.opened f hf).grows h',
    fun f hf opening howner => (h.openings f hf opening howner).grows h'⟩

lemma Grows.of_same (h : o'.Grows o'') (hitems : o'.items = o.items) (hframes : o'.frames = o.frames) :
    o.Grows o'' :=
  (Grows.of_eq hitems hframes).trans h

/-! ## Adding, closing and opening -/

lemma grows_add (o : Outline) (items : List Node) : o.Grows (o.add items) := by
  unfold Outline.add
  split
  · refine ⟨List.prefix_append .., fun n hn => ?_, fun f hf => .opened hf (List.prefix_refl _),
      fun f hf opening howner => .opened hf howner⟩
    rw [Outline.placed, preorderAll_append, List.mem_append] at hn ⊢
    exact hn.imp_left fun hn => preorderAll_append .. ▸ List.mem_append_left _ hn
  · next f fs hframes =>
    refine ⟨List.prefix_refl _, fun n hn => ?_, fun g hg => ?_, fun g hg opening howner => ?_⟩
    · rw [Outline.placed, hframes, List.flatMap_cons] at hn
      rw [Outline.placed, List.flatMap_cons]
      simp only [preorderAll_append, List.mem_append, Frame.nodes] at hn ⊢
      tauto
    · rw [hframes] at hg
      rcases List.mem_cons.mp hg with rfl | hg
      · exact .opened (List.mem_cons_self ..) (List.prefix_append ..)
      · exact .opened (List.mem_cons_of_mem _ hg) (List.prefix_refl _)
    · rw [hframes] at hg
      rcases List.mem_cons.mp hg with rfl | hg
      · exact .opened (List.mem_cons_self ..) howner
      · exact .opened (List.mem_cons_of_mem _ hg) howner

lemma mem_placed_add (o : Outline) {n : Node} (hn : n ∈ preorderAll ns) : n ∈ preorderAll (o.add ns).placed := by
  unfold Outline.add
  split
  · simp only [Outline.placed, preorderAll_append, List.mem_append]
    tauto
  · simp only [Outline.placed, List.flatMap_cons, Frame.nodes, preorderAll_append, List.mem_append]
    tauto

lemma grows_closeFrame (o : Outline) : o.Grows o.closeFrame := by
  unfold closeFrame
  split
  · exact .refl o
  · next f fs hframes =>
    have hrest := grows_add { o with frames := fs } f.close
    refine ⟨hrest.items, fun n hn => ?_, fun g hg => ?_, fun g hg opening howner => ?_⟩
    · rw [Outline.placed, hframes, List.flatMap_cons, preorderAll_append, preorderAll_append, List.mem_append,
        List.mem_append] at hn
      rcases hn with hn | hn | hn
      · exact hrest.placed n (preorderAll_append .. ▸ List.mem_append_left _ hn)
      · exact mem_placed_add _ (Frame.mem_preorder_close hn)
      · exact hrest.placed n (preorderAll_append .. ▸ List.mem_append_right _ hn)
    · rw [hframes] at hg
      rcases List.mem_cons.mp hg with rfl | hg
      · obtain ⟨n, hn, hblock⟩ := Frame.exists_blockOver_close (List.prefix_refl g.items)
        exact .closed (mem_placed_add _ hn) hblock
      · exact hrest.opened g hg
    · rw [hframes] at hg
      rcases List.mem_cons.mp hg with rfl | hg
      · have hclose : g.close = opening.close (.branch .block g.items g.start) := by rw [Frame.close, howner]
        exact .closed fun n hn => mem_placed_add _ (hclose ▸ hn)
      · exact hrest.openings g hg opening howner

lemma grows_closeFrames (k : Nat) (o : Outline) : o.Grows (closeFrames k o) := by
  induction k generalizing o with
  | zero => exact .refl o
  | succ k ih => exact (grows_closeFrame o).trans (ih _)

lemma grows_dedent (o : Outline) (width : Nat) : o.Grows (o.dedent width) := by
  rw [dedent_eq]
  exact (grows_closeFrames ..).of_same rfl rfl

lemma grows_openFrame (o : Outline) (line : LogicalLine) (opening : Option Opening) :
    o.Grows (o.openFrame line opening) := by
  refine ⟨List.prefix_refl _, fun n hn => ?_, fun f hf => .opened (List.mem_cons_of_mem _ hf) (List.prefix_refl _),
    fun f hf opening howner => .opened (List.mem_cons_of_mem _ hf) howner⟩
  simp only [Outline.placed, Outline.openFrame, List.flatMap_cons, preorderAll_append, List.mem_append] at hn ⊢
  tauto

lemma grows_resume (o : Outline) (items : List Node) : o.Grows (o.resume items) :=
  (grows_add (o.waitFor .nothing) items).of_same rfl rfl

/-! ## Adding lines -/

lemma grows_addForm (o : Outline) (line : LogicalLine) (misaligned bodyFollows : Bool) (form : Form) :
    o.Grows (o.addForm line misaligned bodyFollows form) := by
  unfold addForm
  split
  · exact grows_add ..
  · split
    · exact .of_eq rfl rfl
    · exact grows_add ..
  · exact .of_eq rfl rfl

lemma grows_addItem (o : Outline) (line : LogicalLine) (rest : List LogicalLine) : o.Grows (o.addItem line rest) := by
  rw [addItem_eq]
  exact (grows_addForm ..).of_same rfl rfl

lemma grows_addCode (o : Outline) (line : LogicalLine) (rest : List LogicalLine) : o.Grows (o.addCode line rest) := by
  have hclosed : o.Grows (o.closedTo line.indent) := by
    unfold closedTo
    split
    · exact grows_dedent ..
    · exact .refl o
  have hopened : (o.closedTo line.indent).Grows ((o.closedTo line.indent).openedFor line) := by
    unfold openedFor
    split
    · exact grows_openFrame ..
    · exact .refl _
  rw [addCode_eq]
  exact (hclosed.trans hopened).trans (grows_addItem ..)

lemma grows_addComment (o : Outline) (line : LogicalLine) (rest : List LogicalLine) :
    o.Grows (o.addComment line rest) := by
  rw [addComment_eq]
  split
  · exact (grows_dedent ..).trans (grows_add ..)
  · exact grows_add ..

lemma grows_place (o : Outline) (line : LogicalLine) (rest : List LogicalLine) : o.Grows (o.place line rest) := by
  unfold place
  split
  · exact .refl o
  · exact grows_addComment ..
  · exact grows_addCode ..

theorem grows_step (o : Outline) (line : LogicalLine) (rest : List LogicalLine) : o.Grows (o.step line rest) := by
  cases hawaiting : o.awaiting with
  | nothing =>
    rw [step_nothing hawaiting]
    exact grows_place ..
  | block opening =>
    rw [step_block hawaiting]
    split
    · exact .refl o
    · exact .of_eq rfl rfl
    · have hopened := grows_openFrame (o.waitFor .nothing) line (some opening)
      exact (hopened.trans (grows_addItem ..)).of_same rfl rfl
  | python body =>
    rw [step_python hawaiting]
    split
    · exact .of_eq rfl rfl
    · exact (grows_resume ..).trans (grows_place ..)

theorem grows_run (o : Outline) (lines : List LogicalLine) : o.Grows (o.run lines) := by
  induction lines generalizing o with
  | nil => exact .refl o
  | cons line rest ih => exact (grows_step ..).trans (ih _)

/-! ## The document in the end -/

lemma grows_endAwaiting (o : Outline) : o.Grows o.endAwaiting := by
  cases hawaiting : o.awaiting with
  | nothing =>
    rw [endAwaiting_nothing hawaiting]
    exact .refl o
  | block opening =>
    rw [endAwaiting_block hawaiting]
    exact grows_resume ..
  | python body =>
    rw [endAwaiting_python hawaiting]
    exact grows_resume ..

lemma grows_finish (o : Outline) : o.Grows (closeFrames o.endAwaiting.frames.length o.endAwaiting) :=
  (grows_endAwaiting o).trans (grows_closeFrames ..)

/-- The items of an outline are the first ones of the document. -/
theorem items_prefix_finish (o : Outline) : o.items <+: o.finish :=
  (grows_finish o).items

lemma mem_finish {n : Node} (hn : n ∈ preorderAll o.endAwaiting.placed) : n ∈ preorderAll o.finish := by
  have hplaced := (grows_closeFrames o.endAwaiting.frames.length o.endAwaiting).placed n hn
  rwa [Outline.placed, closeFrames_all, List.flatMap_nil, List.append_nil] at hplaced

/-- The line that a block of an outline belongs to is in the document, with the block behind it. -/
theorem HasOpening.finish {opening : Opening} (h : o.HasOpening opening) :
    ∃ block, ∀ n ∈ preorderAll (opening.close block), n ∈ preorderAll o.finish := by
  have hframes := closeFrames_all o.endAwaiting
  cases h.grows (grows_finish o) with
  | opened hf _ =>
    rw [hframes] at hf
    cases hf
  | @closed block hplaced =>
    rw [Outline.placed, hframes, List.flatMap_nil, List.append_nil] at hplaced
    exact ⟨block, hplaced⟩

/-- Every block of an outline is a block of the document, in which more items may follow. -/
theorem HasBlock.finish (h : o.HasBlock ns) : ∃ n ∈ preorderAll o.finish, n.BlockOver ns := by
  have hframes := closeFrames_all o.endAwaiting
  cases h.grows (grows_finish o) with
  | opened hf _ =>
    rw [hframes] at hf
    cases hf
  | @closed n hn hblock =>
    refine ⟨n, ?_, hblock⟩
    rwa [Outline.placed, hframes, List.flatMap_nil, List.append_nil] at hn

end

end Outline

end RenpyScript
