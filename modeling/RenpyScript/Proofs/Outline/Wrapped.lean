import RenpyScript.Proofs.Outline.Grown

/-!
# Misaligned lines are in one error

`o.Wraps ns start` says that the nodes `ns` of a misaligned line, the content of which starts at `start`, are in one
error or will be: the line may wait for its block or its Python body, or its block may be open.
-/

namespace RenpyScript

open Node

/-- The node is an error that has the nodes `ns` below it and begins with them, or at `start` if there are none. -/
structure Node.Wraps (e : Node) (ns : List Node) (start : Nat) : Prop where
  error : e.kind = .error
  begins : e.span.start = (hull ns start).start
  below : ∀ n ∈ preorderAll ns, n ∈ e.preorder

/-- The nodes `ns` are the first ones of those read so far for a misaligned line that is not complete. -/
structure BeginsMisaligned (misaligned : Bool) (read ns : List Node) : Prop where
  misaligned : misaligned = true
  nonempty : ns ≠ []
  begins : ns <+: read

section
variable {ns ms : List Node} {start : Nat}

lemma Node.hull_start_append (hne : ns ≠ []) (ms : List Node) (fallback fallback' : Nat) :
    (hull (ns ++ ms) fallback).start = (hull ns fallback').start := by
  obtain ⟨n, ns, rfl⟩ := List.exists_cons_of_ne_nil hne
  obtain ⟨m, hm⟩ : ∃ m, (n :: (ns ++ ms)).getLast? = some m := ⟨_, List.getLast?_eq_some_getLast (by simp)⟩
  obtain ⟨m', hm'⟩ : ∃ m, (n :: ns).getLast? = some m := ⟨_, List.getLast?_eq_some_getLast (by simp)⟩
  rw [List.cons_append, hull_cons hm, hull_cons hm']

lemma BeginsMisaligned.more {misaligned : Bool} (h : BeginsMisaligned misaligned ms ns) {more : List Node}
    (hmore : ms <+: more) : BeginsMisaligned misaligned more ns :=
  ⟨h.misaligned, h.nonempty, h.begins.trans hmore⟩

/-- Nodes that are settled as those of a misaligned line are in one error. -/
lemma settle_wraps (ns : List Node) (start : Nat) : ∃ e, settle true start ns = [e] ∧ e.Wraps ns start := by
  have hbranch : (Node.branch .error ns start).Wraps ns start :=
    ⟨rfl, rfl, fun n hn => (Node.branch .error ns start).children_subset_preorder (preorderAll_eq ns ▸ hn)⟩
  unfold settle
  rw [if_pos rfl]
  split
  · next n =>
    split
    · next herror =>
      refine ⟨n, rfl, by simpa [Node.isError] using herror, rfl, fun m hm => ?_⟩
      rwa [preorderAll_eq, List.flatMap_singleton] at hm
    · exact ⟨_, rfl, hbranch⟩
  · exact ⟨_, rfl, hbranch⟩

lemma BeginsMisaligned.settle {misaligned : Bool} {m : Node} {fallback : Nat}
    (h : BeginsMisaligned misaligned ms ns) (start : Nat) (hstart : m.span.start = (hull ms fallback).start)
    (hbelow : ∀ n ∈ preorderAll ms, n ∈ preorderAll [m]) :
    ∃ e ∈ preorderAll (settle misaligned fallback [m]), e.Wraps ns start := by
  obtain ⟨e, hsettle, he⟩ := settle_wraps [m] fallback
  obtain ⟨rfl, hne, more, rfl⟩ := h
  refine ⟨e, ?_, he.error, ?_, fun n hn => he.below n (hbelow n ?_)⟩
  · rw [hsettle, preorderAll_eq, List.flatMap_singleton]
    exact e.self_mem_preorder
  · rw [he.begins, ← hull_start_append hne more fallback start, ← hstart]
    rfl
  · rw [preorderAll_append]
    exact List.mem_append_left _ hn

lemma Opening.close_wraps {o : Opening} (h : BeginsMisaligned o.misaligned o.owner.head ns) (start : Nat)
    (block : Node) : ∃ e ∈ preorderAll (o.close block), e.Wraps ns start := by
  have hhead : o.owner.head ≠ [] := fun hnil => h.nonempty (List.prefix_nil.mp (hnil ▸ h.begins))
  refine h.settle start ?_ fun n hn => Owner.mem_preorder_close ?_
  · rw [← hull_start_append hhead [block.under .body] o.start]
    unfold Owner.close
    split <;> rfl
  · rw [preorderAll_append]
    exact List.mem_append_left _ hn

lemma PythonBody.close_wraps {body : PythonBody} (h : BeginsMisaligned body.misaligned body.children ns) (start : Nat) :
    ∃ e ∈ preorderAll body.close, e.Wraps ns start := by
  have hmore : body.children <+:
      if body.hasCode then body.children else body.children ++ [.absent .pythonExpression body.childrenEnd] := by
    split
    · exact List.prefix_refl _
    · exact List.prefix_append _ _
  exact (h.more hmore).settle start rfl fun n hn => mem_preorderAll_branch hn

lemma BeginsMisaligned.add {body : PythonBody} (h : BeginsMisaligned body.misaligned body.children ns)
    (line : LogicalLine) : BeginsMisaligned (body.add line).misaligned (body.add line).children ns := by
  unfold PythonBody.add
  split
  · exact h
  · exact h.more (List.prefix_append _ _)
  · exact h.more (List.prefix_append _ _)

end

namespace Outline

/-- The nodes `ns` of a misaligned line are in an error, or will be once the outline is finished. -/
inductive Wraps (o : Outline) (ns : List Node) (start : Nat) : Prop
  | placed {e : Node} (mem : e ∈ preorderAll o.placed) (wraps : e.Wraps ns start)
  | opened {opening : Opening} (has : o.HasOpening opening)
      (begins : BeginsMisaligned opening.misaligned opening.owner.head ns)
  | block {opening : Opening} (awaits : o.awaiting = .block opening)
      (begins : BeginsMisaligned opening.misaligned opening.owner.head ns)
  | python {body : PythonBody} (awaits : o.awaiting = .python body)
      (begins : BeginsMisaligned body.misaligned body.children ns)

section
variable {o o' : Outline} {ns : List Node} {start : Nat} {line : LogicalLine} {rest : List LogicalLine}

lemma Wraps.grows (h : o.Wraps ns start) (hgrows : o.Grows o')
    (hblock : ∀ opening, o.awaiting = .block opening → BeginsMisaligned opening.misaligned opening.owner.head ns →
      o'.Wraps ns start)
    (hpython : ∀ body, o.awaiting = .python body → BeginsMisaligned body.misaligned body.children ns →
      o'.Wraps ns start) : o'.Wraps ns start := by
  cases h with
  | placed he hwraps => exact .placed (hgrows.placed _ he) hwraps
  | opened hhas hbegins => exact .opened (hhas.grows hgrows) hbegins
  | block hawaits hbegins => exact hblock _ hawaits hbegins
  | python hawaits hbegins => exact hpython _ hawaits hbegins

lemma Wraps.grows_placed {items : List Node} (h : ∃ e ∈ preorderAll items, e.Wraps ns start)
    (hgrows : (o.resume items).Grows o') : o'.Wraps ns start := by
  obtain ⟨e, he, hwraps⟩ := h
  exact .placed (hgrows.placed e (mem_placed_add _ he)) hwraps

/-! ## Adding lines -/

/-- A line of code that is added while the outline is misaligned. -/
theorem addItem_wraps (o : Outline) (line : LogicalLine) (rest : List LogicalLine) (hm : o.misaligned = true) :
    (o.addItem line rest).Wraps (o.formOf line rest).nodes line.start := by
  have hlaid := o.formOf_laidOn line rest
  rw [addItem_eq, hm]
  cases hform : o.formOf line rest with
  | items nodes =>
    obtain ⟨e, hsettle, he⟩ := settle_wraps nodes line.start
    refine .placed (mem_placed_add _ ?_) he
    rw [hsettle, preorderAll_eq, List.flatMap_singleton]
    exact e.self_mem_preorder
  | opens owner =>
    rw [hform] at hlaid
    obtain _ | ⟨-, hne, -⟩ := hlaid
    have hbegins : BeginsMisaligned true owner.head owner.head := ⟨rfl, hne, List.prefix_refl _⟩
    rw [addForm]
    split
    · exact .block rfl hbegins
    · obtain ⟨e, he, hwraps⟩ := Opening.close_wraps (o := ⟨owner, line.start, true⟩) hbegins line.start
        (.absent .block owner.headEnd)
      exact .placed (mem_placed_add _ he) hwraps
  | opensPython head =>
    rw [hform] at hlaid
    obtain _ | _ | ⟨-, hne⟩ := hlaid
    exact .python rfl ⟨rfl, hne, List.prefix_refl _⟩

theorem Wraps.step (h : o.Wraps ns start) : (o.step line rest).Wraps ns start := by
  refine h.grows (grows_step o line rest) ?_ ?_
  · intro opening hawaits hbegins
    rw [step_block hawaits]
    split
    · exact .block hawaits hbegins
    · exact .block rfl (hbegins.more (List.prefix_append _ _))
    · have hopened : ((o.waitFor .nothing).openFrame line (some opening)).HasOpening opening :=
        .opened (List.mem_cons_self ..) rfl
      exact .opened (hopened.grows (grows_addItem ..)) hbegins
  · intro body hawaits hbegins
    rw [step_python hawaits]
    split
    · exact .python rfl (hbegins.add line)
    · exact .grows_placed (PythonBody.close_wraps hbegins start) (grows_place ..)

theorem Wraps.run (h : o.Wraps ns start) (lines : List LogicalLine) : (o.run lines).Wraps ns start := by
  induction lines generalizing o with
  | nil => exact h
  | cons line rest ih => exact ih h.step

/-- In the document the nodes of the line are in one error. -/
theorem Wraps.finish (h : o.Wraps ns start) : ∃ e ∈ preorderAll o.finish, e.Wraps ns start := by
  have hresumed {items : List Node} (hend : o.endAwaiting = o.resume items)
      (h : ∃ e ∈ preorderAll items, e.Wraps ns start) : ∃ e ∈ preorderAll o.finish, e.Wraps ns start := by
    obtain ⟨e, he, hwraps⟩ := h
    exact ⟨e, mem_finish (hend ▸ mem_placed_add _ he), hwraps⟩
  cases h with
  | @placed e he hwraps => exact ⟨e, mem_finish ((grows_endAwaiting o).placed e he), hwraps⟩
  | @opened opening hhas hbegins =>
    obtain ⟨block, hplaced⟩ := hhas.finish
    obtain ⟨e, he, hwraps⟩ := opening.close_wraps hbegins start block
    exact ⟨e, hplaced e he, hwraps⟩
  | @block opening hawaits hbegins => exact hresumed (endAwaiting_block hawaits) (opening.close_wraps hbegins start _)
  | @python body hawaits hbegins => exact hresumed (endAwaiting_python hawaits) (body.close_wraps hbegins start)

end

end Outline

end RenpyScript
