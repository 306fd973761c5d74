import RenpyScript.Proofs.Line.Compound

/-!
# Compound nodes on different rows

`Spread row first last ns` says how the nodes `ns` and those below them are spread over the rows `first` to `last`:
among siblings a compound node, wherever in the subtree of its sibling it is, begins on a later row than all
siblings in front end, and what is below a compound node begins on later rows than the node itself. Rows are given
by any function of offsets.
-/

namespace RenpyScript

namespace Node

section
variable (row : Nat → Nat)

/-- Compound nodes in the subtree of `b` begin on later rows than `a` ends. -/
def Precedes (a b : Node) : Prop :=
  ∀ y ∈ b.preorder, y.kind.isCompound = true → row a.span.stop < row y.span.start

/-- The children of the node are spread over different rows, and those below a compound node over later ones. -/
structure Staggered (n : Node) : Prop where
  precede : n.children.Pairwise (Precedes row)
  below : n.kind.isCompound = true → ∀ y ∈ n.children.flatMap preorder, y.kind.isCompound = true →
    row n.span.start < row y.span.start

/-- The nodes and those below them are spread over the rows from `first` to `last`. -/
structure Spread (first last : Nat) (ns : List Node) : Prop where
  precede : ns.Pairwise (Precedes row)
  staggered : ∀ n ∈ ns.flatMap preorder, n.Staggered row
  start_ge : ∀ n ∈ ns.flatMap preorder, n.kind.isCompound = true → first ≤ row n.span.start
  stop_le : ∀ n ∈ ns, row n.span.stop ≤ last

/-- Nodes that a compound node begins with: simple ones, the first of which begins on row `first` or later. -/
structure Leads (first last : Nat) (ns : List Node) : Prop where
  simple : ∀ n ∈ ns, n.Simple
  begins : ∃ n ∈ ns.head?, first ≤ row n.span.start ∧ row n.span.start ≤ last
  stop_le : ∀ n ∈ ns, row n.span.stop ≤ last

end

variable {row : Nat → Nat} {first last first' last' : Nat} {n : Node} {ns ms : List Node}

/-! ## Simple nodes -/

lemma Simple.of_mem_preorder {m : Node} (h : n.Simple) (hm : m ∈ n.preorder) : m.Simple :=
  fun k hk => h k (mem_preorder_trans hm hk)

lemma Simple.precedes (h : n.Simple) (a : Node) : Precedes row a n :=
  fun y hy hcompound => absurd hcompound (by rw [h y hy]; exact Bool.false_ne_true)

lemma pairwise_precedes_of_simple (h : ∀ n ∈ ns, n.Simple) : ns.Pairwise (Precedes row) :=
  List.pairwise_of_forall_mem_list fun a _ _ hb => (h _ hb).precedes a

lemma staggered_of_children (h : ∀ c ∈ n.children, c.Simple) : n.Staggered row := by
  refine ⟨pairwise_precedes_of_simple h, fun _ y hy hcompound => ?_⟩
  obtain ⟨c, hc, hy⟩ := List.mem_flatMap.mp hy
  exact absurd hcompound (by rw [h c hc y hy]; exact Bool.false_ne_true)

lemma Simple.staggered (h : n.Simple) : n.Staggered row :=
  staggered_of_children (simple_iff.mp h).2

lemma spread_of_simple (first : Nat) (h : ∀ n ∈ ns, n.Simple) (hstop : ∀ n ∈ ns, row n.span.stop ≤ last) :
    Spread row first last ns := by
  have hbelow : ∀ m ∈ ns.flatMap preorder, m.Simple := by
    intro m hm
    obtain ⟨n, hn, hm⟩ := List.mem_flatMap.mp hm
    exact (h n hn).of_mem_preorder hm
  refine ⟨pairwise_precedes_of_simple h, fun m hm => (hbelow m hm).staggered, fun m hm hcompound => ?_, hstop⟩
  rw [hbelow m hm m m.self_mem_preorder] at hcompound
  exact absurd hcompound Bool.false_ne_true

lemma spread_nil (first last : Nat) : Spread row first last [] :=
  spread_of_simple first (by simp) (by simp)

/-! ## Lists of siblings -/

lemma Spread.mono (h : Spread row first last ns) (hfirst : first' ≤ first) (hlast : last ≤ last') :
    Spread row first' last' ns :=
  ⟨h.precede, h.staggered, fun n hn hcompound => hfirst.trans (h.start_ge n hn hcompound),
    fun n hn => (h.stop_le n hn).trans hlast⟩

lemma Spread.append {middle : Nat} (h : Spread row first middle ns) (h' : Spread row first' last ms)
    (hlater : middle < first') (hfirst : first ≤ first') (hlast : middle ≤ last) :
    Spread row first last (ns ++ ms) := by
  refine ⟨List.pairwise_append.mpr ⟨h.precede, h'.precede, fun a ha b hb y hy hcompound => ?_⟩, ?_, ?_, ?_⟩
  · have hy := h'.start_ge y (List.mem_flatMap.mpr ⟨b, hb, hy⟩) hcompound
    exact (h.stop_le a ha).trans_lt (hlater.trans_le hy)
  · rw [List.flatMap_append, List.forall_mem_append]
    exact ⟨h.staggered, h'.staggered⟩
  · rw [List.flatMap_append, List.forall_mem_append]
    exact ⟨h.start_ge, (h'.mono hfirst (le_refl last)).start_ge⟩
  · exact List.forall_mem_append.mpr ⟨(h.mono (le_refl first) hlast).stop_le, h'.stop_le⟩

lemma Spread.append_simple (h : Spread row first last ns) (hms : ∀ m ∈ ms, m.Simple)
    (hstop : ∀ m ∈ ms, row m.span.stop ≤ last) : Spread row first last (ns ++ ms) := by
  have hspread := spread_of_simple first hms hstop
  refine ⟨List.pairwise_append.mpr ⟨h.precede, hspread.precede, fun a _ b hb => (hms b hb).precedes a⟩, ?_, ?_, ?_⟩
  · rw [List.flatMap_append, List.forall_mem_append]
    exact ⟨h.staggered, hspread.staggered⟩
  · rw [List.flatMap_append, List.forall_mem_append]
    exact ⟨h.start_ge, hspread.start_ge⟩
  · exact List.forall_mem_append.mpr ⟨h.stop_le, hstop⟩

/-! ## Nodes over nodes -/

lemma hull_stop_le {fallback : Nat} (h : ∀ n ∈ ns, row n.span.stop ≤ last)
    (hfallback : ns = [] → row fallback ≤ last) : row (hull ns fallback).stop ≤ last := by
  cases ns with
  | nil => exact hfallback rfl
  | cons n ns =>
    have hlast := List.getLast?_eq_some_getLast (List.cons_ne_nil n ns)
    rw [hull_cons hlast]
    exact h _ (List.mem_of_getLast? hlast)

lemma flatMap_preorder_branch (kind : Kind) (ns : List Node) (fallback : Nat) :
    [branch kind ns fallback].flatMap preorder = branch kind ns fallback :: ns.flatMap preorder := by
  rw [List.flatMap_singleton, preorder_eq]
  rfl

lemma Spread.branch {kind : Kind} {fallback : Nat} (h : Spread row first last ns) (hkind : kind.isCompound = false)
    (hfallback : ns = [] → row fallback ≤ last) : Spread row first last [branch kind ns fallback] := by
  refine ⟨List.pairwise_singleton _ _, ?_, ?_, ?_⟩
  · rw [flatMap_preorder_branch, List.forall_mem_cons]
    exact ⟨⟨h.precede, fun hcompound => absurd (hkind ▸ hcompound) Bool.false_ne_true⟩, h.staggered⟩
  · rw [flatMap_preorder_branch, List.forall_mem_cons]
    exact ⟨fun hcompound => absurd (hkind ▸ hcompound) Bool.false_ne_true, h.start_ge⟩
  · rw [List.forall_mem_singleton]
    exact hull_stop_le h.stop_le hfallback

lemma Spread.under {field : Field} (h : Spread row first last [n]) : Spread row first last [n.under field] := by
  have hpreorder : (n.under field).preorder = n.under field :: n.children.flatMap preorder := by
    rw [preorder_eq]
    rfl
  obtain ⟨-, hstaggered, hstart, hstop⟩ := h
  rw [List.flatMap_singleton, preorder_eq, List.forall_mem_cons] at hstaggered hstart
  refine ⟨List.pairwise_singleton _ _, ?_, ?_, ?_⟩
  · rw [List.flatMap_singleton, hpreorder, List.forall_mem_cons]
    exact ⟨⟨hstaggered.1.precede, hstaggered.1.below⟩, hstaggered.2⟩
  · rw [List.flatMap_singleton, hpreorder, List.forall_mem_cons]
    exact hstart
  · rw [List.forall_mem_singleton] at hstop ⊢
    exact hstop

/-! ## Beginnings of compound nodes -/

lemma Leads.ne_nil (h : Leads row first last ns) : ns ≠ [] := by
  rintro rfl
  obtain ⟨n, hn, -⟩ := h.begins
  cases hn

lemma Leads.mono (h : Leads row first last ns) (hfirst : first' ≤ first) (hlast : last ≤ last') :
    Leads row first' last' ns := by
  obtain ⟨n, hn, hbegins, hle⟩ := h.begins
  exact ⟨h.simple, ⟨n, hn, hfirst.trans hbegins, hle.trans hlast⟩, fun n hn => (h.stop_le n hn).trans hlast⟩

lemma Leads.append (h : Leads row first last ns) (hms : ∀ m ∈ ms, m.Simple)
    (hstop : ∀ m ∈ ms, row m.span.stop ≤ last) : Leads row first last (ns ++ ms) := by
  obtain ⟨n, hn, hbegins⟩ := h.begins
  refine ⟨List.forall_mem_append.mpr ⟨h.simple, hms⟩, ⟨n, ?_, hbegins⟩, List.forall_mem_append.mpr ⟨h.stop_le, hstop⟩⟩
  rw [List.head?_append_of_ne_nil _ h.ne_nil]
  exact hn

lemma Leads.start_branch (h : Leads row first last ns) (kind : Kind) (ms : List Node) (fallback : Nat) :
    first ≤ row (Node.branch kind (ns ++ ms) fallback).span.start ∧
      row (Node.branch kind (ns ++ ms) fallback).span.start ≤ last := by
  obtain ⟨n, hn, hbegins⟩ := h.begins
  obtain ⟨ns', rfl⟩ := List.head?_eq_some_iff.mp hn
  have hlast := List.getLast?_eq_some_getLast (List.cons_ne_nil n (ns' ++ ms))
  rw [Node.branch, List.cons_append, hull_cons hlast]
  exact hbegins

lemma Leads.branch {middle : Nat} (h : Leads row first middle ns) (kind : Kind) (fallback : Nat)
    (hms : Spread row (middle + 1) last ms) (hlast : middle ≤ last) :
    Spread row first last [branch kind (ns ++ ms) fallback] := by
  have hns := spread_of_simple (middle + 1) h.simple h.stop_le
  have hchildren : Spread row (middle + 1) last (ns ++ ms) :=
    hns.append hms (Nat.lt_succ_self middle) (le_refl _) hlast
  obtain ⟨hfirst, hmiddle⟩ := h.start_branch kind ms fallback
  refine ⟨List.pairwise_singleton _ _, ?_, ?_, ?_⟩
  · rw [flatMap_preorder_branch, List.forall_mem_cons]
    refine ⟨⟨hchildren.precede, fun _ y hy hcompound => ?_⟩, hchildren.staggered⟩
    exact hmiddle.trans_lt (hchildren.start_ge y hy hcompound)
  · rw [flatMap_preorder_branch, List.forall_mem_cons]
    refine ⟨fun _ => hfirst, fun y hy hcompound => ?_⟩
    have hy := hchildren.start_ge y hy hcompound
    omega
  · rw [List.forall_mem_singleton]
    exact hull_stop_le hchildren.stop_le fun hnil => absurd (List.append_eq_nil_iff.mp hnil).1 h.ne_nil

lemma spread_of_children (h : ∀ c ∈ n.children, c.Simple) (hfirst : first ≤ row n.span.start)
    (hlast : row n.span.stop ≤ last) : Spread row first last [n] := by
  have hbelow : ∀ m ∈ n.children.flatMap preorder, m.Simple := by
    intro m hm
    obtain ⟨c, hc, hm⟩ := List.mem_flatMap.mp hm
    exact (h c hc).of_mem_preorder hm
  refine ⟨List.pairwise_singleton _ _, ?_, ?_, List.forall_mem_singleton.mpr hlast⟩
  · rw [List.flatMap_singleton, preorder_eq, List.forall_mem_cons]
    exact ⟨staggered_of_children h, fun m hm => (hbelow m hm).staggered⟩
  · rw [List.flatMap_singleton, preorder_eq, List.forall_mem_cons]
    refine ⟨fun _ => hfirst, fun m hm hcompound => ?_⟩
    rw [hbelow m hm m m.self_mem_preorder] at hcompound
    exact absurd hcompound Bool.false_ne_true

/-! ## Whole subtrees -/

lemma stop_le_of_mem_preorder {text : List Char} {m : Node} (h : ∀ m ∈ n.preorder, m.InText text)
    (hm : m ∈ n.preorder) : m.span.stop ≤ n.span.stop := by
  induction n using childInduction with
  | step n ih =>
    rw [preorder_eq] at hm
    rcases List.mem_cons.mp hm with rfl | hm
    · exact le_refl _
    · obtain ⟨c, hc, hm⟩ := List.mem_flatMap.mp hm
      have hchild := ih c hc (fun k hk => h k (mem_preorder_trans (mem_preorder_of_mem_children hc) hk)) hm
      exact hchild.trans ((h n n.self_mem_preorder).nested c hc).2

lemma start_le_of_mem_preorder {text : List Char} {m : Node} (h : ∀ m ∈ n.preorder, m.InText text)
    (hm : m ∈ n.preorder) : n.span.start ≤ m.span.start := by
  induction n using childInduction with
  | step n ih =>
    rw [preorder_eq] at hm
    rcases List.mem_cons.mp hm with rfl | hm
    · exact le_refl _
    · obtain ⟨c, hc, hm⟩ := List.mem_flatMap.mp hm
      have hchild := ih c hc (fun k hk => h k (mem_preorder_trans (mem_preorder_of_mem_children hc) hk)) hm
      exact ((h n n.self_mem_preorder).nested c hc).1.trans hchild

/-- If every node of a subtree is staggered, then of two compound nodes the second begins on a later row, and it ends
no later than the first, or begins on a later row than the first ends. -/
theorem pairwise_preorder {text : List Char} (hrow : Monotone row) (htext : ∀ m ∈ n.preorder, m.InText text)
    (hstaggered : ∀ m ∈ n.preorder, m.Staggered row) :
    n.preorder.Pairwise fun a b => a.kind.isCompound = true → b.kind.isCompound = true →
      row a.span.start < row b.span.start ∧
        (row b.span.stop ≤ row a.span.stop ∨ row a.span.stop < row b.span.start) := by
  induction n using childInduction with
  | step n ih =>
    have hchildren (c : Node) (hc : c ∈ n.children) : c.preorder ⊆ n.preorder :=
      fun k hk => mem_preorder_trans (mem_preorder_of_mem_children hc) hk
    have hself := hstaggered n n.self_mem_preorder
    rw [preorder_eq, List.pairwise_cons, List.pairwise_flatMap]
    refine ⟨fun b hb hn hcompound => ⟨hself.below hn b hb hcompound, ?_⟩, fun c hc => ?_, ?_⟩
    · have hstop := stop_le_of_mem_preorder htext (n.children_subset_preorder hb)
      exact Or.inl (hrow hstop)
    · exact ih c hc (fun m hm => htext m (hchildren c hc hm)) fun m hm => hstaggered m (hchildren c hc hm)
    · refine hself.precede.imp_of_mem fun {c d} hc hd hprecedes x hx y hy _ hcompound => ?_
      -- The first of the two lies in a child that ends on an earlier row.
      have hlater := hprecedes y hy hcompound
      have hstop := hrow (stop_le_of_mem_preorder (fun m hm => htext m (hchildren c hc hm)) hx)
      have hspan := hrow (htext x (hchildren c hc hx)).start_le_stop
      omega

end Node

end RenpyScript
