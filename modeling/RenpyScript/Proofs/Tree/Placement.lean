import RenpyScript.Proofs.Text.Boundary
import RenpyScript.Tree.Node

/-!
# Nodes placed in a text

`Laid gap pos cs ns` says that the nodes `ns` stand one after the other in the text `cs`, which
begins at `pos`, and that only characters accepted by `gap` lie between them. Each node fills a
stretch of the text exactly, and its children are laid in that stretch in turn. Inside a string the
text between the children is free, elsewhere it is a gap. So the predicate tells both where nodes
may lie and that nothing else is left out.
-/

namespace RenpyScript

namespace Node

theorem childInduction {P : Node → Prop} (step : ∀ n, (∀ c ∈ n.children, P c) → P n) (n : Node) : P n :=
  @Node.rec P (fun ns => ∀ c ∈ ns, P c)
    (fun field kind span missing children ih => step ⟨field, kind, span, missing, children⟩ ih)
    (fun _ hc => absurd hc (List.not_mem_nil))
    (fun _ _ hhead htail c hc => (List.mem_cons.mp hc).elim (fun h => h ▸ hhead) (htail c)) n

/-- What may lie between the children of a node of the given kind. -/
def gapIn (kind : Kind) : Char → Bool :=
  if kind = .string then fun _ => true else isGap

mutual
/-- The node spans exactly the text `cs` that begins at `pos`. -/
def Fills (pos : Nat) (cs : List Char) : Node → Prop
  | ⟨_, kind, span, _, children⟩ =>
    span = .covering pos cs ∧ (children = [] ∨ Laid (gapIn kind) pos cs children)

/-- The nodes stand in order in the text `cs` that begins at `pos`, with gaps around them. -/
def Laid (gap : Char → Bool) (pos : Nat) (cs : List Char) : List Node → Prop
  | [] => OnlyGap gap cs
  | n :: ns =>
    ∃ before filled after, cs = before ++ filled ++ after ∧ OnlyGap gap before ∧
      n.Fills (pos + byteLength before) filled ∧
      Laid gap (pos + byteLength before + byteLength filled) after ns
end

/-! ## Building placements -/

section
variable {gap : Char → Bool} {pos : Nat} {as bs cs : List Char} {n : Node} {ns ms : List Node}

lemma fills_iff : n.Fills pos cs ↔
    n.span = .covering pos cs ∧ (n.children = [] ∨ Laid (gapIn n.kind) pos cs n.children) := by
  obtain ⟨field, kind, span, missing, children⟩ := n
  rw [Fills]

lemma Fills.span_eq (h : n.Fills pos cs) : n.span = .covering pos cs :=
  (fills_iff.mp h).1

@[simp] lemma fills_under (field : Field) : (n.under field).Fills pos cs ↔ n.Fills pos cs := by
  rw [fills_iff, fills_iff, under]

lemma fills_leaf (kind : Kind) (pos : Nat) (cs : List Char) :
    (leaf kind (.covering pos cs)).Fills pos cs := by
  rw [fills_iff]
  exact ⟨rfl, Or.inl rfl⟩

lemma fills_absent (kind : Kind) (pos : Nat) : (absent kind pos).Fills pos [] := by
  rw [fills_iff]
  exact ⟨rfl, Or.inl rfl⟩

@[simp] lemma laid_nil : Laid gap pos cs [] ↔ OnlyGap gap cs := by
  rw [Laid]

lemma laid_cons : Laid gap pos cs (n :: ns) ↔
    ∃ before filled after, cs = before ++ filled ++ after ∧ OnlyGap gap before ∧
      n.Fills (pos + byteLength before) filled ∧
      Laid gap (pos + byteLength before + byteLength filled) after ns := by
  rw [Laid]

lemma Fills.laid (h : n.Fills pos cs) : Laid gap pos cs [n] := by
  rw [laid_cons]
  exact ⟨[], cs, [], by simp, .nil, by simpa using h, by simpa using OnlyGap.nil⟩

lemma Laid.gap_before (hg : OnlyGap gap as) (h : Laid gap (pos + byteLength as) cs ns) :
    Laid gap pos (as ++ cs) ns := by
  cases ns with
  | nil =>
    rw [laid_nil] at h ⊢
    exact hg.append h
  | cons n ns =>
    rw [laid_cons] at h ⊢
    obtain ⟨before, filled, after, rfl, hb, hf, hr⟩ := h
    refine ⟨as ++ before, filled, after, by simp, hg.append hb, ?_, ?_⟩
    · rwa [byteLength_append, ← Nat.add_assoc]
    · rwa [byteLength_append, ← Nat.add_assoc]

lemma Laid.append (h : Laid gap pos as ns) (h' : Laid gap (pos + byteLength as) bs ms) :
    Laid gap pos (as ++ bs) (ns ++ ms) := by
  induction ns generalizing pos as with
  | nil => exact h'.gap_before (laid_nil.mp h)
  | cons n ns ih =>
    obtain ⟨before, filled, after, rfl, hb, hf, hr⟩ := laid_cons.mp h
    rw [List.cons_append, laid_cons]
    refine ⟨before, filled, after ++ bs, by simp, hb, hf, ih hr ?_⟩
    simpa [Nat.add_assoc] using h'

lemma Laid.gap_after (h : Laid gap pos as ns) (hg : OnlyGap gap bs) : Laid gap pos (as ++ bs) ns := by
  simpa using h.append (laid_nil.mpr hg)

lemma Laid.under (field : Field) (h : Laid gap pos cs ns) :
    Laid gap pos cs (ns.map (·.under field)) := by
  induction ns generalizing pos cs with
  | nil => exact h
  | cons n ns ih =>
    obtain ⟨before, filled, after, rfl, hb, hf, hr⟩ := laid_cons.mp h
    rw [List.map_cons, laid_cons]
    exact ⟨before, filled, after, rfl, hb, (fills_under field).mpr hf, ih hr⟩

lemma Laid.tight_left (h : Laid gap pos cs (n :: ns)) :
    ∃ before core, cs = before ++ core ∧ OnlyGap gap before ∧
      Laid gap (pos + byteLength before) core (n :: ns) ∧ n.span.start = pos + byteLength before := by
  obtain ⟨before, filled, after, rfl, hb, hf, hr⟩ := laid_cons.mp h
  refine ⟨before, filled ++ after, by simp, hb, ?_, ?_⟩
  · rw [laid_cons]
    exact ⟨[], filled, after, by simp, .nil, by simpa using hf, by simpa using hr⟩
  · rw [hf.span_eq, Span.covering]

lemma Laid.tight_right (h : Laid gap pos cs ns) (hn : ns.getLast? = some n) :
    ∃ core after, cs = core ++ after ∧ OnlyGap gap after ∧ Laid gap pos core ns ∧
      n.span.stop = pos + byteLength core := by
  induction ns generalizing pos cs with
  | nil => simp at hn
  | cons m ns ih =>
    obtain ⟨before, filled, after, rfl, hb, hf, hr⟩ := laid_cons.mp h
    cases ns with
    | nil =>
      obtain rfl : m = n := by simpa using hn
      refine ⟨before ++ filled, after, rfl, laid_nil.mp hr, hf.laid.gap_before hb, ?_⟩
      rw [hf.span_eq, Span.covering, byteLength_append, Nat.add_assoc]
    | cons m' ns =>
      rw [List.getLast?_cons_cons] at hn
      obtain ⟨core, behind, rfl, hg, hl, hstop⟩ := ih hr hn
      refine ⟨before ++ filled ++ core, behind, by simp, hg, ?_, ?_⟩
      · rw [laid_cons]
        exact ⟨before, filled, core, rfl, hb, hf, hl⟩
      · rw [hstop]
        simp only [byteLength_append]
        omega

lemma Laid.append_absent (kind : Kind) (h : Laid gap pos cs ns) (hn : ns.getLast? = some n) :
    Laid gap pos cs (ns ++ [absent kind n.span.stop]) := by
  obtain ⟨core, after, rfl, hg, hl, hstop⟩ := h.tight_right hn
  apply hl.append
  have habsent : Laid gap n.span.stop [] [absent kind n.span.stop] := (fills_absent kind _).laid
  rw [hstop] at habsent ⊢
  exact habsent.gap_after hg

lemma hull_cons (hn : (n :: ns).getLast? = some m) (fallback : Nat) :
    hull (n :: ns) fallback = ⟨n.span.start, m.span.stop⟩ := by
  rw [hull, List.head?_cons, hn]

/-- A node over the nodes of a stretch of text. If there are none it lies at the beginning. -/
lemma Laid.branch {kind : Kind} (hk : kind ≠ .string) {fallback : Nat} (h : Laid isGap pos cs ns)
    (hf : ns = [] → fallback = pos) : Laid isGap pos cs [branch kind ns fallback] := by
  cases ns with
  | nil =>
    rw [hf rfl]
    have hempty : (Node.branch kind [] pos).Fills pos [] := by
      rw [fills_iff]
      exact ⟨rfl, Or.inl rfl⟩
    exact hempty.laid.gap_after (laid_nil.mp h)
  | cons n ns =>
    obtain ⟨m, hm⟩ : ∃ m, (n :: ns).getLast? = some m := ⟨_, List.getLast?_eq_some_getLast (by simp)⟩
    obtain ⟨before, core, rfl, hb, hl, hstart⟩ := h.tight_left
    obtain ⟨filled, after, rfl, ha, hl, hstop⟩ := hl.tight_right hm
    have hfills : (Node.branch kind (n :: ns) fallback).Fills (pos + byteLength before) filled := by
      rw [fills_iff]
      refine ⟨?_, Or.inr ?_⟩
      · rw [Node.branch, hull_cons hm, hstart, hstop, Span.covering]
      · simpa [Node.branch, gapIn, hk] using hl
    exact (hfills.laid.gap_after ha).gap_before hb

end

/-! ## Reading placements back -/

section
variable {gap : Char → Bool} {pos : Nat} {as bs cs : List Char} {n c : Node} {ns : List Node}

lemma Laid.of_mem (h : Laid gap pos cs ns) (hc : c ∈ ns) :
    ∃ before filled after, cs = before ++ filled ++ after ∧
      c.Fills (pos + byteLength before) filled := by
  induction ns generalizing pos cs with
  | nil => simp at hc
  | cons n ns ih =>
    obtain ⟨before, filled, after, rfl, hb, hf, hr⟩ := laid_cons.mp h
    rcases List.mem_cons.mp hc with rfl | hc
    · exact ⟨before, filled, after, rfl, hf⟩
    · obtain ⟨before', filled', after', rfl, hf'⟩ := ih hr hc
      refine ⟨before ++ filled ++ before', filled', after', by simp, ?_⟩
      simpa [Nat.add_assoc] using hf'

lemma Laid.start_ge (h : Laid gap pos cs ns) (hc : c ∈ ns) : pos ≤ c.span.start := by
  obtain ⟨before, filled, after, rfl, hf⟩ := h.of_mem hc
  rw [hf.span_eq]
  exact Nat.le_add_right pos (byteLength before)

lemma Laid.stop_le (h : Laid gap pos cs ns) (hc : c ∈ ns) : c.span.stop ≤ pos + byteLength cs := by
  obtain ⟨before, filled, after, rfl, hf⟩ := h.of_mem hc
  rw [hf.span_eq, Span.covering]
  simp only [byteLength_append]
  omega

lemma Laid.ordered (h : Laid gap pos cs ns) :
    ns.Pairwise fun a b => a.span.stop ≤ b.span.start := by
  induction ns generalizing pos cs with
  | nil => exact List.Pairwise.nil
  | cons n ns ih =>
    obtain ⟨before, filled, after, rfl, hb, hf, hr⟩ := laid_cons.mp h
    refine List.pairwise_cons.mpr ⟨fun c hc => ?_, ih hr⟩
    rw [hf.span_eq, Span.covering]
    exact hr.start_ge hc

lemma Laid.stop_le_last {m : Node} (h : Laid gap pos cs ns) (hc : c ∈ ns) (hm : ns.getLast? = some m) :
    c.span.stop ≤ m.span.stop := by
  obtain ⟨before, filled, after, -, hf⟩ := h.of_mem (List.mem_of_getLast? hm)
  obtain ⟨ms, rfl⟩ := List.getLast?_eq_some_iff.mp hm
  rcases List.mem_append.mp hc with hc | hc
  · have hle := (List.pairwise_append.mp h.ordered).2.2 c hc m (List.mem_singleton_self m)
    rw [hf.span_eq, Span.covering] at hle ⊢
    simp only at hle ⊢
    omega
  · rw [List.mem_singleton.mp hc]

lemma preorderAll_eq (ns : List Node) : preorderAll ns = ns.flatMap preorder := by
  induction ns with
  | nil => rw [preorderAll, List.flatMap_nil]
  | cons n ns ih => rw [preorderAll, ih, List.flatMap_cons]

lemma preorder_eq (n : Node) : n.preorder = n :: n.children.flatMap preorder := by
  obtain ⟨field, kind, span, missing, children⟩ := n
  rw [preorder, preorderAll_eq]

lemma self_mem_preorder (n : Node) : n ∈ n.preorder := by
  rw [preorder_eq]
  exact List.mem_cons_self ..

lemma children_subset_preorder (n : Node) : n.children.flatMap preorder ⊆ n.preorder := by
  rw [preorder_eq]
  exact List.subset_cons_self ..

lemma mem_preorder_of_mem_children {c n : Node} (hc : c ∈ n.children) : c ∈ n.preorder :=
  n.children_subset_preorder (List.mem_flatMap.mpr ⟨c, hc, c.self_mem_preorder⟩)

lemma mem_preorder_trans {k m n : Node} (hm : m ∈ n.preorder) (hk : k ∈ m.preorder) : k ∈ n.preorder := by
  induction n using childInduction with
  | step n ih =>
    rw [preorder_eq] at hm ⊢
    rcases List.mem_cons.mp hm with rfl | hm
    · rwa [preorder_eq] at hk
    · obtain ⟨c, hc, hmc⟩ := List.mem_flatMap.mp hm
      exact List.mem_cons_of_mem n (List.mem_flatMap.mpr ⟨c, hc, ih c hc hmc⟩)

/-- The node lies in the text, and its children lie in it in order. -/
structure InText (text : List Char) (n : Node) : Prop where
  start_le_stop : n.span.start ≤ n.span.stop
  stop_le : n.span.stop ≤ byteLength text
  start_boundary : IsBoundary text n.span.start
  stop_boundary : IsBoundary text n.span.stop
  nested : ∀ c ∈ n.children, n.span.start ≤ c.span.start ∧ c.span.stop ≤ n.span.stop
  ordered : n.children.Pairwise fun a b => a.span.stop ≤ b.span.start

lemma Fills.inText (h : n.Fills (byteLength as) cs) (bs : List Char) : InText (as ++ cs ++ bs) n := by
  have hspan := h.span_eq
  obtain ⟨-, hchildren⟩ := fills_iff.mp h
  refine ⟨by simp [hspan, Span.covering], by simp [hspan, Span.covering], ?_, ?_, ?_, ?_⟩
  · rw [hspan, List.append_assoc]
    exact isBoundary_append as (cs ++ bs)
  · rw [hspan]
    exact ⟨as ++ cs, List.prefix_append _ bs, byteLength_append as cs⟩
  · intro c hc
    rcases hchildren with hnil | hl
    · simp [hnil] at hc
    · rw [hspan]
      exact ⟨hl.start_ge hc, hl.stop_le hc⟩
  · rcases hchildren with hnil | hl
    · rw [hnil]
      exact List.Pairwise.nil
    · exact hl.ordered

/-- A node that fills a stretch of a text lies in the text, and so does every node below it. -/
theorem Fills.inText_of_mem (h : n.Fills (byteLength as) cs) (bs : List Char) {m : Node}
    (hm : m ∈ n.preorder) : InText (as ++ cs ++ bs) m := by
  induction n using childInduction generalizing as bs cs with
  | step n ih =>
    rw [preorder_eq] at hm
    rcases List.mem_cons.mp hm with rfl | hm
    · exact h.inText bs
    · obtain ⟨c, hc, hmc⟩ := List.mem_flatMap.mp hm
      rcases (fills_iff.mp h).2 with hnil | hl
      · simp [hnil] at hc
      · obtain ⟨before, filled, after, rfl, hf⟩ := hl.of_mem hc
        rw [← byteLength_append] at hf
        simpa using ih c hc hf (after ++ bs) hmc

/-- The node covers the character `ch` that stands behind `offset` bytes. -/
def Covers (n : Node) (offset : Nat) (ch : Char) : Prop :=
  n.span.start ≤ offset ∧ offset + ch.utf8Size ≤ n.span.stop

/-- The node accounts for its text as a whole: it has no children or is a string. -/
def IsText (n : Node) : Prop :=
  n.children = [] ∨ n.kind = .string

lemma split_append {xs ys zs ws : List Char} {ch : Char} (h : xs ++ ys = zs ++ ch :: ws) :
    (∃ us, xs = zs ++ ch :: us) ∨ ∃ us, zs = xs ++ us ∧ ys = us ++ ch :: ws := by
  rcases List.append_eq_append_iff.mp h with ⟨us, rfl, hus⟩ | ⟨us, rfl, hus⟩
  · exact Or.inr ⟨us, rfl, hus⟩
  · cases us with
    | nil => exact Or.inr ⟨[], by simp, by simpa using hus.symm⟩
    | cons u us =>
      rw [List.cons_append, List.cons.injEq] at hus
      obtain ⟨rfl, -⟩ := hus
      exact Or.inl ⟨us, rfl⟩

/-- If every node of a list leaves out nothing but gaps of what it fills, the nodes together leave
out nothing but gaps of the stretch they are laid in. -/
lemma Laid.covers {ch : Char} (h : Laid isGap pos cs ns) (hcs : cs = as ++ ch :: bs)
    (hns : ∀ n ∈ ns, ∀ (pos : Nat) (as bs : List Char), n.Fills pos (as ++ ch :: bs) →
      isGap ch = true ∨ ∃ m ∈ n.preorder, m.IsText ∧ m.Covers (pos + byteLength as) ch) :
    isGap ch = true ∨ ∃ m ∈ ns.flatMap preorder, m.IsText ∧ m.Covers (pos + byteLength as) ch := by
  induction ns generalizing pos cs as with
  | nil =>
    refine Or.inl (laid_nil.mp h ch ?_)
    simp [hcs]
  | cons n ns ih =>
    rw [List.flatMap_cons]
    obtain ⟨before, filled, after, rfl, hb, hf, hr⟩ := laid_cons.mp h
    rw [List.append_assoc] at hcs
    rcases split_append hcs with ⟨us, rfl⟩ | ⟨us, rfl, hrest⟩
    · exact Or.inl (hb ch (by simp))
    rcases split_append hrest with ⟨vs, rfl⟩ | ⟨vs, rfl, hafter⟩
    · rcases hns n (by simp) _ _ _ hf with hg | ⟨m, hm, ht, hc⟩
      · exact Or.inl hg
      · refine Or.inr ⟨m, List.mem_append_left _ hm, ht, ?_⟩
        rwa [byteLength_append, ← Nat.add_assoc]
    · rcases ih hr hafter (fun k hk => hns k (List.mem_cons_of_mem n hk)) with hg | ⟨m, hm, ht, hc⟩
      · exact Or.inl hg
      · refine Or.inr ⟨m, List.mem_append_right _ hm, ht, ?_⟩
        simpa [Nat.add_assoc] using hc

lemma Fills.covers_self {ch : Char} (h : n.Fills pos (as ++ ch :: bs)) :
    n.Covers (pos + byteLength as) ch := by
  rw [Covers, h.span_eq]
  simp only [Span.covering, byteLength_append, byteLength_cons]
  omega

/-- A node leaves out nothing but gaps of what it fills: all else is in a node without children or in
a string. -/
theorem Fills.covers {ch : Char} (h : n.Fills pos (as ++ ch :: bs)) :
    isGap ch = true ∨ ∃ m ∈ n.preorder, m.IsText ∧ m.Covers (pos + byteLength as) ch := by
  induction n using childInduction generalizing pos as bs with
  | step n ih =>
    by_cases ht : n.IsText
    · refine Or.inr ⟨n, ?_, ht, h.covers_self⟩
      rw [preorder_eq]
      exact List.mem_cons_self
    · obtain ⟨hchildren, hstring⟩ := not_or.mp ht
      have hl := ((fills_iff.mp h).2).resolve_left hchildren
      rw [gapIn, if_neg hstring] at hl
      rcases hl.covers rfl (fun c hc pos as bs hf => ih c hc hf) with hg | ⟨m, hm, hcov⟩
      · exact Or.inl hg
      · refine Or.inr ⟨m, ?_, hcov⟩
        rw [preorder_eq]
        exact List.mem_cons_of_mem n hm

end

end Node

end RenpyScript
