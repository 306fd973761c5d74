import Mathlib.Data.List.Nodup
import RenpyScript.Checked.Builder
import RenpyScript.Parser
import RenpyScript.Proofs.Text.Points
import RenpyScript.Proofs.Tree.Shape

/-!
# Entries that denote nodes

`Denotes` relates an index in a list of entries to a node: the entry there has the node's data, and its
children denote the node's children. New entries and new parents change nothing about that, as an entry that
already has a parent gets no other.
-/

namespace RenpyScript

/-! ## Points -/

lemma startsAfterBreaks_sorted (pos : Nat) (cs : List Char) : (startsAfterBreaks pos cs).Pairwise (· < ·) := by
  induction cs generalizing pos with
  | nil => exact .nil
  | cons c cs ih =>
    rw [startsAfterBreaks]
    split
    · exact List.pairwise_cons.mpr ⟨fun s hs => (mem_startsAfterBreaks hs).1, ih _⟩
    · exact ih _

lemma starts_sorted (cs : List Char) : (LineTable.ofText cs).starts.Pairwise (· < ·) :=
  List.pairwise_cons.mpr ⟨fun _ hs => (mem_startsAfterBreaks hs).1, startsAfterBreaks_sorted 0 cs⟩

/-- The offsets up to a given one, the last of which begins its row. -/
lemma starts_split (cs : List Char) (offset : Nat) : ∃ before start after,
    (LineTable.ofText cs).starts = before ++ start :: after ∧ start ≤ offset ∧ (∀ s ∈ before, s < start) ∧
      (∀ s ∈ after, offset < s) ∧ (LineTable.ofText cs).point offset = ⟨before.length, offset - start⟩ := by
  have hsplit : (LineTable.ofText cs).starts = (LineTable.ofText cs).starts.takeWhile (· ≤ offset) ++
      (LineTable.ofText cs).starts.dropWhile (· ≤ offset) := List.takeWhile_append_dropWhile.symm
  have hsorted := starts_sorted cs
  rw [hsplit] at hsorted
  obtain ⟨before, start, htake⟩ : ∃ before start,
      (LineTable.ofText cs).starts.takeWhile (· ≤ offset) = before ++ [start] := by
    rcases List.eq_nil_or_concat ((LineTable.ofText cs).starts.takeWhile (· ≤ offset)) with hnil | ⟨before, start, h⟩
    · simp [LineTable.ofText] at hnil
    · exact ⟨before, start, by rw [h, List.concat_eq_append]⟩
  have hle : start ≤ offset := by
    have hmem : start ∈ (LineTable.ofText cs).starts.takeWhile (· ≤ offset) := by rw [htake]; simp
    have hsatisfies := List.mem_takeWhile_imp hmem
    simpa using hsatisfies
  rw [htake] at hsorted hsplit
  refine ⟨before, start, (LineTable.ofText cs).starts.dropWhile (· ≤ offset), by simpa using hsplit, hle, ?_, ?_, ?_⟩
  · intro s hs
    exact (List.pairwise_append.mp (List.pairwise_append.mp hsorted).1).2.2 s hs start (List.mem_singleton_self start)
  · intro s hs
    rcases hdrop : (LineTable.ofText cs).starts.dropWhile (· ≤ offset) with _ | ⟨next, after⟩
    · simp [hdrop] at hs
    · have hnext : offset < next := by
        have hfalse := List.dropWhile_get_zero_not (· ≤ offset) (LineTable.ofText cs).starts (by simp [hdrop])
        simpa [hdrop] using hfalse
      rw [hdrop] at hs hsorted
      rcases List.mem_cons.mp hs with rfl | hs
      · exact hnext
      · have hlt := (List.pairwise_cons.mp (List.pairwise_append.mp hsorted).2.1).1 s hs
        omega
  · simp [LineTable.point, htake]

namespace TreeBuilder

section
variable {before after : List Nat} {start offset : Nat}

lemma countP_starts (hlt : start < offset) (hbefore : ∀ s ∈ before, s < start) (hafter : ∀ s ∈ after, offset < s) :
    (before ++ start :: after).countP (· < offset) = before.length + 1 := by
  have hall : before.countP (· < offset) = before.length := by
    rw [List.countP_eq_length]
    intro s hs
    have hs := hbefore s hs
    simp only [decide_eq_true_eq]
    omega
  have hnone : after.countP (· < offset) = 0 := by
    rw [List.countP_eq_zero]
    intro s hs
    have hs := hafter s hs
    simp only [decide_eq_true_eq]
    omega
  rw [List.countP_append, List.countP_cons_of_pos (by simpa using hlt), hall, hnone]

/-- The search finds the row that begins last. -/
lemma row?_eq (hle : start ≤ offset) (hbefore : ∀ s ∈ before, s < start) (hafter : ∀ s ∈ after, offset < s) :
    row? (before ++ start :: after) offset = some before.length := by
  unfold row?
  split
  · next row hfound =>
    obtain ⟨hlt, hrow, hfirst⟩ := List.idxOf?_eq_some_iff.mp hfound
    have hmem : offset ∈ before ++ start :: after := hrow ▸ List.getElem_mem hlt
    have heq : start = offset := by
      rcases List.mem_append.mp hmem with h | h
      · have hs := hbefore offset h
        omega
      · rcases List.mem_cons.mp h with h | h
        · exact h.symm
        · exact absurd (hafter offset h) (Nat.lt_irrefl _)
    rcases Nat.lt_trichotomy row before.length with h | h | h
    · have hb := hbefore before[row] (List.getElem_mem h)
      rw [List.getElem_append_left h] at hrow
      omega
    · rw [h]
    · refine absurd ?_ (hfirst before.length h)
      simpa using heq
  · next hnone =>
    have hne : start ≠ offset := by
      rintro rfl
      simp at hnone
    rw [countP_starts (by omega) hbefore hafter, checkedSub, if_pos (by omega), Nat.add_sub_cancel]

end

lemma point?_eq (b : TreeBuilder) (offset : Nat) : b.point? offset = some ((LineTable.ofText b.text).point offset) := by
  obtain ⟨before, start, after, hstarts, hle, hbefore, hafter, hpoint⟩ := starts_split b.text offset
  have hget : (LineTable.ofText b.text).starts[before.length]? = some start := by
    rw [hstarts, List.getElem?_append_right (Nat.le_refl _), Nat.sub_self]
    rfl
  have hrow : row? (LineTable.ofText b.text).starts offset = some before.length := by
    rw [hstarts]
    exact row?_eq hle hbefore hafter
  rw [point?, hrow, Option.bind_eq_bind, Option.bind_some, hget, Option.bind_some, checkedSub, if_pos hle, Option.bind_some, hpoint]
  rfl

end TreeBuilder

/-! ## What an index denotes -/

def Node.entry (table : LineTable) (n : Node) (field : Option Field) (parent : Option Nat) (children : List Nat) :
    Entry :=
  ⟨n.kind, field, n.span, table.point n.span.start, table.point n.span.stop, parent, children, n.extra, n.missing,
    n.hasError⟩

/-- The entry at an index is that of a node, and the node's children are at the indices that the entry gives. -/
inductive Denotes (table : LineTable) (nodes : List Entry) : Option Nat → Option Field → Nat → Node → Prop
  | intro {parent : Option Nat} {field : Option Field} {i : Nat} {n : Node} {is : List Nat}
    (entry : nodes[i]? = some (n.entry table field parent is)) (length : is.length = n.children.length)
    (children : ∀ (k j : Nat) (m : Node), is[k]? = some j → n.children[k]? = some m →
      Denotes table nodes (some i) m.field j m) : Denotes table nodes parent field i n

def Keeps (nodes nodes' : List Entry) : Prop :=
  ∀ (i : Nat) (e : Entry), nodes[i]? = some e → e.parent ≠ none → nodes'[i]? = some e

section
variable {table : LineTable} {nodes nodes' : List Entry} {parent : Option Nat} {field : Option Field} {i : Nat}
  {n : Node}

lemma Denotes.get (h : Denotes table nodes parent field i n) :
    ∃ is, nodes[i]? = some (n.entry table field parent is) := by
  obtain ⟨hentry, -, -⟩ := h
  exact ⟨_, hentry⟩

lemma Denotes.under (f : Field) (h : Denotes table nodes parent field i n) :
    Denotes table nodes parent field i (n.under f) := by
  obtain ⟨hentry, hlength, hchildren⟩ := h
  refine ⟨?_, hlength, hchildren⟩
  have herror : (n.under f).hasError = n.hasError := by rw [Node.hasError_eq, Node.hasError_eq]; rfl
  rw [hentry, Node.entry, Node.entry, herror]
  rfl

lemma Denotes.keeps (hkeeps : Keeps nodes nodes') (h : Denotes table nodes parent field i n) (hp : parent ≠ none) :
    Denotes table nodes' parent field i n := by
  induction h with
  | intro entry length _ ih =>
    exact ⟨hkeeps _ _ entry hp, length, fun k j m hj hm => ih k j m hj hm (by simp)⟩

lemma Denotes.adopted (hkeeps : Keeps nodes nodes') (h : Denotes table nodes none none i n)
    (hget : ∀ e, nodes[i]? = some e → nodes'[i]? = some { e with parent, field }) :
    Denotes table nodes' parent field i n := by
  obtain ⟨entry, length, children⟩ := h
  refine ⟨hget _ entry, length, ?_⟩
  intro k j m hj hm
  exact (children k j m hj hm).keeps hkeeps (by simp)

lemma Keeps.of_extends (h : nodes <+: nodes') : Keeps nodes nodes' := by
  intro i e he _
  obtain ⟨more, rfl⟩ := h
  rw [List.getElem?_append_left (List.getElem?_eq_some_iff.mp he).1, he]

lemma Denotes.mono (h : Denotes table nodes none none i n) (hextends : nodes <+: nodes') :
    Denotes table nodes' none none i n := by
  refine h.adopted (.of_extends hextends) ?_
  intro e he
  obtain ⟨is, hentry⟩ := h.get
  obtain ⟨more, rfl⟩ := hextends
  rw [List.getElem?_append_left (List.getElem?_eq_some_iff.mp he).1, he]
  rw [he, Option.some.injEq] at hentry
  rw [hentry]
  rfl

end

/-! ## Adoption -/

/-- A list of children gets its parent and fields; no other entry changes. -/
structure Adopts (parent : Nat) (cs : List Child) (nodes nodes' : List Entry) : Prop where
  kinds : nodes'.map Entry.kind = nodes.map Entry.kind
  others : ∀ i, i ∉ cs.map Child.index → nodes'[i]? = nodes[i]?
  children : ∀ c ∈ cs, ∀ e, nodes[c.index]? = some e →
    nodes'[c.index]? = some (e.adopted parent c.field)

section
variable {parent i : Nat} {cs : List Child} {c : Child} {nodes nodes' : List Entry} {e : Entry}

lemma Adopts.length_eq (h : Adopts parent cs nodes nodes') : nodes'.length = nodes.length := by
  simpa using congrArg List.length h.kinds

lemma Adopts.getElem?_other (h : Adopts parent cs nodes nodes') (hi : i ∉ cs.map Child.index) (hlt : i < nodes.length)
    (more : List Entry) : (nodes' ++ more)[i]? = nodes[i]? := by
  rw [List.getElem?_append_left (h.length_eq.symm ▸ hlt), h.others i hi]

lemma Adopts.getElem?_child (h : Adopts parent cs nodes nodes') (hc : c ∈ cs) (he : nodes[c.index]? = some e)
    (more : List Entry) : (nodes' ++ more)[c.index]? = some (e.adopted parent c.field) := by
  have hlt := (List.getElem?_eq_some_iff.mp he).1
  rw [List.getElem?_append_left (h.length_eq.symm ▸ hlt), h.children c hc e he]

end

lemma adopt_eq (parent : Nat) {cs : List Child} {nodes : List Entry} (hlt : ∀ c ∈ cs, c.index < nodes.length)
    (hnodup : (cs.map Child.index).Nodup) : ∃ nodes', Adopts parent cs nodes nodes' ∧
      adopt parent cs nodes = some (cs.any fun c => (nodes[c.index]?).any Entry.hasError, nodes') := by
  induction cs generalizing nodes with
  | nil => exact ⟨nodes, ⟨rfl, fun _ _ => rfl, by simp⟩, rfl⟩
  | cons c cs ih =>
    obtain ⟨e, he⟩ : ∃ e, nodes[c.index]? = some e :=
      ⟨_, List.getElem?_eq_getElem (hlt c (List.mem_cons_self ..))⟩
    rw [List.map_cons, List.nodup_cons] at hnodup
    have hlt' : ∀ d ∈ cs, d.index < (nodes.set c.index (e.adopted parent c.field)).length := by
      intro d hd
      rw [List.length_set]
      exact hlt d (List.mem_cons_of_mem c hd)
    obtain ⟨nodes', hadopts, heq⟩ := ih hlt' hnodup.2
    have hother : ∀ {i : Nat}, i ≠ c.index →
        (nodes.set c.index (e.adopted parent c.field))[i]? = nodes[i]? :=
      fun hne => List.getElem?_set_ne hne.symm
    have hne : ∀ d ∈ cs, d.index ≠ c.index := by
      intro d hd heq
      exact hnodup.1 (heq ▸ List.mem_map_of_mem hd)
    refine ⟨nodes', ⟨?_, ?_, ?_⟩, ?_⟩
    · rw [hadopts.kinds]
      refine List.ext_getElem? fun i => ?_
      rw [List.getElem?_map, List.getElem?_map]
      rcases eq_or_ne i c.index with rfl | hi
      · rw [List.getElem?_set_self (hlt c (List.mem_cons_self ..)), he]
        rfl
      · rw [hother hi]
    · intro i hi
      rw [List.map_cons, List.mem_cons, not_or] at hi
      rw [hadopts.others i hi.2, hother hi.1]
    · intro d hd e' he'
      rcases List.mem_cons.mp hd with rfl | hd
      · rw [hadopts.others d.index hnodup.1, List.getElem?_set_self (hlt d (List.mem_cons_self ..))]
        rw [he, Option.some.injEq] at he'
        rw [he']
      · exact hadopts.children d hd e' (by rw [hother (hne d hd), he'])
    · -- Adoption does not touch the marks of errors, so they can be looked up in the nodes as they were.
      have herror : ∀ d : Child, (nodes.set c.index (e.adopted parent c.field))[d.index]?.any Entry.hasError =
          nodes[d.index]?.any Entry.hasError := by
        intro d
        rcases eq_or_ne d.index c.index with hd | hd
        · rw [hd, List.getElem?_set_self (hlt c (List.mem_cons_self ..)), he]
          rfl
        · rw [hother hd]
      rw [adopt, he, Option.bind_eq_bind, Option.bind_some, heq, Option.bind_eq_bind, Option.bind_some,
        List.any_congr rfl herror, List.any_cons, he]
      rfl

end RenpyScript
