import RenpyScript.Proofs.Highlight.Intervals
import RenpyScript.Proofs.Outline.Spread
import RenpyScript.Proofs.Query.Renumbering
import RenpyScript.Regex.Engine

/-!
# Regions of the bundled folds

The bundled query for folds captures compound nodes and nothing else. These begin on different rows and are nested
or apart, and so are the regions that they make.
-/

namespace RenpyScript

/-! ## Patterns that capture what they match -/

/-- The pattern matches rules of the given kinds, and its child patterns capture nothing. -/
def Pattern.marks (kinds : Kind → Bool) : Pattern → Bool
  | node (.rule k) children _ => kinds k && (capturesAmong children).isEmpty
  | _ => false

section
variable {kinds : Kind → Bool} {n : Node} {s : List Capture} {c : Capture}

lemma Pattern.eq_nil_of_sequenceSolutions {children : List Pattern} {ns : List Node}
    (h : capturesAmong children = []) (hs : s ∈ sequenceSolutions children ns) : s = [] := by
  have hsolution : s ∈ (node .any children .plain).solutions ⟨none, .error, ⟨0, 0⟩, false, ns⟩ :=
    List.mem_map.mpr ⟨s, hs, rfl⟩
  refine List.eq_nil_iff_forall_not_mem.mpr fun c hc => ?_
  have hindex := index_mem_captures hsolution hc
  rw [captures, h] at hindex
  cases hindex

lemma Pattern.node_of_marks {p : Pattern} (h : p.marks kinds = true) (hs : s ∈ p.solutions n) (hc : c ∈ s) :
    c.node = n ∧ kinds n.kind = true := by
  unfold marks at h
  split at h
  · next k children role =>
    rw [Bool.and_eq_true, List.isEmpty_iff] at h
    rw [solutions] at hs
    split at hs
    · next haccepts =>
      obtain ⟨t, ht, rfl⟩ := List.mem_map.mp hs
      rw [eq_nil_of_sequenceSolutions h.2 ht, List.append_nil] at hc
      obtain ⟨i, -, rfl⟩ := List.mem_map.mp hc
      have hkind : n.kind = k := by
        rw [NodeTest.accepts, Bool.and_eq_true, decide_eq_true_eq] at haccepts
        exact haccepts.2
      exact ⟨rfl, hkind ▸ h.1⟩
    · cases hs
  · exact absurd h Bool.false_ne_true

lemma Query.kind_of_marks [RegexEngine] {q : Query} (h : ∀ p ∈ q.patterns, p.root.marks kinds = true) {source : ByteArray} {m : Match}
    (hm : m ∈ q.matchesIn source none n) (hc : c ∈ m.captures) : kinds c.node.kind = true := by
  rw [matchesIn_none] at hm
  obtain ⟨⟨place, m'⟩, hx, rfl⟩ := List.mem_map.mp hm
  obtain ⟨place', -, hm⟩ := List.mem_flatMap.mp hx
  obtain ⟨m', hm', heq⟩ := List.mem_map.mp hm
  obtain ⟨rfl, rfl⟩ := Prod.mk.inj heq
  obtain ⟨⟨p, i⟩, hp, hm'⟩ := List.mem_flatMap.mp hm'
  obtain ⟨captures, hcaptures, rfl⟩ := List.mem_map.mp hm'
  rw [QueryPattern.matchesAt] at hcaptures
  split at hcaptures
  · have hp := h p (List.fst_mem_of_mem_zipIdx hp)
    obtain ⟨hnode, hkind⟩ := Pattern.node_of_marks hp (List.mem_filter.mp hcaptures).1 hc
    rwa [hnode]
  · cases hcaptures

end

/-! ## The order of regions -/

namespace FoldRegion

/-- Regions are ordered by their first and by their last line. -/
def key (r : FoldRegion) : Nat ×ₗ Nat ×ₗ Bool :=
  toLex (r.startLine, toLex (r.endLine, r.collapsed))

lemma key_injective : Function.Injective key := by
  rintro ⟨startLine, endLine, collapsed⟩ ⟨startLine', endLine', collapsed'⟩ h
  obtain ⟨rfl, h⟩ := Prod.mk.inj (toLex.injective h)
  obtain ⟨rfl, rfl⟩ := Prod.mk.inj (toLex.injective h)
  rfl

lemma before_iff (r s : FoldRegion) : r.before s = true ↔
    r.startLine < s.startLine ∨ r.startLine = s.startLine ∧ r.endLine ≤ s.endLine := by
  simp [before]

lemma key_le_key {r s : FoldRegion} (hr : r.collapsed = false) (h : r.before s = true) : r.key ≤ s.key := by
  rw [before_iff] at h
  simp only [key, Prod.Lex.toLex_le_toLex, hr, Bool.false_le, and_true]
  omega

lemma pairwise_mergeSort_before {rs : List FoldRegion} (hrs : ∀ r ∈ rs, r.collapsed = false) :
    (rs.mergeSort before).Pairwise fun r s => r.key ≤ s.key := by
  have htrans (r s t : FoldRegion) : r.before s = true → s.before t = true → r.before t = true := by
    rw [before_iff, before_iff, before_iff]
    omega
  have htotal (r s : FoldRegion) : (r.before s || s.before r) = true := by
    rw [Bool.or_eq_true, before_iff, before_iff]
    omega
  refine (List.pairwise_mergeSort htrans htotal rs).imp_of_mem fun {r s} hr _ h => key_le_key ?_ h
  exact hrs r (List.mem_mergeSort.mp hr)

end FoldRegion

/-! ## The regions of a script -/

namespace Tree

/-- Two compound nodes of a script begin on different rows, and the one that begins later ends no later than the other
or begins behind its end. -/
lemma compound_rows (text : String) {a b : Node} (ha : a ∈ (parse text).root.preorder)
    (hb : b ∈ (parse text).root.preorder) (hacompound : a.kind.isCompound = true)
    (hbcompound : b.kind.isCompound = true) :
    a = b ∨
      ((parse text).lineTable.point a.span.start).row < ((parse text).lineTable.point b.span.start).row ∧
        (((parse text).lineTable.point b.span.stop).row ≤ ((parse text).lineTable.point a.span.stop).row ∨
          ((parse text).lineTable.point a.span.stop).row < ((parse text).lineTable.point b.span.start).row) ∨
      ((parse text).lineTable.point b.span.start).row < ((parse text).lineTable.point a.span.start).row ∧
        (((parse text).lineTable.point a.span.stop).row ≤ ((parse text).lineTable.point b.span.stop).row ∨
          ((parse text).lineTable.point b.span.stop).row < ((parse text).lineTable.point a.span.start).row) := by
  obtain ⟨i, hi, rfl⟩ := List.mem_iff_getElem.mp ha
  obtain ⟨j, hj, rfl⟩ := List.mem_iff_getElem.mp hb
  have hpairwise := List.pairwise_iff_getElem.mp (pairwise_row text)
  rcases Nat.lt_trichotomy i j with hij | rfl | hji
  · exact Or.inr (Or.inl (hpairwise i j hi hj hij hacompound hbcompound))
  · exact Or.inl rfl
  · exact Or.inr (Or.inr (hpairwise j i hj hi hji hbcompound hacompound))

end Tree

namespace Highlighter

section
variable [RegexEngine]

lemma mem_foldRegions {q : Query} {t : Tree} {r : FoldRegion} : r ∈ foldRegions q t ↔
    ∃ m ∈ q.matchesIn t.text.toUTF8 none t.root, ∃ c ∈ m.captures,
      (t.lineTable.point c.node.span.start).row < (t.lineTable.point c.node.span.stop).row ∧
        r = .between (t.lineTable.point c.node.span.start).row (t.lineTable.point c.node.span.stop).row := by
  rw [foldRegions, mem_collapseRuns, List.mem_mergeSort, List.mem_filterMap]
  simp only [List.mem_flatMap, Option.ite_none_right_eq_some, Option.some.injEq, eq_comm (a := r)]
  constructor
  · rintro ⟨c, ⟨m, hm, hc⟩, hr⟩
    exact ⟨m, hm, c, hc, hr⟩
  · rintro ⟨m, hm, c, hc, hr⟩
    exact ⟨c, ⟨m, hm, hc⟩, hr⟩

lemma foldRegions_pairwise (q : Query) (t : Tree) : (foldRegions q t).Pairwise fun r s => r.key < s.key := by
  refine pairwise_collapseRuns FoldRegion.key_injective (FoldRegion.pairwise_mergeSort_before fun r hr => ?_)
  obtain ⟨c, -, hr⟩ := List.mem_filterMap.mp hr
  rw [Option.ite_none_right_eq_some] at hr
  rw [← Option.some.inj hr.2]
  rfl

section
variable {text : String} {q : Query} {r s : FoldRegion}

lemma compound_of_mem_foldRegions (hq : ∀ p ∈ q.patterns, p.root.marks Kind.isCompound = true)
    (hr : r ∈ foldRegions q (.parse text)) : ∃ n ∈ (Tree.parse text).root.preorder,
      n.kind.isCompound = true ∧ r.startLine = ((Tree.parse text).lineTable.point n.span.start).row ∧
        r.endLine = ((Tree.parse text).lineTable.point n.span.stop).row ∧ r.startLine < r.endLine ∧
          r.collapsed = false := by
  obtain ⟨m, hm, c, hc, hlt, rfl⟩ := mem_foldRegions.mp hr
  exact ⟨c.node, Query.matchesIn_among hm c hc, Query.kind_of_marks hq hm hc, rfl, rfl, hlt, rfl⟩

lemma rows_of_mem_foldRegions (hq : ∀ p ∈ q.patterns, p.root.marks Kind.isCompound = true)
    (hr : r ∈ foldRegions q (.parse text)) (hs : s ∈ foldRegions q (.parse text)) :
    r = s ∨ r.startLine < s.startLine ∧ (s.endLine ≤ r.endLine ∨ r.endLine < s.startLine) ∨
      s.startLine < r.startLine ∧ (r.endLine ≤ s.endLine ∨ s.endLine < r.startLine) := by
  obtain ⟨a, ha, hacompound, hastart, hastop, -, hropen⟩ := compound_of_mem_foldRegions hq hr
  obtain ⟨b, hb, hbcompound, hbstart, hbstop, -, hsopen⟩ := compound_of_mem_foldRegions hq hs
  rw [hastart, hastop, hbstart, hbstop]
  refine (Tree.compound_rows text ha hb hacompound hbcompound).imp_left ?_
  rintro rfl
  obtain ⟨startLine, endLine, collapsed⟩ := r
  obtain ⟨startLine', endLine', collapsed'⟩ := s
  simp_all

end

end

lemma foldsOf?_foldsQuery : ∃ q, foldsOf? (some foldsQuery) = .ok (some q) ∧
    ∀ p ∈ q.patterns, p.root.marks Kind.isCompound = true := by
  have hfolds : (foldsOf? (some foldsQuery)).toOption.map
      (Option.map fun q => q.patterns.all (·.root.marks Kind.isCompound)) = some (some true) := by
    decide +kernel
  cases h : foldsOf? (some foldsQuery) with
  | error e =>
    rw [h] at hfolds
    cases hfolds
  | ok q =>
    rw [h] at hfolds
    cases q with
    | none => cases hfolds
    | some q =>
      refine ⟨q, rfl, List.all_eq_true.mp ?_⟩
      exact Option.some.inj (Option.some.inj hfolds)

/-- The regions that the bundled query for folds makes of a script begin on different lines and are nested or apart:
a region that begins later than another one ends no later, or begins behind its last line. Two regions with a common
line are one in the other. -/
theorem foldRegions_nest (text : String) : ∃ q, foldsOf? (some foldsQuery) = .ok (some q) ∧
    (foldRegions q (.parse text)).Pairwise (fun r s => r.startLine < s.startLine) ∧
    (∀ r ∈ foldRegions q (.parse text), r.startLine < r.endLine ∧ r.endLine ≤ text.toList.count '\n') ∧
    (∀ r ∈ foldRegions q (.parse text), ∀ s ∈ foldRegions q (.parse text), r.startLine < s.startLine →
      s.endLine ≤ r.endLine ∨ r.endLine < s.startLine) ∧
    ∀ r ∈ foldRegions q (.parse text), ∀ s ∈ foldRegions q (.parse text), ∀ line,
      r.startLine ≤ line → line ≤ r.endLine → s.startLine ≤ line → line ≤ s.endLine →
        r.startLine ≤ s.startLine ∧ s.endLine ≤ r.endLine ∨ s.startLine ≤ r.startLine ∧ r.endLine ≤ s.endLine := by
  obtain ⟨q, hq, hmarks⟩ := foldsOf?_foldsQuery
  refine ⟨q, hq, ?_, fun r hr => ?_, fun r hr s hs hlt => ?_, fun r hr s hs line hrl hlr hsl hls => ?_⟩
  · refine (foldRegions_pairwise q (.parse text)).imp_of_mem fun {r s} hr hs hkey => ?_
    rcases rows_of_mem_foldRegions hmarks hr hs with rfl | h | h
    · exact absurd hkey (lt_irrefl _)
    · exact h.1
    · have hstart := (Prod.Lex.toLex_lt_toLex.mp hkey)
      simp only at hstart
      omega
  · obtain ⟨n, hn, -, -, hstop, hlt, -⟩ := compound_of_mem_foldRegions hmarks hr
    refine ⟨hlt, ?_⟩
    have hend := LineTable.monotone_row (Tree.parse text).lineTable (Tree.parse_inText text hn).stop_le
    have hcount := LineTable.point_row text.toList []
    rw [List.append_nil] at hcount
    rw [hstop, ← hcount]
    exact hend
  · rcases rows_of_mem_foldRegions hmarks hr hs with rfl | h | h
    · omega
    · exact h.2
    · omega
  · rcases rows_of_mem_foldRegions hmarks hr hs with rfl | h | h
    · exact Or.inl ⟨le_refl _, le_refl _⟩
    · omega
    · omega

end Highlighter

end RenpyScript
