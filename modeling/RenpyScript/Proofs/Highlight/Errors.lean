import RenpyScript.Checked.ErrorSearch
import RenpyScript.Proofs.Arena.Linked
import RenpyScript.Proofs.Highlight.Intervals
import RenpyScript.Proofs.Tree.Errors
import RenpyScript.Proofs.Tree.Spread
import RenpyScript.Regex.Engine

/-!
# Intervals of errors

The errors that are reported are those that lie in no other error. They are in order and apart, in bytes and therefore
in characters, and none of them is reported twice. The search of a stack finds the last of them first; it leaves out
only nodes that have no error in them, so it finds them all.
-/

namespace RenpyScript

/-! ## Outermost errors -/

namespace Highlighter

section
variable {n m : Node} {ns : List Node} {text : List Char}

lemma outermostErrorsAmong_eq (ns : List Node) : outermostErrorsAmong ns = ns.flatMap outermostErrors := by
  induction ns with
  | nil => rfl
  | cons n ns ih => rw [outermostErrorsAmong, ih, List.flatMap_cons]

lemma outermostErrors_eq (n : Node) :
    outermostErrors n = if n.kind = .error then [n] else n.children.flatMap outermostErrors := by
  rw [← outermostErrorsAmong_eq]
  obtain ⟨field, kind, span, missing, children⟩ := n
  rw [outermostErrors]

lemma mem_outermostErrors (h : m ∈ outermostErrors n) : m ∈ n.preorder ∧ m.kind = .error := by
  induction n using Node.childInduction with
  | step n ih =>
    rw [outermostErrors_eq] at h
    split at h
    · next herror =>
      obtain rfl := List.mem_singleton.mp h
      exact ⟨m.self_mem_preorder, herror⟩
    · obtain ⟨c, hc, hm⟩ := List.mem_flatMap.mp h
      obtain ⟨hm, herror⟩ := ih c hc hm
      exact ⟨n.children_subset_preorder (List.mem_flatMap.mpr ⟨c, hc, hm⟩), herror⟩

lemma outermostErrors_of_clean (h : n.hasError = false) : outermostErrors n = [] := by
  refine List.eq_nil_iff_forall_not_mem.mpr fun m hm => ?_
  obtain ⟨hm, herror⟩ := mem_outermostErrors hm
  have hclean := n.hasError_eq_false_iff.mp h m hm
  rw [m.faulty_iff.mpr (.inl herror)] at hclean
  cases hclean

lemma pairwise_outermostErrors (h : ∀ m ∈ n.preorder, m.InText text) :
    (outermostErrors n).Pairwise fun a b => a.span.stop ≤ b.span.start := by
  induction n using Node.childInduction with
  | step n ih =>
    have hbelow (c : Node) (hc : c ∈ n.children) : ∀ m ∈ c.preorder, m.InText text :=
      fun m hm => h m (Node.mem_preorder_trans (Node.mem_preorder_of_mem_children hc) hm)
    rw [outermostErrors_eq]
    split
    · exact List.pairwise_singleton _ _
    · refine List.pairwise_flatMap.mpr ⟨fun c hc => ih c hc (hbelow c hc), ?_⟩
      refine (h n n.self_mem_preorder).ordered.imp_of_mem fun {c d} hc hd hcd a ha b hb => ?_
      have hstop := Node.stop_le_of_mem_preorder (hbelow c hc) (mem_outermostErrors ha).1
      have hstart := Node.start_le_of_mem_preorder (hbelow d hd) (mem_outermostErrors hb).1
      exact hstop.trans (hcd.trans hstart)

end

end Highlighter

namespace Place

def outermostError (p : Place) : Bool :=
  p.node.isError && p.above.all fun a => !a.1.isError

lemma outermostError_iff (p : Place) :
    p.outermostError = true ↔ p.node.kind = .error ∧ ∀ a ∈ p.above, a.1.kind ≠ .error := by
  simp [outermostError, Node.isError]

lemma filter_outermostError_preorderAmong (parent : Node) (above : List (Node × Nat)) (i : Nat) (ns : List Node)
    (h : ∀ n ∈ ns, ∀ above, ((preorderFrom above n).filter outermostError).map (·.node) =
      if above.all (fun a => !a.1.isError) then Highlighter.outermostErrors n else []) :
    ((preorderAmong parent above i ns).filter outermostError).map (·.node) =
      if !parent.isError && above.all (fun a => !a.1.isError) then ns.flatMap Highlighter.outermostErrors else [] := by
  induction ns generalizing i with
  | nil => simp [preorderAmong]
  | cons n ns ih =>
    rw [preorderAmong, List.filter_append, List.map_append, h n (by simp),
      ih (i + 1) (fun m hm => h m (List.mem_cons_of_mem n hm)), List.all_cons, List.flatMap_cons]
    split
    · rfl
    · rfl

lemma filter_outermostError_preorderFrom (above : List (Node × Nat)) (n : Node) :
    ((preorderFrom above n).filter outermostError).map (·.node) =
      if above.all (fun a => !a.1.isError) then Highlighter.outermostErrors n else [] := by
  induction n using Node.childInduction generalizing above with
  | step n ih =>
    rw [preorderFrom_eq, List.filter_cons, outermostError, apply_ite (List.map _), List.map_cons,
      filter_outermostError_preorderAmong n above 0 n.children ih, Highlighter.outermostErrors_eq]
    cases herror : n.isError <;> cases above.all fun a => !a.1.isError <;> simp_all [Node.isError]

end Place

/-! ## Their intervals -/

lemma Tree.finds_of_mem_places {text : String} {p : Place} (hp : p ∈ (parse text).places) :
    ∃ before covered, (LineIndex.ofText text).Finds p.node before covered :=
  (parse_inText text (Place.node_mem_preorder hp)).finds

namespace Interval

lemma coversBefore_iff (i j : Interval) :
    i.coversBefore j = true ↔ i.start < j.start ∨ i.start = j.start ∧ i.stop ≤ j.stop := by
  simp [coversBefore]

section
variable {is : List Interval} (h : is.Pairwise fun i j => i.start < j.start)
include h

lemma mergeSort_before_eq : is.mergeSort before = is :=
  List.mergeSort_of_pairwise (h.imp fun {i j} hlt => by simp [before, hlt])

lemma mergeSort_reverse_eq : is.reverse.mergeSort coversBefore = is := by
  have htrans (i j k : Interval) : i.coversBefore j = true → j.coversBefore k = true → i.coversBefore k = true := by
    rw [coversBefore_iff, coversBefore_iff, coversBefore_iff]
    omega
  have htotal (i j : Interval) : (i.coversBefore j || j.coversBefore i) = true := by
    rw [Bool.or_eq_true, coversBefore_iff, coversBefore_iff]
    omega
  have hstarts : (is.map start).Nodup := (List.pairwise_map.mpr h).imp Nat.ne_of_lt
  have hperm := (List.mergeSort_perm is.reverse coversBefore).trans is.reverse_perm
  refine hperm.eq_of_pairwise (fun i j hi hj hij hji => ?_) (List.pairwise_mergeSort htrans htotal _)
    (h.imp fun {i j} hlt => (coversBefore_iff i j).mpr (.inl hlt))
  rw [coversBefore_iff] at hij hji
  exact List.inj_on_of_nodup_map hstarts (hperm.mem_iff.mp hi) hj (by omega)

end

end Interval

namespace Highlighter

section
variable {index : LineIndex} {style : StyleId} {n : Node}

lemma intervalOf?_eq (index : LineIndex) (style : StyleId) (n : Node) :
    intervalOf? index style n = n.span.interval? index style := by
  rw [intervalOf?, Span.interval?]
  by_cases hbytes : n.span.stop ≤ n.span.start
  · rw [if_pos hbytes, if_neg fun h => absurd h.1 (Nat.not_lt.mpr hbytes)]
  · simp only [Nat.not_le.mp hbytes, if_neg hbytes, true_and]

lemma intervalOf?_lt {i : Interval} (h : intervalOf? index style n = some i) :
    i.start = index.charOffset n.span.start ∧ i.stop = index.charOffset n.span.stop ∧ i.start < i.stop := by
  rw [intervalOf?, Option.ite_none_right_eq_some] at h
  obtain ⟨⟨-, hlt⟩, hi⟩ := h
  obtain rfl := Option.some.inj hi
  exact ⟨rfl, rfl, hlt⟩

lemma pairwise_intervals_of_errors (style : StyleId) (text : String) :
    ((outermostErrors (Tree.parse text).root).filterMap (intervalOf? (.ofText text) style)).Pairwise fun i j =>
      i.start < j.start ∧ i.stop ≤ j.start := by
  have herrors := pairwise_outermostErrors fun m hm => Tree.parse_inText text hm
  refine List.pairwise_filterMap.mpr (herrors.imp fun {a b} hab i hi j hj => ?_)
  obtain ⟨-, hstop, hlt⟩ := intervalOf?_lt hi
  obtain ⟨hstart, -, -⟩ := intervalOf?_lt hj
  have hmono : (LineIndex.ofText text).charOffset a.span.stop ≤ (LineIndex.ofText text).charOffset b.span.start :=
    LineIndex.charsBefore_mono hab
  omega

lemma errorIntervals_eq (style : StyleId) (text : String) : errorIntervals style (.parse text) =
    (outermostErrors (Tree.parse text).root).filterMap (intervalOf? (.ofText text) style) :=
  Interval.mergeSort_before_eq ((pairwise_intervals_of_errors style text).imp And.left)

def errorPlaces (t : Tree) : List Place :=
  ((Place.preorderFrom [] t.root).filter Place.outermostError).filter fun p => p.node.span.start != p.node.span.stop

lemma mem_errorPlaces {t : Tree} {p : Place} : p ∈ errorPlaces t ↔ p ∈ t.places ∧ p.node.kind = .error ∧
    (∀ a ∈ p.above, a.1.kind ≠ .error) ∧ p.node.span.start ≠ p.node.span.stop := by
  rw [errorPlaces, List.mem_filter, List.mem_filter, Place.outermostError_iff, bne_iff_ne, Place.mem_preorderFrom,
    and_assoc, and_assoc]
  rfl

lemma nodup_errorPlaces (t : Tree) : (errorPlaces t).Nodup :=
  ((Place.nodup_preorderFrom [] t.root).filter _).filter _

lemma errorIntervals_eq_map (style : StyleId) (text : String) :
    errorIntervals style (.parse text) = (errorPlaces (.parse text)).map fun p =>
      ⟨(LineIndex.ofText text).charOffset p.node.span.start, (LineIndex.ofText text).charOffset p.node.span.stop,
        style⟩ := by
  have hplaces := Place.filter_outermostError_preorderFrom [] (Tree.parse text).root
  rw [List.all_nil, if_pos rfl] at hplaces
  rw [errorIntervals_eq, ← hplaces, errorPlaces, List.filterMap_map]
  have hmem : ∀ p ∈ (Place.preorderFrom [] (Tree.parse text).root).filter Place.outermostError,
      p ∈ (Tree.parse text).places :=
    fun p hp => Place.mem_preorderFrom.mp (List.mem_filter.mp hp).1
  generalize (Place.preorderFrom [] (Tree.parse text).root).filter Place.outermostError = ps at hmem
  rw [← List.filterMap_eq_map, List.filterMap_filter]
  refine List.filterMap_congr fun p hp => ?_
  obtain ⟨before, covered, hfinds⟩ := Tree.finds_of_mem_places (hmem p hp)
  refine Option.ext fun i => ?_
  rw [Function.comp_apply, intervalOf?_eq_some_iff hfinds]
  simp [eq_comm (a := i)]

end

end Highlighter

/-! ## The search of a stack -/

namespace Arena

section
variable {a : Arena} {index : LineIndex} {style : StyleId} {table : LineTable} {stack : List Nat} {ns : List Node}
  {steps : Nat}

lemma Holds.marks {i : Nat} {n : Node} (h : a.Holds table i n) : ∃ e, a.nodes[i]? = some e ∧ e.hasError = n.hasError ∧
    e.kind = n.kind ∧ e.span = n.span := by
  obtain ⟨parent, field, hdenotes⟩ := h
  obtain ⟨is, hget⟩ := hdenotes.get
  exact ⟨_, hget, rfl, rfl, rfl⟩

/-- The search finds the errors below each node on the stack, from the last to the first. -/
lemma errorsUpTo_eq (h : List.Forall₂ (a.Holds table) stack ns) (hsteps : (ns.flatMap Node.preorder).length ≤ steps) :
    a.errorsUpTo index style steps stack =
      some ((ns.flatMap fun n => (Highlighter.outermostErrors n).reverse).filterMap
        (Highlighter.intervalOf? index style)) := by
  induction steps generalizing stack ns with
  | zero =>
    cases h with
    | nil => rfl
    | @cons i n stack ns _ _ =>
      rw [List.flatMap_cons, Node.preorder_eq] at hsteps
      cases hsteps
  | succ steps ih =>
    cases h with
    | nil => rfl
    | @cons i n stack ns hn hns =>
      obtain ⟨e, hget, hmark, hkind, hspan⟩ := hn.marks
      rw [List.flatMap_cons, List.length_append] at hsteps
      have hself : 0 < n.preorder.length := List.length_pos_of_mem n.self_mem_preorder
      rw [errorsUpTo, hget, Option.bind_eq_bind, Option.bind_some, hmark, hkind, hspan, List.flatMap_cons,
        List.filterMap_append]
      cases hclean : n.hasError with
      | false =>
        rw [if_neg Bool.false_ne_true, Highlighter.outermostErrors_of_clean hclean]
        exact ih hns (by omega)
      | true =>
        rw [if_pos rfl, Highlighter.outermostErrors_eq]
        by_cases herror : n.kind = .error
        · rw [if_pos herror, if_pos herror, ih hns (by omega), ← Highlighter.intervalOf?_eq]
          cases hi : Highlighter.intervalOf? index style n <;> simp [hi]
        · rw [if_neg herror, if_neg herror, List.reverse_flatMap]
          -- The children take the place of the node, so there is one node less to come.
          have hchildren : List.Forall₂ (a.Holds table) (e.children.reverse ++ stack) (n.children.reverse ++ ns) :=
            List.rel_append (List.forall₂_reverse_iff.mpr (hn.children hget)) hns
          have hcount : ((n.children.reverse ++ ns).flatMap Node.preorder).length + 1 =
              n.preorder.length + (ns.flatMap Node.preorder).length := by
            rw [List.flatMap_append, List.length_append, (n.children.reverse_perm.flatMap_right _).length_eq,
              n.preorder_eq, List.length_cons]
            omega
          rw [ih hchildren (by omega), List.flatMap_append, List.filterMap_append]
          rfl

lemma Represents.errorIntervals?_eq {text : String} (h : a.Represents (.parse text)) :
    a.errorIntervals? (.ofText text) style = some (Highlighter.errorIntervals style (.parse text)) := by
  have hroot : List.Forall₂ (a.Holds (.ofText text.toList)) [a.root] [(Tree.parse text).root] :=
    .cons ⟨none, none, h.denotes⟩ .nil
  have hpairwise := Highlighter.pairwise_intervals_of_errors style text
  rw [errorIntervals?, errorsUpTo_eq hroot (by simpa using h.length_preorder.le), List.flatMap_singleton,
    List.filterMap_reverse, Highlighter.errorIntervals_eq, Option.bind_eq_bind, Option.bind_some]
  exact congrArg some (Interval.mergeSort_reverse_eq (hpairwise.imp And.left))

end

end Arena

/-! ## Sessions -/

namespace Session

/-- With a style for errors, the intervals on their layer are those of the errors that lie in no other error and are not
empty, each once. They are in order and apart, and each covers in characters what its error covers in bytes. The search
of the entries that a descent leaves behind finds them. -/
theorem process_errors [RegexEngine] {config : HighlightConfig} {h : Highlighter} {s : Session} {version : Nat} {style : StyleId}
    (text : String) (hconfig : Highlighter.ofConfig config = .ok h) (hs : Follows h s)
    (hversion : s.version ≠ some version) (hstyle : config.errorStyle = some style) :
    ∃ is errs others, (s.process text version).1 =
        .styles config.layer is :: .styles HighlightConfig.errorLayer errs :: others ∧
      (∀ edit ∈ others, ∃ regions, edit = .folds regions config.preserveCollapsed) ∧
      (∃ ps : List Place, ps.Nodup ∧
        (∀ p, p ∈ ps ↔ p ∈ (Tree.parse text).places ∧ p.node.kind = .error ∧
          (∀ a ∈ p.above, a.1.kind ≠ .error) ∧ p.node.span.start ≠ p.node.span.stop) ∧
        (∀ p ∈ ps, ∃ before covered, (LineIndex.ofText text).Finds p.node before covered) ∧
        errs = ps.map fun p => ⟨(LineIndex.ofText text).charOffset p.node.span.start,
          (LineIndex.ofText text).charOffset p.node.span.stop, style⟩) ∧
      (errs.Pairwise fun i j => i.start < j.start ∧ i.stop ≤ j.start) ∧
      (∀ i ∈ errs, i.start < i.stop ∧ i.stop ≤ text.toList.length) ∧
      ∃ r, Descent.parse text.toList = some r ∧ r.arena.errorIntervals? (.ofText text) style = some errs := by
  obtain ⟨rfl, -⟩ := Highlighter.ofConfig_stylesOf hconfig
  obtain ⟨r, hparse, hrepresents⟩ := Descent.parse_represents text
  have hfinds (p : Place) (hp : p ∈ Highlighter.errorPlaces (.parse text)) :=
    Tree.finds_of_mem_places (Highlighter.mem_errorPlaces.mp hp).1
  have hpairwise := Highlighter.pairwise_intervals_of_errors style text
  rw [← Highlighter.errorIntervals_eq] at hpairwise
  refine ⟨h.intervals (.parse text), Highlighter.errorIntervals style (.parse text),
    h.folds.toList.map fun q => .folds (Highlighter.foldRegions q (.parse text)) h.config.preserveCollapsed, ?_, ?_,
    ⟨Highlighter.errorPlaces (.parse text), Highlighter.nodup_errorPlaces _, fun p => Highlighter.mem_errorPlaces,
      hfinds, Highlighter.errorIntervals_eq_map style text⟩, hpairwise, fun i hi => ?_,
    r, hparse, hrepresents.errorIntervals?_eq⟩
  · rw [hs.edits_eq text hversion, Highlighter.edits, hstyle]
    rfl
  · intro edit hedit
    obtain ⟨q, -, rfl⟩ := List.mem_map.mp hedit
    exact ⟨_, rfl⟩
  · rw [Highlighter.errorIntervals_eq_map] at hi
    obtain ⟨p, hp, rfl⟩ := List.mem_map.mp hi
    obtain ⟨before, covered, hfound⟩ := hfinds p hp
    exact (hfound.nonempty (Highlighter.mem_errorPlaces.mp hp).2.2.2).2

/-- A line that is not aligned is an error with another one in it, which is not reported. -/
theorem process_errors_misaligned : ∃ h is errs others,
    Highlighter.ofConfig { HighlightConfig.ofQuery "(comment) @c" with errorStyle := some 99 } = .ok h ∧
      ((Session.start h).process "label é:\n    pass\n  @@@ # c\n" 0).1 = .styles 1 is :: .styles 2 errs :: others ∧
      errs = [⟨0, 8, 99⟩, ⟨20, 27, 99⟩] ∧
      ∃ r, Descent.parse "label é:\n    pass\n  @@@ # c\n".toList = some r ∧
        r.arena.errorIntervals? (.ofText "label é:\n    pass\n  @@@ # c\n") 99 = some errs := by
  have hcompiles : (Highlighter.ofConfig { HighlightConfig.ofQuery "(comment) @c" with
      errorStyle := some 99 }).toOption.isSome = true := by
    decide +kernel
  have hintervals : Highlighter.errorIntervals 99 (.parse "label é:\n    pass\n  @@@ # c\n") =
      [⟨0, 8, 99⟩, ⟨20, 27, 99⟩] := by
    rw [Highlighter.errorIntervals_eq]
    decide +kernel
  cases hconfig : Highlighter.ofConfig { HighlightConfig.ofQuery "(comment) @c" with errorStyle := some 99 } with
  | error e =>
    rw [hconfig] at hcompiles
    cases hcompiles
  | ok h =>
    have hversion : (Session.start h).version ≠ some 0 := by simp [Session.start]
    obtain ⟨is, errs, others, hedits, -, -, -, -, hsearch⟩ :=
      process_errors "label é:\n    pass\n  @@@ # c\n" hconfig .start hversion rfl
    refine ⟨h, is, errs, others, rfl, hedits, ?_, hsearch⟩
    obtain ⟨r, hparse, herrs⟩ := hsearch
    obtain ⟨r', hparse', hrepresents⟩ := Descent.parse_represents "label é:\n    pass\n  @@@ # c\n"
    obtain rfl : r = r' := Option.some.inj (hparse.symm.trans hparse')
    rw [← hintervals]
    exact (Option.some.inj (hrepresents.errorIntervals?_eq.symm.trans herrs)).symm

end Session

end RenpyScript
