import RenpyScript.Proofs.Outline.Alignment
import RenpyScript.Proofs.Outline.Reindent
import RenpyScript.Proofs.Tree.WellFormed

/-!
# Scripts with another indentation

The shape of a tree depends on the order of the widths in a script, not on the widths themselves, and
not on blank lines.
-/

namespace RenpyScript

open LogicalLine Node

lemma Tiles.standsIn {row : Nat} {as cs : List Char} {ls : List LogicalLine}
    (h : Tiles (byteLength as) row cs ls) {l : LogicalLine} (hl : l ∈ ls) : l.StandsIn (as ++ cs) := by
  generalize hpos : byteLength as = pos at h
  induction h generalizing as with
  | nil => simp at hl
  | @cons pos row m ms before spaces terminator rest line last tiles ih =>
    rcases List.mem_cons.mp hl with rfl | hl
    · refine ⟨as ++ before, spaces ++ terminator ++ rest, by simp, ?_⟩
      rw [line.start_eq, byteLength_append, hpos]
    · have hbehind : byteLength (as ++ (before ++ m.content ++ spaces ++ terminator)) = m.lineEnd := by
        rw [byteLength_append, hpos, ← line.lineEnd_eq_add]
      simpa only [List.append_assoc] using ih hl hbehind

lemma LogicalLine.scan_standsIn {cs : List Char} {l : LogicalLine} (hl : l ∈ scan cs) : l.StandsIn cs := by
  obtain ⟨mark, rest, rfl, -, htiles⟩ := scan_tiles cs
  exact htiles.standsIn hl

/-- The lines of a script that are not blank. -/
def LogicalLine.nonblank (text : String) : List LogicalLine :=
  (scan text.toList).filter (·.kind ≠ .blank)

namespace Outline

lemma empty_alike {f : Nat → Nat} {s : Set Nat} (text text' : List Char) :
    empty.Alike f s text text' empty :=
  ⟨rfl, fun w hw => by simp [empty, IndentStack.empty] at hw, .nil, rfl, .nothing, rfl⟩

lemma itemsOf_nonblank (lines : List LogicalLine) :
    itemsOf (lines.filter (·.kind ≠ .blank)) = itemsOf lines := by
  rw [itemsOf, run_nonblank (empty_aligned lines), itemsOf]

end Outline

namespace Tree

/-- The nodes of a tree in document order. The root is no leaf, even if it has no children. -/
def profile (t : Tree) : List ProfileEntry :=
  { t.root.profileEntry t.text.toList 0 with text := none } :: profileAll t.text.toList 1 t.root.children

lemma sexp_of_shapes {a b : String} {text text' : List Char}
    (h : SameShapes text text' (parse a).root.children (parse b).root.children) :
    (parse b).root.sexp = (parse a).root.sexp := by
  have hchildren := childrenSexp_congr (forall₂_of_shapes h fun _ _ _ hshape =>
    ⟨sameShape_of_eq hshape, sexp_of_shape hshape⟩)
  rw [sexp_eq, sexp_eq, hchildren]
  rfl

lemma profile_of_shapes {a b : String}
    (h : SameShapes a.toList b.toList (parse a).root.children (parse b).root.children) :
    (parse b).profile = (parse a).profile := by
  have hchildren := profileAll_congr (forall₂_of_shapes h fun _ _ _ hshape => profile_of_shape hshape 1)
  have herrors := any_hasError_congr (forall₂_of_shapes h fun _ _ _ hshape => hasError_of_shape hshape)
  have hroot : (parse b).root.hasError = (parse a).root.hasError := by
    rw [hasError_eq, hasError_eq, herrors]
    rfl
  have hentry : { (parse b).root.profileEntry b.toList 0 with text := none } =
      { (parse a).root.profileEntry a.toList 0 with text := none } := by
    rw [profileEntry, profileEntry, hroot]
    rfl
  exact congrArg₂ List.cons hentry hchildren

/-- Two scripts whose lines, but for blank ones, have the same contents, and widths in the same order,
have trees of the same shape. -/
theorem parse_reindented (a b : String) (f : Nat → Nat) (hzero : f 0 = 0)
    (hmono : StrictMonoOn f {w | w = 0 ∨ ∃ l ∈ nonblank a, l.indent = w})
    (hlines : List.Forall₂ (fun l l' => l'.content = l.content ∧ l'.indent = f l.indent)
      (nonblank a) (nonblank b)) :
    (parse b).root.sexp = (parse a).root.sexp ∧ (parse b).profile = (parse a).profile := by
  have hf : KeepsOrder f {w | w = 0 ∨ ∃ l ∈ nonblank a, l.indent = w} := ⟨Or.inl rfl, hzero, hmono⟩
  have hmem : ∀ l ∈ nonblank a, l.indent ∈ {w | w = 0 ∨ ∃ l ∈ nonblank a, l.indent = w} :=
    fun l hl => Or.inr ⟨l, hl, rfl⟩
  have hreindented := (List.forall₂_and_left (nonblank a) (nonblank b)).mpr ⟨hmem, hlines⟩
  have halike := reindented_alike (hreindented.imp fun l l' h => ⟨h.2.1, h.2.2, h.1⟩)
    (fun l hl => scan_standsIn (List.mem_of_mem_filter hl))
    (fun l hl => scan_standsIn (List.mem_of_mem_filter hl))
  have hrun := (Outline.empty_alike a.toList b.toList).run hf halike
  have hshapes : SameShapes a.toList b.toList (parse a).root.children (parse b).root.children := by
    change SameShapes _ _ (Outline.itemsOf (scan a.toList)) (Outline.itemsOf (scan b.toList))
    rw [← Outline.itemsOf_nonblank, ← Outline.itemsOf_nonblank (scan b.toList)]
    exact hrun.finish
  exact ⟨sexp_of_shapes hshapes, profile_of_shapes hshapes⟩

theorem parse_reindented_tab :
    (parse "\nlabel a:\n\n\t$ x\n").root.sexp = (parse "label a:\n    $ x\n").root.sexp ∧
      (parse "\nlabel a:\n\n\t$ x\n").profile = (parse "label a:\n    $ x\n").profile := by
  have ha : nonblank "label a:\n    $ x\n" = [⟨0, 0, "label a:".toList, 9, 0⟩, ⟨4, 13, "$ x".toList, 17, 1⟩] := by
    decide +kernel
  have hb : nonblank "\nlabel a:\n\n\t$ x\n" =
      [⟨0, 1, "label a:".toList, 10, 1⟩, ⟨8, 12, "$ x".toList, 16, 3⟩] := by
    decide +kernel
  apply parse_reindented _ _ (2 * ·) rfl
  · intro v _ w _ hlt
    dsimp only
    omega
  · rw [ha, hb]
    exact .cons ⟨rfl, rfl⟩ (.cons ⟨rfl, rfl⟩ .nil)

end Tree

end RenpyScript
