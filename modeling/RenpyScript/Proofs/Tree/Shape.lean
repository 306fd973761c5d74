import RenpyScript.Proofs.Tree.Shift
import RenpyScript.Tree.Basic

/-!
# Shapes of trees

The shape of a node is what is left of it without its offsets: fields, kinds, missing nodes, and the
text of the leaves. Two nodes of one shape are written as the same S-expression and give the same
profile, which lists the nodes of a tree in document order with all that can be asked of them.
-/

namespace RenpyScript

/-- A node without offsets. Leaves keep their text. -/
structure Shape where
  field : Option Field
  kind : Kind
  missing : Bool
  text : List Char
  children : List Shape

/-- What a profile says of a node; only leaves have a text. -/
structure ProfileEntry where
  depth : Nat
  field : Option Field
  kind : Kind
  named : Bool
  extra : Bool
  isError : Bool
  missing : Bool
  hasError : Bool
  text : Option String
deriving DecidableEq

namespace Node

/-- The text that a node without children covers in `text`. -/
def leafText (text : List Char) (span : Span) (children : List Node) : List Char :=
  if children.isEmpty then (slice text span).getD [] else []

mutual
/-- The shape of a node in the given text. -/
def shape (text : List Char) : Node → Shape
  | ⟨field, kind, span, missing, children⟩ =>
    ⟨field, kind, missing, leafText text span children, shapeAll text children⟩

def shapeAll (text : List Char) : List Node → List Shape
  | [] => []
  | n :: ns => n.shape text :: shapeAll text ns
end

def profileEntry (text : List Char) (depth : Nat) (n : Node) : ProfileEntry :=
  ⟨depth, n.field, n.kind, n.named, n.extra, n.isError, n.missing, n.hasError,
    if n.children.isEmpty then some (n.textIn text) else none⟩

mutual
/-- The nodes of a subtree in document order. -/
def profile (text : List Char) (depth : Nat) : Node → List ProfileEntry
  | ⟨field, kind, span, missing, children⟩ =>
    profileEntry text depth ⟨field, kind, span, missing, children⟩ :: profileAll text (depth + 1) children

/-- The nodes of a list of subtrees in document order. -/
def profileAll (text : List Char) (depth : Nat) : List Node → List ProfileEntry
  | [] => []
  | n :: ns => n.profile text depth ++ profileAll text depth ns
end

/-! ## Shapes of nodes that are built -/

section
variable (text : List Char)

lemma shapeAll_eq (ns : List Node) : shapeAll text ns = ns.map (shape text) := by
  induction ns with
  | nil => rw [shapeAll, List.map_nil]
  | cons n ns ih => rw [shapeAll, ih, List.map_cons]

lemma shape_eq (n : Node) : n.shape text =
    ⟨n.field, n.kind, n.missing, leafText text n.span n.children, n.children.map (shape text)⟩ := by
  obtain ⟨field, kind, span, missing, children⟩ := n
  rw [shape, shapeAll_eq]

lemma slice_empty (offset : Nat) : (slice text ⟨offset, offset⟩).getD [] = [] := by
  rw [slice, if_pos (Nat.le_refl offset), Nat.sub_self]
  rcases dropBytes offset text with _ | rest
  · rfl
  · rw [Option.bind_some, takeBytes]
    rfl

lemma shape_absent (kind : Kind) (offset : Nat) :
    (absent kind offset).shape text = ⟨none, kind, true, [], []⟩ := by
  rw [shape_eq, absent, leafText, List.isEmpty_nil, if_pos rfl, slice_empty, List.map_nil]

lemma shape_branch (kind : Kind) (ns : List Node) (fallback : Nat) :
    (branch kind ns fallback).shape text = ⟨none, kind, false, [], ns.map (shape text)⟩ := by
  have hleaf : leafText text (hull ns fallback) ns = [] := by
    cases ns with
    | nil => exact slice_empty text fallback
    | cons n ns => rfl
  rw [shape_eq, branch, hleaf]

lemma shape_under (field : Field) (n : Node) :
    (n.under field).shape text = { n.shape text with field := some field } := by
  rw [shape_eq, shape_eq, under]

lemma slice_middle (as bs cs : List Char) : slice (as ++ bs ++ cs) (.covering (byteLength as) bs) = some bs := by
  rw [List.append_assoc, slice_append]

/-- The shape of a node does not depend on what stands around the text that it is placed in. -/
lemma shape_shift {n : Node} {before filled after : List Char} (as bs : List Char)
    (h : n.Fills (byteLength before) filled) :
    (n.shift (byteLength as)).shape (as ++ (before ++ filled ++ after) ++ bs) =
      n.shape (before ++ filled ++ after) := by
  induction n using childInduction generalizing before filled after with
  | step n ih =>
    obtain ⟨hspan, hchildren⟩ := fills_iff.mp h
    rw [shape_eq, shape_eq, shift_field, shift_kind, shift_missing, shift_span, shift_children]
    have htext : leafText (as ++ (before ++ filled ++ after) ++ bs) (n.span.shift (byteLength as))
        (n.children.map (shift (byteLength as))) = leafText (before ++ filled ++ after) n.span n.children := by
      have hmoved : (Span.covering (byteLength before) filled).shift (byteLength as) =
          .covering (byteLength (as ++ before)) filled := by
        rw [← Span.covering_shift, byteLength_append, Nat.add_comm]
      have hsplit : as ++ (before ++ filled ++ after) ++ bs = as ++ before ++ filled ++ (after ++ bs) := by
        simp only [List.append_assoc]
      rw [leafText, leafText, List.isEmpty_map, hspan, hmoved, hsplit, slice_middle, slice_middle]
    have hshapes : (n.children.map (shift (byteLength as))).map (shape (as ++ (before ++ filled ++ after) ++ bs)) =
        n.children.map (shape (before ++ filled ++ after)) := by
      rw [List.map_map]
      apply List.map_congr_left
      intro c hc
      rcases hchildren with hnil | hl
      · simp [hnil] at hc
      · obtain ⟨before', filled', after', rfl, hf⟩ := hl.of_mem hc
        rw [← byteLength_append] at hf
        have hshape : (c.shift (byteLength as)).shape
            (as ++ (before ++ before' ++ filled' ++ (after' ++ after)) ++ bs) =
              c.shape (before ++ before' ++ filled' ++ (after' ++ after)) := ih c hc hf
        simpa only [List.append_assoc, Function.comp_apply] using hshape
    rw [htext, hshapes]

lemma shapes_shift {gap : Char → Bool} {ns : List Node} {cs : List Char} (h : Laid gap 0 cs ns)
    (as bs : List Char) :
    (ns.map (shift (byteLength as))).map (shape (as ++ cs ++ bs)) = ns.map (shape cs) := by
  rw [List.map_map]
  apply List.map_congr_left
  intro n hn
  obtain ⟨before, filled, after, rfl, hf⟩ := h.of_mem hn
  rw [Nat.zero_add] at hf
  exact shape_shift as bs hf

end

/-! ## What depends on the shape only -/

section
variable {text text' : List Char}

/-- The parts of two nodes of one shape. -/
structure SameShape (text text' : List Char) (n n' : Node) : Prop where
  field : n'.field = n.field
  kind : n'.kind = n.kind
  missing : n'.missing = n.missing
  isLeaf : n'.children.isEmpty = n.children.isEmpty
  leafText : leafText text' n'.span n'.children = leafText text n.span n.children
  children : n'.children.map (shape text') = n.children.map (shape text)

lemma sameShape_of_eq {n n' : Node} (h : n'.shape text' = n.shape text) : SameShape text text' n n' := by
  rw [shape_eq, shape_eq, Shape.mk.injEq] at h
  obtain ⟨hfield, hkind, hmissing, htext, hchildren⟩ := h
  refine ⟨hfield, hkind, hmissing, ?_, htext, hchildren⟩
  have hempty := congrArg List.isEmpty hchildren
  rwa [List.isEmpty_map, List.isEmpty_map] at hempty

lemma forall₂_of_shapes {R : Node → Node → Prop} {ns ns' : List Node}
    (h : ns'.map (shape text') = ns.map (shape text))
    (hR : ∀ n ∈ ns, ∀ n', n'.shape text' = n.shape text → R n n') : List.Forall₂ R ns ns' := by
  induction ns generalizing ns' with
  | nil =>
    obtain rfl : ns' = [] := by simpa using h
    exact .nil
  | cons n ns ih =>
    cases ns' with
    | nil => simp at h
    | cons n' ns' =>
      rw [List.map_cons, List.map_cons, List.cons.injEq] at h
      exact .cons (hR n (by simp) n' h.1) (ih h.2 fun m hm => hR m (List.mem_cons_of_mem n hm))

lemma hasError_eq (n : Node) : n.hasError = (n.kind = .error || n.missing || n.children.any hasError) := by
  obtain ⟨field, kind, span, missing, children⟩ := n
  have hany : anyHasError children = children.any hasError := by
    induction children with
    | nil => rw [anyHasError, List.any_nil]
    | cons c cs ih => rw [anyHasError, ih, List.any_cons]
  rw [hasError, hany]

lemma sexp_eq (n : Node) : n.sexp =
    if n.missing then missingSexp n.kind else "(" ++ n.kind.name ++ childrenSexp n.children ++ ")" := by
  obtain ⟨field, kind, span, missing, children⟩ := n
  rw [sexp]

lemma profile_eq (text : List Char) (depth : Nat) (n : Node) :
    n.profile text depth = n.profileEntry text depth :: profileAll text (depth + 1) n.children := by
  obtain ⟨field, kind, span, missing, children⟩ := n
  rw [profile]

lemma any_hasError_congr {ns ns' : List Node}
    (h : List.Forall₂ (fun n n' => n'.hasError = n.hasError) ns ns') :
    ns'.any hasError = ns.any hasError := by
  induction h with
  | nil => rfl
  | cons hn _ ih => rw [List.any_cons, List.any_cons, hn, ih]

lemma childrenSexp_congr {ns ns' : List Node}
    (h : List.Forall₂ (fun n n' => SameShape text text' n n' ∧ n'.sexp = n.sexp) ns ns') :
    childrenSexp ns' = childrenSexp ns := by
  induction h with
  | nil => rfl
  | cons hn _ ih => rw [childrenSexp, childrenSexp, named, named, hn.1.kind, hn.1.missing, hn.1.field, hn.2, ih]

lemma profileAll_congr {depth : Nat} {ns ns' : List Node}
    (h : List.Forall₂ (fun n n' => n'.profile text' depth = n.profile text depth) ns ns') :
    profileAll text' depth ns' = profileAll text depth ns := by
  induction h with
  | nil => rfl
  | cons hn _ ih => rw [profileAll, profileAll, hn, ih]

theorem hasError_of_shape {n n' : Node} (h : n'.shape text' = n.shape text) : n'.hasError = n.hasError := by
  induction n using childInduction generalizing n' with
  | step n ih =>
    have hsame := sameShape_of_eq h
    have hchildren := any_hasError_congr (forall₂_of_shapes hsame.children fun c hc _ hshape => ih c hc hshape)
    rw [hasError_eq, hasError_eq, hsame.kind, hsame.missing, hchildren]

theorem sexp_of_shape {n n' : Node} (h : n'.shape text' = n.shape text) : n'.sexp = n.sexp := by
  induction n using childInduction generalizing n' with
  | step n ih =>
    have hsame := sameShape_of_eq h
    have hchildren := childrenSexp_congr (forall₂_of_shapes hsame.children fun c hc _ hshape =>
      ⟨sameShape_of_eq hshape, ih c hc hshape⟩)
    rw [sexp_eq, sexp_eq, hsame.kind, hsame.missing, hchildren]

lemma profileEntry_of_shape {n n' : Node} (h : n'.shape text' = n.shape text) (depth : Nat) :
    n'.profileEntry text' depth = n.profileEntry text depth := by
  have hsame := sameShape_of_eq h
  have htext := hsame.leafText
  unfold Node.leafText at htext
  have hleaf : (if n'.children.isEmpty then some (n'.textIn text') else none) =
      if n.children.isEmpty then some (n.textIn text) else none := by
    rw [hsame.isLeaf] at htext ⊢
    split
    · next hempty =>
      rw [if_pos hempty, if_pos hempty] at htext
      rw [textIn, textIn, htext]
    · rfl
  rw [profileEntry, profileEntry, named, named, extra, extra, isError, isError, hsame.field, hsame.kind,
    hsame.missing, hasError_of_shape h, hleaf]

theorem profile_of_shape {n n' : Node} (h : n'.shape text' = n.shape text) (depth : Nat) :
    n'.profile text' depth = n.profile text depth := by
  induction n using childInduction generalizing n' depth with
  | step n ih =>
    have hsame := sameShape_of_eq h
    have hchildren := profileAll_congr (forall₂_of_shapes hsame.children fun c hc _ hshape =>
      ih c hc hshape (depth + 1))
    rw [profile_eq, profile_eq, profileEntry_of_shape h, hchildren]

end

end Node

open Node

/-! ## Lists of nodes -/

section
variable {text text' : List Char} {ns ns' : List Node}

def SameShapes (text text' : List Char) (ns ns' : List Node) : Prop :=
  ns'.map (shape text') = ns.map (shape text)

lemma SameShapes.append {ms ms' : List Node} (h : SameShapes text text' ns ns')
    (h' : SameShapes text text' ms ms') : SameShapes text text' (ns ++ ms) (ns' ++ ms') := by
  rw [SameShapes, List.map_append, List.map_append, h, h']

lemma SameShapes.branch (kind : Kind) (fallback fallback' : Nat) (h : SameShapes text text' ns ns') :
    SameShapes text text' [.branch kind ns fallback] [.branch kind ns' fallback'] := by
  rw [SameShapes, List.map_cons, List.map_cons, shape_branch, shape_branch, h]
  rfl

lemma sameShapes_absent (kind : Kind) (offset offset' : Nat) :
    SameShapes text text' [.absent kind offset] [.absent kind offset'] := by
  rw [SameShapes, List.map_cons, List.map_cons, shape_absent, shape_absent]
  rfl

lemma SameShapes.under {n n' : Node} (field : Field) (h : SameShapes text text' [n] [n']) :
    SameShapes text text' [n.under field] [n'.under field] := by
  have hn : n'.shape text' = n.shape text := by simpa [SameShapes] using h
  rw [SameShapes, List.map_cons, List.map_cons, shape_under, shape_under, hn]
  rfl

lemma SameShapes.any_kind (h : SameShapes text text' ns ns') (p : Kind → Bool) :
    ns'.any (fun n => p n.kind) = ns.any (fun n => p n.kind) := by
  have hany := congrArg (List.any · fun shape : Shape => p shape.kind) h
  simpa only [List.any_map, Function.comp_def, shape_eq] using hany

end

end RenpyScript
