import RenpyScript.Proofs.Tree.Placement

/-!
# Shifted nodes

`n.shift k` is the node `n` with every span, its own and those below it, moved `k` bytes to the
right. Building nodes commutes with shifting.
-/

namespace RenpyScript

def Span.shift (k : Nat) (s : Span) : Span :=
  ⟨s.start + k, s.stop + k⟩

lemma Span.covering_shift (k pos : Nat) (cs : List Char) :
    Span.covering (pos + k) cs = (Span.covering pos cs).shift k := by
  simp only [covering, shift, Span.mk.injEq, true_and]
  omega

namespace Node

mutual
/-- The node and everything below it moved to the right. -/
def shift (k : Nat) : Node → Node
  | ⟨field, kind, span, missing, children⟩ => ⟨field, kind, span.shift k, missing, shiftAll k children⟩

def shiftAll (k : Nat) : List Node → List Node
  | [] => []
  | n :: ns => n.shift k :: shiftAll k ns
end

section
variable (k : Nat) (n : Node) (ns : List Node)

lemma shiftAll_eq : shiftAll k ns = ns.map (shift k) := by
  induction ns with
  | nil => rw [shiftAll, List.map_nil]
  | cons n ns ih => rw [shiftAll, ih, List.map_cons]

lemma shift_mk (field : Option Field) (kind : Kind) (span : Span) (missing : Bool) :
    shift k ⟨field, kind, span, missing, ns⟩ = ⟨field, kind, span.shift k, missing, ns.map (shift k)⟩ := by
  rw [shift, shiftAll_eq]

@[simp] lemma shift_field : (n.shift k).field = n.field := by
  obtain ⟨field, kind, span, missing, children⟩ := n
  rw [shift]

@[simp] lemma shift_kind : (n.shift k).kind = n.kind := by
  obtain ⟨field, kind, span, missing, children⟩ := n
  rw [shift]

@[simp] lemma shift_span : (n.shift k).span = n.span.shift k := by
  obtain ⟨field, kind, span, missing, children⟩ := n
  rw [shift]

@[simp] lemma shift_missing : (n.shift k).missing = n.missing := by
  obtain ⟨field, kind, span, missing, children⟩ := n
  rw [shift]

@[simp] lemma shift_children : (n.shift k).children = n.children.map (shift k) := by
  obtain ⟨field, kind, span, missing, children⟩ := n
  rw [shift_mk]

@[simp] lemma shift_isError : (n.shift k).isError = n.isError := by
  rw [isError, isError, shift_kind]

lemma under_shift (field : Field) : (n.shift k).under field = (n.under field).shift k := by
  obtain ⟨_, kind, span, missing, children⟩ := n
  rw [under, under, shift_mk, shift_mk]

lemma map_under_shift (field : Field) :
    (ns.map (shift k)).map (·.under field) = (ns.map (·.under field)).map (shift k) := by
  rw [List.map_map, List.map_map]
  exact List.map_congr_left fun n _ => under_shift k n field

lemma leaf_shift (kind : Kind) (span : Span) : leaf kind (span.shift k) = (leaf kind span).shift k := by
  rw [leaf, leaf, shift_mk, List.map_nil]

lemma absent_shift (kind : Kind) (offset : Nat) :
    absent kind (offset + k) = (absent kind offset).shift k := by
  rw [absent, absent, shift_mk, List.map_nil, Span.shift]

lemma hull_shift (fallback : Nat) : hull (ns.map (shift k)) (fallback + k) = (hull ns fallback).shift k := by
  unfold hull
  rw [List.head?_map, List.getLast?_map]
  rcases ns.head? with _ | first
  · rfl
  rcases ns.getLast? with _ | last
  · rfl
  · simp [Span.shift]

lemma branch_shift (kind : Kind) (fallback : Nat) :
    branch kind (ns.map (shift k)) (fallback + k) = (branch kind ns fallback).shift k := by
  rw [branch, branch, shift_mk, hull_shift]

lemma lastStop_shift (hne : ns ≠ []) :
    (((ns.map (shift k)).getLast?.map (·.span.stop)).getD 0) =
      ((ns.getLast?.map (·.span.stop)).getD 0) + k := by
  rw [List.getLast?_map, List.getLast?_eq_some_getLast hne]
  simp [Span.shift]

end

end Node

end RenpyScript
