import RenpyScript.Tree.Node

/-!
# Places in a tree

A `Place` is a node together with the way up to the root, so that it has a parent and siblings. Moves
give another place of the same tree, or nothing.
-/

namespace RenpyScript

/-- A node and the nodes above it, the parent first, each with the index of the child on the way
down. -/
structure Place where
  node : Node
  above : List (Node × Nat)
deriving Repr

namespace Place

def root (n : Node) : Place :=
  ⟨n, []⟩

/-- Indices of the children on the way down from the root. -/
def path (p : Place) : List Nat :=
  (p.above.map (·.2)).reverse

/-- The `i`th child. -/
def child? (p : Place) (i : Nat) : Option Place :=
  p.node.children[i]?.map fun c => ⟨c, (p.node, i) :: p.above⟩

/-- The place at the end of a way down. -/
def descend? (p : Place) : List Nat → Option Place
  | [] => some p
  | i :: is => (p.child? i).bind fun c => c.descend? is

def children (p : Place) : List Place :=
  (List.range p.node.children.length).filterMap p.child?

def parent? (p : Place) : Option Place :=
  match p.above with
  | [] => none
  | (n, _) :: up => some ⟨n, up⟩

def namedChildren (p : Place) : List Place :=
  p.children.filter (·.node.named)

/-- The `i`th named child. -/
def namedChild? (p : Place) (i : Nat) : Option Place :=
  p.namedChildren[i]?

def childUnder? (p : Place) (field : Field) : Option Place :=
  p.children.find? (·.node.field = some field)

/-- The node's index in its parent, and the siblings in order, the node itself included. -/
def siblings? (p : Place) : Option (Nat × List Place) :=
  match p.above with
  | [] => none
  | (n, i) :: up => some (i, children ⟨n, up⟩)

def nextSibling? (p : Place) : Option Place :=
  p.siblings?.bind fun s => s.2[s.1 + 1]?

def prevSibling? (p : Place) : Option Place :=
  p.siblings?.bind fun s => if s.1 = 0 then none else s.2[s.1 - 1]?

def nextNamedSibling? (p : Place) : Option Place :=
  p.siblings?.bind fun s => (s.2.drop (s.1 + 1)).find? (·.node.named)

def prevNamedSibling? (p : Place) : Option Place :=
  p.siblings?.bind fun s => (s.2.take s.1).reverse.find? (·.node.named)

/-- Whether the node covers `start ..= stop` and is not empty. -/
def covers (start stop : Nat) (n : Node) : Bool :=
  n.span.start ≤ start && stop ≤ n.span.stop && n.span.start < n.span.stop

mutual
/-- Goes down to the first child that covers the range, for as long as there is one. -/
def narrow (start stop : Nat) (above : List (Node × Nat)) : Node → Place
  | ⟨field, kind, span, missing, children⟩ =>
    let n : Node := ⟨field, kind, span, missing, children⟩
    (narrowAmong start stop n above 0 children).getD ⟨n, above⟩

/-- Goes down to the first of the children from index `i` on that covers the range. -/
def narrowAmong (start stop : Nat) (parent : Node) (above : List (Node × Nat)) (i : Nat) :
    List Node → Option Place
  | [] => none
  | c :: cs =>
    if covers start stop c then some (narrow start stop ((parent, i) :: above) c)
    else narrowAmong start stop parent above (i + 1) cs
end

/-- The smallest node below the place, or at it, that covers `start ..= stop`. -/
def descendant? (p : Place) (start stop : Nat) : Option Place :=
  if p.node.span.start ≤ start ∧ stop ≤ p.node.span.stop then some (narrow start stop p.above p.node)
  else none

/-- The nearest named node on the way up, given a node and the nodes above it. -/
def nearestNamed? (n : Node) : List (Node × Nat) → Option Place
  | [] => if n.named then some ⟨n, []⟩ else none
  | (parent, i) :: up =>
    if n.named then some ⟨n, (parent, i) :: up⟩ else nearestNamed? parent up

/-- The smallest named node that covers `start ..= stop`. -/
def namedDescendant? (p : Place) (start stop : Nat) : Option Place :=
  (p.descendant? start stop).bind fun d => nearestNamed? d.node d.above

end Place

end RenpyScript
