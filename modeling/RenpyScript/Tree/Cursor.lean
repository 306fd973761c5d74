import RenpyScript.Tree.Node

/-!
# Cursors

A `Cursor` walks the subtree of the node it was made on and never leaves it. It keeps the nodes
between that node and where it stands. `Cursor.walk` visits every node of the subtree once.
-/

namespace RenpyScript

/-- A position in the subtree of `start`. -/
structure Cursor where
  start : Node
  /-- The node the cursor stands on and those between it and `start`, the innermost first, each with
  its index among its siblings. -/
  trail : List (Node × Nat)
deriving Repr

namespace Cursor

def on (n : Node) : Cursor :=
  ⟨n, []⟩

def endOf (start : Node) : List (Node × Nat) → Node
  | [] => start
  | (n, _) :: _ => n

def node (c : Cursor) : Node :=
  endOf c.start c.trail

/-- Number of steps down from the starting node. -/
def depth (c : Cursor) : Nat :=
  c.trail.length

/-- The field of the current node; the starting node has none for the cursor. -/
def field (c : Cursor) : Option Field :=
  if c.trail.isEmpty then none else c.node.field

def firstChild? (c : Cursor) : Option Cursor :=
  c.node.children.head?.map fun n => { c with trail := (n, 0) :: c.trail }

def nextSibling? (c : Cursor) : Option Cursor :=
  match c.trail with
  | [] => none
  | (_, i) :: up =>
    (endOf c.start up).children[i + 1]?.map fun n => { c with trail := (n, i + 1) :: up }

def parent? (c : Cursor) : Option Cursor :=
  match c.trail with
  | [] => none
  | _ :: up => some { c with trail := up }

/-- The trail of the next sibling of a node, or of the nearest node above that has one. -/
def trailAcross? (start : Node) : List (Node × Nat) → Option (List (Node × Nat))
  | [] => none
  | (_, i) :: up =>
    match (endOf start up).children[i + 1]? with
    | some n => some ((n, i + 1) :: up)
    | none => trailAcross? start up

/-- Moves to the next node in document order: the first child, or else across. -/
def advance? (c : Cursor) : Option Cursor :=
  match c.firstChild? with
  | some d => some d
  | none => (trailAcross? c.start c.trail).map fun t => { c with trail := t }

/-- The cursor and the positions that up to `n` further moves lead to. -/
def walkFrom : Nat → Cursor → List Cursor
  | 0, c => [c]
  | n + 1, c =>
    match c.advance? with
    | none => [c]
    | some d => c :: walkFrom n d

/-- Every position in document order. There are as many as the subtree has nodes. -/
def walk (n : Node) : List Cursor :=
  walkFrom n.count (on n)

end Cursor

end RenpyScript
