import RenpyScript.Checked.Bytes
import RenpyScript.Text.Point
import RenpyScript.Tree.Node

/-!
# Building a tree in a list of entries

The nodes of a tree are entries of a list, which refer to each other by index. They are built from the leaves
up; `rollback` takes back whatever has been built since a checkpoint. An index without an entry has no value,
nor has the row of an offset in front of the first line.
-/

namespace RenpyScript

/-- A node by its index, and the field it will be stored under. -/
structure Child where
  index : Nat
  field : Option Field
deriving DecidableEq, Repr

def Child.plain (index : Nat) : Child :=
  ⟨index, none⟩

/-- A node whose relatives are given by their indices. -/
structure Entry where
  kind : Kind
  field : Option Field
  span : Span
  startPoint : Point
  stopPoint : Point
  parent : Option Nat
  children : List Nat
  extra : Bool
  missing : Bool
  hasError : Bool
deriving Repr

def Entry.adopted (e : Entry) (parent : Nat) (field : Option Field) : Entry :=
  { e with parent := some parent, field }

/-- The nodes built so far over a text. -/
structure TreeBuilder where
  text : List Char
  nodes : List Entry
deriving Repr

/-- Makes each child's entry that of a child of `parent`, and tells whether one of them has an error. -/
def adopt (parent : Nat) : List Child → List Entry → Option (Bool × List Entry)
  | [], nodes => some (false, nodes)
  | c :: cs, nodes => do
    let e ← nodes[c.index]?
    let (hasError, nodes) ← adopt parent cs (nodes.set c.index (e.adopted parent c.field))
    return (e.hasError || hasError, nodes)

namespace TreeBuilder

def empty (text : List Char) : TreeBuilder :=
  ⟨text, []⟩

/-- The row of an offset, found by search among the offsets at which rows begin. -/
def row? (starts : List Nat) (offset : Nat) : Option Nat :=
  match starts.idxOf? offset with
  | some row => some row
  | none => checkedSub (starts.countP (· < offset)) 1

def point? (b : TreeBuilder) (offset : Nat) : Option Point := do
  let starts := (LineTable.ofText b.text).starts
  let row ← row? starts offset
  let start ← starts[row]?
  let column ← checkedSub offset start
  return ⟨row, column⟩

/-- The number of nodes, which is the index of the next one. -/
def checkpoint (b : TreeBuilder) : Nat :=
  b.nodes.length

/-- Takes back the nodes built since a checkpoint. -/
def rollback (b : TreeBuilder) (checkpoint : Nat) : TreeBuilder :=
  { b with nodes := b.nodes.take checkpoint }

def kindOf (b : TreeBuilder) (index : Nat) : Option Kind := do
  let e ← b.nodes[index]?
  return e.kind

def endOf (b : TreeBuilder) (index : Nat) : Option Nat := do
  let e ← b.nodes[index]?
  return e.span.stop

def push (b : TreeBuilder) (e : Entry) : Nat × TreeBuilder :=
  (b.nodes.length, { b with nodes := b.nodes ++ [e] })

/-- The entry of a node without children. -/
def leafData (b : TreeBuilder) (kind : Kind) (span : Span) : Option Entry := do
  let startPoint ← b.point? span.start
  let stopPoint ← b.point? span.stop
  return ⟨kind, none, span, startPoint, stopPoint, none, [], false, false, kind = .error⟩

def leaf (kind : Kind) (span : Span) (b : TreeBuilder) : Option (Nat × TreeBuilder) := do
  let e ← b.leafData kind span
  return b.push e

def extra (kind : Kind) (span : Span) (b : TreeBuilder) : Option (Nat × TreeBuilder) := do
  let e ← b.leafData kind span
  return b.push { e with extra := true }

/-- A node for something absent at an offset. -/
def missing (kind : Kind) (offset : Nat) (b : TreeBuilder) : Option (Nat × TreeBuilder) := do
  let e ← b.leafData kind ⟨offset, offset⟩
  return b.push { e with missing := true, hasError := true }

/-- The span from the first to the last of the children, or an empty span at `fallback`. -/
def hull (b : TreeBuilder) (children : List Child) (fallback : Nat) : Option Span :=
  match children.head?, children.getLast? with
  | some first, some last => do
    let first ← b.nodes[first.index]?
    let last ← b.nodes[last.index]?
    return ⟨first.span.start, last.span.stop⟩
  | _, _ => some ⟨fallback, fallback⟩

def node (kind : Kind) (children : List Child) (fallback : Nat) (b : TreeBuilder) : Option (Nat × TreeBuilder) := do
  let span ← b.hull children fallback
  let e ← b.leafData kind span
  let (hasError, nodes) ← adopt b.nodes.length children b.nodes
  return { b with nodes }.push
    { e with children := children.map Child.index, hasError := e.hasError || hasError }

/-- The root over the items of a document, which spans the whole text. -/
def finish (items : List Child) (b : TreeBuilder) : Option (Nat × TreeBuilder) := do
  let (root, b) ← b.node .sourceFile items 0
  let stop := byteLength b.text
  let stopPoint ← b.point? stop
  let e ← b.nodes[root]?
  return (root, { b with nodes := b.nodes.set root { e with span := ⟨0, stop⟩, startPoint := ⟨0, 0⟩, stopPoint } })

end TreeBuilder

end RenpyScript
