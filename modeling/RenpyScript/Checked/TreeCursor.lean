import RenpyScript.Checked.Arena

/-!
# A cursor over entries

A `TreeCursor` keeps a stack of indices, each with a position among the children of the one below it. It looks at
children only and never at a parent. A stack without anything on it has no node.
-/

namespace RenpyScript

/-- The nodes down to the current one, that one first, each with its position among its siblings. -/
structure TreeCursor where
  stack : List (Nat × Nat)
deriving DecidableEq, Repr

/-- How a cursor may move. -/
inductive CursorMove where
  | firstChild
  | nextSibling
  | parent
deriving DecidableEq, Repr

namespace TreeCursor

def on (i : Nat) : TreeCursor :=
  ⟨[(i, 0)]⟩

def node? (c : TreeCursor) : Option Nat :=
  c.stack.head?.map Prod.fst

section
variable (a : Arena)

/-- Moves to the first child, and tells whether there is one. -/
def gotoFirstChild (c : TreeCursor) : Option (Bool × TreeCursor) := do
  let i ← c.node?
  let e ← a.nodes[i]?
  match e.children.head? with
  | none => return (false, c)
  | some first => return (true, ⟨(first, 0) :: c.stack⟩)

/-- Moves to the next sibling, unless the cursor stands on its starting node or on a last child. -/
def gotoNextSibling (c : TreeCursor) : Option (Bool × TreeCursor) :=
  match c.stack with
  | (_, position) :: parent :: up => do
    let e ← a.nodes[parent.1]?
    match e.children[position + 1]? with
    | none => return (false, c)
    | some next => return (true, ⟨(next, position + 1) :: parent :: up⟩)
  | _ => some (false, c)

/-- Moves to the parent, unless the cursor stands on its starting node. -/
def gotoParent (c : TreeCursor) : Option (Bool × TreeCursor) :=
  match c.stack with
  | _ :: parent :: up => some (true, ⟨parent :: up⟩)
  | _ => some (false, c)

def goto : CursorMove → TreeCursor → Option (Bool × TreeCursor)
  | .firstChild => gotoFirstChild a
  | .nextSibling => gotoNextSibling a
  | .parent => gotoParent

/-- Moves one after the other, whether they succeed or not. -/
def gotoAll : List CursorMove → TreeCursor → Option TreeCursor
  | [], c => some c
  | m :: ms, c => do
    let (_, d) ← goto a m c
    gotoAll ms d

/-- Moves to the next sibling, or else climbs until there is one. It fails where it can climb no further. -/
def leave (c : TreeCursor) : Option (Bool × TreeCursor) := do
  let (moved, d) ← gotoNextSibling a c
  if moved then return (true, d)
  else
    let (climbed, up) ← gotoParent d
    if climbed then
      if up.stack.length < c.stack.length then leave up else none
    else return (false, up)
termination_by c.stack.length

/-- One step of a walk: down if possible, or else across or up. -/
def advance (c : TreeCursor) : Option (Bool × TreeCursor) := do
  let (moved, d) ← gotoFirstChild a c
  if moved then return (true, d) else leave a d

/-- The nodes that a walk comes to from a cursor on, in so many steps at the most, and where it ends. -/
def walkUpTo : Nat → TreeCursor → Option (List Nat × TreeCursor)
  | 0, _ => none
  | n + 1, c => do
    let i ← c.node?
    let (moved, d) ← advance a c
    if moved then
      let (is, last) ← walkUpTo n d
      return (i :: is, last)
    else return ([i], d)

/-- A walk over the subtree of a node. It needs no more steps than there are nodes. -/
def walk (i : Nat) : Option (List Nat × TreeCursor) :=
  walkUpTo a a.nodes.length (on i)

end

end TreeCursor

end RenpyScript
