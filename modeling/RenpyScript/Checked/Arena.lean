import RenpyScript.Checked.Descent

/-!
# Nodes of a finished tree by index

A finished tree is its entries and the index of its root. Parents and children are indices, and a node finds its
siblings by a search for itself among the children of its parent. An index without an entry has no value. Nor has a
way down that does not lead to smaller indices, or a way up that does not lead to larger ones, as it need not end.
-/

namespace RenpyScript

/-- The entries of a finished tree. -/
structure Arena where
  nodes : List Entry
  root : Nat
deriving Repr

/-- The tree that is left of a parse. -/
def Descent.Outcome.arena (r : Outcome) : Arena :=
  ⟨r.final.builder.nodes, r.root⟩

namespace Arena

section
variable (a : Arena)

def parent? (i : Nat) : Option (Option Nat) := do
  let e ← a.nodes[i]?
  return e.parent

def child? (i k : Nat) : Option (Option Nat) := do
  let e ← a.nodes[i]?
  return e.children[k]?

def named? (i : Nat) : Option Bool := do
  let e ← a.nodes[i]?
  return e.kind.named

def namedChildren? (i : Nat) : Option (List Nat) := do
  let e ← a.nodes[i]?
  e.children.filterM a.named?

/-- The named child at a position among the named ones. -/
def namedChild? (i j : Nat) : Option (Option Nat) := do
  let children ← a.namedChildren? i
  return children[j]?

/-- The position of a node among the children of its parent, and these children. -/
def siblings? (i : Nat) : Option (Option (Nat × List Nat)) := do
  match ← a.parent? i with
  | none => return none
  | some p =>
    let e ← a.nodes[p]?
    return (e.children.idxOf? i).map (·, e.children)

def nextSibling? (i : Nat) : Option (Option Nat) := do
  let found ← a.siblings? i
  return found.bind fun (k, siblings) => siblings[k + 1]?

def prevSibling? (i : Nat) : Option (Option Nat) := do
  let found ← a.siblings? i
  return found.bind fun (k, siblings) => if k = 0 then none else siblings[k - 1]?

def nextNamedSibling? (i : Nat) : Option (Option Nat) := do
  match ← a.siblings? i with
  | none => return none
  | some (k, siblings) => (siblings.drop (k + 1)).findM? a.named?

def prevNamedSibling? (i : Nat) : Option (Option Nat) := do
  match ← a.siblings? i with
  | none => return none
  | some (k, siblings) =>
    let before ← (siblings.take k).filterM a.named?
    return before.getLast?

/-- Whether a node covers `start ..= stop` and is not empty. -/
def covers? (start stop i : Nat) : Option Bool := do
  let e ← a.nodes[i]?
  return e.span.start ≤ start && stop ≤ e.span.stop && e.span.start < e.span.stop

/-- Goes down to the first child that covers the range, for as long as there is one. -/
def narrow (start stop i : Nat) : Option Nat := do
  let e ← a.nodes[i]?
  match ← e.children.findM? (a.covers? start stop) with
  | none => return i
  | some c => if c < i then narrow start stop c else none
termination_by i

/-- The node that the way down from a node ends at, if the node spans `start ..= stop`. -/
def descendant? (i start stop : Nat) : Option (Option Nat) := do
  let e ← a.nodes[i]?
  if start < e.span.start ∨ e.span.stop < stop then return none
  else
    let r ← a.narrow start stop i
    return some r

def nearestNamed? (i : Nat) : Option (Option Nat) := do
  let e ← a.nodes[i]?
  if e.kind.named then return some i
  else
    match e.parent with
    | none => return none
    | some p => if i < p ∧ p < a.nodes.length then nearestNamed? p else none
termination_by a.nodes.length - i

/-- The first named node from the smallest node on up. -/
def namedDescendant? (i start stop : Nat) : Option (Option Nat) := do
  match ← a.descendant? i start stop with
  | none => return none
  | some r => a.nearestNamed? r

end

end Arena

end RenpyScript
