import RenpyScript.Grammar.Kind
import RenpyScript.Text.Offset

/-!
# Nodes of a tree

A node covers a span of the text and holds its children in document order. A node that the parser
put in for something absent is missing; it covers nothing. Whether a node holds an error follows
from its kind, from being missing, and from its children.
-/

namespace RenpyScript

/-- A node of a concrete syntax tree. -/
structure Node where
  /-- The field of the parent that the node is stored under. -/
  field : Option Field
  kind : Kind
  span : Span
  /-- Whether the node stands for something that the text lacks. -/
  missing : Bool
  children : List Node
deriving Repr

namespace Node

/-- A token, or another node without children. -/
def leaf (kind : Kind) (span : Span) : Node :=
  ⟨none, kind, span, false, []⟩

/-- A node that stands for something absent at `offset`. -/
def absent (kind : Kind) (offset : Nat) : Node :=
  ⟨none, kind, ⟨offset, offset⟩, true, []⟩

/-- The span from the first to the last of `children`, or an empty span at `fallback`. -/
def hull (children : List Node) (fallback : Nat) : Span :=
  match children.head?, children.getLast? with
  | some first, some last => ⟨first.span.start, last.span.stop⟩
  | _, _ => ⟨fallback, fallback⟩

/-- A node over `children`. Without children it lies at `fallback`. -/
def branch (kind : Kind) (children : List Node) (fallback : Nat) : Node :=
  ⟨none, kind, hull children fallback, false, children⟩

def under (n : Node) (field : Field) : Node :=
  { n with field := some field }

/-- Named nodes correspond to rules of the grammar. -/
def named (n : Node) : Bool := n.kind.named

def isError (n : Node) : Bool := n.kind = .error

/-- Comments may stand anywhere and belong to no rule. -/
def extra (n : Node) : Bool := n.kind = .comment

mutual
/-- Whether the node or one below it is an error or missing. -/
def hasError : Node → Bool
  | ⟨_, kind, _, missing, children⟩ => kind = .error || missing || anyHasError children

def anyHasError : List Node → Bool
  | [] => false
  | n :: ns => n.hasError || anyHasError ns
end

mutual
def count : Node → Nat
  | ⟨_, _, _, _, children⟩ => 1 + countAll children

/-- Number of nodes in the subtrees of a list. -/
def countAll : List Node → Nat
  | [] => 0
  | n :: ns => n.count + countAll ns
end

mutual
/-- The nodes of the subtree, each before its children. -/
def preorder : Node → List Node
  | ⟨field, kind, span, missing, children⟩ =>
    ⟨field, kind, span, missing, children⟩ :: preorderAll children

/-- The nodes of the subtrees of a list, one subtree after the other. -/
def preorderAll : List Node → List Node
  | [] => []
  | n :: ns => n.preorder ++ preorderAll ns
end

mutual
/-- The first error or missing node in document order, looked for only where there is one. -/
def firstError? : Node → Option Node
  | ⟨field, kind, span, missing, children⟩ =>
    if kind = .error || missing then some ⟨field, kind, span, missing, children⟩
    else firstErrorAmong children

/-- The first error or missing node in a list of subtrees. -/
def firstErrorAmong : List Node → Option Node
  | [] => none
  | n :: ns =>
    if n.hasError then
      match n.firstError? with
      | some e => some e
      | none => firstErrorAmong ns
    else firstErrorAmong ns
end

def namedChildren (n : Node) : List Node :=
  n.children.filter named

def childrenUnder (n : Node) (field : Field) : List Node :=
  n.children.filter (·.field = some field)

end Node

end RenpyScript
