import RenpyScript.Query.Pattern
import RenpyScript.Tree.Basic

/-!
# Matches

A pattern matches a node in one or several ways, its solutions. Child patterns are matched in order,
each at the earliest child it accepts; a repeated one takes every child it accepts. Only the child that
begins the sequence is varied, so a node has one solution for each child that can begin it.
-/

namespace RenpyScript

/-- A node under the index of a capture. -/
structure Capture where
  node : Node
  index : Nat
deriving Repr

/-- A match of a pattern, with what it captures in the order of the pattern. -/
structure Match where
  pattern : Nat
  captures : List Capture
deriving Repr

def NodeTest.accepts (n : Node) : NodeTest → Bool
  | rule k => n.named && n.kind = k
  | anyRule => n.named
  | any => true
  | token k => !n.named && n.kind = k

namespace Role

/-- Whether a node is stored under the field that the role asks for. -/
def fits (r : Role) (n : Node) : Bool :=
  r.field.all fun f => n.field = some f

def capturesOf (r : Role) (n : Node) : List Capture :=
  r.captures.map fun i => ⟨n, i⟩

end Role

namespace Pattern

/-- The first node that `solve` accepts: its solution, and the nodes behind it. -/
def earliest? (solve : Node → Option (List Capture)) : List Node → Option (List Capture × List Node)
  | [] => none
  | n :: ns =>
    match solve n with
    | some s => some (s, ns)
    | none => earliest? solve ns

/-- The solutions of every node that `solve` accepts, and the nodes behind the last of them. Nothing if
`solve` accepts none. -/
def gather? (solve : Node → Option (List Capture)) : List Node → Option (List Capture × List Node)
  | [] => none
  | n :: ns =>
    match solve n, gather? solve ns with
    | some s, some (more, rest) => some (s ++ more, rest)
    | some s, none => some (s, ns)
    | none, r => r

mutual
def solution? : Pattern → Node → Option (List Capture)
  | node test children role, n =>
    if test.accepts n then (sequence? children n.children).map (role.capturesOf n ++ ·) else none
  | choice alternatives role, n => (solutionAmong? alternatives n).map (role.capturesOf n ++ ·)

/-- The first solution of the first alternative that has one. -/
def solutionAmong? : List Pattern → Node → Option (List Capture)
  | [], _ => none
  | p :: ps, n =>
    match if p.role.fits n then p.solution? n else none with
    | some s => some s
    | none => solutionAmong? ps n

/-- The solution of child patterns at a list of siblings. -/
def sequence? : List Pattern → List Node → Option (List Capture)
  | [], _ => some []
  | p :: ps, nodes =>
    let solve (n : Node) : Option (List Capture) := if p.role.fits n then p.solution? n else none
    match p.role.quantifier with
    | .one => (earliest? solve nodes).bind fun r => (sequence? ps r.2).map (r.1 ++ ·)
    | .optional =>
      match (earliest? solve nodes).bind fun r => (sequence? ps r.2).map (r.1 ++ ·) with
      | some s => some s
      | none => sequence? ps nodes
    | .zeroOrMore =>
      let r := (gather? solve nodes).getD ([], nodes)
      (sequence? ps r.2).map (r.1 ++ ·)
    | .oneOrMore => (gather? solve nodes).bind fun r => (sequence? ps r.2).map (r.1 ++ ·)
end

/-- The first solution at a node that a child pattern may take. -/
def childSolution? (p : Pattern) (n : Node) : Option (List Capture) :=
  if p.role.fits n then p.solution? n else none

/-- The solutions of a sequence that begins with one node matching `p`, one for each such node. -/
def startingWith (p : Pattern) (ps : List Pattern) : List Node → List (List Capture)
  | [] => []
  | n :: ns =>
    let here := (p.childSolution? n).bind fun s => (sequence? ps ns).map (s ++ ·)
    here.toList ++ startingWith p ps ns

/-- The solutions of child patterns at a list of siblings: one for each child that can begin, if there
is a first pattern and it is for one child; at most one otherwise. -/
def sequenceSolutions (patterns : List Pattern) (nodes : List Node) : List (List Capture) :=
  match patterns with
  | [] => [[]]
  | p :: ps =>
    match p.role.quantifier with
    | .one => startingWith p ps nodes
    | _ => (sequence? (p :: ps) nodes).toList

mutual
def solutions : Pattern → Node → List (List Capture)
  | node test children role, n =>
    if test.accepts n then (sequenceSolutions children n.children).map (role.capturesOf n ++ ·) else []
  | choice alternatives role, n => (solutionsAmong alternatives n).map (role.capturesOf n ++ ·)

def solutionsAmong : List Pattern → Node → List (List Capture)
  | [], _ => []
  | p :: ps, n => (if p.role.fits n then p.solutions n else []) ++ solutionsAmong ps n
end

end Pattern

/-- The texts of the nodes captured under an index. A node whose bytes are no text has none. -/
def textsUnder (source : ByteArray) (captures : List Capture) (index : Nat) : List String :=
  (captures.filter (·.index = index)).map fun c => (c.node.textInBytes? source).getD ""

section
variable [RegexEngine]

namespace Predicate

/-- Whether the comparison of a predicate accepts a text of its capture. -/
def compares (source : ByteArray) (captures : List Capture) (p : Predicate) (s : String) : Bool :=
  match p.comparison with
  | .eq (.text t) => (s == t) != p.negated
  | .eq (.capture other) => (textsUnder source captures other).all fun t => (s == t) != p.negated
  | .matches r => RegexEngine.isMatch r s != p.negated
  | .anyOf values => values.contains s != p.negated

/-- Whether a predicate holds: every text of its capture passes. -/
def holds (source : ByteArray) (captures : List Capture) (p : Predicate) : Bool :=
  (textsUnder source captures p.capture).all (p.compares source captures)

end Predicate

def QueryPattern.matchesAt (source : ByteArray) (n : Node) (p : QueryPattern) : List (List Capture) :=
  if p.root.role.fits n then
    (p.root.solutions n).filter fun captures => p.predicates.all (·.holds source captures)
  else []

end

/-- Whether a node lies in a range. An empty node lies in a range that begins where it is. -/
def Node.intersects (range : Option Span) (n : Node) : Bool :=
  range.all fun r =>
    n.span.start < r.stop &&
      (r.start < n.span.stop || (n.span.start = n.span.stop && r.start ≤ n.span.start))

namespace Query

def matchesAt [RegexEngine] (q : Query) (source : ByteArray) (n : Node) : List Match :=
  q.patterns.zipIdx.flatMap fun p => (p.1.matchesAt source n).map fun captures => ⟨p.2, captures⟩

end Query

end RenpyScript
