import RenpyScript.Grammar.Kind

/-!
# Patterns

A query consists of patterns for nodes. A pattern tests a node and has patterns for its children, or
it offers alternatives. Captures are named once in the query and referred to by index. Predicates
compare the texts of what a match captures; those that ask for a regular expression leave it to an engine
about which nothing is assumed.
-/

namespace RenpyScript

/-- How often a child pattern may match. -/
inductive Quantifier where
  | one
  | optional
  | zeroOrMore
  | oneOrMore
deriving DecidableEq, Repr

/-- Which nodes a pattern accepts. -/
inductive NodeTest where
  /-- A rule, `(kind)`. -/
  | rule (k : Kind)
  /-- Any rule, `(_)`. -/
  | anyRule
  /-- Any node, `_`. -/
  | any
  /-- A token, `"spelling"`. -/
  | token (k : Kind)
deriving DecidableEq, Repr

/-- What surrounds a pattern: the field it asks for, the captures it makes and its quantifier. -/
structure Role where
  field : Option Field
  captures : List Nat
  quantifier : Quantifier
deriving DecidableEq, Repr

/-- The role of a pattern with nothing around it. -/
def Role.plain : Role := ⟨none, [], .one⟩

/-- A pattern for a node. -/
inductive Pattern where
  | node (test : NodeTest) (children : List Pattern) (role : Role)
  | choice (alternatives : List Pattern) (role : Role)
deriving Repr

namespace Pattern

def role : Pattern → Role
  | node _ _ r => r
  | choice _ r => r

def withRole (p : Pattern) (r : Role) : Pattern :=
  match p with
  | node test children _ => node test children r
  | choice alternatives _ => choice alternatives r

mutual
/-- The captures that a pattern makes, its own first. -/
def captures : Pattern → List Nat
  | node _ children r => r.captures ++ capturesAmong children
  | choice alternatives r => r.captures ++ capturesAmong alternatives

def capturesAmong : List Pattern → List Nat
  | [] => []
  | p :: ps => p.captures ++ capturesAmong ps
end

end Pattern

/-- An engine for regular expressions: it compiles a written expression, or says why it cannot, and tells
whether a text contains a match. -/
class RegexEngine where
  Regex : Type
  compile : String → Except String Regex
  isMatch : Regex → String → Bool

/-- What a predicate compares a capture with. -/
inductive Operand where
  | capture (index : Nat)
  | text (s : String)
deriving DecidableEq, Repr

section
variable [RegexEngine]

/-- The test of a predicate. -/
inductive Comparison where
  | eq (other : Operand)
  | matches (r : RegexEngine.Regex)
  | anyOf (values : List String)

/-- A condition on the texts of a capture. -/
structure Predicate where
  capture : Nat
  comparison : Comparison
  negated : Bool

def Predicate.captures (p : Predicate) : List Nat :=
  match p.comparison with
  | .eq (.capture other) => [p.capture, other]
  | _ => [p.capture]

/-- A pattern of a query with its predicates, and where it begins in the query. -/
structure QueryPattern where
  root : Pattern
  predicates : List Predicate
  start : Nat

/-- A compiled query. -/
structure Query where
  patterns : List QueryPattern
  /-- The names of the captures; a capture is referred to by its index. -/
  captureNames : List String

namespace Query

def captureIndex? (q : Query) (name : String) : Option Nat :=
  q.captureNames.idxOf? name

def patternStart? (q : Query) (i : Nat) : Option Nat :=
  q.patterns[i]?.map (·.start)

end Query

end

end RenpyScript
