import RenpyScript.Text.Offset

/-!
# Errors in queries

A query that cannot be compiled has one `QueryFault`, the cause, at one place. Causes fall into five
kinds; `QueryFault.detail` gives the words for each cause.
-/

namespace RenpyScript

/-- The kind of an error in a query. -/
inductive QueryErrorKind where
  | malformed
  | nodeType
  | field
  | capture
  | predicate
deriving DecidableEq, Repr

def QueryErrorKind.describe : QueryErrorKind → String
  | malformed => "syntax error"
  | nodeType => "invalid node type"
  | field => "invalid field"
  | capture => "invalid capture"
  | predicate => "invalid predicate"

/-- What is wrong with the arguments of a predicate, or with its name. -/
inductive PredicateFault where
  | firstIsNoCapture
  | notTwoArguments
  | noPattern
  /-- The pattern is no regular expression; `why` is what the engine says. -/
  | malformedPattern (why : String)
  | valueIsCapture
  | noValues
  | unknown
deriving DecidableEq, Repr

def PredicateFault.describe : PredicateFault → String
  | firstIsNoCapture => "first argument must be a capture"
  | notTwoArguments => "expected exactly two arguments"
  | noPattern => "expected a capture and a regex string"
  | malformedPattern why => why
  | valueIsCapture => "arguments must be strings"
  | noValues => "expected at least one string"
  | unknown => "unknown predicate"

/-- Why a query cannot be compiled. -/
inductive QueryFault where
  | siblings
  | unclosedGroup
  | emptyGroup
  | unclosedAlternation
  | emptyAlternation
  | anchor
  | noPattern
  | endOfQuery
  | noCaptureName
  | noNodeKind
  | negatedField
  | noFieldColon
  | unclosedNode
  | unterminatedString
  | strayArgument
  | unclosedPredicate
  | unknownKind (name : String)
  | unknownToken (spelling : String)
  | unknownField (name : String)
  /-- No capture of the name stands before the predicate. -/
  | unknownCapture (name : String)
  /-- The capture belongs to other patterns only. -/
  | foreignCapture (name : String)
  | predicate (name : String) (fault : PredicateFault)
deriving DecidableEq, Repr

namespace QueryFault

def kind : QueryFault → QueryErrorKind
  | unknownKind _ | unknownToken _ => .nodeType
  | unknownField _ => .field
  | unknownCapture _ | foreignCapture _ => .capture
  | predicate _ _ => .predicate
  | _ => .malformed

def detail : QueryFault → String
  | siblings => "sibling sequences are not supported"
  | unclosedGroup => "unclosed group"
  | emptyGroup => "empty group"
  | unclosedAlternation => "unclosed alternation"
  | emptyAlternation => "empty alternation"
  | anchor => "anchors are not supported"
  | noPattern => "expected a pattern"
  | endOfQuery => "unexpected end of query"
  | noCaptureName => "expected a capture name"
  | noNodeKind => "expected a node kind"
  | negatedField => "negated fields are not supported"
  | noFieldColon => "expected ':' after field name"
  | unclosedNode => "unclosed node pattern"
  | unterminatedString => "unterminated string"
  | strayArgument => "unexpected predicate argument"
  | unclosedPredicate => "unclosed predicate"
  | unknownKind name => name
  | unknownToken spelling => "\"" ++ spelling ++ "\""
  | unknownField name => name
  | unknownCapture name => name
  | foreignCapture name => "capture @" ++ name ++ " is not defined in this pattern"
  | predicate name fault => "#" ++ name ++ ": " ++ fault.describe

end QueryFault

/-- An error in a query: its cause, and where it is. -/
structure QueryError where
  fault : QueryFault
  offset : Nat
  row : Nat
  /-- Bytes between the last line feed and the error. -/
  column : Nat
deriving DecidableEq, Repr

namespace QueryError

/-- The error with a given cause at an offset of the query `source`, which is behind `before`. -/
def behind (before : List Char) (fault : QueryFault) : QueryError :=
  ⟨fault, byteLength before, before.count '\n', byteLength (before.reverse.takeWhile (· ≠ '\n'))⟩

def message (e : QueryError) : String :=
  s!"{e.fault.kind.describe} at row {e.row}, column {e.column}: {e.fault.detail}"

end QueryError

end RenpyScript
