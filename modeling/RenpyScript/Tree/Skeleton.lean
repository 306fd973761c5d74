import RenpyScript.Tree.Sexp

/-!
# Skeletons

What an S-expression tells of a node: its kind, whether it is missing, and those children that are named or missing,
each with its field. The reader goes back from an S-expression to the skeleton.
-/

namespace RenpyScript

/-- A node without its place and without the tokens in it. -/
inductive Skeleton where
  | node (kind : Kind) (missing : Bool) (children : List (Option Field × Skeleton))
deriving Repr

/-- The kind with a given name, among the named kinds or among the tokens. -/
def Kind.spelled? (name : String) (named : Bool) : Option Kind :=
  all.find? fun k => k.named == named && k.name == name

namespace Node

mutual
def skeleton : Node → Skeleton
  | ⟨_, kind, _, missing, children⟩ => .node kind missing (skeletons children)

/-- The skeletons of the nodes that are named or missing, each with its field. -/
def skeletons : List Node → List (Option Field × Skeleton)
  | [] => []
  | n :: ns => if n.named || n.missing then (n.field, n.skeleton) :: skeletons ns else skeletons ns
end

end Node

namespace Skeleton

mutual
def write : Skeleton → String
  | .node kind missing children =>
    if missing then Node.missingSexp kind else "(" ++ kind.name ++ writeAll children ++ ")"

def writeAll : List (Option Field × Skeleton) → String
  | [] => ""
  | child :: children => writeChild child ++ writeAll children

def writeChild : Option Field × Skeleton → String
  | (field, s) => " " ++ Node.fieldLabel field ++ s.write
end

/-! ## The reader

Every reader gives what it has read and the text behind it. -/

/-- The characters in the names of fields and of named kinds. -/
def isNameChar (c : Char) : Bool :=
  c.isAlpha || c == '_'

def readName (text : List Char) : String × List Char :=
  (String.ofList (text.takeWhile isNameChar), text.dropWhile isNameChar)

/-- What stands before a closing quote, without the backslashes before quotes. -/
def readQuoted : List Char → Option (List Char × List Char)
  | [] => none
  | '"' :: text => some ([], text)
  | '\\' :: '"' :: text => (readQuoted text).map fun (name, rest) => ('"' :: name, rest)
  | c :: text => (readQuoted text).map fun (name, rest) => (c :: name, rest)

def readNamedKind (text : List Char) : Option (Kind × List Char) :=
  let (name, rest) := readName text
  (Kind.spelled? name true).map (·, rest)

/-- A named kind, or a token in quotes. -/
def readKind : List Char → Option (Kind × List Char)
  | '"' :: text => do
    let (name, rest) ← readQuoted text
    let kind ← Kind.spelled? (String.ofList name) false
    return (kind, rest)
  | text => readNamedKind text

/-- The kind of a node and whether the node is missing. -/
def readHead (text : List Char) : Option ((Kind × Bool) × List Char) :=
  let (word, rest) := readName text
  if word = "MISSING" then (readKind rest.tail).map fun (kind, rest) => ((kind, true), rest)
  else (readNamedKind text).map fun (kind, rest) => ((kind, false), rest)

/-- The field of a node, if a label stands before the parenthesis. -/
def readField : List Char → Option (Option Field × List Char)
  | '(' :: text => some (none, '(' :: text)
  | text =>
    match readName text with
    | (name, ':' :: ' ' :: rest) => (Field.ofName? name).map (some ·, rest)
    | _ => none

/-- A node whose children are read by `readChildren`. -/
def readNode (readChildren : List Char → Option (List (Option Field × Skeleton) × List Char)) :
    List Char → Option (Skeleton × List Char)
  | '(' :: text => do
    let ((kind, missing), text) ← readHead text
    match ← readChildren text with
    | (children, ')' :: rest) => return (.node kind missing children, rest)
    | _ => none
  | _ => none

/-- Children, as long as there is a space before the next one. They are at most as many and as deep as there is fuel. -/
def readChildren : Nat → List Char → Option (List (Option Field × Skeleton) × List Char)
  | 0, _ => none
  | fuel + 1, ' ' :: text => do
    let (field, text) ← readField text
    let (s, text) ← readNode (readChildren fuel) text
    let (siblings, rest) ← readChildren fuel text
    return ((field, s) :: siblings, rest)
  | _ + 1, text => some ([], text)

/-- The skeleton in an S-expression. No S-expression has more nodes than characters. -/
def read? (sexp : String) : Option Skeleton :=
  match readNode (readChildren sexp.length) sexp.toList with
  | some (s, []) => some s
  | _ => none

end Skeleton

end RenpyScript
