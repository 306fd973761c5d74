import RenpyScript.Grammar.Language
import RenpyScript.Json
import RenpyScript.Text.Point
import RenpyScript.Tree.Sexp

/-!
# Trees

A tree is a root node together with the text it was read from. The text gives points to offsets and
characters to spans.
-/

namespace RenpyScript

/-- A script and its syntax tree. -/
structure Tree where
  language : Language
  text : String
  root : Node

namespace Tree

/-- Where the physical lines of the text begin. -/
def lineTable (t : Tree) : LineTable :=
  .ofText t.text.toList

def nodeCount (t : Tree) : Nat :=
  t.root.count

end Tree

namespace Node

/-- The text that the node covers in `text`; nothing if its ends fall inside characters. -/
def textIn (n : Node) (text : List Char) : String :=
  String.ofList ((slice text n.span).getD [])

/-- The text that the node covers in any bytes: the span is cut at the end of the bytes. It declines
bytes that are not UTF-8. -/
def textInBytes? (n : Node) (source : ByteArray) : Option String :=
  let stop := min n.span.stop source.size
  let start := min n.span.start stop
  String.fromUTF8? (source.extract start stop)

def describe (n : Node) (lines : LineTable) : String :=
  "\x7bNode " ++ n.kind.name ++ " " ++ (lines.point n.span.start).render ++ " - " ++
    (lines.point n.span.stop).render ++ "\x7d"

/-- The members of a node's JSON object but for its children. -/
def jsonMembers (lines : LineTable) (field : Option Field) (kind : Kind) (span : Span)
    (missing : Bool) : List (String × Json) :=
  let point (offset : Nat) : Json :=
    let p := lines.point offset
    .obj [("column", .num p.column), ("row", .num p.row)]
  [("end_byte", .num span.stop), ("end_point", point span.stop)] ++
    (if kind = .comment then [("extra", .bool true)] else []) ++
    (field.toList.map fun f => ("field", .str f.name)) ++
    (if missing then [("missing", .bool true)] else []) ++
    [("named", .bool kind.named), ("start_byte", .num span.start),
      ("start_point", point span.start), ("type", .str kind.name)]

mutual
/-- The node and everything below it as JSON. The members are in the order of their names. -/
def toJson (lines : LineTable) : Node → Json
  | ⟨field, kind, span, missing, children⟩ =>
    let members := jsonMembers lines field kind span missing
    match children with
    | [] => .obj members
    | c :: cs => .obj (("children", .arr (c.toJson lines :: allToJson lines cs)) :: members)

def allToJson (lines : LineTable) : List Node → List Json
  | [] => []
  | n :: ns => n.toJson lines :: allToJson lines ns
end

end Node

namespace Tree

def toJson (t : Tree) : Json :=
  t.root.toJson t.lineTable

def describe (t : Tree) : String :=
  "\x7bTree " ++ t.root.describe t.lineTable ++ "\x7d"

end Tree

end RenpyScript
