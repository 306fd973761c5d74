import RenpyScript.Checked.Arena
import RenpyScript.Tree.Basic

/-!
# Rendering by index

The S-expression of a node is written behind what has been written before, with a space between the two. The JSON
object of a node is given its members one by one, and keeps them in the order of their names. An index without an
entry has no value, and neither has a node with a child that does not come before it.
-/

namespace RenpyScript

namespace Json

/-- Whether a name comes before another one, by the first character that they differ in. -/
def nameBefore : List Char → List Char → Bool
  | _, [] => false
  | [], _ :: _ => true
  | c :: cs, d :: ds => c.toNat < d.toNat || c = d && nameBefore cs ds

/-- Sets a member of an object whose members are in the order of their names. -/
def setMember (name : String) (v : Json) : List (String × Json) → List (String × Json)
  | [] => [(name, v)]
  | (n, w) :: members =>
    if nameBefore name.toList n.toList then (name, v) :: (n, w) :: members
    else if name = n then (name, v) :: members
    else (n, w) :: setMember name v members

def ofMembers (members : List (String × Json)) : Json :=
  .obj (members.foldl (fun object m => setMember m.1 m.2 object) [])

/-- What is set in the JSON object of a node about its children. -/
def childMembers (below : List Json) : List (String × Json) :=
  if below.isEmpty then [] else [("children", .arr below)]

end Json

def Point.toJson (p : Point) : Json :=
  .ofMembers [("row", .num p.row), ("column", .num p.column)]

/-- What is set in the JSON object of a node apart from its children. -/
def Entry.members (e : Entry) : List (String × Json) :=
  [("type", .str e.kind.name), ("named", .bool e.kind.named)] ++
    (e.field.toList.map fun f => ("field", .str f.name)) ++
    [("start_byte", .num e.span.start), ("end_byte", .num e.span.stop), ("start_point", e.startPoint.toJson),
      ("end_point", e.stopPoint.toJson)] ++
    (if e.missing then [("missing", .bool true)] else []) ++
    (if e.extra then [("extra", .bool true)] else [])

/-- What has been written, with a space behind it unless it is empty. -/
def spaced (out : String) : String :=
  if out.isEmpty then out else out ++ " "

namespace Arena
variable (a : Arena)

/-- Writes a node under a field behind what has been written. -/
def write? (out : String) (field : Option Field) (i : Nat) : Option String := do
  let e ← a.nodes[i]?
  let out := spaced out ++ Node.fieldLabel field
  if e.missing then return out ++ Node.missingSexp e.kind
  else
    let out ← e.children.foldlM (fun out c => do
      let child ← a.nodes[c]?
      if child.kind.named || child.missing then
        if _h : c < i then write? out child.field c else none
      else return out) (out ++ "(" ++ e.kind.name)
    return out ++ ")"
termination_by i

/-- The S-expression of a node. -/
def sexp? (i : Nat) : Option String :=
  a.write? "" none i

def json? (i : Nat) : Option Json := do
  let e ← a.nodes[i]?
  let below ← e.children.mapM fun c => if _h : c < i then json? c else none
  return .ofMembers (e.members ++ Json.childMembers below)
termination_by i

end Arena

end RenpyScript
