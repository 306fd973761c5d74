import RenpyScript.Grammar.Kind
import RenpyScript.Json

/-!
# Node types

What a host can expect of each visible kind: the fields and children of a rule, or nothing for a
token. `nodeTypes` lists the entries by name, rules before tokens of the same spelling.
-/

namespace RenpyScript

/-- The children that a rule, or one of its fields, may hold. -/
structure ChildTypes where
  multiple : Bool
  required : Bool
  kinds : List Kind
deriving Repr

/-- The description of one kind. -/
structure NodeType where
  kind : Kind
  /-- The fields of a rule; a token has no such list. -/
  fields : Option (List (Field × ChildTypes))
  children : Option ChildTypes
deriving Repr

namespace NodeType

def leaf (kind : Kind) : NodeType :=
  ⟨kind, none, none⟩

def rules : List NodeType :=
  [ ⟨.arguments, some [], some ⟨true, false, [.identifier]⟩⟩,
    ⟨.block, some [],
      some ⟨true, true, [.block, .pythonBlock, .pythonExpression, .pythonInline, .statement, .string]⟩⟩,
    ⟨.controlStatement,
      some [(.body, ⟨false, false, [.block]⟩),
        (.keyword, ⟨false, true, Keyword.controls.map .keyword⟩)],
      some ⟨false, true, [.pythonExpression]⟩⟩,
    ⟨.defineStatement,
      some [(.keyword, ⟨false, true, Keyword.definitions.map .keyword⟩)],
      some ⟨true, true, [.identifier, .pythonExpression]⟩⟩,
    ⟨.header,
      some [(.args, ⟨false, false, [.arguments]⟩),
        (.body, ⟨false, true, [.block]⟩),
        (.identifier, ⟨false, false, [.identifier]⟩),
        (.keyword, ⟨false, true, Keyword.headers.map .keyword⟩),
        (.priority, ⟨false, false, [.number]⟩)],
      none⟩,
    ⟨.pythonBlock,
      some [(.keyword, ⟨false, false, Keyword.pythonModifiers.map .keyword⟩),
        (.priority, ⟨false, false, [.number]⟩)],
      some ⟨true, true, [.identifier, .pythonExpression]⟩⟩,
    ⟨.pythonInline, some [], some ⟨false, true, [.pythonExpression]⟩⟩,
    ⟨.renpyStatement,
      some [(.body, ⟨false, false, [.block]⟩),
        (.keyword, ⟨false, true, Keyword.statements.map .keyword⟩)],
      some ⟨true, false, [.arguments, .identifier, .number, .string]⟩⟩,
    ⟨.sourceFile, some [],
      some ⟨true, false,
        [.block, .comment, .header, .pythonBlock, .pythonInline, .statement, .string]⟩⟩,
    ⟨.statement, some [],
      some ⟨false, true, [.controlStatement, .defineStatement, .renpyStatement]⟩⟩,
    ⟨.string, some [], some ⟨true, false, [.escapeInterpolation, .escapeSequence]⟩⟩ ]

/-- Kinds that are named but have no children. -/
def namedLeaves : List NodeType :=
  [.comment, .escapeInterpolation, .escapeSequence, .identifier, .number, .pythonExpression].map leaf

def tokens : List NodeType :=
  (Kind.all.filter fun k => k.visible && !k.named).map leaf

/-- Entries are ordered by name, and a rule comes before a token of the same spelling. -/
def precedes (a b : NodeType) : Bool :=
  a.kind.name < b.kind.name || (a.kind.name == b.kind.name && (a.kind.named || !b.kind.named))

end NodeType

/-- The description of every visible kind. -/
def nodeTypes : List NodeType :=
  (NodeType.rules ++ NodeType.namedLeaves ++ NodeType.tokens).mergeSort NodeType.precedes

def Kind.typeJson (k : Kind) : Json :=
  .obj [("named", .bool k.named), ("type", .str k.name)]

/-- The JSON form of the children of a rule or field. -/
def ChildTypes.toJson (c : ChildTypes) : Json :=
  .obj [("multiple", .bool c.multiple), ("required", .bool c.required),
    ("types", .arr (c.kinds.map Kind.typeJson))]

def NodeType.toJson (t : NodeType) : Json :=
  let children := t.children.toList.map fun c => ("children", c.toJson)
  let fields := t.fields.toList.map fun fs => ("fields", Json.obj (fs.map fun f => (f.1.name, f.2.toJson)))
  .obj (children ++ fields ++ [("named", .bool t.kind.named), ("type", .str t.kind.name)])

def nodeTypesJson : Json :=
  .arr (nodeTypes.map NodeType.toJson)

end RenpyScript
