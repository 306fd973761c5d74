import Mathlib.Computability.RegularExpressions
import RenpyScript.Tree.Node

/-!
# Productions

The documented shape of trees: for every kind of node, the sequences of children that it may have.
Comments may stand between any two children and are left out of the sequences.
-/

namespace RenpyScript

/-- A place in a production: the kind of a child and the field it is stored under. -/
structure Slot where
  field : Option Field
  kind : Kind
deriving DecidableEq, Repr

abbrev Production := RegularExpression Slot

namespace Production

def child (kind : Kind) : Production :=
  .char ⟨none, kind⟩

def childUnder (field : Field) (kind : Kind) : Production :=
  .char ⟨some field, kind⟩

/-- A child under no field, of one of the given kinds. -/
def childOf (kinds : List Kind) : Production :=
  (kinds.map child).sum

def keywordOf (words : List Keyword) : Production :=
  (words.map fun k => childUnder .keyword (.keyword k)).sum

def optional (p : Production) : Production :=
  1 + p

def body : Production :=
  child .colon * childUnder .body .block

def quoted (delimiter : Kind) : Production :=
  child delimiter * (childOf [.escapeSequence, .escapeInterpolation]).star * child delimiter

def argument : Production :=
  childOf [.identifier, .string, .number, .arguments]

end Production

namespace Kind

/-- What stands at the top level of a script. -/
def topItems : List Kind :=
  [.block, .header, .pythonBlock, .statement, .string, .error]

def blockItems : List Kind :=
  [.statement, .pythonInline, .pythonBlock, .block, .string, .pythonExpression, .error]

open Production in
/-- The children of a node of a kind. Tokens have none. An error is a stretch of text, or it holds the
items of a line whose indentation fits nowhere. -/
def production : Kind → Production
  | .sourceFile => (childOf topItems).star
  | .block => (childOf blockItems).star
  | .header =>
    keywordOf Keyword.headers * optional (childUnder .priority .number) *
      optional (childUnder .identifier .identifier) * optional (childUnder .args .arguments) * body
  | .pythonBlock =>
    optional (keywordOf Keyword.pythonModifiers * optional (childUnder .priority .number)) *
      child (.keyword .python) * (child .identifier).star * child .colon *
      (child .pythonExpression * (child .pythonExpression).star)
  | .pythonInline => child .dollar * child .pythonExpression
  | .statement => childOf [.controlStatement, .defineStatement, .renpyStatement]
  | .controlStatement => keywordOf Keyword.controls * child .pythonExpression * optional body
  | .defineStatement =>
    keywordOf Keyword.definitions * child .identifier * child .equals * child .pythonExpression
  | .renpyStatement =>
    keywordOf Keyword.statements * (argument.star * body + argument * argument.star)
  | .arguments =>
    child .leftParen * optional (child .identifier * (child .comma * child .identifier).star) *
      child .rightParen
  | .string =>
    Production.quoted .doubleQuote + Production.quoted .singleQuote + Production.quoted .tripleDoubleQuote +
      Production.quoted .tripleSingleQuote
  | .error => (childOf (topItems ++ blockItems)).star
  | _ => 1

/-- Kinds of nodes that have no children at all. -/
def isToken : Kind → Bool
  | .sourceFile | .block | .header | .pythonBlock | .pythonInline | .statement | .controlStatement
  | .defineStatement | .renpyStatement | .arguments | .string | .error => false
  | _ => true

/-- Kinds of nodes that may stand for something absent. -/
def mayBeMissing : Kind → Bool
  | .colon | .block | .pythonExpression | .doubleQuote | .singleQuote | .tripleDoubleQuote
  | .tripleSingleQuote => true
  | _ => false

end Kind

namespace Node

/-- The place of a node in the production of its parent. -/
def slot (n : Node) : Slot :=
  ⟨n.field, n.kind⟩

/-- The places of the nodes of a list that are not comments. -/
def slots (ns : List Node) : List Slot :=
  (ns.filter (!·.extra)).map slot

/-- The node has the children that the grammar gives to its kind. -/
structure Conforms (n : Node) : Prop where
  slots_mem : slots n.children ∈ n.kind.production.matches'
  /-- Tokens, and comments among them, have no children of any kind. -/
  token : n.kind.isToken = true → n.children = []
  missing : n.missing = true → n.children = [] ∧ n.kind.mayBeMissing = true

end Node

end RenpyScript
