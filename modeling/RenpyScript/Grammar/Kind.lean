import RenpyScript.Grammar.Keyword

/-!
# Node kinds and fields

Every node of a tree has a `Kind`: a rule of the grammar, or a token with a fixed spelling. The
kinds are numbered by their place in `Kind.all`. A child may be stored under a `Field` of its
parent.
-/

namespace RenpyScript

/-- What a node is. -/
inductive Kind where
  | endOfInput
  | identifier
  | comment
  | number
  | escapeSequence
  | escapeInterpolation
  | pythonExpression
  | newline
  | indent
  | dedent
  | colon
  | leftParen
  | rightParen
  | comma
  | equals
  | dollar
  | doubleQuote
  | singleQuote
  | tripleDoubleQuote
  | tripleSingleQuote
  | keyword (word : Keyword)
  | sourceFile
  | block
  | string
  | header
  | pythonInline
  | pythonBlock
  | arguments
  | statement
  | renpyStatement
  | controlStatement
  | defineStatement
  | error
deriving DecidableEq, Repr

namespace Kind

def all : List Kind :=
  [.endOfInput, .identifier, .comment, .number, .escapeSequence, .escapeInterpolation,
    .pythonExpression, .newline, .indent, .dedent, .colon, .leftParen, .rightParen, .comma, .equals,
    .dollar, .doubleQuote, .singleQuote, .tripleDoubleQuote, .tripleSingleQuote] ++
  Keyword.all.map .keyword ++
  [.sourceFile, .block, .string, .header, .pythonInline, .pythonBlock, .arguments, .statement,
    .renpyStatement, .controlStatement, .defineStatement, .error]

def name : Kind → String
  | .endOfInput => "end"
  | .identifier => "identifier"
  | .comment => "comment"
  | .number => "number"
  | .escapeSequence => "escape_sequence"
  | .escapeInterpolation => "escape_interpolation"
  | .pythonExpression => "python_expression"
  | .newline => "_newline"
  | .indent => "_indent"
  | .dedent => "_dedent"
  | .colon => ":"
  | .leftParen => "("
  | .rightParen => ")"
  | .comma => ","
  | .equals => "="
  | .dollar => "$"
  | .doubleQuote => "\""
  | .singleQuote => "'"
  | .tripleDoubleQuote => "\"\"\""
  | .tripleSingleQuote => "'''"
  | .keyword k => k.word
  | .sourceFile => "source_file"
  | .block => "block"
  | .string => "string"
  | .header => "header"
  | .pythonInline => "python_inline"
  | .pythonBlock => "python_block"
  | .arguments => "arguments"
  | .statement => "statement"
  | .renpyStatement => "renpy_statement"
  | .controlStatement => "control_statement"
  | .defineStatement => "define_statement"
  | .error => "ERROR"

/-- Named kinds are rules of the grammar; the others are tokens with a fixed spelling. -/
def named : Kind → Bool
  | .endOfInput | .colon | .leftParen | .rightParen | .comma | .equals | .dollar | .doubleQuote
  | .singleQuote | .tripleDoubleQuote | .tripleSingleQuote | .keyword _ => false
  | _ => true

/-- Hidden kinds mark layout and the end of the text; no tree holds them. -/
def visible : Kind → Bool
  | .endOfInput | .newline | .indent | .dedent => false
  | _ => true

def id (k : Kind) : Nat :=
  all.idxOf k

def ofId? (n : Nat) : Option Kind :=
  all[n]?

/-- The first visible kind with a given name. A rule and a token may share a spelling; `named`
tells them apart. -/
def ofName? (name : String) (named : Bool) : Option Kind :=
  all.find? fun k => k.visible && k.named == named && k.name == name

end Kind

/-- The role of a child in its parent. -/
inductive Field where
  | args
  | body
  | identifier
  | keyword
  | priority
deriving DecidableEq, Repr

namespace Field

/-- Every field, in the order of their numbers, which begin at one. -/
def all : List Field :=
  [.args, .body, .identifier, .keyword, .priority]

/-- The name of a field in trees and queries. -/
def name : Field → String
  | .args => "args"
  | .body => "body"
  | .identifier => "identifier"
  | .keyword => "keyword"
  | .priority => "priority"

def id (f : Field) : Nat :=
  all.idxOf f + 1

def ofId? : Nat → Option Field
  | 0 => none
  | n + 1 => all[n]?

def ofName? (name : String) : Option Field :=
  all.find? (·.name = name)

end Field

end RenpyScript
