import RenpyScript.Line.Quoted

/-!
# What a line says by itself

A code line is read on its own, apart from the lines around it. Its `Form` is either complete, or it
opens a block, or it opens a Python body. Each shape of a line has a reader that declines lines of
another shape; `Form.topLevel` and `Form.nested` try the readers in order. At the top level the last
resort is an error node, inside a block it is a line of dialogue and Python.
-/

namespace RenpyScript

/-- The beginning of a node that ends with a block: a header, or a statement with a body. -/
structure Owner where
  kind : Kind
  /-- The children in front of the block. -/
  head : List Node
deriving Repr

/-- What a code line says by itself. -/
inductive Form where
  | items (nodes : List Node)
  | opens (owner : Owner)
  /-- A Python block that lacks its body. -/
  | opensPython (head : List Node)
deriving Repr

namespace Owner

def headEnd (o : Owner) : Nat :=
  (o.head.getLast?.map (·.span.stop)).getD 0

/-- The node with its block. Statements are wrapped once more. -/
def close (o : Owner) (start : Nat) (block : Node) : Node :=
  let node := Node.branch o.kind (o.head ++ [block.under .body]) start
  if o.kind = .header then node else .branch .statement [node] start

end Owner

namespace Unread

/-! ## Lines that open a block, at the top level -/

/-- Reads arguments if there is an opening parenthesis; then they have to be well formed. -/
def optionalArguments? (u : Unread) : Option (List Node × Unread) :=
  if u.peek? = some '(' then u.arguments?.map fun (args, u) => ([args], u) else some ([], u)

/-- Reads the colon of a header. It may be absent at the end of a line that a deeper one follows;
then it is put in at `headEnd`. -/
def headerColon? (bodyFollows : Bool) (headEnd : Nat) (u : Unread) : Option (Node × Unread) :=
  match u.char? ':' .colon with
  | some r => some r
  | none => if u.atLineEnd && bodyFollows then some (.absent .colon headEnd, u) else none

/-- Reads a header: a keyword, then a priority, a name and arguments, each of them optional, and a
colon. -/
def header? (bodyFollows : Bool) (u : Unread) : Option Owner := do
  let (keyword, u) ← u.keyword? Keyword.isHeader
  let (priority, u) := optional number? u
  let (name, u) := optional dottedName? u
  let (args, u) ← u.optionalArguments?
  let head := keyword.under .keyword :: priority.map (·.under .priority) ++
    name.map (·.under .identifier) ++ args.map (·.under .args)
  let (colon, u) ← u.headerColon? bodyFollows (Owner.headEnd ⟨.header, head⟩)
  let comments ← u.finish?
  return ⟨.header, head ++ colon :: comments⟩

/-- Reads the modifier of a Python block and its priority, if the modifier is there. -/
def pythonModifier (u : Unread) : List Node × Unread :=
  match u.keyword? Keyword.isPythonModifier with
  | none => ([], u)
  | some (keyword, u) =>
    let (priority, u) := optional number? u
    (keyword.under .keyword :: priority.map (·.under .priority), u)

def pythonBlock? (u : Unread) : Option (List Node) := do
  let (modifier, u) := u.pythonModifier
  let (python, u) ← u.keyword? (· = .python)
  let (names, u) := many name? u
  let (colon, u) ← u.char? ':' .colon
  let comments ← u.finish?
  return modifier ++ python :: names ++ colon :: comments

/-! ## Statements -/

/-- A statement over a node, followed by the comments of its line. -/
def statementItems (node : Node) (comments : List Node) : Form :=
  .items (.branch .statement [node] node.span.start :: comments)

/-- Reads a condition, with a block if a colon ends it. -/
def controlStatement? (u : Unread) : Option Form := do
  let (keyword, u) ← u.keyword? Keyword.isControl
  let (whole, behind) ← u.expression? .pythonExpression
  let text := u.tokenText (expressionLength none) isBlank
  let comments ← behind.finish?
  if text.getLast? = some ':' then
    let condition := trimEnd isWhiteSpace text.dropLast
    if condition.isEmpty then none
    else
      let expression := Node.leaf .pythonExpression (.covering whole.span.start condition)
      let colon := Node.leaf .colon ⟨whole.span.stop - 1, whole.span.stop⟩
      return .opens ⟨.controlStatement, keyword.under .keyword :: expression :: colon :: comments⟩
  else
    return statementItems
      (.branch .controlStatement [keyword.under .keyword, whole] keyword.span.start) comments

/-- Reads an expression, or puts one in at `pos` where there is none. -/
def expressionOrAbsent (pos : Nat) (u : Unread) : Node × Unread :=
  match u.expression? .pythonExpression with
  | some r => r
  | none => (.absent .pythonExpression pos, u)

/-- Reads a definition: a keyword, a name, an equals sign and a value. -/
def defineStatement? (u : Unread) : Option Form := do
  let (keyword, u) ← u.keyword? Keyword.isDefinition
  let (name, u) ← u.dottedName?
  let (equals, u) ← u.char? '=' .equals
  let (value, u) := u.expressionOrAbsent equals.span.stop
  let comments ← u.finish?
  return statementItems
    (.branch .defineStatement [keyword.under .keyword, name, equals, value] keyword.span.start) comments

def argument? (u : Unread) : Option (Node × Unread) :=
  u.string? <|> u.arguments? <|> u.number? <|> u.name?

/-- Reads a statement with free arguments. It needs an argument, or a colon and a block. -/
def renpyStatement? (u : Unread) : Option Form := do
  let (keyword, u) ← u.keyword? Keyword.isStatement
  let (args, u) := many argument? u
  let head := keyword.under .keyword :: args
  match u.char? ':' .colon with
  | some (colon, u) =>
    let comments ← u.finish?
    return .opens ⟨.renpyStatement, head ++ colon :: comments⟩
  | none =>
    let comments ← u.finish?
    if args.isEmpty then none
    else return statementItems (.branch .renpyStatement head keyword.span.start) comments

def statement? (u : Unread) : Option Form :=
  u.controlStatement? <|> u.defineStatement? <|> u.renpyStatement?

/-! ## Lines of Python and dialogue -/

/-- Reads a dollar sign and an expression. -/
def pythonInline? (u : Unread) : Option (List Node) := do
  let (dollar, u) ← u.char? '$' .dollar
  let (expression, u) := u.expressionOrAbsent dollar.span.stop
  let comments ← u.finish?
  return .branch .pythonInline [dollar, expression] dollar.span.start :: comments

/-- Reads strings and nothing else. -/
def strings? (u : Unread) : Option (List Node) :=
  let (strings, u) := many string? u
  if strings.isEmpty then none else u.finish?.map (strings ++ ·)

/-- Reads an expression, or a comment behind one, as nodes of the given kind and comments. -/
def expressionPiece? (kind : Kind) (u : Unread) : Option (Node × Unread) :=
  u.expression? kind <|> u.comment?

/-- The expressions and comments of a line in turn. -/
def expressionPieces (kind : Kind) (u : Unread) : List Node :=
  (many (expressionPiece? kind) u).1

/-- Reads a piece of a line of dialogue and Python. -/
def dialoguePiece? (u : Unread) : Option (Node × Unread) :=
  match u.peek? with
  | none => none
  | some '#' => u.comment?
  | some '"' => u.string?
  | some '\\' => u.char? '\\' .error
  | some _ => u.pythonRun?

def singleQuoted? (u : Unread) : Option (Node × Unread) :=
  if u.peek? = some '\'' then u.string? else none

/-- The pieces of a line of dialogue and Python. Single quotes delimit a string only at its
beginning. -/
def dialogue (u : Unread) : List Node :=
  let (first, u) := optional singleQuoted? u
  first ++ (many dialoguePiece? u).1

end Unread

namespace Form

def topLevel (bodyFollows : Bool) (u : Unread) : Form :=
  ((u.pythonBlock?.map Form.opensPython) <|> ((u.header? bodyFollows).map Form.opens) <|> u.statement? <|>
    (u.strings?.map Form.items)).getD (.items (u.expressionPieces .error))

def nested (u : Unread) : Form :=
  ((u.pythonBlock?.map Form.opensPython) <|> (u.pythonInline?.map Form.items) <|> u.statement?).getD
    (.items u.dialogue)

end Form

end RenpyScript
