import RenpyScript.Checked.Line

/-!
# Forms of lines step by step

The readers of whole lines. `topLevel` and `nested` try them in order, and what a reader that declines has
built is taken back. As with `Form`, a line is complete, or it opens a block, or it opens a Python body.
-/

namespace RenpyScript

/-- What a line says by itself, as nodes that have been built. -/
inductive LineForm where
  | items (children : List Child)
  /-- A node of the given kind that lacks its block; the colon ends at `colonEnd`. -/
  | opens (kind : Kind) (children : List Child) (colonEnd : Nat)
  | opensPython (children : List Child)
deriving Repr

namespace LineReader

/-! ## Lines that open a block, at the top level -/

/-- The colon of a header, which may be absent if a body follows; then it is put in behind the last child. -/
def headerColon (bodyFollows : Bool) (children : List Child) : LineReader Child := do
  match ← char ':' .colon with
  | some colon => return colon
  | none =>
    let ends ← lexing Lexer.atLineEnd
    if ends && bodyFollows then
      let last ← lift children.getLast?
      let offset ← endOf last
      missing .colon offset
    else failure

def headerArguments : LineReader (List Child) := do
  let next ← lexing Lexer.peek
  if next = some '('.toUInt8 then
    let args ← arguments
    return [⟨args.index, some .args⟩]
  else return []

def underField (field : Field) (step : LineReader (Option Child)) : LineReader (List Child) := do
  let child ← step
  return child.toList.map fun c => ⟨c.index, some field⟩

def header (bodyFollows : Bool) : LineReader LineForm := do
  if ← peekKeyword Keyword.isHeader then
    let keyword ← keyword
    let priority ← underField .priority (token .number Lexer.number)
    let name ← underField .identifier (token .identifier Lexer.dottedIdentifier)
    let args ← headerArguments
    let children := ⟨keyword.index, some .keyword⟩ :: priority ++ name ++ args
    let colon ← headerColon bodyFollows children
    let comments ← finishLine
    let colonEnd ← endOf colon
    return .opens .header (children ++ colon :: comments) colonEnd
  else failure

/-- The modifier of a Python block and its priority, if the modifier is there. -/
def pythonModifier : LineReader (List Child) := do
  if ← peekKeyword Keyword.isPythonModifier then
    let keyword ← keyword
    let priority ← underField .priority (token .number Lexer.number)
    return ⟨keyword.index, some .keyword⟩ :: priority
  else return []

def pythonBlock : LineReader LineForm := do
  let modifier ← pythonModifier
  let python ← required (token (.keyword .python) (Lexer.keyword "python"))
  let names ← whileSome (token .identifier Lexer.identifier)
  let colon ← required (char ':' .colon)
  let comments ← finishLine
  return .opensPython (modifier ++ python :: names ++ colon :: comments)

/-! ## Statements -/

/-- A statement over a node, in front of the comments of its line. -/
def statementItems (start : Nat) (child : Child) (comments : List Child) : LineReader LineForm := do
  let statement ← node .statement [child] start
  return .items (statement :: comments)

def controlStatement (start : Nat) : LineReader LineForm := do
  let keyword ← keyword
  let whole ← required (lexing Lexer.restOfLine)
  let x ← lexer
  let text ← lift (slice x.text whole)
  if text.getLast? = some ':' then
    let condition := trimEnd isWhiteSpace text.dropLast
    if condition.isEmpty then failure
    else
      let expression ← leaf .pythonExpression (.covering whole.start condition)
      let before ← lift (checkedSub whole.stop 1)
      let colon ← leaf .colon ⟨before, whole.stop⟩
      let comments ← finishLine
      return .opens .controlStatement (⟨keyword.index, some .keyword⟩ :: expression :: colon :: comments) whole.stop
  else
    let expression ← leaf .pythonExpression whole
    let comments ← finishLine
    let control ← node .controlStatement [⟨keyword.index, some .keyword⟩, expression] start
    statementItems start control comments

def expressionOrMissing (offset : Nat) : LineReader Child := do
  match ← token .pythonExpression Lexer.restOfLine with
  | some expression => return expression
  | none => missing .pythonExpression offset

def defineStatement (start : Nat) : LineReader LineForm := do
  let keyword ← keyword
  let name ← required (lexing Lexer.dottedIdentifier)
  let equals ← required (lexing (Lexer.eat '='.toUInt8))
  let name ← leaf .identifier name
  let sign ← leaf .equals ⟨equals, equals + 1⟩
  let value ← expressionOrMissing (equals + 1)
  let comments ← finishLine
  let define ← node .defineStatement [⟨keyword.index, some .keyword⟩, name, sign, value] start
  statementItems start define comments

/-- So many arguments of a statement at the most, and the colon behind them, if there is one. -/
def statementArgumentsUpTo : Nat → LineReader (List Child × Option Child)
  | 0 => lift none
  | n + 1 => do
    match ← lexing Lexer.peek with
    | none => return ([], none)
    | some b =>
      if b = '#'.toUInt8 then return ([], none)
      else if b = ':'.toUInt8 then
        let colon ← char ':' .colon
        return ([], colon)
      else
        let argument ←
          if b = '"'.toUInt8 ∨ b = '\''.toUInt8 then string
          else if b = '('.toUInt8 then arguments
          else if ('0'.toUInt8 ≤ b ∧ b ≤ '9'.toUInt8) ∨ b = '+'.toUInt8 ∨ b = '-'.toUInt8 then
            required (token .number Lexer.number)
          else required (token .identifier Lexer.identifier)
        let (more, colon) ← statementArgumentsUpTo n
        return (argument :: more, colon)

/-- The arguments of a statement, and the colon behind them, if there is one. -/
def statementArguments : LineReader (List Child × Option Child) := do
  statementArgumentsUpTo (← turns)

def renpyStatement (start : Nat) : LineReader LineForm := do
  let keyword ← keyword
  let (args, colon) ← statementArguments
  let children := ⟨keyword.index, some .keyword⟩ :: args
  match colon with
  | some colon =>
    let comments ← finishLine
    let colonEnd ← endOf colon
    return .opens .renpyStatement (children ++ colon :: comments) colonEnd
  | none =>
    if args.isEmpty then failure
    else
      let comments ← finishLine
      let statement ← node .renpyStatement children start
      statementItems start statement comments

def candidate (inClass : Keyword → Bool) (reader : LineReader LineForm) : LineReader LineForm := do
  if ← peekKeyword inClass then reader else failure

def statement (start : Nat) : LineReader LineForm :=
  attempt (candidate Keyword.isControl (controlStatement start))
    (attempt (candidate Keyword.isDefinition (defineStatement start))
      (candidate Keyword.isStatement (renpyStatement start)))

/-! ## Lines of Python and dialogue -/

/-- A dollar sign and an expression. -/
def pythonInline : LineReader LineForm := do
  let start ← required (lexing (Lexer.eat '$'.toUInt8))
  let dollar ← leaf .dollar ⟨start, start + 1⟩
  let expression ← expressionOrMissing (start + 1)
  let inline ← node .pythonInline [dollar, expression] start
  let comments ← finishLine
  return .items (inline :: comments)

def stringIfAny : LineReader (Option Child) := do
  let next ← lexing Lexer.peek
  if next = some '"'.toUInt8 ∨ next = some '\''.toUInt8 then
    let s ← string
    return some s
  else return none

def stringLine : LineReader LineForm := do
  let strings ← whileSome stringIfAny
  if strings.isEmpty then failure
  else
    let comments ← finishLine
    return .items (strings ++ comments)

/-- The expressions of a line, as nodes of the given kind, and its comments, in so many turns at the most. -/
def expressionsUpTo (kind : Kind) : Nat → LineReader (List Child)
  | 0 => lift none
  | n + 1 => do
    let expression ← token kind Lexer.restOfLine
    match ← comment with
    | none => return expression.toList
    | some c =>
      let more ← expressionsUpTo kind n
      return expression.toList ++ c :: more

/-- The expressions of a line, as nodes of the given kind, and its comments. -/
def expressions (kind : Kind) : LineReader (List Child) := do
  expressionsUpTo kind (← turns)

def errorLine : LineReader LineForm := do
  let children ← expressions .error
  return .items children

/-- The nodes of the next piece of dialogue; nothing at the end of the line. -/
def dialoguePiece : LineReader (Option (List Child)) := do
  match ← lexing Lexer.peek with
  | none => return none
  | some b =>
    if b = '#'.toUInt8 then
      let c ← comment
      return some c.toList
    else if b = '"'.toUInt8 then
      let s ← string
      return some [s]
    else if b = '\\'.toUInt8 then
      let x ← lexer
      lexing fun x => some ((), x.setPos (x.pos + 1))
      let error ← leaf .error ⟨x.pos, x.pos + 1⟩
      return some [error]
    else
      let run ← token .pythonExpression Lexer.pythonRun
      return some run.toList

def blockLine : LineReader LineForm := do
  let next ← lexing Lexer.peek
  let first ← if next = some '\''.toUInt8 then List.singleton <$> string else pure []
  let pieces ← whileSome dialoguePiece
  return .items (first ++ pieces.flatten)

/-! ## Any line -/

def topLevel (bodyFollows : Bool) (start : Nat) : LineReader LineForm :=
  attempt pythonBlock (attempt (header bodyFollows) (attempt (statement start) (attempt stringLine errorLine)))

def nested (start : Nat) : LineReader LineForm :=
  attempt pythonBlock (attempt pythonInline (attempt (statement start) blockLine))

end LineReader

end RenpyScript
