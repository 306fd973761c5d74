import RenpyScript.Checked.Descent

/-!
# Alternatives for a line

A line of code is tried against several readers, each of which works on the whole state of the parse and on the
list that the nodes of the line are added to. A reader that declines leaves both as it has changed them. What is
taken back then is only what has been built since and what has been added to the list: the line that the parse has
come to, the indent stack and the flags are as the reader has left them.
-/

namespace RenpyScript

/-- What an alternative for a line works on. -/
structure Trial where
  lexer : Lexer
  state : ParseState
  /-- Where the nodes of the line are added. -/
  out : List Child
deriving Repr

namespace Trial

/-- The lexer at the beginning of a line, for a state and a list of nodes. -/
def start (line : ByteLine) (state : ParseState) (out : List Child) : Trial :=
  ⟨⟨state.builder.text, line.start, line.stop⟩, state, out⟩

/-- What readers of a line work on. -/
def reading (s : Trial) : Reading :=
  ⟨s.lexer, s.state.builder⟩

def goOn (s : Trial) (t : Reading) : Trial :=
  { s with lexer := t.lexer, state := { s.state with builder := t.builder } }

def add (s : Trial) (cs : List Child) : Trial :=
  { s with out := s.out ++ cs }

/-- A trial that has failed, without the nodes built since `s` and those added to the list, and with the lexer of
`s` anew. -/
def rollback (t s : Trial) : Trial :=
  { lexer := s.lexer
    state := { t.state with builder := t.state.builder.rollback s.state.builder.checkpoint }
    out := t.out.take s.out.length }

end Trial

/-- A dollar sign and an expression as a node. -/
def LineReader.inlineNode : LineReader Child := do
  let start ← required (lexing (Lexer.eat '$'.toUInt8))
  let dollar ← leaf .dollar ⟨start, start + 1⟩
  let expression ← expressionOrMissing (start + 1)
  node .pythonInline [dollar, expression] start

/-- An alternative for a line. If it declines, what it has changed stays changed. -/
abbrev LineParser := OptionT (StateT Trial Option)

namespace LineParser

/-- A reader that moves along the line and builds nodes. -/
def reads {α : Type} (r : LineReader α) : LineParser α := fun s => do
  let (a, t) ← r s.reading
  return (a, s.goOn t)

def parses {α : Type} (f : ParseState → Option (α × ParseState)) : LineParser α := fun s => do
  let (a, state) ← f s.state
  return (some a, { s with state })

def emit (cs : List Child) : LineParser Unit := fun s =>
  some (some (), s.add cs)

/-- Tries an alternative, and takes back what it has built and added if it declines. -/
def attempt (p : LineParser Unit) : LineParser Unit := fun s => do
  match ← p s with
  | (some (), t) => return (some (), t)
  | (none, t) => return (none, t.rollback s)

def firstOf (ps : List (LineParser Unit)) : LineParser Unit :=
  ps.foldr (fun p rest => attempt p <|> rest) failure

/-- Adds comments to the end of the line to the list; declines if anything else is there. -/
def finishLine : LineParser Unit := do
  let comments ← reads (LineReader.whileSome LineReader.comment)
  emit comments
  let next ← reads (LineReader.lexing Lexer.peek)
  if next = none then return () else failure

section
variable (lines : List ByteLine) (opened : List Nat) (line : ByteLine)

/-- Goes on behind what a line says by itself: reads the block that it opens, and adds the nodes to the list. -/
def complete : LineForm → LineParser Unit
  | .items children => emit children
  | .opensPython children => do
    let node ← parses (Descent.pythonBlock lines opened line children)
    emit [node]
  | .opens kind children colonEnd => do
    let (children, block) ← parses fun s => do
      let (children, block, t) ← Descent.body lines opened line children colonEnd s
      return ((children, block), t)
    let node ← parses (·.build (TreeBuilder.node kind (children ++ [⟨block.index, some .body⟩]) line.start))
    if kind = .header then emit [node]
    else
      let statement ← parses (·.build (TreeBuilder.node .statement [node] line.start))
      emit [statement]

def pythonBlock : LineParser Unit := do
  let form ← reads LineReader.pythonBlock
  complete lines opened line form

def header : LineParser Unit := do
  let next ← parses fun s => do
    let next ← Descent.nextIndent lines s.pos
    return (next, s)
  let form ← reads (LineReader.header (next.any (line.indent < ·)))
  complete lines opened line form

/-- The node of the line is added to the list before the rest of the line is looked at. -/
def pythonInline : LineParser Unit := do
  let inline ← reads LineReader.inlineNode
  emit [inline]
  finishLine

/-- A statement of one class of keywords, which opens a block or is complete. -/
def candidate (inClass : Keyword → Bool) (reader : LineReader LineForm) : LineParser Unit := do
  let form ← reads (LineReader.candidate inClass reader)
  complete lines opened line form

def controlStatement : LineParser Unit :=
  candidate lines opened line Keyword.isControl (LineReader.controlStatement line.start)

def defineStatement : LineParser Unit :=
  candidate lines opened line Keyword.isDefinition (LineReader.defineStatement line.start)

def renpyStatement : LineParser Unit :=
  candidate lines opened line Keyword.isStatement (LineReader.renpyStatement line.start)

/-- The statements by the classes of their keywords. -/
def candidates : List (LineParser Unit) :=
  [controlStatement lines opened line, defineStatement lines opened line, renpyStatement lines opened line]

def statement : LineParser Unit :=
  firstOf (candidates lines opened line)

/-- The strings of the line are added to the list before the rest of the line is looked at. -/
def stringLine : LineParser Unit := do
  let strings ← reads (LineReader.whileSome LineReader.stringIfAny)
  emit strings
  if strings.isEmpty then failure else finishLine

def errorLine : LineParser Unit := do
  let form ← reads LineReader.errorLine
  complete lines opened line form

def blockLine : LineParser Unit := do
  let form ← reads LineReader.blockLine
  complete lines opened line form

/-- The alternatives for a line at the top level or inside a block, in order. -/
def alternatives (topLevel : Bool) : List (LineParser Unit) :=
  if topLevel then
    [pythonBlock lines opened line, header lines opened line, statement lines opened line, stringLine,
      errorLine lines opened line]
  else
    [pythonBlock lines opened line, pythonInline, statement lines opened line, blockLine lines opened line]

def everyAlternative : List (LineParser Unit) :=
  [pythonBlock lines opened line, header lines opened line, pythonInline, statement lines opened line, stringLine,
    errorLine lines opened line, blockLine lines opened line] ++ candidates lines opened line

end

end LineParser

end RenpyScript
