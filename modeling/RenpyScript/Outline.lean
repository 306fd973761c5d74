import RenpyScript.Layout.IndentStack
import RenpyScript.Line.Form

/-!
# Outlines

An `Outline` is a document whose last lines have been read but whose blocks are still open. Lines
are added one at a time; what they say by themselves is their `Form`, and the outline decides which
block they belong to. The `IndentStack` holds the widths of the open blocks, and every open block is
a `Frame`, so that a dedent that closes several levels closes as many frames.

A line is misaligned if its indentation lies between two open levels. It stays in the innermost
block that is left, inside an error node.
-/

namespace RenpyScript

def nextCodeIndent? (lines : List LogicalLine) : Option Nat :=
  (lines.find? (·.kind = .code)).map (·.indent)

/-- Whether the next code line is indented deeper than `width`. -/
def deeperFollows (width : Nat) (lines : List LogicalLine) : Bool :=
  (nextCodeIndent? lines).any (width < ·)

/-- Puts the items of a misaligned line into an error node, unless they are one already. -/
def settle (misaligned : Bool) (start : Nat) (items : List Node) : List Node :=
  if misaligned then
    match items with
    | [n] => if n.isError then [n] else [.branch .error [n] start]
    | ns => [.branch .error ns start]
  else items

def LogicalLine.commentNode (l : LogicalLine) : Node :=
  .leaf .comment l.span

/-- A line that waits for its block. -/
structure Opening where
  owner : Owner
  /-- Offset of the line's content. -/
  start : Nat
  misaligned : Bool
deriving Repr

namespace Opening

/-- The items of the line once its block is complete. -/
def close (o : Opening) (block : Node) : List Node :=
  settle o.misaligned o.start [o.owner.close o.start block]

/-- The items of the line if it has no block: one is put in where the line ends. -/
def closeWithout (o : Opening) : List Node :=
  o.close (.absent .block o.owner.headEnd)

/-- Adds a comment between the line and its block. -/
def addComment (o : Opening) (comment : Node) : Opening :=
  { o with owner := { o.owner with head := o.owner.head ++ [comment] } }

end Opening

/-- A Python block whose body is being read. -/
structure PythonBody where
  children : List Node
  /-- Whether a line of Python has been read. -/
  hasCode : Bool
  indent : Nat
  start : Nat
  misaligned : Bool
deriving Repr

namespace PythonBody

/-- Whether a line belongs to the body; `rest` are the lines behind it. -/
def holds (p : PythonBody) (line : LogicalLine) (rest : List LogicalLine) : Bool :=
  match line.kind with
  | .blank => true
  | .comment => p.indent < line.indent || deeperFollows p.indent rest
  | .code => p.indent < line.indent

def add (p : PythonBody) (line : LogicalLine) : PythonBody :=
  match line.kind with
  | .blank => p
  | .comment => { p with children := p.children ++ [line.commentNode] }
  | .code =>
    let pieces := line.unread.expressionPieces .pythonExpression
    { p with
      children := p.children ++ pieces
      hasCode := p.hasCode || pieces.any (·.kind = .pythonExpression) }

def childrenEnd (p : PythonBody) : Nat :=
  (p.children.getLast?.map (·.span.stop)).getD 0

/-- The items of the Python block. A body without code gets a missing expression. -/
def close (p : PythonBody) : List Node :=
  let children :=
    if p.hasCode then p.children else p.children ++ [.absent .pythonExpression p.childrenEnd]
  settle p.misaligned p.start [.branch .pythonBlock children p.start]

end PythonBody

/-- An open block. -/
structure Frame where
  level : Nat
  /-- Offset of its first line's content. -/
  start : Nat
  items : List Node
  /-- The line the block belongs to; a block may also stand by itself. -/
  opening : Option Opening
deriving Repr

def Frame.close (f : Frame) : List Node :=
  let block := Node.branch .block f.items f.start
  match f.opening with
  | none => [block]
  | some o => o.close block

/-- What the last line read is waiting for. -/
inductive Awaiting where
  | nothing
  | block (opening : Opening)
  | python (body : PythonBody)
deriving Repr

/-- A document under construction. -/
structure Outline where
  indents : IndentStack
  /-- Open blocks, the innermost first. -/
  frames : List Frame
  /-- Finished items at the top level. -/
  items : List Node
  awaiting : Awaiting
  /-- Whether the next code line is misaligned. -/
  misaligned : Bool
deriving Repr

namespace Outline

/-- The outline before the first line. -/
def empty : Outline :=
  ⟨.empty, [], [], .nothing, false⟩

/-- Adds items to the innermost open block. -/
def add (o : Outline) (items : List Node) : Outline :=
  match o.frames with
  | [] => { o with items := o.items ++ items }
  | f :: fs => { o with frames := { f with items := f.items ++ items } :: fs }

def closeFrame (o : Outline) : Outline :=
  match o.frames with
  | [] => o
  | f :: fs => { o with frames := fs }.add f.close

/-- Closes `n` blocks. -/
def closeFrames : Nat → Outline → Outline
  | 0, o => o
  | n + 1, o => closeFrames n o.closeFrame

/-- Closes every block deeper than `width`. -/
def dedent (o : Outline) (width : Nat) : Outline :=
  let (outcome, indents) := o.indents.dedentTo width
  closeFrames outcome.closed
    { o with indents, misaligned := o.misaligned || outcome.isInconsistent }

/-- Opens a block whose first line is `line`. -/
def openFrame (o : Outline) (line : LogicalLine) (opening : Option Opening) : Outline :=
  { o with
    indents := o.indents.push line.indent
    frames := ⟨line.indent, line.start, [], opening⟩ :: o.frames }

/-- Adds a comment line. It stays in the innermost block if it, or the next code line, is indented as
far as that block; otherwise the blocks that the next code line closes are closed first. -/
def addComment (o : Outline) (line : LogicalLine) (rest : List LogicalLine) : Outline :=
  let next := nextCodeIndent? rest
  let closes :=
    match o.frames with
    | [] => false
    | f :: _ => line.indent < f.level && !next.any (f.level ≤ ·)
  (if closes then o.dedent (next.getD 0) else o).add [line.commentNode]

/-- Adds a code line to the innermost block. -/
def addItem (o : Outline) (line : LogicalLine) (rest : List LogicalLine) : Outline :=
  let misaligned := o.misaligned
  let o := { o with misaligned := false }
  let bodyFollows := deeperFollows line.indent rest
  let form := if o.frames.isEmpty then Form.topLevel bodyFollows line.unread else .nested line.unread
  match form with
  | .items nodes => o.add (settle misaligned line.start nodes)
  | .opens owner =>
    let opening : Opening := ⟨owner, line.start, misaligned⟩
    if bodyFollows then { o with awaiting := .block opening } else o.add opening.closeWithout
  | .opensPython head =>
    { o with awaiting := .python ⟨head, false, line.indent, line.start, misaligned⟩ }

/-- Indentation of the innermost open block. -/
def level (o : Outline) : Nat :=
  (o.frames.head?.map (·.level)).getD 0

/-- Adds a code line: closes the blocks it is not part of, or opens one if it is deeper. -/
def addCode (o : Outline) (line : LogicalLine) (rest : List LogicalLine) : Outline :=
  let o := if line.indent < o.level then o.dedent line.indent else o
  let o := if o.level < line.indent && !o.misaligned then o.openFrame line none else o
  o.addItem line rest

/-- Adds a line that nothing waits for. -/
def place (o : Outline) (line : LogicalLine) (rest : List LogicalLine) : Outline :=
  match line.kind with
  | .blank => o
  | .comment => o.addComment line rest
  | .code => o.addCode line rest

/-- Adds a line; `rest` are the lines behind it. -/
def step (o : Outline) (line : LogicalLine) (rest : List LogicalLine) : Outline :=
  match o.awaiting with
  | .nothing => o.place line rest
  | .block opening =>
    match line.kind with
    | .blank => o
    | .comment => { o with awaiting := .block (opening.addComment line.commentNode) }
    | .code => ({ o with awaiting := .nothing }.openFrame line (some opening)).addItem line rest
  | .python body =>
    if body.holds line rest then { o with awaiting := .python (body.add line) }
    else ({ o with awaiting := .nothing }.add body.close).place line rest

def run : Outline → List LogicalLine → Outline
  | o, [] => o
  | o, line :: rest => (o.step line rest).run rest

/-- Ends what the last line is waiting for. -/
def endAwaiting (o : Outline) : Outline :=
  match o.awaiting with
  | .nothing => o
  | .block opening => { o with awaiting := .nothing }.add opening.closeWithout
  | .python body => { o with awaiting := .nothing }.add body.close

/-- The items of the document, after its last line. -/
def finish (o : Outline) : List Node :=
  let o := o.endAwaiting
  (closeFrames o.frames.length o).items

def itemsOf (lines : List LogicalLine) : List Node :=
  (empty.run lines).finish

end Outline

end RenpyScript
