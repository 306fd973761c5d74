import RenpyScript.Checked.Form
import RenpyScript.Checked.Scan
import RenpyScript.Layout.IndentStack

/-!
# Parsing by descent

The parser as a recursive descent over the lines of a text: a call of `block` for every open block. Blocks that
a dedent closes in addition to the innermost one are counted in `pending`, and the calls return one after the
other. The indent stack is kept alongside. What happens is noted down as `Moment`s. A loop goes on with a state
in which fewer lines are left; otherwise it would have no end, and has no value here.
-/

namespace RenpyScript

/-- What happens in a parse. -/
inductive Event where
  /-- The loop over the document goes on; its last turn began at the line `since`. -/
  | resume (since : Option Nat)
  /-- A block is entered whose first line has the given indentation. -/
  | enter (indent : Nat)
  /-- The loop over a block goes on. -/
  | head
  | dedent (width : Nat)
  /-- A block returns that was entered at the line `since`. -/
  | leave (since : Nat)
  /-- The next line is taken as an item by itself, in an error if it is misaligned. -/
  | item (misaligned : Bool)
  | consume
deriving DecidableEq, Repr

/-- What happens, and the state of the parse then. -/
structure Moment where
  event : Event
  pos : Nat
  /-- Levels of the blocks whose calls have not returned, the innermost first. -/
  opened : List Nat
  indents : IndentStack
  pending : Nat
deriving DecidableEq, Repr

/-- State of a parse. -/
structure ParseState where
  pos : Nat
  builder : TreeBuilder
  indents : IndentStack
  /-- Blocks still to be closed after the innermost one has returned. -/
  pending : Nat
  /-- Whether the next line has a width that no block uses. -/
  misaligned : Bool
  moments : List Moment
deriving Repr

namespace ParseState

def note (event : Event) (opened : List Nat) (s : ParseState) : ParseState :=
  { s with moments := s.moments ++ [⟨event, s.pos, opened, s.indents, s.pending⟩] }

def left (lines : List ByteLine) (s : ParseState) : Nat :=
  lines.length - s.pos

def below (lines : List ByteLine) (bound : Nat) (s : ParseState) : Option { t : ParseState // t.left lines < bound } :=
  if h : s.left lines < bound then some ⟨s, h⟩ else none

theorem left_lt {lines : List ByteLine} {l : ByteLine} {s t : ParseState} (hline : lines[s.pos]? = some l)
    (h : s.pos < t.pos) : t.left lines < s.left lines := by
  have hlt := (List.getElem?_eq_some_iff.mp hline).1
  simp only [left]
  omega

theorem below_eq {lines : List ByteLine} {bound : Nat} {s : ParseState} (h : s.left lines < bound) :
    s.below lines bound = some ⟨s, h⟩ :=
  dif_pos h

theorem below_bind {β : Type} {lines : List ByteLine} {bound : Nat} {s : ParseState} (h : s.left lines < bound)
    (f : { t : ParseState // t.left lines < bound } → Option β) : (s.below lines bound >>= f) = f ⟨s, h⟩ := by
  rw [below_eq h]
  rfl

/-- Goes on to the next line. -/
def consume (opened : List Nat) (s : ParseState) : ParseState :=
  { s.note .consume opened with pos := s.pos + 1 }

/-- Closes blocks down to a width: the innermost one at once. -/
def dedent (opened : List Nat) (width : Nat) (s : ParseState) : ParseState :=
  let (outcome, indents) := s.indents.dedentTo width
  { s with
    indents
    pending := outcome.closed - 1
    misaligned := s.misaligned || outcome.isInconsistent }.note (.dedent width) opened

def build (f : TreeBuilder → Option (Nat × TreeBuilder)) (s : ParseState) : Option (Child × ParseState) := do
  let (index, builder) ← f s.builder
  return (.plain index, { s with builder })

end ParseState

/-- Takes the children from an index on off a list. -/
def takeFrom (first : Nat) (out : List Child) : Option (List Child × List Child) :=
  if first ≤ out.length then some (out.take first, out.drop first) else none

namespace Descent

section
variable (lines : List ByteLine)

/-- The index of the first line of code from an index on. -/
def nextCode (i : Nat) : Option (Option Nat) :=
  if i < lines.length then do
    let line ← lines[i]?
    if line.kind = .code then return some i else nextCode (i + 1)
  else some none
termination_by lines.length - i

/-- The indentation of the first line of code from an index on. -/
def nextIndent (i : Nat) : Option (Option Nat) := do
  match ← nextCode lines i with
  | none => return none
  | some j =>
    let line ← lines[j]?
    return some line.indent

def commentLine (line : ByteLine) (s : ParseState) : Option (Child × ParseState) :=
  s.build (TreeBuilder.extra .comment ⟨line.start, line.stop⟩)

def readForm (topLevel bodyFollows : Bool) (line : ByteLine) (s : ParseState) : Option (LineForm × TreeBuilder) := do
  let reader := if topLevel then LineReader.topLevel bodyFollows line.start else LineReader.nested line.start
  let (form, reading) ← reader ⟨⟨s.builder.text, line.start, line.stop⟩, s.builder⟩
  return (form.getD (.items []), reading.builder)

/-- Whether one of the nodes from an index up to another is an expression. -/
def hasCode (b : TreeBuilder) (i stop : Nat) : Option Bool :=
  if i < stop then do
    let kind ← b.kindOf i
    if kind = .pythonExpression then return true else hasCode b (i + 1) stop
  else some false
termination_by stop - i

/-- The children that a line of a Python body is for the block. -/
def pythonLine (line : ByteLine) (s : ParseState) : Option (List Child × ParseState) :=
  match line.kind with
  | .blank => some ([], s)
  | .comment => do
    let (c, s) ← commentLine line s
    return ([c], s)
  | .code => do
    let (pieces, reading) ← LineReader.expressions .pythonExpression
      ⟨⟨s.builder.text, line.start, line.stop⟩, s.builder⟩
    return (pieces.getD [], { s with builder := reading.builder })

/-- Whether a line belongs to the Python body of an owner with the given indentation. -/
def insidePython (owner : Nat) (line : ByteLine) (s : ParseState) : Option Bool :=
  match line.kind with
  | .blank => some true
  | .code => some (owner < line.indent)
  | .comment => do
    let next ← nextIndent lines (s.pos + 1)
    return owner < line.indent || next.any (owner < ·)

def pythonBody (opened : List Nat) (owner : Nat) (s : ParseState) : Option (List Child × ParseState) :=
  match lines[s.pos]? with
  | none => some ([], s)
  | some line => do
    if ← insidePython lines owner line s then
      let (children, t) ← pythonLine line (s.consume opened)
      let ⟨t, _⟩ ← t.below lines (s.left lines)
      let (more, t) ← pythonBody opened owner t
      return (children ++ more, t)
    else return ([], s)
termination_by s.left lines

def pythonBlock (opened : List Nat) (line : ByteLine) (children : List Child) (s : ParseState) :
    Option (Child × ParseState) := do
  let before := s.builder.checkpoint
  let (body, s) ← pythonBody lines opened line.indent s
  let children := children ++ body
  if ← hasCode s.builder before s.builder.checkpoint then s.build (TreeBuilder.node .pythonBlock children line.start)
  else
    let last ← children.getLast?
    let stop ← s.builder.endOf last.index
    let (absent, s) ← s.build (TreeBuilder.missing .pythonExpression stop)
    s.build (TreeBuilder.node .pythonBlock (children ++ [absent]) line.start)

/-- Where a block is put in that is absent: behind the colon of its owner and behind the last child. -/
def bodyOffset (colonEnd : Nat) (children : List Child) (b : TreeBuilder) : Option Nat :=
  match children.getLast? with
  | none => some colonEnd
  | some last => do
    let stop ← b.endOf last.index
    return max colonEnd stop

/-- The comments up to the first line of a block. -/
def commentsBefore (opened : List Nat) (next : Nat) (s : ParseState) : Option (List Child × ParseState) :=
  if s.pos < next then do
    let line ← lines[s.pos]?
    if line.kind = .comment then
      let (c, t) ← commentLine line s
      let ⟨t, _⟩ ← (t.consume opened).below lines (s.left lines)
      let (more, t) ← commentsBefore opened next t
      return (c :: more, t)
    else
      let ⟨t, _⟩ ← (s.consume opened).below lines (s.left lines)
      commentsBefore opened next t
  else some ([], s)
termination_by s.left lines

end

section
variable (lines : List ByteLine)

mutual

/-- A block that begins at the next line. `opened` are the levels of the blocks around it. -/
def block (opened : List Nat) (s : ParseState) : Option (Child × ParseState) :=
  match _hline : lines[s.pos]? with
  | none => none
  | some first => do
    let entered := s.note (.enter first.indent) opened
    let (children, t) ← blockLoop (first.indent :: opened) first.indent []
      { entered with indents := s.indents.push first.indent }
    let (node, t) ← t.build (TreeBuilder.node .block children first.start)
    return (node, t.note (.leave s.pos) opened)
termination_by (s.left lines, 2)
decreasing_by
  apply Prod.Lex.right
  change (if lines[s.pos]?.any (first.indent < ·.indent) then 3 else 1) < 2
  rw [_hline, if_neg (by simp)]
  decide

/-- The lines of a block with the given level, behind the children so far. -/
def blockLoop (opened : List Nat) (level : Nat) (children : List Child) (s : ParseState) :
    Option (List Child × ParseState) :=
  -- An inner block has been closed together with this one.
  if 0 < s.pending then some (children, { s.note .head opened with pending := s.pending - 1 })
  else
    match _hline : lines[s.pos]? with
    | none => some (children, { s.note .head opened with indents := (s.indents.pop?.map Prod.snd).getD s.indents })
    | some line =>
      match line.kind with
      | .blank => do
        let ⟨t, _⟩ ← ((s.note .head opened).consume opened).below lines (s.left lines)
        blockLoop opened level children t
      | .comment => do
        let next ← nextIndent lines (s.pos + 1)
        if level ≤ line.indent ∨ next.any (level ≤ ·) then
          let (c, t) ← commentLine line (s.note .head opened)
          let ⟨t, _⟩ ← (t.consume opened).below lines (s.left lines)
          blockLoop opened level (children ++ [c]) t
        else return (children, (s.note .head opened).dedent opened (next.getD 0))
      | .code =>
        if line.indent < level then some (children, (s.note .head opened).dedent opened line.indent)
        else if _hdeeper : level < line.indent ∧ s.misaligned = false then do
          let (nested, t) ← block opened (s.note .head opened)
          let ⟨t, _⟩ ← t.below lines (s.left lines)
          blockLoop opened level (children ++ [nested]) t
        else do
          let (children, t) ← lineItem opened false children (s.note .head opened)
          let ⟨t, _⟩ ← t.below lines (s.left lines)
          blockLoop opened level children t
-- A block takes its level from the line that it begins with, so that its loop does not open another one there.
termination_by (s.left lines, if lines[s.pos]?.any (level < ·.indent) then 3 else 1)
decreasing_by
  all_goals try decreasing_tactic
  · apply Prod.Lex.right
    rw [_hline, if_pos (by simp [_hdeeper.1])]
    decide
  · apply Prod.Lex.right
    split <;> decide

/-- The nodes of a line of code, behind the nodes so far. Those of a misaligned line are put in an error. -/
def lineItem (opened : List Nat) (topLevel : Bool) (out : List Child) (s : ParseState) :
    Option (List Child × ParseState) :=
  match _hline : lines[s.pos]? with
  | none => none
  | some line => do
    let first := out.length
    let (nodes, t) ← lineNodes opened topLevel line
      { (s.note (.item s.misaligned) opened).consume opened with misaligned := false }
    if s.misaligned then
      let (out, items) ← takeFrom first (out ++ nodes)
      -- A single error is not put into another one.
      match items with
      | [item] =>
        let kind ← t.builder.kindOf item.index
        if kind = .error then return (out ++ [item], t)
        else
          let (error, t) ← t.build (TreeBuilder.node .error items line.start)
          return (out ++ [error], t)
      | items =>
        let (error, t) ← t.build (TreeBuilder.node .error items line.start)
        return (out ++ [error], t)
    else return (out ++ nodes, t)
termination_by (s.left lines, 0)
decreasing_by exact Prod.Lex.left _ _ (ParseState.left_lt _hline (Nat.lt_succ_self _))

/-- The nodes of a line of code that has been consumed. -/
def lineNodes (opened : List Nat) (topLevel : Bool) (line : ByteLine) (s : ParseState) :
    Option (List Child × ParseState) := do
  let next ← nextIndent lines s.pos
  let (form, builder) ← readForm topLevel (next.any (line.indent < ·)) line s
  match form with
  | .items children => return (children, { s with builder })
  | .opensPython children =>
    let (node, t) ← pythonBlock lines opened line children { s with builder }
    return ([node], t)
  | .opens kind children colonEnd =>
    let (children, block, t) ← body opened line children colonEnd { s with builder }
    let (node, t) ← t.build (TreeBuilder.node kind (children ++ [⟨block.index, some .body⟩]) line.start)
    if kind = .header then return ([node], t)
    else
      let (statement, t) ← t.build (TreeBuilder.node .statement [node] line.start)
      return ([statement], t)
termination_by (s.left lines, 4)

/-- The block of an owner, and the owner's children with the comments in front of the block. If there is no
block, one is put in behind the last child, or behind the owner's colon. -/
def body (opened : List Nat) (owner : ByteLine) (children : List Child) (colonEnd : Nat) (s : ParseState) :
    Option (List Child × Child × ParseState) := do
  let next ← nextCode lines s.pos
  let indent ← nextIndent lines s.pos
  match next, indent.any (owner.indent < ·) with
  | some next, true =>
    -- Comments in front of the block belong to its owner.
    let (comments, t) ← commentsBefore lines opened next s
    let ⟨t, _hle⟩ ← t.below lines (s.left lines + 1)
    let (block, t) ← block opened t
    return (children ++ comments, block, t)
  | _, _ =>
    let offset ← bodyOffset colonEnd children s.builder
    let (absent, s) ← s.build (TreeBuilder.missing .block offset)
    return (children, absent, s)
termination_by (s.left lines, 3)
decreasing_by exact Prod.Lex.right' _ (Nat.le_of_lt_succ _hle) (by decide)

end

/-- The items of a document, behind the items so far; `since` is where the last turn of the loop began. -/
def sourceFile (since : Option Nat) (items : List Child) (s : ParseState) : Option (List Child × ParseState) :=
  match lines[s.pos]? with
  | none => some (items, s.note (.resume since) [])
  | some line =>
    -- No block is open here that could still be closed.
    let resumed := { s.note (.resume since) [] with pending := 0 }
    match line.kind with
    | .blank => do
      let ⟨t, _⟩ ← (resumed.consume []).below lines (s.left lines)
      sourceFile s.pos items t
    | .comment => do
      let (c, t) ← commentLine line resumed
      let ⟨t, _⟩ ← (t.consume []).below lines (s.left lines)
      sourceFile s.pos (items ++ [c]) t
    | .code =>
      if 0 < line.indent ∧ s.misaligned = false then do
        let (node, t) ← block lines [] resumed
        let ⟨t, _⟩ ← t.below lines (s.left lines)
        sourceFile s.pos (items ++ [node]) t
      else do
        let (items, t) ← lineItem lines [] true items resumed
        let ⟨t, _⟩ ← t.below lines (s.left lines)
        sourceFile s.pos items t
termination_by s.left lines

end

/-- What is left of a parse: the nodes, the root among them, and the state at the end. -/
structure Outcome where
  root : Nat
  final : ParseState
deriving Repr

def parse (text : List Char) : Option Outcome := do
  let lines ← byteScan text
  let (items, s) ← sourceFile lines none [] ⟨0, .empty text, .empty, 0, false, []⟩
  let (root, builder) ← s.builder.finish items
  return ⟨root, { s with builder }⟩

end Descent

end RenpyScript
