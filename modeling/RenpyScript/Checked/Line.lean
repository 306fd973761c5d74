import RenpyScript.Checked.Builder
import RenpyScript.Checked.Lexer
import RenpyScript.Line.Quoted

/-!
# Reading a line step by step

A `LineReader` moves a lexer along a line and builds nodes. It may decline, which still leaves the nodes it
has built; `attempt` takes these back and tries something else. Apart from that a step may have no value at
all, and then the whole reader has none. So it is with a loop that takes more turns than there are bytes, as it
would have no end.
-/

namespace RenpyScript

/-- Where the lexer stands, and the nodes so far. -/
structure Reading where
  lexer : Lexer
  builder : TreeBuilder
deriving Repr

abbrev LineReader := OptionT (StateT Reading Option)

namespace LineReader

def lift {α : Type} (value : Option α) : LineReader α := fun s => do
  let a ← value
  return (some a, s)

def lexing {α : Type} (f : Lexer → Option (α × Lexer)) : LineReader α := fun s => do
  let (a, lexer) ← f s.lexer
  return (some a, { s with lexer })

def building (f : TreeBuilder → Option (Nat × TreeBuilder)) : LineReader Child := fun s => do
  let (index, builder) ← f s.builder
  return (some (.plain index), { s with builder })

def leaf (kind : Kind) (span : Span) : LineReader Child :=
  building (TreeBuilder.leaf kind span)

def missing (kind : Kind) (offset : Nat) : LineReader Child :=
  building (TreeBuilder.missing kind offset)

def node (kind : Kind) (children : List Child) (fallback : Nat) : LineReader Child :=
  building (TreeBuilder.node kind children fallback)

def lexer : LineReader Lexer := fun s => some (some s.lexer, s)

def endOf (child : Child) : LineReader Nat := fun s => do
  let stop ← s.builder.endOf child.index
  return (some stop, s)

/-- Tries a second reader from the beginning, without the nodes of the first one, if that declines. -/
def attempt {α : Type} (first second : LineReader α) : LineReader α := fun s => do
  match ← first s with
  | (some a, t) => return (some a, t)
  | (none, t) => second ⟨s.lexer, t.builder.rollback s.builder.checkpoint⟩

/-- A number of turns that no loop needs more of, if all but its last turn read something. -/
def turns : LineReader Nat := do
  let x ← lexer
  return x.stop + 1

/-- Goes on for as long as there are values, for so many turns at the most. -/
def whileSomeUpTo {α : Type} (step : LineReader (Option α)) : Nat → LineReader (List α)
  | 0 => lift none
  | n + 1 => do
    match ← step with
    | none => return []
    | some a =>
      let as ← whileSomeUpTo step n
      return a :: as

/-- Goes on for as long as there are values. -/
def whileSome {α : Type} (step : LineReader (Option α)) : LineReader (List α) := do
  whileSomeUpTo step (← turns)

/-! ## Tokens -/

def required {α : Type} (step : LineReader (Option α)) : LineReader α := do
  match ← step with
  | none => failure
  | some a => return a

def token (kind : Kind) (f : Lexer → Option (Option Span × Lexer)) : LineReader (Option Child) := do
  match ← lexing f with
  | none => return none
  | some span =>
    let child ← leaf kind span
    return some child

/-- A character as a node, if it is the next one. -/
def char (c : Char) (kind : Kind) : LineReader (Option Child) := do
  match ← lexing (Lexer.eat c.toUInt8) with
  | none => return none
  | some offset =>
    let child ← leaf kind ⟨offset, offset + 1⟩
    return some child

def comment : LineReader (Option Child) := do
  match ← lexing Lexer.comment with
  | none => return none
  | some span =>
    let child ← building (TreeBuilder.extra .comment span)
    return some child

/-- Comments to the end of the line; declines if anything else is there. -/
def finishLine : LineReader (List Child) := do
  let comments ← whileSome comment
  let next ← lexing Lexer.peek
  if next = none then return comments else failure

def keyword : LineReader Child := do
  let span ← required (lexing Lexer.identifier)
  let x ← lexer
  let word ← lift (x.textOf span)
  match Keyword.ofWord? word with
  | none => failure
  | some k => leaf (.keyword k) span

/-- Whether the next name is a keyword of the given class. -/
def peekKeyword (inClass : Keyword → Bool) : LineReader Bool := do
  let word ← lexing Lexer.peekWord
  return (Option.bind word Keyword.ofWord?).any inClass

/-! ## Strings -/

def delimiter (quote : UInt8) (tripled : Bool) : Kind × Nat :=
  if quote = '"'.toUInt8 then (if tripled then (.tripleDoubleQuote, 3) else (.doubleQuote, 1))
  else (if tripled then (.tripleSingleQuote, 3) else (.singleQuote, 1))

/-- Bytes that form an escape sequence with a backslash before them. -/
def escapable : List UInt8 :=
  ['\'', '"', '%', '\\', 'n', 't', '[', '\x7b', ' '].map Char.toUInt8

/-- What a byte does inside a string. -/
inductive StringStep where
  /-- The string goes on, perhaps behind an escape. -/
  | go (escape : Option Kind) (i : Nat)
  /-- The string ends, or breaks off. -/
  | done (closed : Bool)
deriving DecidableEq, Repr

section
variable (bytes : List UInt8) (stop : Nat) (quote : UInt8) (tripled : Bool)

/-- The byte behind an index, if the line reaches that far. -/
def byteBehind (i : Nat) : Option (Option UInt8) :=
  if i + 1 < stop then do
    let b ← bytes[i + 1]?
    return some b
  else some none

def endsString (i : Nat) (b : UInt8) : Option Bool :=
  if b = quote then (if tripled then byteCopies bytes i stop 3 quote else some true) else some false

def stringByte (i : Nat) : Option StringStep := do
  let b ← bytes[i]?
  let behind ← byteBehind bytes stop i
  if b = '\\'.toUInt8 then
    if behind.any (· ∈ escapable) then return .go (some .escapeSequence) (i + 2)
    -- A backslash may be the last byte of the line.
    else return .go none (min (i + 2) stop)
  else if (b = '['.toUInt8 ∨ b = '\x7b'.toUInt8) ∧ behind = some b then
    return .go (some .escapeInterpolation) (i + 2)
  else if ← endsString bytes stop quote tripled i b then return .done true
  else if b = '\n'.toUInt8 ∧ tripled = false then return .done false
  else return .go none (i + 1)

def escapeAt (escape : Option Kind) (i : Nat) : LineReader (List Child) :=
  match escape with
  | none => return []
  | some kind => do
    let child ← leaf kind ⟨i, i + 2⟩
    return [child]

/-- The escapes of a string from an index on, where the string ends, and whether it is closed there. -/
def stringBody (i : Nat) : LineReader (List Child × Nat × Bool) := do
  if stop ≤ i then return ([], i, false)
  else
    match ← lift (stringByte bytes stop quote tripled i) with
    | .done closed => return ([], i, closed)
    | .go escape next =>
      let children ← escapeAt escape i
      let behind ← (if i < next then stringBody next else lift none)
      return (children ++ behind.1, behind.2)
termination_by stop - i

end

def string : LineReader Child := do
  lexing fun x => x.skipWhitespace.map fun x => ((), x)
  let x ← lexer
  let bytes := utf8 x.text
  let quote ← lift bytes[x.pos]?
  let tripled ← lift (byteCopies bytes x.pos x.stop 3 quote)
  let (kind, width) := delimiter quote tripled
  let opening ← leaf kind ⟨x.pos, x.pos + width⟩
  let (escapes, i, closed) ← stringBody bytes x.stop quote tripled (x.pos + width)
  let closing ← if closed then leaf kind ⟨i, i + width⟩ else missing kind i
  lexing fun x => some ((), x.setPos (if closed then i + width else i))
  node .string (opening :: escapes ++ [closing]) x.pos

/-! ## Arguments -/

/-- So many names at the most, with commas between them, and the closing parenthesis. -/
def argumentNamesUpTo : Nat → LineReader (List Child)
  | 0 => lift none
  | n + 1 => do
    let name ← required (token .identifier Lexer.identifier)
    match ← char ',' .comma with
    | some comma =>
      let more ← argumentNamesUpTo n
      return name :: comma :: more
    | none =>
      let closing ← required (char ')' .rightParen)
      return [name, closing]

/-- Names with commas between them, and the closing parenthesis. -/
def argumentNames : LineReader (List Child) := do
  argumentNamesUpTo (← turns)

/-- Names between parentheses. -/
def arguments : LineReader Child := do
  let start ← required (lexing (Lexer.eat '('.toUInt8))
  let opening ← leaf .leftParen ⟨start, start + 1⟩
  let rest ←
    match ← char ')' .rightParen with
    | some closing => pure [closing]
    | none => argumentNames
  node .arguments (opening :: rest) start

end LineReader

end RenpyScript
