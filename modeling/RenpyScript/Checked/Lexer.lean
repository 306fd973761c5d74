import RenpyScript.Checked.Bytes
import RenpyScript.Line.Unread

/-!
# A cursor over the bytes of a line

The lexer goes over the bytes between two offsets of a text. What is left is a slice of the text, and a slice
has no value unless both its ends fall between two characters. Each function gives the span of a token, if
there is one, and where the lexer stands behind it.
-/

namespace RenpyScript

/-- A cursor over the bytes from `pos` to `stop`. -/
structure Lexer where
  text : List Char
  pos : Nat
  stop : Nat
deriving DecidableEq, Repr

/-! ## Loops over bytes -/

section
variable (bytes : List UInt8)

/-- The index of the first hash sign outside quotes. A backslash in quotes hides the byte behind it. -/
def expressionStop (i : Nat) (quote : Option UInt8) : Option Nat :=
  if i < bytes.length then do
    let b ← bytes[i]?
    match quote with
    | none =>
      if b = '"'.toUInt8 ∨ b = '\''.toUInt8 then expressionStop (i + 1) (some b)
      else if b = '#'.toUInt8 then some i
      else expressionStop (i + 1) none
    | some q =>
      if b = '\\'.toUInt8 then expressionStop (i + 2) (some q)
      else expressionStop (i + 1) (if b = q then none else some q)
  else some i
termination_by bytes.length - i

/-- The index of the first double quote, backslash, or hash sign outside single quotes. -/
def pythonRunStop (i : Nat) (inSingle : Bool) : Option Nat :=
  if i < bytes.length then do
    let b ← bytes[i]?
    if b = '\''.toUInt8 then pythonRunStop (i + 1) (!inSingle)
    else if b = '"'.toUInt8 ∨ b = '\\'.toUInt8 then some i
    else if b = '#'.toUInt8 ∧ inSingle = false then some i
    else pythonRunStop (i + 1) (if b = '\n'.toUInt8 then false else inSingle)
  else some i
termination_by bytes.length - i

end

namespace Lexer

def left (x : Lexer) : Nat :=
  x.stop - x.pos

def rest? (x : Lexer) : Option (List Char) :=
  slice x.text ⟨x.pos, x.stop⟩

def skipWhitespace (x : Lexer) : Option Lexer := do
  let rest ← x.rest?
  let skipped ← checkedSub (byteLength rest) (byteLength (rest.dropWhile isBlank))
  return { x with pos := x.pos + skipped }

/-- The next byte after white space. -/
def peek (x : Lexer) : Option (Option UInt8 × Lexer) := do
  let x ← x.skipWhitespace
  let rest ← x.rest?
  return ((utf8 rest).head?, x)

/-- Whether only white space, or a comment, is left. -/
def atLineEnd (x : Lexer) : Option (Bool × Lexer) := do
  let (next, x) ← x.peek
  return (next = none || next = some '#'.toUInt8, x)

/-- Passes over a byte if it is the next one, and gives its offset. -/
def eat (b : UInt8) (x : Lexer) : Option (Option Nat × Lexer) := do
  let (next, x) ← x.peek
  if next = some b then return (some x.pos, { x with pos := x.pos + 1 })
  else return (none, x)

/-- A token of a shape that is given by its number of characters. -/
def matched (length : List Char → Nat) (x : Lexer) : Option (Option Span × Lexer) := do
  let x ← x.skipWhitespace
  let rest ← x.rest?
  match length rest with
  | 0 => return (none, x)
  | n + 1 =>
    let stop := x.pos + byteLength (rest.take (n + 1))
    return (some ⟨x.pos, stop⟩, { x with pos := stop })

def identifier (x : Lexer) : Option (Option Span × Lexer) :=
  x.matched nameLength

def number (x : Lexer) : Option (Option Span × Lexer) :=
  x.matched numberLength

/-- Passes over dots with a name behind each; `stop` is the end of the names so far. -/
def dottedTail (x : Lexer) (stop : Nat) : Option (Nat × Lexer) := do
  let rest ← x.rest?
  if rest.head? = some '.' then
    let behind : Lexer := { x with pos := x.pos + 1 }
    let rest ← behind.rest?
    let stop' := behind.pos + byteLength (rest.take (nameLength rest))
    if nameLength rest = 0 then return (stop, x)
    else if { x with pos := stop' }.left < x.left then dottedTail { x with pos := stop' } stop'
    else none
  else return (stop, x)
termination_by x.left

/-- Names with single dots between them. -/
def dottedIdentifier (x : Lexer) : Option (Option Span × Lexer) := do
  match ← x.identifier with
  | (none, x) => return (none, x)
  | (some name, x) =>
    let (stop, x) ← x.dottedTail name.stop
    return (some ⟨name.start, stop⟩, x)

def textOf (x : Lexer) (span : Span) : Option String := do
  let cs ← slice x.text span
  return String.ofList cs

def keyword (word : String) (x : Lexer) : Option (Option Span × Lexer) := do
  match ← x.identifier with
  | (none, y) => return (none, { y with pos := x.pos })
  | (some name, y) =>
    let text ← x.textOf name
    if text = word then return (some name, y) else return (none, { y with pos := x.pos })

/-- The next name, which is left where it is. -/
def peekWord (x : Lexer) : Option (Option String × Lexer) := do
  match ← x.identifier with
  | (none, _) => return (none, x)
  | (some name, _) =>
    let text ← x.textOf name
    return (some text, x)

/-- A comment, which runs to the end of the physical line. -/
def comment (x : Lexer) : Option (Option Span × Lexer) := do
  let (next, x) ← x.peek
  if next = some '#'.toUInt8 then
    let rest ← x.rest?
    let length := byteLength (rest.takeWhile (· ≠ '\n'))
    let body ← slice rest ⟨0, length⟩
    return (some (.covering x.pos (trimEnd (· = '\r') body)), { x with pos := x.pos + length })
  else return (none, x)

/-- The next bytes without white space at their end. -/
def takeTrimmed (length : Nat) (x : Lexer) : Option (Option Span × Lexer) := do
  let rest ← x.rest?
  let taken ← slice rest ⟨0, length⟩
  let token := trimEnd isBlank taken
  let y : Lexer := { x with pos := x.pos + length }
  if token.isEmpty then return (none, y) else return (some (.covering x.pos token), y)

def restOfLine (x : Lexer) : Option (Option Span × Lexer) := do
  let x ← x.skipWhitespace
  let rest ← x.rest?
  let length ← expressionStop (utf8 rest) 0 none
  x.takeTrimmed (min length (utf8 rest).length)

def pythonRun (x : Lexer) : Option (Option Span × Lexer) := do
  let x ← x.skipWhitespace
  let rest ← x.rest?
  let length ← pythonRunStop (utf8 rest) 0 false
  x.takeTrimmed length

def setPos (pos : Nat) (x : Lexer) : Lexer :=
  { x with pos := min pos x.stop }

end Lexer

end RenpyScript
