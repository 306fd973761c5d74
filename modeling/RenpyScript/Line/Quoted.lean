import RenpyScript.Line.Unread

/-!
# Strings and arguments

A string begins with a quote character or with three of them and ends with the same. Inside it,
`escape_sequence` and `escape_interpolation` nodes mark the characters with a meaning of their own.
A string that is not closed gets a missing delimiter where it breaks off: at the line feed if it is
not tripled, or at the end of the line.
-/

namespace RenpyScript

/-- What opens and closes a string. -/
structure Delimiter where
  quote : Char
  tripled : Bool
deriving DecidableEq, Repr

namespace Delimiter

def length (d : Delimiter) : Nat :=
  if d.tripled then 3 else 1

def kind (d : Delimiter) : Kind :=
  if d.quote = '"' then (if d.tripled then .tripleDoubleQuote else .doubleQuote)
  else (if d.tripled then .tripleSingleQuote else .singleQuote)

/-- The delimiter at the beginning of `cs`. -/
def at? (cs : List Char) : Option Delimiter :=
  match cs with
  | [] => none
  | c :: _ => if isQuote c then some ⟨c, beginsWithCopies 3 c cs⟩ else none

/-- Whether the string ends in front of `cs`. -/
def closes (d : Delimiter) (cs : List Char) : Bool :=
  beginsWithCopies d.length d.quote cs

end Delimiter

/-- Characters that form an escape sequence with a backslash before them. -/
def isEscapable (c : Char) : Bool :=
  c = '\'' || c = '"' || c = '%' || c = '\\' || c = 'n' || c = 't' || c = '[' || c = '\x7b' || c = ' '

/-- What lies between the delimiters of a string. -/
structure StringBody where
  escapes : List Node
  /-- Number of characters before the closing delimiter, or before the place where the string
  breaks off. -/
  length : Nat
  closed : Bool
deriving Repr

namespace StringBody

/-- The body with `n` more characters in front. -/
def behind (b : StringBody) (n : Nat) : StringBody :=
  { b with length := b.length + n }

/-- The body with an escape of two bytes in front. -/
def behindEscape (b : StringBody) (kind : Kind) (pos : Nat) : StringBody :=
  ⟨.leaf kind ⟨pos, pos + 2⟩ :: b.escapes, b.length + 2, b.closed⟩

/-- Reads the body of a string that begins at `pos`. -/
def read (d : Delimiter) (pos : Nat) : List Char → StringBody
  | [] => ⟨[], 0, false⟩
  | [c] =>
    if d.closes [c] then ⟨[], 0, true⟩
    else if c = '\n' && !d.tripled then ⟨[], 0, false⟩
    else ⟨[], 1, false⟩
  | c :: e :: cs =>
    if c = '\\' then
      if isEscapable e then (read d (pos + 2) cs).behindEscape .escapeSequence pos
      else (read d (pos + c.utf8Size + e.utf8Size) cs).behind 2
    else if (c = '[' || c = '\x7b') && e = c then
      (read d (pos + 2) cs).behindEscape .escapeInterpolation pos
    else if d.closes (c :: e :: cs) then ⟨[], 0, true⟩
    else if c = '\n' && !d.tripled then ⟨[], 0, false⟩
    else (read d (pos + c.utf8Size) (e :: cs)).behind 1

end StringBody

namespace Unread

def string? (u : Unread) : Option (Node × Unread) :=
  let v := u.skipBlanks
  match Delimiter.at? v.rest with
  | none => none
  | some d =>
    let inside := v.advance d.length
    let body := StringBody.read d inside.pos inside.rest
    let tail := inside.advance body.length
    let opening := Node.leaf d.kind ⟨v.pos, inside.pos⟩
    if body.closed then
      let behind := tail.advance d.length
      let closing := Node.leaf d.kind ⟨tail.pos, behind.pos⟩
      some (.branch .string (opening :: body.escapes ++ [closing]) v.pos, behind)
    else
      some (.branch .string (opening :: body.escapes ++ [.absent d.kind tail.pos]) v.pos, tail)

def commaName? (u : Unread) : Option (List Node × Unread) := do
  let (comma, u) ← u.char? ',' .comma
  let (name, u) ← u.name?
  return ([comma, name], u)

/-- Reads names between parentheses, with commas between them. -/
def arguments? (u : Unread) : Option (Node × Unread) := do
  let (opening, u) ← u.char? '(' .leftParen
  match u.char? ')' .rightParen with
  | some (closing, u) => return (.branch .arguments [opening, closing] opening.span.start, u)
  | none =>
    let (first, u) ← u.name?
    let (more, u) := many commaName? u
    let (closing, u) ← u.char? ')' .rightParen
    return (.branch .arguments (opening :: first :: more.flatten ++ [closing]) opening.span.start, u)

end Unread

end RenpyScript
