import RenpyScript.Text.Offset

/-!
# Offsets in characters

A `LineIndex` converts between byte offsets, character offsets, and rows with columns counted in
characters. Its lines end as editors end them: at more characters than the line feed, and carriage
return with line feed counts once. An offset past the end of the text stands for the end.
-/

namespace RenpyScript

/-- A row, and the characters before a position in that row. -/
structure CharPosition where
  row : Nat
  column : Nat
deriving DecidableEq, Repr

/-- Whether a line ends with the character `c`, which stands in front of `following`. -/
def endsLine (c : Char) (following : List Char) : Bool :=
  if c = '\r' then following.head? != some '\n'
  else ('\n' ≤ c && c ≤ '\x0c') || c = '\u0085' || c = '\u2028' || c = '\u2029'

/-- An index over the characters of a text. -/
structure LineIndex where
  chars : List Char
deriving DecidableEq, Repr

namespace LineIndex

def empty : LineIndex := ⟨[]⟩

def ofText (text : String) : LineIndex := ⟨text.toList⟩

/-- Number of characters that end at or before byte `n`. -/
def charsBefore : List Char → Nat → Nat
  | [], _ => 0
  | c :: cs, n => if n < c.utf8Size then 0 else charsBefore cs (n - c.utf8Size) + 1

/-- The character offset of a byte offset; inside a character, that of the character. -/
def charOffset (i : LineIndex) (byte : Nat) : Nat :=
  charsBefore i.chars byte

def byteOffset (i : LineIndex) (char : Nat) : Nat :=
  byteLength (i.chars.take char)

/-- The position `n` characters on from a position. -/
def advance (p : CharPosition) : Nat → List Char → CharPosition
  | 0, _ => p
  | _ + 1, [] => p
  | n + 1, c :: cs => advance (if endsLine c cs then ⟨p.row + 1, 0⟩ else ⟨p.row, p.column + 1⟩) n cs

def position (i : LineIndex) (char : Nat) : CharPosition :=
  advance ⟨0, 0⟩ char i.chars

end LineIndex

end RenpyScript
