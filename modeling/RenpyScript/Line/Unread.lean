import RenpyScript.Layout.LogicalLine
import RenpyScript.Text.Blank
import RenpyScript.Tree.Node

/-!
# Reading tokens off a line

`Unread` is the part of a logical line that is still to be read. A token is the longest beginning
of it that has the token's shape, after blanks; its shape is given by a function that counts the
characters the token takes, so zero means that there is none. Readers return the node of the token
together with what is left, and decline without a trace otherwise.
-/

namespace RenpyScript

/-- The part of a line that is still to be read, and the offset where it begins. -/
structure Unread where
  pos : Nat
  rest : List Char
deriving DecidableEq, Repr

def LogicalLine.unread (l : LogicalLine) : Unread :=
  ⟨l.start, l.content⟩

/-! ## Shapes of tokens -/

def isNameStart (c : Char) : Bool :=
  c.isAlpha || c = '_'

def isNamePart (c : Char) : Bool :=
  c.isAlphanum || c = '_'

def beginsName : List Char → Bool
  | [] => false
  | c :: _ => isNameStart c

/-- A name: a letter or underscore, then letters, digits and underscores. -/
def nameLength (cs : List Char) : Nat :=
  if beginsName cs then (cs.takeWhile isNamePart).length else 0

/-- The part of a dotted name behind its first character. -/
def dottedTailLength : List Char → Nat
  | [] => 0
  | c :: cs => if isNamePart c || (c = '.' && beginsName cs) then dottedTailLength cs + 1 else 0

/-- Names with single dots between them. -/
def dottedNameLength (cs : List Char) : Nat :=
  if beginsName cs then dottedTailLength cs else 0

def digitsLength (cs : List Char) : Nat :=
  (cs.takeWhile Char.isDigit).length

/-- A fraction: a dot and at least one digit. -/
def fractionLength : List Char → Nat
  | '.' :: cs => if digitsLength cs = 0 then 0 else digitsLength cs + 1
  | _ => 0

def signLength : List Char → Nat
  | '+' :: _ => 1
  | '-' :: _ => 1
  | _ => 0

/-- A number: an optional sign, digits, and an optional fraction. -/
def numberLength (cs : List Char) : Nat :=
  let sign := signLength cs
  let whole := digitsLength (cs.drop sign)
  if whole = 0 then 0 else sign + whole + fractionLength (cs.drop (sign + whole))

def charLength (c : Char) (cs : List Char) : Nat :=
  if cs.head? = some c then 1 else 0

/-- A comment: a hash sign and the rest of the physical line. -/
def commentLength (cs : List Char) : Nat :=
  if cs.head? = some '#' then (cs.takeWhile (· ≠ '\n')).length else 0

/-- An expression: everything up to a hash sign outside quotes. `quote` is the quote character that
the text is inside of; a backslash there hides the character behind it. -/
def expressionLength (quote : Option Char) : List Char → Nat
  | [] => 0
  | [c] => if quote = none ∧ c = '#' then 0 else 1
  | c :: d :: cs =>
    match quote with
    | none =>
      if c = '#' then 0 else expressionLength (if isQuote c then some c else none) (d :: cs) + 1
    | some q =>
      if c = '\\' then expressionLength quote cs + 2
      else expressionLength (if c = q then none else quote) (d :: cs) + 1

/-- A run of Python inside a line of dialogue: it stops at a double quote, at a backslash, and at a
hash sign outside single quotes. -/
def pythonRunLength (inSingle : Bool) : List Char → Nat
  | [] => 0
  | c :: cs =>
    if c = '"' || c = '\\' || (c = '#' && !inSingle) then 0
    else
      let inSingle := if c = '\'' then !inSingle else if c = '\n' then false else inSingle
      pythonRunLength inSingle cs + 1

namespace Unread

/-! ## Readers -/

/-- What is left after `n` characters. -/
def advance (u : Unread) (n : Nat) : Unread :=
  ⟨u.pos + byteLength (u.rest.take n), u.rest.drop n⟩

def skipBlanks (u : Unread) : Unread :=
  u.advance (u.rest.takeWhile isBlank).length

/-- The first character after blanks. -/
def peek? (u : Unread) : Option Char :=
  u.skipBlanks.rest.head?

/-- Whether only blanks, or a comment, are left. -/
def atLineEnd (u : Unread) : Bool :=
  u.peek? = none || u.peek? = some '#'

/-- The characters of the token of a given shape after blanks, without those at its end that `trim`
accepts. -/
def tokenText (length : List Char → Nat) (trim : Char → Bool) (u : Unread) : List Char :=
  trimEnd trim (u.skipBlanks.rest.take (length u.skipBlanks.rest))

/-- Reads a token and trims its end; what is trimmed counts as read. -/
def trimmedToken? (kind : Kind) (length : List Char → Nat) (trim : Char → Bool) (u : Unread) :
    Option (Node × Unread) :=
  let text := u.tokenText length trim
  if text.isEmpty then none
  else
    let v := u.skipBlanks
    some (.leaf kind (.covering v.pos text), v.advance (length v.rest))

def token? (kind : Kind) (length : List Char → Nat) (u : Unread) : Option (Node × Unread) :=
  let v := u.skipBlanks
  match length v.rest with
  | 0 => none
  | n + 1 => some (.leaf kind (.covering v.pos (v.rest.take (n + 1))), v.advance (n + 1))

def name? (u : Unread) : Option (Node × Unread) :=
  u.token? .identifier nameLength

/-- Reads names with dots between them. -/
def dottedName? (u : Unread) : Option (Node × Unread) :=
  u.token? .identifier dottedNameLength

def number? (u : Unread) : Option (Node × Unread) :=
  u.token? .number numberLength

/-- Reads a single character as a token of the given kind. -/
def char? (c : Char) (kind : Kind) (u : Unread) : Option (Node × Unread) :=
  u.token? kind (charLength c)

/-- The keyword that the next name spells. -/
def peekKeyword? (u : Unread) : Option Keyword :=
  let v := u.skipBlanks
  Keyword.ofWord? (String.ofList (v.rest.take (nameLength v.rest)))

def keyword? (inClass : Keyword → Bool) (u : Unread) : Option (Node × Unread) :=
  match u.peekKeyword? with
  | some k => if inClass k then u.token? (.keyword k) nameLength else none
  | none => none

/-- Reads a comment. Carriage returns at its end are not part of it. -/
def comment? (u : Unread) : Option (Node × Unread) :=
  u.trimmedToken? .comment commentLength (· = '\r')

def expression? (kind : Kind) (u : Unread) : Option (Node × Unread) :=
  u.trimmedToken? kind (expressionLength none) isBlank

/-- Reads a run of Python in a line of dialogue. -/
def pythonRun? (u : Unread) : Option (Node × Unread) :=
  u.trimmedToken? .pythonExpression (pythonRunLength false) isBlank

/-! ## Repetition -/

/-- Reads up to `n` times, until the reader declines. -/
def repeatUpTo {α : Type} (read? : Unread → Option (α × Unread)) : Nat → Unread → List α × Unread
  | 0, u => ([], u)
  | n + 1, u =>
    match read? u with
    | none => ([], u)
    | some (a, v) =>
      let (as, w) := repeatUpTo read? n v
      (a :: as, w)

/-- Reads until the reader declines. Each reading takes a character at least, so the number of
characters bounds the number of readings. -/
def many {α : Type} (read? : Unread → Option (α × Unread)) (u : Unread) : List α × Unread :=
  repeatUpTo read? u.rest.length u

/-- Reads once if the reader does not decline. -/
def optional {α : Type} (read? : Unread → Option (α × Unread)) (u : Unread) : List α × Unread :=
  match read? u with
  | none => ([], u)
  | some (a, v) => ([a], v)

/-- Reads comments to the end of the line; declines if anything else is there. -/
def finish? (u : Unread) : Option (List Node) :=
  let (comments, v) := many comment? u
  if v.peek? = none then some comments else none

end Unread

end RenpyScript
