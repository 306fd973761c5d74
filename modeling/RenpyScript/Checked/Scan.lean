import RenpyScript.Checked.Bytes
import RenpyScript.Layout.LogicalLine

/-!
# Logical lines of bytes

The splitter as loops over the bytes of a text, with an index that goes forward. An escape passes over two
bytes, even if the second is the first of several of one character. A loop whose index stays where it is would
have no end: it has no value here.
-/

namespace RenpyScript

/-- A logical line; `start` and `stop` are the ends of its content. -/
structure ByteLine where
  indent : Nat
  start : Nat
  stop : Nat
  lineEnd : Nat
  row : Nat
  kind : LineKind
deriving DecidableEq, Repr

/-- The string that the splitter is inside of, with the byte of its quote character. -/
inductive ByteQuote where
  | single (quote : UInt8)
  | tripled (quote : UInt8)
deriving DecidableEq, Repr

/-- What a byte does to the splitter: it goes on at another place, or the line ends. -/
inductive ScanStep where
  | go (i depth : Nat) (quote : Option ByteQuote) (row : Nat)
  | done (contentEnd lineEnd row : Nat)
deriving DecidableEq, Repr

section
variable (bytes : List UInt8)

/-- Passes over indentation: where it ends, and its width. -/
def skipIndent (i indent : Nat) : Option (Nat × Nat) :=
  if i < bytes.length then do
    let b ← bytes[i]?
    if b = ' '.toUInt8 then skipIndent (i + 1) (indent + 1)
    else if b = '\t'.toUInt8 then skipIndent (i + 1) ((indent / 8 + 1) * 8)
    else if b = '\x0c'.toUInt8 then skipIndent (i + 1) 0
    else some (i, indent)
  else some (i, indent)
termination_by bytes.length - i

/-- The index of the next line feed, or the end. -/
def toLineFeed (i : Nat) : Option Nat :=
  if i < bytes.length then do
    let b ← bytes[i]?
    if b = '\n'.toUInt8 then some i else toLineFeed (i + 1)
  else some i
termination_by bytes.length - i

def scanOutside (i depth row : Nat) (b : UInt8) : Option ScanStep :=
  if b = '#'.toUInt8 then do
    let i ← toLineFeed bytes i
    return .go i depth none row
  else if b = '"'.toUInt8 ∨ b = '\''.toUInt8 then do
    if ← byteCopies bytes i bytes.length 3 b then return .go (i + 3) depth (some (.tripled b)) row
    else return .go (i + 1) depth (some (.single b)) row
  else if b = '('.toUInt8 ∨ b = '['.toUInt8 ∨ b = '\x7b'.toUInt8 then some (.go (i + 1) (depth + 1) none row)
  else if b = ')'.toUInt8 ∨ b = ']'.toUInt8 ∨ b = '\x7d'.toUInt8 then some (.go (i + 1) (depth - 1) none row)
  else if b = '\n'.toUInt8 then
    if 0 < depth then some (.go (i + 1) depth none (row + 1)) else some (.done i (i + 1) row)
  else some (.go (i + 1) depth none row)

/-- Whether the closing delimiter of a tripled string stands at an index. -/
def endsTripled (i : Nat) (q b : UInt8) : Option Bool :=
  if b = q then byteCopies bytes i bytes.length 3 q else some false

/-- A byte inside a string. A line feed ends a string that is not tripled and is then a byte outside. -/
def scanInside (i depth row : Nat) (quote : ByteQuote) (b : UInt8) : Option ScanStep :=
  if b = '\\'.toUInt8 then
    some (.go (i + 2) depth (some quote) (if bytes[i + 1]? = some '\n'.toUInt8 then row + 1 else row))
  else
    match quote with
    | .tripled q => do
      if ← endsTripled bytes i q b then return .go (i + 3) depth none row
      else if b = '\n'.toUInt8 then return .go (i + 1) depth (some quote) (row + 1)
      else return .go (i + 1) depth (some quote) row
    | .single q =>
      if b = q then some (.go (i + 1) depth none row)
      else if b = '\n'.toUInt8 then scanOutside bytes i depth row b
      else some (.go (i + 1) depth (some quote) row)

def scanByte (i depth : Nat) (quote : Option ByteQuote) (row : Nat) : Option ScanStep := do
  let b ← bytes[i]?
  match quote with
  | none => scanOutside bytes i depth row b
  | some q => scanInside bytes i depth row q b

/-- Where the content and its line end, and the row there. -/
def scanContent (i depth : Nat) (quote : Option ByteQuote) (row : Nat) : Option (Nat × Nat × Nat) :=
  if bytes.length ≤ i then some (bytes.length, bytes.length, row)
  else do
    match ← scanByte bytes i depth quote row with
    -- A turn that led nowhere would be taken again and again.
    | .go j depth quote row => if i < j then scanContent j depth quote row else none
    | .done contentEnd lineEnd row => some (contentEnd, lineEnd, row)
termination_by bytes.length - i

/-- Goes back over white space at the end of the content. -/
def trimPadding (start stop : Nat) : Option Nat :=
  if start < stop then do
    let last ← checkedSub stop 1
    let b ← bytes[last]?
    if b = ' '.toUInt8 ∨ b = '\t'.toUInt8 ∨ b = '\r'.toUInt8 ∨ b = '\x0c'.toUInt8 then
      if last < stop then trimPadding start last else none
    else some stop
  else some stop
termination_by stop

def contentKind (start stop : Nat) : Option LineKind :=
  if stop = start then some .blank
  else do
    let b ← bytes[start]?
    return if b = '#'.toUInt8 then .comment else .code

/-- The line that begins at an index, and the row behind it. -/
def scanLine (pos row : Nat) : Option (ByteLine × Nat) := do
  let (start, indent) ← skipIndent bytes pos 0
  let (contentEnd, lineEnd, last) ← scanContent bytes start 0 none row
  let stop ← trimPadding bytes start contentEnd
  let kind ← contentKind bytes start stop
  return (⟨indent, start, stop, lineEnd, row, kind⟩, last + 1)

def scanLines (pos row : Nat) : Option (List ByteLine) :=
  if pos < bytes.length then do
    let (line, row) ← scanLine bytes pos row
    let lines ← if pos < line.lineEnd then scanLines line.lineEnd row else none
    return line :: lines
  else some []
termination_by bytes.length - pos

end

/-- The logical lines of a text, but for a byte order mark at its beginning. -/
def byteScan (cs : List Char) : Option (List ByteLine) :=
  scanLines (utf8 cs) (if cs.head? = some '\ufeff' then byteLength ['\ufeff'] else 0) 0

end RenpyScript
