/-!
# The characters of a YAML text

Line breaks are unified before anything else is read, control characters are refused, and each
character is kept together with its line and column.
-/

namespace RenpyScript.Yaml

/-- A character and where it stands. -/
structure Cell where
  char : Char
  line : Nat
  column : Nat
deriving DecidableEq, Repr

/-- Writes the line breaks of a text as line feeds. The line and paragraph separators stay. -/
def unifyBreaks : List Char → List Char
  | [] => []
  | ['\r'] => ['\n']
  | '\r' :: c :: cs => if c = '\n' then unifyBreaks (c :: cs) else '\n' :: unifyBreaks (c :: cs)
  | c :: cs => (if c = '\u0085' then '\n' else c) :: unifyBreaks cs

/-- Characters that a text may hold once its breaks are unified. -/
def isAllowed (c : Char) : Bool :=
  c = '\t' || c = '\n' || (' ' ≤ c && c ≤ '~') || ('\u00a0' ≤ c && c ≤ '\ufffd') || '\uffff' < c

/-- Characters that end a line. -/
def isBreak (c : Char) : Bool :=
  c = '\n' || c = '\u2028' || c = '\u2029'

/-- Characters between the words of a line. -/
def isSpaceOrTab (c : Char) : Bool :=
  c = ' ' || c = '\t'

/-- Characters between words. -/
def isGap (c : Char) : Bool :=
  isSpaceOrTab c || isBreak c

/-- The characters of a text that begins at a given line and column. -/
def cellsFrom (line column : Nat) : List Char → List Cell
  | [] => []
  | c :: cs =>
    ⟨c, line, column⟩ :: if isBreak c then cellsFrom (line + 1) 0 cs else cellsFrom line (column + 1) cs

/-- The characters of a text, unless there is one that is not allowed. -/
def cells? (text : List Char) : Option (List Cell) :=
  let unified := unifyBreaks text
  if unified.all isAllowed then some (cellsFrom 0 0 unified) else none

def chars (cs : List Cell) : List Char :=
  cs.map (·.char)

/-- Whether no word follows at once: the text ends, or a gap begins. -/
def atGap (cs : List Cell) : Bool :=
  cs.head?.all fun c => isGap c.char

/-- Whether three copies of `mark` stand alone at the beginning of a line. -/
def atMark (mark : Char) (cs : List Cell) : Bool :=
  cs.head?.any (·.column = 0) && chars (cs.take 3) = [mark, mark, mark] && atGap (cs.drop 3)

/-- Whether the line begins or ends a document. -/
def atDocumentMark (cs : List Cell) : Bool :=
  atMark '-' cs || atMark '.' cs

end RenpyScript.Yaml
