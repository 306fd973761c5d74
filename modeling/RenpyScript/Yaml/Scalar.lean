import RenpyScript.Yaml.Cell

/-!
# Scalars

A scalar is written plain, between quotes, or as a block of indented lines. Line breaks inside of it are
folded: one break becomes a space, and of several the first is dropped.
-/

namespace RenpyScript.Yaml

/-- What a run of line breaks stands for between two words. -/
def foldBreaks : List Char → List Char
  | ['\n'] => [' ']
  | '\n' :: more => more
  | other => other

/-- What a gap between two words stands for. -/
def foldGap (gap : List Char) : List Char :=
  if gap.any isBreak then foldBreaks (gap.filter isBreak) else gap

/-- Splits off the gap in front of a text. -/
def splitGap (cs : List Cell) : List Cell × List Cell :=
  cs.span fun c => isGap c.char

def hexValue? (c : Char) : Option Nat :=
  if '0' ≤ c && c ≤ '9' then some (c.toNat - '0'.toNat)
  else if 'a' ≤ c && c ≤ 'f' then some (c.toNat - 'a'.toNat + 10)
  else if 'A' ≤ c && c ≤ 'F' then some (c.toNat - 'A'.toNat + 10)
  else none

/-- The number written by `n` hexadecimal digits, and what follows them. -/
def hexNumber? : Nat → Nat → List Cell → Option (Nat × List Cell)
  | 0, value, cs => some (value, cs)
  | n + 1, value, c :: cs => (hexValue? c.char).bind fun d => hexNumber? n (16 * value + d) cs
  | _ + 1, _, [] => none

def charOf? (code : Nat) : Option Char :=
  if h : code.isValidChar then some (Char.ofNatAux code h) else none

/-- What a letter behind a backslash stands for. -/
def escaped? (c : Char) : Option Char :=
  match c with
  | '0' => some '\x00'
  | 'a' => some '\x07'
  | 'b' => some '\x08'
  | 't' | '\t' => some '\t'
  | 'n' => some '\n'
  | 'v' => some '\x0b'
  | 'f' => some '\x0c'
  | 'r' => some '\r'
  | 'e' => some '\x1b'
  | ' ' => some ' '
  | '"' => some '"'
  | '/' => some '/'
  | '\\' => some '\\'
  | 'N' => some '\u0085'
  | '_' => some '\u00a0'
  | 'L' => some '\u2028'
  | 'P' => some '\u2029'
  | _ => none

/-- The character that an escape stands for, and what follows the escape. -/
def escape? : List Cell → Option (Char × List Cell)
  | [] => none
  | c :: cs =>
    let digits := if c.char = 'x' then 2 else if c.char = 'u' then 4 else if c.char = 'U' then 8 else 0
    if digits = 0 then (escaped? c.char).map fun e => (e, cs)
    else (hexNumber? digits 0 cs).bind fun r => (charOf? r.1).map fun e => (e, r.2)

/-- Reads a quoted scalar behind its opening quote: its value, and what follows the closing quote. Each
call reads one character at least. -/
def quotedScalar? (quote : Char) : Nat → List Cell → Option (List Char × List Cell)
  | 0, _ => none
  | _ + 1, [] => none
  | fuel + 1, c :: cs =>
    let go (text : List Char) (rest : List Cell) : Option (List Char × List Cell) :=
      (quotedScalar? quote fuel rest).map fun r => (text ++ r.1, r.2)
    if atDocumentMark (c :: cs) then none
    else if c.char = quote then
      if quote = '\'' && cs.head?.any (·.char = quote) then go [quote] (cs.drop 1) else some ([], cs)
    else if isGap c.char then
      let gap := splitGap (c :: cs)
      go (foldGap (chars gap.1)) gap.2
    else if c.char = '\\' && quote = '"' then
      match cs with
      | [] => none
      | d :: ds =>
        if isBreak d.char then
          let gap := splitGap ds
          go ((chars gap.1).filter isBreak) gap.2
        else (escape? cs).bind fun e => go [e.1] e.2
    else go [c.char] cs

/-- Characters that structure a collection between brackets. -/
def isFlowIndicator (c : Char) : Bool :=
  c = ',' || c = '[' || c = ']' || c = '\x7b' || c = '\x7d'

/-- Reads a word of a plain scalar: up to a gap, to a colon in front of a gap and, with `inFlow`, to a
character that structures collections. -/
def plainWord? (inFlow : Bool) : List Cell → Option (List Char × List Cell)
  | [] => some ([], [])
  | c :: cs =>
    if isGap c.char then some ([], c :: cs)
    else if inFlow && c.char = ':' && cs.head?.any fun d => isFlowIndicator d.char || d.char = '?' then none
    else if (c.char = ':' && atGap cs) || (inFlow && isFlowIndicator c.char) then some ([], c :: cs)
    else (plainWord? inFlow cs).map fun r => (c.char :: r.1, r.2)

/-- Whether a tab stands in front of column `margin` in a line of the gap but the first. -/
def tabInMargin (margin : Nat) (gap : List Cell) : Bool :=
  (gap.dropWhile fun c => !isBreak c.char).any fun c => c.char = '\t' && c.column < margin

/-- A plain scalar that has been read. -/
structure PlainScalar where
  text : List Char
  rest : List Cell
  /-- Whether a line break stands between the last word and the rest. -/
  brokenOff : Bool

/-- Reads the words of a plain scalar, `gap` being what stands in front of them. Outside of brackets it
ends with a line that begins before column `margin`. Each call but the last reads one word. -/
def plainScalar? (inFlow : Bool) (margin : Nat) : Nat → List Cell → List Cell → Option PlainScalar
  | 0, _, _ => none
  | fuel + 1, gap, cs =>
    let done : PlainScalar := ⟨[], cs, gap.any fun c => isBreak c.char⟩
    if atDocumentMark cs || cs.head?.any (·.char = '#') then some done
    else
      match plainWord? inFlow cs with
      | none => none
      | some ([], _) => some done
      | some (word, rest) =>
        let text := foldGap (chars gap) ++ word
        let next := splitGap rest
        if tabInMargin margin next.1 then none
        else if !inFlow && next.2.head?.any (·.column < margin) then
          some ⟨text, next.2, next.1.any fun c => isBreak c.char⟩
        else
          (plainScalar? inFlow margin fuel next.1 next.2).map fun r => { r with text := text ++ r.text }

/-- What becomes of the line breaks at the end of a block. -/
inductive Chomping where
  | strip
  | clip
  | keep
deriving DecidableEq, Repr

/-- The first line of a block. -/
structure BlockHeader where
  chomping : Chomping
  /-- Indentation against the enclosing collection, where it is given. -/
  increment : Option Nat

def chompingSign : List Cell → Option (Chomping × List Cell)
  | c :: cs =>
    if c.char = '+' then some (.keep, cs) else if c.char = '-' then some (.strip, cs) else none
  | [] => none

/-- Reads a digit for the indentation, if there is one. -/
def incrementDigit : List Cell → Option (Nat × List Cell)
  | c :: cs => if c.char.isDigit then some (c.char.toNat - '0'.toNat, cs) else none
  | [] => none

/-- Passes over blanks and a comment up to the end of the line, its break included. -/
def endOfLine? (cs : List Cell) : Option (List Cell) :=
  let cs := cs.dropWhile fun c => isSpaceOrTab c.char
  let cs := if cs.head?.any (·.char = '#') then cs.dropWhile fun c => !isBreak c.char else cs
  match cs with
  | [] => some []
  | c :: rest => if isBreak c.char then some rest else none

/-- Reads the first line of a block behind its indicator. -/
def blockHeader? (cs : List Cell) : Option (BlockHeader × List Cell) :=
  let (chomping, increment, cs) := match chompingSign cs with
    | some (sign, cs) =>
      match incrementDigit cs with
      | some (n, cs) => (sign, some n, cs)
      | none => (sign, none, cs)
    | none =>
      match incrementDigit cs with
      | some (n, cs) =>
        match chompingSign cs with
        | some (sign, cs) => (sign, some n, cs)
        | none => (Chomping.clip, some n, cs)
      | none => (Chomping.clip, none, cs)
  if increment = some 0 then none
  else (endOfLine? cs).map fun rest => (⟨chomping, increment⟩, rest)

/-- Passes over empty lines and over the indentation of the next line, which is at most `indent` where
that is known. Gives the breaks, the rest, and the widest indentation. A tab must not indent. -/
def emptyLines? (indent : Option Nat) : List Cell → Option (List Char × List Cell × Nat)
  | [] => some ([], [], 0)
  | c :: cs =>
    let inMargin := indent.all (c.column < ·)
    if inMargin && c.char = ' ' then
      (emptyLines? indent cs).map fun r => (r.1, r.2.1, max (c.column + 1) r.2.2)
    else if inMargin && c.char = '\t' then none
    else if isBreak c.char then (emptyLines? indent cs).map fun r => (c.char :: r.1, r.2)
    else some ([], c :: cs, c.column)

/-- A line of a block. -/
structure BlockLine where
  text : List Char
  /-- Its break; a line at the end of the text has none. -/
  terminator : List Char
  emptyLines : List Char

/-- Reads the lines of a block that are indented by `indent`. Each call reads one line. -/
def blockLines? (indent : Nat) : Nat → List Cell → Option (List BlockLine × List Cell)
  | 0, cs => some ([], cs)
  | fuel + 1, cs =>
    if cs.head?.any (·.column = indent) then
      let line := cs.span fun c => !isBreak c.char
      (emptyLines? (some indent) (line.2.drop 1)).bind fun e =>
        (blockLines? indent fuel e.2.1).map fun r =>
          (⟨chars line.1, chars (line.2.take 1), e.1⟩ :: r.1, r.2)
    else some ([], cs)

/-- Joins lines to the text of a block. `terminator`, `emptyLines` and `indented` belong to the line
before; an indented line begins with a blank of its own, and is not folded. -/
def joinBlock (folded : Bool) (chomping : Chomping) (terminator emptyLines : List Char)
    (indented : Bool) : List BlockLine → List Char
  | [] =>
    (if chomping = .strip then [] else terminator) ++ (if chomping = .keep then emptyLines else [])
  | l :: ls =>
    let indentedHere := l.text.head?.any isSpaceOrTab
    let glue :=
      if folded && terminator = ['\n'] && !indented && !indentedHere then
        if emptyLines = [] then [' '] else []
      else terminator
    glue ++ emptyLines ++ l.text ++ joinBlock folded chomping l.terminator l.emptyLines indentedHere ls

/-- Reads a block behind its indicator. Its lines are indented deeper than `level`, the column of the
enclosing collection. -/
def blockScalar? (folded : Bool) (level : Option Nat) (cs : List Cell) :
    Option (List Char × List Cell) :=
  (blockHeader? cs).bind fun h =>
    let given := h.1.increment.map fun n => level.getD 0 + n
    (emptyLines? given h.2).bind fun e =>
      let indent := given.getD (max e.2.2 (max ((level.map (· + 1)).getD 0) 1))
      (blockLines? indent e.2.1.length e.2.1).map fun r =>
        (joinBlock folded h.1.chomping [] e.1 false r.1, r.2)

end RenpyScript.Yaml
