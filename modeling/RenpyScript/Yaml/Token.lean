import RenpyScript.Yaml.Scalar

/-!
# Tokens

A YAML text as a list of tokens. Indentation shows in the tokens that open and close block collections.
That a scalar is a key shows only at the colon behind it; its token for the key is then put in front of
it.
-/

namespace RenpyScript.Yaml

/-- A token of a YAML text. -/
inductive Token where
  | version (major minor : Nat)
  | handle (name expansion : String)
  | documentStart
  | documentEnd
  | openList
  | openMapping
  /-- The end of a block collection. -/
  | close
  | openFlowList
  | closeFlowList
  | openFlowMapping
  | closeFlowMapping
  | item
  | comma
  | key
  | value
  | alias (name : String)
  | anchor (name : String)
  | tag (handle suffix : String)
  | scalar (text : String) (plain : Bool)
deriving DecidableEq, Repr

/-- A place where a key may have begun. -/
structure KeyPlace where
  line : Nat
  column : Nat
  tokens : Nat
  /-- Whether nothing but a key can begin there. -/
  required : Bool
deriving DecidableEq, Repr

/-- How far a text has been split into tokens. -/
structure Lexing where
  rest : List Cell
  tokens : List Token
  /-- The columns of the open block collections, the innermost first. -/
  levels : List Nat
  /-- Where a key may have begun in the innermost collection. -/
  keyPlace : Option KeyPlace
  /-- The same for the collections around it, if it stands between brackets. -/
  outerPlaces : List (Option KeyPlace)
  /-- Whether a key may begin here. -/
  keyAllowed : Bool

namespace Lexing

/-- Whether the text stands between brackets. -/
def inFlow (s : Lexing) : Bool :=
  !s.outerPlaces.isEmpty

/-- The column that the lines of the innermost block collection go beyond. -/
def margin (s : Lexing) : Nat :=
  (s.levels.head?.map (· + 1)).getD 0

/-- Adds a token and goes on at `rest`. -/
def emit (s : Lexing) (t : Token) (rest : List Cell) : Lexing :=
  { s with tokens := t :: s.tokens, rest := rest }

/-- Adds tokens behind the first `n`. -/
def insert (s : Lexing) (n : Nat) (ts : List Token) : Lexing :=
  let later := s.tokens.length - n
  { s with tokens := s.tokens.take later ++ ts.reverse ++ s.tokens.drop later }

/-- Gives up the place where a key may have begun. A required key must not be given up. -/
def dropKey? (s : Lexing) : Option Lexing :=
  if s.keyPlace.any (·.required) then none else some { s with keyPlace := none }

def noteKey? (s : Lexing) (c : Cell) : Option Lexing :=
  if s.keyAllowed then
    let required := !s.inFlow && s.levels.head? = some c.column
    (s.dropKey?).map fun s =>
      { s with keyPlace := some ⟨c.line, c.column, s.tokens.length, required⟩, keyAllowed := false }
  else some s

/-- Whether a key that began at `p` can no longer be told at a cell: keys are short and stay on a line. -/
def isStale (c : Cell) (p : KeyPlace) : Bool :=
  p.line < c.line || p.column + 1024 < c.column

def dropStale? (s : Lexing) (c : Cell) : Option Lexing :=
  let stale := (s.keyPlace :: s.outerPlaces).filterMap fun p => p.filter (isStale c)
  if stale.any (·.required) then none
  else
    let keep (p : Option KeyPlace) : Option KeyPlace := p.filter fun p => !isStale c p
    some { s with keyPlace := keep s.keyPlace, outerPlaces := s.outerPlaces.map keep }

/-- Opens a block collection at a column, unless the innermost one is there already. Its token stands
behind the first `n`. -/
def openAt (s : Lexing) (column n : Nat) (t : Token) : Lexing :=
  if s.inFlow || s.levels.head?.any (column ≤ ·) then s
  else { s.insert n [t] with levels := column :: s.levels }

/-- Closes the block collections that `closes` holds of. -/
def closeWhere (s : Lexing) (closes : Nat → Bool) : Lexing :=
  if s.inFlow then s
  else
    let ended := s.levels.takeWhile closes
    { s with tokens := ended.map (fun _ => Token.close) ++ s.tokens, levels := s.levels.drop ended.length }

/-- Passes over blanks, comments and line breaks. Outside of brackets a key may begin on a new line, and
tabs must not stand where a key may begin. -/
def toToken (inFlow : Bool) : (keyAllowed comment : Bool) → List Cell → Bool × List Cell
  | allowed, _, [] => (allowed, [])
  | allowed, comment, c :: cs =>
    if isBreak c.char then toToken inFlow (allowed || !inFlow) false cs
    else if comment then toToken inFlow allowed true cs
    else if c.char = ' ' || (c.char = '\t' && (inFlow || !allowed)) ||
        (c.char = '\ufeff' && c.column = 0) then toToken inFlow allowed false cs
    else if c.char = '#' then toToken inFlow allowed true cs
    else (allowed, c :: cs)

/-- Characters of the names of anchors, handles and directives. -/
def isNameChar (c : Char) : Bool :=
  c.isAlphanum || c = '_' || c = '-'

def splitName (cs : List Cell) : String × List Cell :=
  let r := cs.span fun c => isNameChar c.char
  (String.ofList (chars r.1), r.2)

/-- Splits a number of one to nine digits off a text. -/
def splitNumber? (cs : List Cell) : Option (Nat × List Cell) :=
  let r := cs.span fun c => c.char.isDigit
  if r.1.isEmpty || 9 < r.1.length then none
  else some (r.1.foldl (fun n c => 10 * n + (c.char.toNat - '0'.toNat)) 0, r.2)

def skipSpaces (cs : List Cell) : List Cell :=
  cs.dropWhile fun c => isSpaceOrTab c.char

/-- Splits the handle of a tag off a text: an exclamation mark, perhaps with a name and another mark. -/
def splitHandle? : List Cell → Option (String × List Cell)
  | c :: cs =>
    if c.char = '!' then
      let r := splitName cs
      if r.2.head?.any (·.char = '!') then some ("!" ++ r.1 ++ "!", r.2.drop 1)
      else some ("!" ++ r.1, r.2)
    else none
  | [] => none

def isTagChar (c : Char) : Bool :=
  isNameChar c || [';', '/', '?', ':', '@', '&', '=', '+', '$', '.', '!', '~', '*', '\'', '(', ')'].contains c

/-- An octet written as a percent sign and two digits. -/
def octet? : List Cell → Option (Nat × List Cell)
  | c :: cs => if c.char = '%' then hexNumber? 2 0 cs else none
  | [] => none

/-- Reads `n` further octets of a character. -/
def followingOctets? : Nat → Nat → List Cell → Option (Nat × List Cell)
  | 0, code, cs => some (code, cs)
  | n + 1, code, cs =>
    (octet? cs).bind fun r =>
      if r.1 / 64 = 2 then followingOctets? n (64 * code + r.1 % 64) r.2 else none

def octetChar? (cs : List Cell) : Option (Char × List Cell) :=
  (octet? cs).bind fun r =>
    let code :=
      if r.1 / 128 = 0 then some (r.1, r.2)
      else if r.1 / 32 = 6 then followingOctets? 1 (r.1 % 32) r.2
      else if r.1 / 16 = 14 then followingOctets? 2 (r.1 % 16) r.2
      else if r.1 / 8 = 30 then followingOctets? 3 (r.1 % 8) r.2
      else none
    code.map fun k => (Char.ofNat k.1, k.2)

/-- Reads the characters of a tag, more of them with `wide`. Each call but the last reads one. -/
def tagText? (wide : Bool) : Nat → List Cell → Option (List Char × List Cell)
  | 0, cs => some ([], cs)
  | _ + 1, [] => some ([], [])
  | fuel + 1, c :: cs =>
    if c.char = '%' then
      (octetChar? (c :: cs)).bind fun r =>
        (tagText? wide fuel r.2).map fun t => (r.1 :: t.1, t.2)
    else if isTagChar c.char || (wide && (c.char = ',' || c.char = '[' || c.char = ']')) then
      (tagText? wide fuel cs).map fun t => (c.char :: t.1, t.2)
    else some ([], c :: cs)

/-- Splits the text of a tag off; `before` stands in front of it. There must be some. -/
def splitTagText? (wide : Bool) (before : String) (cs : List Cell) : Option (String × List Cell) :=
  (tagText? wide cs.length cs).bind fun t =>
    let text := before ++ String.ofList t.1
    if text.isEmpty then none else some (text, t.2)

/-- Reads a tag, whose exclamation mark is in front of the text. -/
def tag? (cs : List Cell) : Option (Token × List Cell) :=
  if (cs.drop 1).head?.any (·.char = '<') then
    (splitTagText? true "" (cs.drop 2)).bind fun t =>
      if t.2.head?.any (·.char = '>') then some (.tag "" t.1, t.2.drop 1) else none
  else
    (splitHandle? cs).bind fun h =>
      if 1 < h.1.length && h.1.toList.getLast? = some '!' then
        (splitTagText? false "" h.2).map fun t => (.tag h.1 t.1, t.2)
      else
        (tagText? false h.2.length h.2).map fun t =>
          let suffix := String.ofList (h.1.toList.drop 1 ++ t.1)
          (if suffix.isEmpty then .tag "" "!" else .tag "!" suffix, t.2)

/-- Reads a directive behind its percent sign: the version, or the expansion of a handle. -/
def directive? (cs : List Cell) : Option (Token × List Cell) :=
  let name := splitName cs
  if !atGap name.2 then none
  else if name.1 = "YAML" then do
    let major ← splitNumber? (skipSpaces name.2)
    if !major.2.head?.any (·.char = '.') then none
    let minor ← splitNumber? (major.2.drop 1)
    let rest ← endOfLine? minor.2
    return (.version major.1 minor.1, rest)
  else if name.1 = "TAG" then do
    let h ← splitHandle? (skipSpaces name.2)
    if 1 < h.1.length && h.1.toList.getLast? != some '!' then none
    if !h.2.head?.any (fun c => isSpaceOrTab c.char) then none
    let t ← splitTagText? true "" (skipSpaces h.2)
    if !atGap t.2 then none
    let rest ← endOfLine? t.2
    return (.handle h.1 t.1, rest)
  else none

def anchorName? (cs : List Cell) : Option (String × List Cell) :=
  let name := splitName cs
  let ends := name.2.head?.all fun c =>
    isGap c.char || ['?', ':', ',', ']', '\x7d', '%', '@', '\x60'].contains c.char
  if name.1.isEmpty || !ends then none else some name

/-- Whether a plain scalar begins with `c`, in front of `cs`. -/
def beginsPlain (inFlow : Bool) (c : Char) (cs : List Cell) : Bool :=
  let indicator := isGap c || isFlowIndicator c || ['-', '?', ':', '#', '&', '*', '!', '|', '>', '\'', '"', '%',
    '@', '\x60'].contains c
  !indicator || (c = '-' && !cs.head?.any fun d => isSpaceOrTab d.char) ||
    (!inFlow && (c = '?' || c = ':') && !atGap cs)

/-- Reads the colon in front of `cs`. If a key may have begun, it did. -/
def colon? (s : Lexing) (c : Cell) (cs : List Cell) : Option Lexing :=
  match s.keyPlace with
  | some p =>
    let s := (s.insert p.tokens [.key]).openAt p.column p.tokens .openMapping
    some ({ s with keyPlace := none, keyAllowed := false }.emit .value cs)
  | none =>
    if s.inFlow then some ({ s with keyAllowed := false }.emit .value cs)
    else if s.keyAllowed then some ((s.openAt c.column s.tokens.length .openMapping).emit .value cs)
    else none

/-- Reads an indicator in front of `cs` that opens a block collection, unless one is open at its column. -/
def indicator? (s : Lexing) (c : Cell) (cs : List Cell) (opening t : Token) (allowed : Bool) :
    Option Lexing :=
  if !s.inFlow && !s.keyAllowed then none
  else
    ((s.openAt c.column s.tokens.length opening).dropKey?).map fun s =>
      { s with keyAllowed := allowed }.emit t cs

/-- Reads the token at the beginning of the text. -/
def token? (s : Lexing) (c : Cell) (cs : List Cell) : Option Lexing :=
  let outermost (t : Token) (rest : List Cell) : Option Lexing :=
    ((s.closeWhere fun _ => true).dropKey?).map fun s => { s with keyAllowed := false }.emit t rest
  let opening (t : Token) : Option Lexing :=
    (s.noteKey? c).map fun s =>
      { s with keyPlace := none, outerPlaces := s.keyPlace :: s.outerPlaces, keyAllowed := true }.emit t cs
  let closing (t : Token) : Option Lexing :=
    (s.dropKey?).map fun s =>
      let s := match s.outerPlaces with
        | p :: ps => { s with keyPlace := p, outerPlaces := ps }
        | [] => s
      { s with keyAllowed := false }.emit t cs
  let beginning (r : Option (Token × List Cell)) : Option Lexing :=
    (s.noteKey? c).bind fun s => r.map fun r => { s with keyAllowed := false }.emit r.1 r.2
  let scalar (plain : Bool) (r : List Char × List Cell) : Token × List Cell :=
    (.scalar (String.ofList r.1) plain, r.2)
  let quoted := (quotedScalar? c.char (cs.length + 1) cs).map (scalar false)
  let block := (blockScalar? (c.char = '>') s.levels.head? cs).map (scalar false)
  if c.column = 0 && c.char = '%' then (directive? cs).bind fun r => outermost r.1 r.2
  else if atMark '-' (c :: cs) then outermost .documentStart (cs.drop 2)
  else if atMark '.' (c :: cs) then outermost .documentEnd (cs.drop 2)
  else if c.char = '[' then opening .openFlowList
  else if c.char = '\x7b' then opening .openFlowMapping
  else if c.char = ']' then closing .closeFlowList
  else if c.char = '\x7d' then closing .closeFlowMapping
  else if c.char = ',' then
    (s.dropKey?).map fun s => { s with keyAllowed := true }.emit .comma cs
  else if c.char = '-' && atGap cs then s.indicator? c cs .openList .item true
  else if c.char = '?' && (s.inFlow || atGap cs) then s.indicator? c cs .openMapping .key (!s.inFlow)
  else if c.char = ':' && (s.inFlow || atGap cs) then s.colon? c cs
  else if c.char = '*' then beginning ((anchorName? cs).map fun r => (.alias r.1, r.2))
  else if c.char = '&' then beginning ((anchorName? cs).map fun r => (.anchor r.1, r.2))
  else if c.char = '!' then
    beginning ((tag? (c :: cs)).filter fun r =>
      atGap r.2 || (s.inFlow && r.2.head?.any (·.char = ',')))
  else if (c.char = '|' || c.char = '>') && !s.inFlow then
    (s.dropKey?).bind fun s => block.map fun r => { s with keyAllowed := true }.emit r.1 r.2
  else if c.char = '\'' || c.char = '"' then beginning quoted
  else if beginsPlain s.inFlow c.char cs then
    (s.noteKey? c).bind fun s =>
      (plainScalar? s.inFlow s.margin (cs.length + 2) [] (c :: cs)).map fun r =>
        { s with keyAllowed := r.brokenOff }.emit (.scalar (String.ofList r.text) true) r.rest
  else none

/-- The tokens of a text. Each call but the last reads one token, which takes one character at least. -/
def tokens? : Nat → Lexing → Option (List Token)
  | 0, _ => none
  | fuel + 1, s =>
    let r := toToken s.inFlow s.keyAllowed false s.rest
    let s := { s with keyAllowed := r.1, rest := r.2 }
    match s.rest with
    | [] => ((s.closeWhere fun _ => true).dropKey?).map fun s => s.tokens.reverse
    | c :: cs =>
      (s.dropStale? c).bind fun s =>
        ((s.closeWhere fun level => c.column < level).token? c cs).bind (tokens? fuel)

end Lexing

def Token.ofText? (text : List Char) : Option (List Token) :=
  (cells? text).bind fun cells =>
    Lexing.tokens? (cells.length + 1) ⟨cells, [], [], none, [], true⟩

end RenpyScript.Yaml
