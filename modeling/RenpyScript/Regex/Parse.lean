import RenpyScript.Regex.Basic

/-!
# Reading regular expressions

`Regex.parse?` reads the written form of a regular expression. Flags such as `(?i)` hold to the end of
their group. The reader goes from left to right over what is left of the text; the recursive parts
count down a fuel that exceeds the number of steps that a text of its length can take.
-/

namespace RenpyScript

namespace Regex

/-- What the letters of flags switch. -/
structure Flags where
  ignoreCase : Bool
  multiLine : Bool
  dotAll : Bool
  unicode : Bool
  extended : Bool
  crlf : Bool
deriving DecidableEq, Repr

def Flags.initial : Flags := ⟨false, false, false, true, false, false⟩

/-- What is left to read, the flags that hold, and the group names so far. -/
structure Reader where
  rest : List Char
  flags : Flags
  names : List (List Char)

/-- A reading step; it declines text that is not well formed. -/
abbrev Read (α : Type) : Type := StateT Reader Option α

/-- What an escape or a plain character stands for. -/
inductive Primitive where
  /-- A character; `raw` if it was given as a byte in hexadecimal. -/
  | literal (c : Char) (raw : Bool)
  | charClass (c : CharClass)
  | look (a : Assertion)

/-- A part of a concatenation. -/
inductive Item where
  | regex (r : Regex)
  | flags

/-- The operations on classes. -/
inductive SetOp where
  | intersection
  | difference
  | symmetricDifference

namespace Reader

/-- Passes over white space and comments. -/
def skipExtended (inComment : Bool) : List Char → List Char
  | [] => []
  | c :: cs =>
    if inComment then skipExtended (c ≠ '\n') cs
    else if isWhiteSpace c then skipExtended false cs
    else if c = '#' then skipExtended true cs
    else c :: cs

def peek : Read (Option Char) := do
  return (← get).rest.head?

/-- The next character; declines at the end. -/
def need : Read Char := do
  match (← get).rest with
  | [] => failure
  | c :: _ => return c

/-- Drops `n` characters. -/
def drop (n : Nat) : Read Unit :=
  modify fun s => { s with rest := s.rest.drop n }

/-- Passes over white space and comments if the flags say so. -/
def skipSpace : Read Unit :=
  modify fun s => if s.flags.extended then { s with rest := skipExtended false s.rest } else s

/-- Drops a character and the space behind it. -/
def bump : Read Unit := do
  drop 1
  skipSpace

/-- The next character behind this one and the space behind it. -/
def peekBehind : Read (Option Char) := do
  let s ← get
  let behind := s.rest.drop 1
  return (if s.flags.extended then skipExtended false behind else behind).head?

/-- Whether the rest begins with the given characters. -/
def begins (cs : List Char) : Read Bool := do
  return cs.isPrefixOf (← get).rest

/-- Drops the given characters if the rest begins with them. -/
def dropIf (cs : List Char) : Read Bool := do
  if ← begins cs then
    drop cs.length
    return true
  return false

/-- Declines unless the condition holds. -/
def require (condition : Bool) : Read Unit :=
  if condition then pure () else failure

/-- Collects up to `n` characters that `accept` accepts, and drops the space behind each. -/
def collect (accept : Char → Bool) : Nat → Read (List Char)
  | 0 => return []
  | n + 1 => do
    match ← peek with
    | none => return []
    | some c =>
      if accept c then
        bump
        return c :: (← collect accept n)
      else return []

/-- Collects as many characters as there are. -/
def collectAll (accept : Char → Bool) : Read (List Char) := do
  collect accept (← get).rest.length

/-- Drops white space whatever the flags say. -/
def dropWhiteSpace : Read Unit :=
  modify fun s => { s with rest := s.rest.dropWhile isWhiteSpace }

def decimal : Read Nat := do
  dropWhiteSpace
  let digits ← collectAll Char.isDigit
  dropWhiteSpace
  require !digits.isEmpty
  let n := digits.foldl (fun n c => 10 * n + (c.toNat - '0'.toNat)) 0
  require (n < 0x100000000)
  return n

/-- Whether the character is a hexadecimal digit. -/
def isHexDigit (c : Char) : Bool :=
  c.isDigit || ('a' ≤ c && c ≤ 'f') || ('A' ≤ c && c ≤ 'F')

/-- The character with a given code point; declines a number that is none. -/
def scalar (n : Nat) : Read Char :=
  if n < 0xd800 ∨ (0xe000 ≤ n ∧ n < 0x110000) then return Char.ofNat n else failure

/-- Reads exactly `n` hexadecimal digits. -/
def hexFixed : Nat → List Char → Read (List Char)
  | 0, digits => return digits.reverse
  | n + 1, digits => do
    let c ← need
    require (isHexDigit c)
    bump
    hexFixed n (c :: digits)

/-- Reads a code point in hexadecimal, in braces or with `n` digits. -/
def hexadecimal (n : Nat) : Read Primitive := do
  bump
  let c ← need
  if c = '\x7b' then
    bump
    let digits ← collectAll isHexDigit
    require ((← need) = '\x7d')
    bump
    require !digits.isEmpty
    return .literal (← scalar (Category.hexValue (digits.map Char.toLower))) false
  else
    let digits ← hexFixed n []
    return .literal (← scalar (Category.hexValue (digits.map Char.toLower))) (n = 2)

/-- A class of the reader's flags, or its complement. Without Unicode no class may hold characters
outside ASCII, so there are no complements. -/
def signed (negated : Bool) (c : CharClass) : Read CharClass := do
  if negated then
    require (← get).flags.unicode
    return .complement c
  return c

/-- The class with every case of its members if the flags say so. -/
def withCase (c : CharClass) : Read CharClass := do
  let flags := (← get).flags
  return if flags.ignoreCase then (if flags.unicode then .anyCase c else .anyAsciiCase c) else c

/-- Splits at the first occurrence of a sign that stands between a property and its value. -/
def splitProperty : List Char → Option (Bool × List Char × List Char)
  | [] => none
  | '!' :: '=' :: value => some (true, [], value)
  | c :: cs =>
    if c = ':' || c = '=' then some (false, [], cs)
    else (splitProperty cs).map fun (negated, property, value) => (negated, c :: property, value)

/-- Reads the name of a property behind `\p` or `\P`. -/
def property (negated : Bool) : Read Primitive := do
  require (← get).flags.unicode
  bump
  let c ← need
  if c = '\x7b' then
    bump
    let name ← collectAll (· ≠ '\x7d')
    let _ ← need
    drop 1
    match splitProperty name with
    | none =>
      match CharClass.named? name with
      | some cls => return .charClass (← signed negated (← withCase cls))
      | none => failure
    | some (differs, property, value) =>
      match CharClass.valued? property value with
      | some cls => return .charClass (← signed (negated != differs) (← withCase cls))
      | none => failure
  else
    require (c ≠ '\\')
    bump
    match CharClass.named? [c] with
    | some cls => return .charClass (← signed negated (← withCase cls))
    | none => failure

/-- The class of digits, white space or word characters. -/
def perlClass (c : Char) : Read CharClass := do
  let unicode := (← get).flags.unicode
  match c.toLower with
  | 'd' =>
    signed c.isUpper (if unicode then .property (.category .decimalNumber) else .range 0x30 0x39)
  | 's' =>
    signed c.isUpper
      (if unicode then .property .whiteSpace else .ranges [(0x9, 0xd), (0x20, 0x20)])
  | _ =>
    signed c.isUpper
      (if unicode then .property .word
        else .ranges [(0x30, 0x39), (0x41, 0x5a), (0x5f, 0x5f), (0x61, 0x7a)])

/-- Characters that have a meaning of their own without a backslash. -/
def isMeta (c : Char) : Bool :=
  "\\.+*?()|[]\x7b\x7d^$#&-~".toList.contains c

/-- Characters that stand for themselves behind a backslash. -/
def isEscapable (c : Char) : Bool :=
  isMeta c || (c.toNat < 0x80 && !c.isAlphanum && c ≠ '<' && c ≠ '>')

/-- Reads the name of a word boundary in braces, if there is one. Braces with anything but a name are
a repetition. -/
def boundaryName? (ascii : Bool) : Read (Option Assertion) := do
  let before ← get
  bump
  let first ← need
  let isNamePart (c : Char) : Bool := c.isAlpha || c = '-'
  if !isNamePart first then
    set before
    return none
  let name ← collectAll isNamePart
  require ((← need) = '\x7d')
  drop 1
  match String.ofList name with
  | "start" => return some (.wordStart ascii)
  | "end" => return some (.wordEnd ascii)
  | "start-half" => return some (.noWordBefore ascii)
  | "end-half" => return some (.noWordAfter ascii)
  | _ => failure

/-- Reads an escape; the backslash is still to be read. -/
def escape : Read Primitive := do
  drop 1
  let c ← need
  let ascii := !(← get).flags.unicode
  if c.isDigit then failure
  match c with
  | 'x' => hexadecimal 2
  | 'u' => hexadecimal 4
  | 'U' => hexadecimal 8
  | 'p' => property false
  | 'P' => property true
  | 'd' | 's' | 'w' | 'D' | 'S' | 'W' =>
    drop 1
    return .charClass (← perlClass c)
  | _ =>
    drop 1
    if isEscapable c then return .literal c false
    match c with
    | 'a' => return .literal '\x07' false
    | 'f' => return .literal '\x0c' false
    | 't' => return .literal '\t' false
    | 'n' => return .literal '\n' false
    | 'r' => return .literal '\r' false
    | 'v' => return .literal '\x0b' false
    | 'A' => return .look .textStart
    | 'z' => return .look .textEnd
    | 'B' => return .look (.noWordBoundary ascii)
    | '<' => return .look (.wordStart ascii)
    | '>' => return .look (.wordEnd ascii)
    | 'b' =>
      if (← peek) = some '\x7b' then
        match ← boundaryName? ascii with
        | some a => return .look a
        | none => return .look (.wordBoundary ascii)
      else return .look (.wordBoundary ascii)
    | _ => failure

/-! ## Classes in brackets -/

/-- Reads an ASCII class such as `[:alpha:]`, or nothing if there is none. -/
def asciiClass? : Read (Option CharClass) := do
  let before ← get
  if !(← dropIf ['[', ':']) then return none
  let negated ← dropIf ['^']
  let rest := (← get).rest
  let name := rest.takeWhile (· ≠ ':')
  drop name.length
  match CharClass.asciiNamed? (String.ofList name) with
  | some cls =>
    if ← dropIf [':', ']'] then return some (← signed negated (← withCase cls))
    set before
    return none
  | none =>
    set before
    return none

def classItem : Read Primitive := do
  let c ← need
  if c = '\\' then escape
  else
    drop 1
    return .literal c false

/-- The character of an end of a range. Without Unicode it has to be ASCII. -/
def rangeEnd (p : Primitive) : Read Char := do
  match p with
  | .literal c _ =>
    require ((← get).flags.unicode || c.toNat < 0x80)
    return c
  | _ => failure

/-- Reads an item of a class, or a range between two of them. -/
def classRange : Read CharClass := do
  let first ← classItem
  skipSpace
  let c ← need
  let behind ← peekBehind
  if c ≠ '-' || behind = some ']' || behind = some '-' then
    match first with
    | .charClass cls => return cls
    | _ => return .single (← rangeEnd first)
  else
    bump
    let _ ← need
    let last ← classItem
    let a ← rangeEnd first
    let b ← rangeEnd last
    require (a.toNat ≤ b.toNat)
    return .range a.toNat b.toNat

/-- The class with the operation that waits for it. -/
def applyPending (pending : Option (SetOp × CharClass)) (c : CharClass) : Read CharClass := do
  match pending with
  | none => return c
  | some (op, lhs) =>
    let a ← withCase lhs
    let b ← withCase c
    match op with
    | .intersection => return .intersection a b
    | .difference => return .difference a b
    | .symmetricDifference => return .symmetricDifference a b

def setOp? : Read (Option SetOp) := do
  if ← dropIf ['&', '&'] then return some .intersection
  if ← dropIf ['-', '-'] then return some .difference
  if ← dropIf ['~', '~'] then return some .symmetricDifference
  return none

mutual
/-- Reads a class whose bracket has been read, up to its closing bracket. -/
def classBody : Nat → Read CharClass
  | 0 => failure
  | n + 1 => do
    skipSpace
    let negated := (← need) = '^'
    if negated then bump
    let dashes ← collectAll (· = '-')
    let c ← need
    if dashes.isEmpty && c = ']' then
      bump
      let cls ← classItems n none (.single ']')
      signed negated (← withCase cls)
    else
      let cls ← classItems n none (if dashes.isEmpty then .empty else .single '-')
      signed negated (← withCase cls)

/-- Reads the items of a class; `members` are those since the last operation. -/
def classItems : Nat → Option (SetOp × CharClass) → CharClass → Read CharClass
  | 0, _, _ => failure
  | n + 1, pending, members => do
    skipSpace
    match ← need with
    | '[' =>
      match ← asciiClass? with
      | some cls => classItems n pending (.union members cls)
      | none =>
        drop 1
        let inner ← classBody n
        classItems n pending (.union members inner)
    | ']' =>
      drop 1
      applyPending pending members
    | _ =>
      match ← setOp? with
      | some op =>
        let lhs ← applyPending pending members
        classItems n (some (op, lhs)) .empty
      | none =>
        let cls ← classRange
        classItems n pending (.union members cls)
end

/-! ## Groups and repetitions -/

def switchFlag (on : Bool) (f : Flags) : Char → Option Flags
  | 'i' => some { f with ignoreCase := on }
  | 'm' => some { f with multiLine := on }
  | 's' => some { f with dotAll := on }
  | 'u' => some { f with unicode := on }
  | 'x' => some { f with extended := on }
  | 'R' => some { f with crlf := on }
  | 'U' => some f
  | _ => none

/-- Reads letters of flags up to a colon or a closing parenthesis. A letter, and the sign that
switches off, may stand once, and the sign not at the end. -/
def flagLetters : Nat → Flags → List Char → Read (Flags × List Char)
  | 0, _, _ => failure
  | n + 1, f, seen => do
    let c ← need
    if c = ':' || c = ')' then
      require (seen.head? ≠ some '-')
      return (f, seen)
    require !(seen.contains c)
    drop 1
    if c = '-' then flagLetters n f ('-' :: seen)
    else
      match switchFlag (!seen.contains '-') f c with
      | some g => flagLetters n g (c :: seen)
      | none => failure

/-- Whether the character may stand in the name of a group. -/
def isGroupNameChar (isFirst : Bool) (c : Char) : Bool :=
  if isFirst then c = '_' || isAlphabetic c
  else c = '_' || c = '.' || c = '[' || c = ']' || isAlphanumeric c

/-- Reads the name of a group and the bracket behind it. No two groups have the same name. -/
def groupName : Read Unit := do
  let s ← get
  let name := s.rest.takeWhile (· ≠ '>')
  match name with
  | [] => failure
  | c :: cs =>
    require (isGroupNameChar true c && cs.all (isGroupNameChar false))
    require !(s.names.contains name)
    drop name.length
    let _ ← need
    drop 1
    modify fun s => { s with names := name :: s.names }

/-- The item that a repetition applies to, and those before it. -/
def repeated (items : List Item) : Read (Regex × List Item) :=
  match items with
  | .regex r :: before => return (r, before)
  | _ => failure

def bounds : Read (Nat × Option Nat) := do
  bump
  let _ ← need
  let min ← decimal
  let c ← need
  let limits ← if c = ',' then do
      bump
      if (← need) = '\x7d' then pure (min, none) else pure (min, some (← decimal))
    else pure (min, some min)
  require ((← need) = '\x7d')
  bump
  if (← peek) = some '?' then drop 1
  require (limits.2.all (min ≤ ·))
  return limits

def ofPrimitive (p : Primitive) : Read Regex := do
  match p with
  | .literal c raw =>
    let flags := (← get).flags
    require (flags.unicode || !raw || c.toNat < 0x80)
    if flags.unicode || c.toNat < 0x80 then return .char (← withCase (.single c))
    else return .char (.single c)
  | .charClass c => return .char c
  | .look a => return .look a

def dot : Read Regex := do
  let flags := (← get).flags
  require flags.unicode
  if flags.dotAll then return .char .full
  if flags.crlf then return .char (.complement (.union (.single '\n') (.single '\r')))
  return .char (.complement (.single '\n'))

/-- The assertion of `^`. -/
def startSign : Read Regex := do
  let flags := (← get).flags
  return .look (if !flags.multiLine then .textStart else if flags.crlf then .lineStartCRLF else .lineStart)

/-- The assertion of `$`. -/
def endSign : Read Regex := do
  let flags := (← get).flags
  return .look (if !flags.multiLine then .textEnd else if flags.crlf then .lineEndCRLF else .lineEnd)

/-- The concatenation of items, the last one first. -/
def concatItems (items : List Item) : Regex :=
  concatAll (items.reverse.filterMap fun
    | .regex r => some r
    | .flags => none)

/-- How often the sign repeats what it follows. -/
def signBounds (c : Char) : Nat × Option Nat :=
  if c = '?' then (0, some 1) else if c = '*' then (0, none) else (1, none)

mutual
/-- Reads up to a closing parenthesis or the end. `items` are those of the current branch and `done`
the branches before it, the last one first. -/
def branches : Nat → List Item → List Regex → Read Regex
  | 0, _, _ => failure
  | n + 1, items, done => do
    skipSpace
    match ← peek with
    | none => return alternateAll (concatItems items :: done).reverse
    | some ')' => return alternateAll (concatItems items :: done).reverse
    | some '|' =>
      drop 1
      branches n [] (concatItems items :: done)
    | some '(' =>
      let item ← group n
      branches n (item :: items) done
    | some '[' =>
      drop 1
      let fuel := 2 * (← get).rest.length + 2
      let cls ← classBody fuel
      branches n (.regex (.char cls) :: items) done
    | some '\x7b' =>
      let (r, before) ← repeated items
      let (min, max) ← bounds
      branches n (.regex (.times r min max) :: before) done
    | some '\\' =>
      let r ← ofPrimitive (← escape)
      branches n (.regex r :: items) done
    | some '.' =>
      drop 1
      let r ← dot
      branches n (.regex r :: items) done
    | some '^' =>
      drop 1
      let r ← startSign
      branches n (.regex r :: items) done
    | some '$' =>
      drop 1
      let r ← endSign
      branches n (.regex r :: items) done
    | some c =>
      if c = '?' || c = '*' || c = '+' then
        let (r, before) ← repeated items
        drop 1
        if (← peek) = some '?' then drop 1
        let (min, max) := signBounds c
        branches n (.regex (.times r min max) :: before) done
      else
        drop 1
        let r ← ofPrimitive (.literal c false)
        branches n (.regex r :: items) done

/-- Reads a group, or flags in parentheses; the opening parenthesis is still to be read. -/
def group : Nat → Read Item
  | 0 => failure
  | n + 1 => do
    let outer := (← get).flags
    drop 1
    skipSpace
    for sign in ["?=", "?!", "?<=", "?<!"] do
      require !(← begins sign.toList)
    if ← (dropIf "?P<".toList <||> dropIf "?<".toList) then
      groupName
      groupBody n outer
    else if ← dropIf ['?'] then
      let (flags, letters) ← flagLetters ((← get).rest.length + 1) outer []
      let c ← need
      drop 1
      modify fun s => { s with flags }
      if c = ')' then
        require !letters.isEmpty
        return .flags
      else groupBody n outer
    else groupBody n outer

/-- Reads the inside of a group and its closing parenthesis, and gives the flags back that held
outside. -/
def groupBody : Nat → Flags → Read Item
  | 0, _ => failure
  | n + 1, outer => do
    let r ← branches n [] []
    require ((← need) = ')')
    drop 1
    modify fun s => { s with flags := outer }
    return .regex r
end

end Reader

/-- Reads a regular expression. -/
def parse? (text : String) : Option Regex := do
  let chars := text.toList
  let (r, reader) ← Reader.branches (3 * chars.length + 3) [] [] |>.run ⟨chars, .initial, []⟩
  if reader.rest.isEmpty then some r else none

end Regex

end RenpyScript
