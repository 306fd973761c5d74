import RenpyScript.Query.Predicate
import RenpyScript.Text.Blank

/-!
# Reading queries

A query is written as a sequence of patterns. White space, and comments from a semicolon to the end
of the line, may stand between tokens. `Query.ofSource` reads a query; it stops at the first fault.
-/

namespace RenpyScript.Query

/-- What a fault is, and the unread text where it was found. -/
structure Flaw where
  fault : QueryFault
  rest : List Char
deriving Repr

section
variable [RegexEngine]

/-- How far a query has been read. -/
structure Reading where
  rest : List Char
  /-- Names of captures in the order of their first use. -/
  names : List String
  /-- Predicates of the pattern that is being read, each with the text that begins with it. -/
  predicates : List (Predicate × List Char)

abbrev Read := StateT Reading (Except Flaw)

end

/-- Passes over white space and comments; `comment` tells whether it begins inside of one. -/
def skipTrivia (comment : Bool) : List Char → List Char
  | [] => []
  | c :: cs =>
    if comment then skipTrivia (c ≠ '\n') cs
    else if isWhiteSpace c then skipTrivia false cs
    else if c = ';' then skipTrivia true cs
    else c :: cs

/-- Characters of the names of kinds, fields, captures and predicates. -/
def isNameChar (c : Char) : Bool :=
  c.isAlphanum || c = '_' || c = '-' || c = '.' || c = '?' || c = '!'

/-- What a backslash and a character stand for in a string. -/
def unescaped (c : Char) : Char :=
  if c = 'n' then '\n' else if c = 't' then '\t' else if c = 'r' then '\r' else if c = '0' then '\x00'
  else c

/-- Splits the text behind an opening quote into the value of the string and what follows its closing
quote. -/
def splitString : List Char → Option (List Char × List Char)
  | [] => none
  | '"' :: cs => some ([], cs)
  | ['\\'] => none
  | '\\' :: c :: cs => (splitString cs).map fun r => (unescaped c :: r.1, r.2)
  | c :: cs => (splitString cs).map fun r => (c :: r.1, r.2)

/-- Whether a parenthesis opens a predicate. Comments must not stand in front of its name. -/
def opensPredicate : List Char → Bool
  | '(' :: cs => (cs.dropWhile isWhiteSpace).head? = some '#'
  | _ => false

/-- Whether a parenthesis with `cs` behind it groups a pattern with predicates. -/
def Read.opensGroup (cs : List Char) : Bool :=
  match cs with
  | c :: _ => c = '(' || c = '[' || c = '"'
  | [] => false

def Read.fuelFor (cs : List Char) : Nat :=
  2 * cs.length + 2

section
variable [RegexEngine]

namespace Read

/-- Stops at the current place. -/
def fail {α : Type} (fault : QueryFault) : Read α := do
  throw ⟨fault, (← get).rest⟩

/-- Goes on at `cs`. -/
def moveTo (cs : List Char) : Read Unit :=
  modify fun s => { s with rest := cs }

/-- The text behind white space and comments. -/
def next : Read (List Char) := do
  let cs := skipTrivia false (← get).rest
  moveTo cs
  return cs

def name : Read String := do
  let cs := (← get).rest
  moveTo (cs.dropWhile isNameChar)
  return String.ofList (cs.takeWhile isNameChar)

/-- Reads a string whose opening quote is in front of `cs`. -/
def string (cs : List Char) : Read String := do
  match splitString cs with
  | some (value, rest) =>
    moveTo rest
    return String.ofList value
  | none => throw ⟨.unterminatedString, '"' :: cs⟩

/-- The index of a capture. A name not seen before gets the next index. -/
def capture (name : String) : Read Nat := do
  let s ← get
  match s.names.idxOf? name with
  | some i => return i
  | none =>
    set { s with names := s.names ++ [name] }
    return s.names.length

/-- Reads captures. Each takes two characters at least, so as much fuel as there are characters is
enough. -/
def captures : Nat → Read (List Nat)
  | 0 => return []
  | fuel + 1 => do
    match (← next) with
    | '@' :: cs =>
      moveTo cs
      let n ← name
      if n.isEmpty then fail .noCaptureName
      let i ← capture n
      return i :: (← captures fuel)
    | _ => return []

/-- Reads the quantifier and the captures behind a pattern. -/
def suffix (p : Pattern) : Read Pattern := do
  let cs ← next
  let quantifier ← match cs with
    | '?' :: rest => do moveTo rest; pure .optional
    | '*' :: rest => do moveTo rest; pure .zeroOrMore
    | '+' :: rest => do moveTo rest; pure .oneOrMore
    | _ => pure p.role.quantifier
  let more ← captures cs.length
  return p.withRole { p.role with quantifier := quantifier, captures := p.role.captures ++ more }

/-- Reads the arguments of a predicate up to its closing parenthesis. -/
def arguments : Nat → Read (List Operand)
  | 0 => fail .unclosedPredicate
  | fuel + 1 => do
    match (← next) with
    | [] => fail .unclosedPredicate
    | c :: cs =>
      if c = ')' then
        moveTo cs
        return []
      else if c = '@' then
        moveTo cs
        let n ← name
        match (← get).names.idxOf? n with
        | some i => return .capture i :: (← arguments fuel)
        | none => throw ⟨.unknownCapture n, cs⟩
      else if c = '"' then
        let value ← string cs
        return .text value :: (← arguments fuel)
      else if c.isAlphanum || c = '_' then
        let value ← name
        return .text value :: (← arguments fuel)
      else fail .strayArgument

/-- Reads a predicate, which begins at `start`. A name that ends in an exclamation mark is a directive
for other programs. -/
def predicate (start : List Char) : Read Unit := do
  moveTo ((start.drop 1).dropWhile isWhiteSpace |>.drop 1)
  let n ← name
  let args ← arguments start.length
  if n.toList.getLast? = some '!' then return
  match Predicate.ofArguments n args with
  | .ok p => modify fun s => { s with predicates := s.predicates ++ [(p, start)] }
  | .error fault => throw ⟨.predicate n fault, start⟩

/-- Reads the kind behind an opening parenthesis. -/
def kind : Read NodeTest := do
  let start ← next
  let n ← name
  if n.isEmpty then fail .noNodeKind
  else if n = "_" then return .anyRule
  else
    match Kind.ofName? n true with
    | some k => return .rule k
    | none => throw ⟨.unknownKind n, start⟩

/-- Reads the name of a field and the colon behind it. -/
def field : Read Field := do
  let start ← next
  let n ← name
  match (← next) with
  | ':' :: cs =>
    moveTo cs
    match Field.ofName? n with
    | some f => return f
    | none => throw ⟨.unknownField n, start⟩
  | _ => throw ⟨.noFieldColon, start⟩

mutual
/-- Reads a pattern and what stands behind it. Every call uses up fuel; two calls in a row read one
character at least. -/
def pattern : Nat → Read Pattern
  | 0 => fail .endOfQuery
  | fuel + 1 => do
    let p ← match (← next) with
      | [] => fail .endOfQuery
      | '(' :: cs => do
        moveTo cs
        let test ← kind
        pure (.node test (← children fuel) .plain)
      | '[' :: cs => do
        moveTo cs
        let alternatives ← alternatives fuel
        if alternatives.isEmpty then fail .emptyAlternation
        pure (.choice alternatives .plain)
      | '"' :: cs => do
        let spelling ← string cs
        match Kind.ofName? spelling false with
        | some k => pure (.node (.token k) [] .plain)
        | none => throw ⟨.unknownToken spelling, '"' :: cs⟩
      | '_' :: cs => do
        moveTo cs
        pure (.node .any [] .plain)
      | '.' :: _ => fail .anchor
      | _ => fail .noPattern
    suffix p

def alternatives : Nat → Read (List Pattern)
  | 0 => fail .unclosedAlternation
  | fuel + 1 => do
    match (← next) with
    | [] => fail .unclosedAlternation
    | ']' :: cs =>
      moveTo cs
      return []
    | _ =>
      let p ← pattern fuel
      return p :: (← alternatives fuel)

/-- Reads child patterns and predicates up to a closing parenthesis. -/
def children : Nat → Read (List Pattern)
  | 0 => fail .unclosedNode
  | fuel + 1 => do
    match (← next) with
    | [] => fail .unclosedNode
    | c :: cs =>
      if c = ')' then
        moveTo cs
        return []
      else if opensPredicate (c :: cs) then
        predicate (c :: cs)
        children fuel
      else if c = '!' then fail .negatedField
      else if c.isAlpha then
        let f ← field
        let p ← pattern fuel
        return p.withRole { p.role with field := some f } :: (← children fuel)
      else
        let p ← pattern fuel
        return p :: (← children fuel)
end

/-- Reads a pattern and predicates up to a closing parenthesis. -/
def group : Nat → Option Pattern → Read (Option Pattern)
  | 0, _ => fail .unclosedGroup
  | fuel + 1, found => do
    match (← next) with
    | [] => fail .unclosedGroup
    | c :: cs =>
      if c = ')' then
        moveTo cs
        return found
      else if opensPredicate (c :: cs) then
        predicate (c :: cs)
        group fuel found
      else if found.isSome then fail .siblings
      else
        let p ← pattern (fuelFor (c :: cs))
        group fuel (some p)

/-- Reads a pattern that is no child of another. It may be grouped with predicates. -/
def outermost : Read Pattern := do
  let start := (← get).rest
  match start with
  | '(' :: cs =>
    let inner := skipTrivia false cs
    if opensGroup inner then
      moveTo inner
      match (← group (fuelFor inner) none) with
      | some p => suffix p
      | none => throw ⟨.emptyGroup, start⟩
    else pattern (fuelFor start)
  | _ => pattern (fuelFor start)

/-- Refuses a predicate that refers to a capture outside `known`. -/
def checkCaptures (known : List Nat) (p : Predicate) (start : List Char) : Read Unit := do
  match p.captures.find? fun i => !known.contains i with
  | some i => throw ⟨.foreignCapture ((← get).names.getD i ""), start⟩
  | none => return

/-- Reads a pattern with its predicates. Its place is given by the text that begins with it. -/
def queryPattern (source : List Char) : Read QueryPattern := do
  let start := (← get).rest
  modify fun s => { s with predicates := [] }
  let root ← outermost
  let predicates := (← get).predicates
  predicates.forM fun p => checkCaptures root.captures p.1 p.2
  return ⟨root, predicates.map (·.1), byteLength source - byteLength start⟩

def queryPatterns (source : List Char) : Nat → Read (List QueryPattern)
  | 0 => return []
  | fuel + 1 => do
    match (← next) with
    | [] => return []
    | _ =>
      let p ← queryPattern source
      return p :: (← queryPatterns source fuel)

end Read

def ofSource (text : String) : Except QueryError Query :=
  let source := text.toList
  match (Read.queryPatterns source (source.length + 1)).run ⟨source, [], []⟩ with
  | .ok (patterns, s) => .ok ⟨patterns, s.names⟩
  | .error flaw => .error (.behind (source.take (source.length - flaw.rest.length)) flaw.fault)

end

end RenpyScript.Query
