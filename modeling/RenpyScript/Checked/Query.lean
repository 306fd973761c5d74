import RenpyScript.Checked.Bytes
import RenpyScript.Query.Source

/-!
# Compiling queries over bytes

The compiler of queries goes over the bytes of the source with one position. What is left is a slice of the source,
which has no value unless the position falls between two characters. A loop goes on only if fewer bytes are left, as it
would have no end otherwise. A step that fails in either way has no value at all; an error of the query is a value.
-/

namespace RenpyScript.Query

/-- A step that ends with an error of the query or with a result, or has no value. -/
abbrev Compile := ExceptT QueryError Option

/-- The index of the last byte that is `b`. -/
def lastIndexOf? (b : UInt8) (bytes : List UInt8) : Option Nat :=
  (bytes.reverse.idxOf? b).map (bytes.length - 1 - ·)

/-- Reads the characters of a string up to its closing quote. `i` is the offset of the first of them; the result is the
value with the offset of the quote. -/
def stringFrom (i : Nat) : List Char → Option (List Char × Nat)
  | [] => none
  | '"' :: _ => some ([], i)
  | ['\\'] => none
  | '\\' :: c :: cs => (stringFrom (i + 1 + c.utf8Size) cs).map fun r => (unescaped c :: r.1, r.2)
  | c :: cs => (stringFrom (i + c.utf8Size) cs).map fun r => (c :: r.1, r.2)

/-- An error at an offset: its row is the number of line feeds in front of it, its column the number of bytes behind the
last of them. -/
def Compiler.errorAt (source : List Char) {α : Type} (offset : Nat) (fault : QueryFault) : Compile α := do
  let offset := min offset (byteLength source)
  let before ← byteSlice (utf8 source) 0 offset
  let column ← checkedSub offset (((lastIndexOf? '\n'.toUInt8 before).map (· + 1)).getD 0)
  throw ⟨fault, offset, before.count '\n'.toUInt8, column⟩

section
variable [RegexEngine]

/-- Where the compiler stands. -/
structure Compiler where
  pos : Nat
  /-- Names of captures in the order of their first use. -/
  names : List String
  /-- Predicates of the pattern that is being read, each with its offset. -/
  predicates : List (Predicate × Nat)

namespace Compiler

/-- Goes forward by a number of bytes. -/
def forward (n : Nat) (s : Compiler) : Compiler :=
  { s with pos := s.pos + n }

/-- The index of a capture. A name not seen before gets the next index. -/
def capture (name : String) (s : Compiler) : Option (Nat × Compiler) :=
  match s.names.idxOf? name with
  | some i => some (i, s)
  | none => do
    let names := s.names ++ [name]
    let i ← checkedSub names.length 1
    return (i, { s with names })

section
variable (source : List Char)

def rest (s : Compiler) : Option (List Char) :=
  slice source ⟨s.pos, byteLength source⟩

def left (s : Compiler) : Nat :=
  byteLength source - s.pos

/-- The state, if fewer bytes are left than a bound. -/
def below (bound : Nat) (s : Compiler) : Option { t : Compiler // t.left source < bound } :=
  if h : s.left source < bound then some ⟨s, h⟩ else none

/-- Passes over white space and comments. -/
def skipTrivia (s : Compiler) : Option Compiler := do
  let rest ← s.rest source
  let trimmed := rest.dropWhile isWhiteSpace
  let blank ← checkedSub (byteLength rest) (byteLength trimmed)
  let t := s.forward blank
  if trimmed.head? = some ';' then
    let ⟨t, _⟩ ← (t.forward (byteLength (trimmed.takeWhile (· ≠ '\n')))).below source (s.left source)
    t.skipTrivia
  else return t
termination_by s.left source

/-- The next character behind white space and comments. -/
def next (s : Compiler) : Option (Option Char × Compiler) := do
  let s ← s.skipTrivia source
  let rest ← s.rest source
  return (rest.head?, s)

/-- Passes over a character that has to come next. It is asked for only where it has been seen. -/
def expect (c : Char) (s : Compiler) : Option Compiler := do
  let (found, s) ← s.next source
  if found = some c then return s.forward c.utf8Size else none

def name (s : Compiler) : Option (String × Compiler) := do
  let rest ← s.rest source
  let length := byteLength (rest.takeWhile isNameChar)
  let name ← slice rest ⟨0, length⟩
  return (String.ofList name, s.forward length)

def string (s : Compiler) : Compile (String × Compiler) := do
  let rest ← (s.forward 1).rest source
  match stringFrom 0 rest with
  | some (value, i) => return (String.ofList value, (s.forward 1).forward (i + 1))
  | none => errorAt source s.pos .unterminatedString

def captures (s : Compiler) : Compile (List Nat × Compiler) := do
  let (c, t) ← s.next source
  if c = some '@' then
    let (name, t) ← (t.forward 1).name source
    if name.isEmpty then errorAt source t.pos .noCaptureName
    let (i, t) ← t.capture name
    let ⟨t, _⟩ ← t.below source (s.left source)
    let (more, t) ← t.captures
    return (i :: more, t)
  else return ([], t)
termination_by s.left source

/-- Reads the quantifier that the next character, which is given, stands for. -/
def quantifier (default : Quantifier) (c : Option Char) (s : Compiler) : Compile (Quantifier × Compiler) :=
  match c with
  | some '?' => return (.optional, s.forward 1)
  | some '*' => return (.zeroOrMore, s.forward 1)
  | some '+' => return (.oneOrMore, s.forward 1)
  | _ => return (default, s)

/-- Reads the quantifier and the captures behind a pattern. -/
def suffix (p : Pattern) (s : Compiler) : Compile (Pattern × Compiler) := do
  let (c, s) ← s.next source
  let (quantifier, s) ← s.quantifier p.role.quantifier c
  let (more, s) ← s.captures source
  return (p.withRole { p.role with quantifier, captures := p.role.captures ++ more }, s)

/-- Reads the arguments of a predicate up to its closing parenthesis. -/
def arguments (s : Compiler) : Compile (List Operand × Compiler) := do
  let (c, t) ← s.next source
  match c with
  | none => errorAt source t.pos .unclosedPredicate
  | some c =>
    if c = ')' then return ([], t.forward 1)
    else
      let (argument, t) ←
        if c = '@' then do
          let start := (t.forward 1).pos
          let (name, t) ← (t.forward 1).name source
          match t.names.idxOf? name with
          | some i => pure (Operand.capture i, t)
          | none => errorAt source start (.unknownCapture name)
        else if c = '"' then do
          let (value, t) ← t.string source
          pure (Operand.text value, t)
        else if c.isAlphanum || c = '_' then do
          let (value, t) ← t.name source
          pure (Operand.text value, t)
        else errorAt source t.pos .strayArgument
      let ⟨t, _⟩ ← t.below source (s.left source)
      let (more, t) ← t.arguments
      return (argument :: more, t)
termination_by s.left source

/-- Whether the next character, which is given, opens a predicate. -/
def atPredicate (c : Char) (s : Compiler) : Option Bool :=
  if c = '(' then do
    let rest ← s.rest source
    let behind ← slice rest ⟨1, byteLength rest⟩
    return (behind.dropWhile isWhiteSpace).head? = some '#'
  else some false

/-- Reads a predicate. A name that ends in an exclamation mark is a directive for other programs. -/
def predicate (s : Compiler) : Compile (Unit × Compiler) := do
  let start := s.pos
  let s ← s.expect source '('
  let s ← s.expect source '#'
  let (name, s) ← s.name source
  let (args, s) ← s.arguments source
  if name.toList.getLast? = some '!' then return ((), s)
  else
    match Predicate.ofArguments name args with
    | .ok p => return ((), { s with predicates := s.predicates ++ [(p, start)] })
    | .error fault => errorAt source start (.predicate name fault)

/-- Reads the kind behind an opening parenthesis. -/
def kind (s : Compiler) : Compile (NodeTest × Compiler) := do
  let s ← s.skipTrivia source
  let start := s.pos
  let (name, s) ← s.name source
  if name.isEmpty then errorAt source s.pos .noNodeKind
  else if name = "_" then return (.anyRule, s)
  else
    match Kind.ofName? name true with
    | some k => return (.rule k, s)
    | none => errorAt source start (.unknownKind name)

/-- Reads the name of a field and the colon behind it. -/
def field (s : Compiler) : Compile (Field × Compiler) := do
  let start := s.pos
  let (name, s) ← s.name source
  let (c, s) ← s.next source
  if c = some ':' then
    match Field.ofName? name with
    | some f => return (f, s.forward 1)
    | none => errorAt source start (.unknownField name)
  else errorAt source start .noFieldColon

mutual

/-- Reads a pattern and what stands behind it. -/
def pattern (s : Compiler) : Compile (Pattern × Compiler) := do
  let (c, t) ← s.next source
  let (p, t) ←
    match c with
    | none => errorAt source t.pos .endOfQuery
    | some '(' => do
      let (test, t) ← (t.forward 1).kind source
      let ⟨t, _⟩ ← t.below source (s.left source)
      let (inside, t) ← t.children
      pure (Pattern.node test inside .plain, t)
    | some '[' => do
      let ⟨t, _⟩ ← (t.forward 1).below source (s.left source)
      let (choices, t) ← t.alternatives
      if choices.isEmpty then errorAt source t.pos .emptyAlternation
      pure (Pattern.choice choices .plain, t)
    | some '"' => do
      let start := t.pos
      let (spelling, t) ← t.string source
      match Kind.ofName? spelling false with
      | some k => pure (Pattern.node (.token k) [] .plain, t)
      | none => errorAt source start (.unknownToken spelling)
    | some '_' => pure (Pattern.node .any [] .plain, t.forward 1)
    | some '.' => errorAt source t.pos .anchor
    | some _ => errorAt source t.pos .noPattern
  t.suffix source p
termination_by (s.left source, 0)

/-- Reads patterns up to a closing bracket. -/
def alternatives (s : Compiler) : Compile (List Pattern × Compiler) := do
  let (c, t) ← s.next source
  match c with
  | none => errorAt source t.pos .unclosedAlternation
  | some ']' => return ([], t.forward 1)
  | some _ =>
    let ⟨t, _hle⟩ ← t.below source (s.left source + 1)
    let (p, t) ← t.pattern
    let ⟨t, _⟩ ← t.below source (s.left source)
    let (more, t) ← t.alternatives
    return (p :: more, t)
termination_by (s.left source, 1)
decreasing_by
  · exact Prod.Lex.right' _ (Nat.le_of_lt_succ _hle) (by decide)
  · decreasing_tactic

/-- Reads child patterns and predicates up to a closing parenthesis. -/
def children (s : Compiler) : Compile (List Pattern × Compiler) := do
  let (c, t) ← s.next source
  match c with
  | none => errorAt source t.pos .unclosedNode
  | some c =>
    if c = ')' then return ([], t.forward 1)
    else if ← t.atPredicate source c then
      let ((), t) ← t.predicate source
      let ⟨t, _⟩ ← t.below source (s.left source)
      t.children
    else if c = '!' then errorAt source t.pos .negatedField
    else if c.isAlpha then
      let (f, t) ← t.field source
      let ⟨t, _hle⟩ ← t.below source (s.left source + 1)
      let (p, t) ← t.pattern
      let ⟨t, _⟩ ← t.below source (s.left source)
      let (more, t) ← t.children
      return (p.withRole { p.role with field := some f } :: more, t)
    else
      let ⟨t, _hle⟩ ← t.below source (s.left source + 1)
      let (p, t) ← t.pattern
      let ⟨t, _⟩ ← t.below source (s.left source)
      let (more, t) ← t.children
      return (p :: more, t)
termination_by (s.left source, 1)
decreasing_by
  · decreasing_tactic
  · exact Prod.Lex.right' _ (Nat.le_of_lt_succ _hle) (by decide)
  · decreasing_tactic
  · exact Prod.Lex.right' _ (Nat.le_of_lt_succ _hle) (by decide)
  · decreasing_tactic

end

/-- Reads a pattern and predicates up to a closing parenthesis; `found` is the pattern, if it has been read. -/
def group (found : Option Pattern) (s : Compiler) : Compile (Option Pattern × Compiler) := do
  let (c, t) ← s.next source
  match c with
  | none => errorAt source t.pos .unclosedGroup
  | some c =>
    if c = ')' then return (found, t.forward 1)
    else if ← t.atPredicate source c then
      let ((), t) ← t.predicate source
      let ⟨t, _⟩ ← t.below source (s.left source)
      t.group found
    else if found.isSome then errorAt source t.pos .siblings
    else
      let (p, t) ← t.pattern source
      let ⟨t, _⟩ ← t.below source (s.left source)
      t.group (some p)
termination_by s.left source

/-- Reads a pattern that is no child of another. It may be grouped with predicates. -/
def outermost (s : Compiler) : Compile (Pattern × Compiler) := do
  let rest ← s.rest source
  if rest.head? = some '(' then
    let (c, t) ← (s.forward 1).next source
    if c = some '(' ∨ c = some '[' ∨ c = some '"' then
      let (found, t) ← t.group source none
      match found with
      | some p => t.suffix source p
      | none => errorAt source s.pos .emptyGroup
    else s.pattern source
  else s.pattern source

/-- Refuses a predicate that refers to a capture outside `known`. -/
def checkCaptures (known : List Nat) (s : Compiler) (p : Predicate × Nat) : Compile Unit := do
  match p.1.captures.find? fun i => !known.contains i with
  | some i =>
    let name ← (s.names[i]? : Option String)
    errorAt source p.2 (.foreignCapture name)
  | none => return

def queryPattern (s : Compiler) : Compile (QueryPattern × Compiler) := do
  let (root, t) ← { s with predicates := [] }.outermost source
  t.predicates.forM (t.checkCaptures source root.captures)
  return (⟨root, t.predicates.map (·.1), s.pos⟩, t)

def queryPatterns (s : Compiler) : Compile (List QueryPattern × Compiler) := do
  let t ← s.skipTrivia source
  if byteLength source ≤ t.pos then return ([], t)
  else
    let (p, t) ← t.queryPattern source
    let ⟨t, _⟩ ← t.below source (s.left source)
    let (more, t) ← t.queryPatterns
    return (p :: more, t)
termination_by s.left source

end

def compile (text : String) : Compile Query := do
  let (patterns, s) ← queryPatterns text.toList ⟨0, [], []⟩
  return ⟨patterns, s.names⟩

end Compiler

end

end RenpyScript.Query
