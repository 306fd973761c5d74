import RenpyScript.Text.Offset

/-!
# Logical lines

A logical line is one physical line, or several of them joined because a bracket or a string was
still open at their ends. `LogicalLine.scan` splits a text into its logical lines and measures
their indentation. The splitter reads one character at a time: `Context` is what it is inside of,
and `LineScan.next` and `LineScan.endsAt` say what a character does to it.
-/

namespace RenpyScript

/-- What a logical line holds. -/
inductive LineKind where
  | blank
  /-- A comment only; such a line never opens or closes a block. -/
  | comment
  | code
deriving DecidableEq, Repr

/-- A logical line of a script. -/
structure LogicalLine where
  indent : Nat
  /-- Offset of the first character after the indentation. -/
  start : Nat
  /-- The text between the indentation and the trailing white space. -/
  content : List Char
  /-- Offset just past the line terminator. -/
  lineEnd : Nat
  row : Nat
deriving DecidableEq, Repr, Inhabited

namespace LogicalLine

/-- The kind of a line shows in the first character of its content. -/
def kind (l : LogicalLine) : LineKind :=
  match l.content with
  | [] => .blank
  | '#' :: _ => .comment
  | _ => .code

def span (l : LogicalLine) : Span :=
  .covering l.start l.content

end LogicalLine

/-- What the splitter is inside of. -/
inductive Context where
  | code
  | comment
  /-- A string between two single quote characters; it ends with its physical line at the latest. -/
  | string (quote : Char)
  /-- A string between tripled quote characters. -/
  | tripled (quote : Char)
deriving DecidableEq, Repr

/-- Whether the character delimits strings. -/
def isQuote (c : Char) : Bool :=
  c = '"' || c = '\''

/-- Whether `cs` begins with `n` copies of `c`. -/
def beginsWithCopies (n : Nat) (c : Char) (cs : List Char) : Bool :=
  cs.take n = List.replicate n c

/-- State of the splitter in front of a character. -/
structure LineScan where
  context : Context
  /-- Number of open brackets. -/
  depth : Nat
  /-- How many characters to pass over unseen: they belong to an escape or a tripled quote. -/
  skip : Nat
deriving DecidableEq, Repr

namespace LineScan

/-- The state at the beginning of a line's content. -/
def initial : LineScan := ⟨.code, 0, 0⟩

/-- Whether a line feed in this state is the line's terminator. -/
def endsAt (s : LineScan) (c : Char) : Bool :=
  s.skip = 0 && c = '\n' && s.depth = 0 &&
    match s.context with
    | .tripled _ => false
    | _ => true

/-- The state after a character of script text. -/
def afterCode (depth : Nat) (c : Char) (following : List Char) : LineScan :=
  if c = '#' then ⟨.comment, depth, 0⟩
  else if isQuote c then
    if beginsWithCopies 2 c following then ⟨.tripled c, depth, 2⟩ else ⟨.string c, depth, 0⟩
  else if c = '(' || c = '[' || c = '\x7b' then ⟨.code, depth + 1, 0⟩
  else if c = ')' || c = ']' || c = '\x7d' then ⟨.code, depth - 1, 0⟩
  else ⟨.code, depth, 0⟩

/-- The state after reading `c`, which stands in front of `following`. -/
def next (s : LineScan) (c : Char) (following : List Char) : LineScan :=
  match s.skip with
  | k + 1 => { s with skip := k }
  | 0 =>
    match s.context with
    | .code => afterCode s.depth c following
    | .comment => if c = '\n' then ⟨.code, s.depth, 0⟩ else s
    | .string q =>
      if c = '\\' then { s with skip := 1 }
      else if c = q || c = '\n' then ⟨.code, s.depth, 0⟩
      else s
    | .tripled q =>
      if c = '\\' then { s with skip := 1 }
      else if c = q && beginsWithCopies 2 c following then ⟨.code, s.depth, 2⟩
      else s

/-- Splits a text in front of the terminator of its first line, or at its end. -/
def splitLine : LineScan → List Char → List Char × List Char
  | _, [] => ([], [])
  | s, c :: cs =>
    if s.endsAt c then ([], c :: cs)
    else
      let (line, rest) := splitLine (s.next c cs) cs
      (c :: line, rest)

theorem splitLine_append (s : LineScan) (cs : List Char) :
    (s.splitLine cs).1 ++ (s.splitLine cs).2 = cs := by
  induction cs generalizing s with
  | nil => rfl
  | cons c cs ih =>
    rw [splitLine]
    split
    · rfl
    · simp [ih]

end LineScan

/-- Passes over indentation. A tab goes to the next multiple of eight, a form feed back to zero. -/
def measureIndent : Nat → List Char → Nat × List Char
  | width, [] => (width, [])
  | width, c :: cs =>
    if c = ' ' then measureIndent (width + 1) cs
    else if c = '\t' then measureIndent ((width / 8 + 1) * 8) cs
    else if c = '\x0c' then measureIndent 0 cs
    else (width, c :: cs)

theorem measureIndent_suffix (width : Nat) (cs : List Char) :
    (measureIndent width cs).2 <:+ cs := by
  induction cs generalizing width with
  | nil => exact List.suffix_refl _
  | cons c cs ih =>
    rw [measureIndent]
    split
    · exact (ih _).trans (List.suffix_cons c cs)
    split
    · exact (ih _).trans (List.suffix_cons c cs)
    split
    · exact (ih _).trans (List.suffix_cons c cs)
    · exact List.suffix_refl _

/-- Removes the characters at the end of `cs` that `drop` accepts. -/
def trimEnd (drop : Char → Bool) (cs : List Char) : List Char :=
  (cs.reverse.dropWhile drop).reverse

/-- White space that the end of a logical line does not keep. -/
def isLinePadding (c : Char) : Bool :=
  c = ' ' || c = '\t' || c = '\r' || c = '\x0c'

namespace LogicalLine

/-- The logical lines of a text that begins at offset `pos` and row `row`. -/
def scanFrom (pos row : Nat) (cs : List Char) : List LogicalLine :=
  match cs with
  | [] => []
  | c :: cs =>
    let indent := measureIndent 0 (c :: cs)
    let parts := LineScan.initial.splitLine indent.2
    let start := pos + byteLength (c :: cs) - byteLength indent.2
    let terminator := parts.2.take 1
    let lineEnd := start + byteLength parts.1 + byteLength terminator
    ⟨indent.1, start, trimEnd isLinePadding parts.1, lineEnd, row⟩ ::
      scanFrom lineEnd (row + (parts.1 ++ terminator).count '\n') (parts.2.drop 1)
termination_by cs.length
decreasing_by
  have h := congrArg List.length (LineScan.initial.splitLine_append (measureIndent 0 (c :: cs)).2)
  have hs := (measureIndent_suffix 0 (c :: cs)).length_le
  simp only [List.length_append, List.length_drop, List.length_cons] at *
  omega

/-- The logical lines of a text. A byte order mark at its very beginning belongs to no line. -/
def scan (cs : List Char) : List LogicalLine :=
  match cs with
  | '\ufeff' :: rest => scanFrom 3 0 rest
  | _ => scanFrom 0 0 cs

end LogicalLine

end RenpyScript
