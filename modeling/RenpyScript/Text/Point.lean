import RenpyScript.Text.Offset

/-!
# Rows and columns

A `Point` is a row and a byte column, both counted from zero. A `LineTable` holds the offsets at
which the physical lines of a text begin and turns offsets into points.
-/

namespace RenpyScript

/-- A position in a text: its row, and the bytes before it in that row. -/
structure Point where
  row : Nat
  column : Nat
deriving DecidableEq, Repr, Inhabited

/-- The written form of a point, `(row, column)`. -/
def Point.render (p : Point) : String :=
  s!"({p.row}, {p.column})"

/-- Offsets just past each line feed of a text that begins at `pos`. -/
def startsAfterBreaks : Nat → List Char → List Nat
  | _, [] => []
  | pos, c :: cs =>
    if c = '\n' then (pos + 1) :: startsAfterBreaks (pos + 1) cs
    else startsAfterBreaks (pos + c.utf8Size) cs

/-- The offsets at which the physical lines of a text begin, in order. -/
structure LineTable where
  starts : List Nat
deriving Repr, Inhabited

namespace LineTable

/-- The line table of a text: a line begins at zero and after every line feed. -/
def ofText (cs : List Char) : LineTable :=
  ⟨0 :: startsAfterBreaks 0 cs⟩

/-- The row of an offset is the last line that begins at or before it. -/
def point (t : LineTable) (offset : Nat) : Point :=
  let before := t.starts.takeWhile (· ≤ offset)
  ⟨before.length - 1, offset - before.getLastD 0⟩

end LineTable

end RenpyScript
