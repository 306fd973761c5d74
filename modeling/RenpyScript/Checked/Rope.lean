import RenpyScript.Checked.Bytes
import RenpyScript.Text.LineIndex

/-!
# Conversions by way of a rope

A rope knows how many bytes and characters its text has, and finds characters, bytes and lines by their indices. It fails
for an index out of bounds, so an offset is cut off at the end of the text before the rope is asked. A column is what is
left of an offset behind the beginning of its line, and must not be negative.
-/

namespace RenpyScript

/-- What is asked of a rope. -/
structure Rope where
  byteCount : Nat
  charCount : Nat
  charOfByte? : Nat → Option Nat
  byteOfChar? : Nat → Option Nat
  lineOfChar? : Nat → Option Nat
  charOfLine? : Nat → Option Nat

namespace Rope

def charOffset? (r : Rope) (byte : Nat) : Option Nat :=
  r.charOfByte? (min byte r.byteCount)

def byteOffset? (r : Rope) (char : Nat) : Option Nat :=
  r.byteOfChar? (min char r.charCount)

def position? (r : Rope) (char : Nat) : Option CharPosition := do
  let char := min char r.charCount
  let row ← r.lineOfChar? char
  let start ← r.charOfLine? row
  let column ← checkedSub char start
  return ⟨row, column⟩

end Rope

end RenpyScript
