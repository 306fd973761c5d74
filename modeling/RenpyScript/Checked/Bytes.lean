import RenpyScript.Text.Offset

/-!
# Bytes of a text

The UTF-8 bytes of a text and the ways to get at them. An access that has no answer, an index past the
end, a slice that ends before it begins or a negative difference, gives `none`. Slices of characters are
checked by `slice`.
-/

namespace RenpyScript

def utf8 (cs : List Char) : List UInt8 :=
  cs.flatMap String.utf8EncodeChar

/-- A difference that must not be negative. -/
def checkedSub (m n : Nat) : Option Nat :=
  if n ≤ m then some (m - n) else none

/-- The bytes from one index to another, both of which have to be in range. -/
def byteSlice (bytes : List UInt8) (start stop : Nat) : Option (List UInt8) :=
  if start ≤ stop ∧ stop ≤ bytes.length then some ((bytes.drop start).take (stop - start)) else none

/-- Whether the bytes from one index to another begin with `n` copies of a byte. -/
def byteCopies (bytes : List UInt8) (start stop n : Nat) (b : UInt8) : Option Bool := do
  let ahead ← byteSlice bytes start stop
  return ahead.take n = List.replicate n b

end RenpyScript
