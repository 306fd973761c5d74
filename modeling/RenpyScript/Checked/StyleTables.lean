import Mathlib.Data.List.Basic
import RenpyScript.Checked.Bytes

/-!
# Styles in two tables

A `StyleMapper` keeps the styles of names in a hash table, and the names in a list in the order of their first use. A
style is a word of 32 bits: the number of a name is written into the low bytes of a word with a fixed top byte, and cut
out of them to find the name again. A name whose number does not fit a word has no style.
-/

namespace RenpyScript

/-- Names and the styles that have been allocated to them. -/
structure StyleMapper where
  styles : Std.HashMap String UInt32
  names : List String

namespace StyleMapper

/-- The top byte of allocated styles, in its place. -/
def base : UInt32 := 0x05000000

def empty : StyleMapper := ⟨∅, []⟩

/-- The number of the next name. Zero is no number. -/
def nextNumber? (m : StyleMapper) : Option UInt32 :=
  let taken := UInt32.ofNat m.names.length
  if taken = 0xFFFFFFFF then none else some (taken + 1)

/-- The style of a name, and the mapper behind the call. A new name is allocated the next style. -/
def styleFor (m : StyleMapper) (name : String) : Option (UInt32 × StyleMapper) :=
  match m.styles[name]? with
  | some style => some (style, m)
  | none => do
    let number ← m.nextNumber?
    let style := base ||| number
    return (style, ⟨m.styles.insert name style, m.names ++ [name]⟩)

/-- What a sequence of calls returns, and the mapper behind it. -/
def stylesFor : StyleMapper → List String → Option (List UInt32 × StyleMapper)
  | m, [] => some ([], m)
  | m, name :: names => do
    let (style, m) ← m.styleFor name
    let (styles, m) ← stylesFor m names
    return (style :: styles, m)

def nameOf? (m : StyleMapper) (style : UInt32) : Option String :=
  if style &&& 0xFF000000 = base then do
    let i ← checkedSub (style &&& 0x00FFFFFF).toNat 1
    m.names[i]?
  else none

end StyleMapper

end RenpyScript
