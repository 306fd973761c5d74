import RenpyScript.Checked.Rendering
import RenpyScript.Parser

/-!
# Calls from C programs

A C program gives a pointer to memory and a length, and gets a pointer back: to a tree, or to a text with a NUL behind
it. A null pointer is `none`. A call that reads behind the end of the memory or fails in a rendering has no value. A
failure of the parser is caught, and gives a null pointer, as does a failure of the writer of JSON.
-/

namespace RenpyScript

/-- A text in memory. A NUL in it would end it early. -/
structure CString where
  bytes : List UInt8
  zero_notMem : 0 ∉ bytes

namespace CString

/-- Copies a text, unless there is a NUL in it. -/
def ofString? (text : String) : Option CString :=
  if h : 0 ∈ utf8 text.toList then none else some ⟨utf8 text.toList, h⟩

def memory (s : CString) : List UInt8 :=
  s.bytes ++ [0]

/-- The text at a pointer, which goes up to the first NUL. -/
def read? (memory : List UInt8) : Option String :=
  String.fromUTF8? (memory.takeWhile (· ≠ 0)).toByteArray

end CString

/-- A tree by its entries, with the text it was read from and the grammar it was read with. -/
structure StoredTree where
  language : Language
  text : String
  arena : Arena

namespace Interface

/-- Reads a script from its bytes. There is no tree for bytes that are no UTF-8, or if the parser refuses the grammar or
fails. -/
def parseBytes? (language : Language) (given : ByteArray) : Option StoredTree := do
  let text ← String.fromUTF8? given
  let parser ← (Parser.empty.setLanguage language).toOption
  let language ← parser.language
  let r ← Descent.parse text.toList
  return ⟨language, text, r.arena⟩

/-- The first bytes at a pointer. There is nothing to be read if there are none. -/
def given? (pointer : Option ByteArray) (length : Nat) : Option (Option ByteArray) :=
  if length = 0 then some (some .empty)
  else
    match pointer with
    | none => some none
    | some memory => if length ≤ memory.size then some (some (memory.extract 0 length)) else none

/-- Reads a script from the first bytes at a pointer. -/
def parse? (handle : Option Language) (pointer : Option ByteArray) (length : Nat) : Option (Option StoredTree) :=
  match handle with
  | none => some none
  | some language => do
    let given ← given? pointer length
    return given.bind (parseBytes? language)

def sexp? : Option StoredTree → Option (Option CString)
  | none => some none
  | some t => do
    let text ← t.arena.sexp? t.arena.root
    return CString.ofString? text

def json? [JsonWriter] : Option StoredTree → Option (Option CString)
  | none => some none
  | some t => do
    let v ← t.arena.json? t.arena.root
    return (JsonWriter.write v).bind CString.ofString?

end Interface

end RenpyScript
