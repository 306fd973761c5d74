/-!
# Styles

A style is a number. Explicit styles are given by name in a `StyleMap`. A `StyleTable` allocates styles
to names in the order of their first use; the styles it allocates share their top byte, so they can be
told from others and mapped back to names.
-/

namespace RenpyScript

abbrev StyleId := Nat

/-- Styles given to names, in the order of the names, each name once. -/
structure StyleMap where
  entries : List (String × StyleId)
deriving DecidableEq, Repr

namespace StyleMap

def empty : StyleMap := ⟨[]⟩

/-- Puts an entry in its place, instead of an entry with the same name. -/
def insertInto (name : String) (style : StyleId) : List (String × StyleId) → List (String × StyleId)
  | [] => [(name, style)]
  | (n, s) :: rest =>
    if n = name then (name, style) :: rest
    else if name < n then (name, style) :: (n, s) :: rest
    else (n, s) :: insertInto name style rest

def insert (m : StyleMap) (name : String) (style : StyleId) : StyleMap :=
  ⟨insertInto name style m.entries⟩

def get? (m : StyleMap) (name : String) : Option StyleId :=
  m.entries.lookup name

def nameOf? (m : StyleMap) (style : StyleId) : Option String :=
  (m.entries.find? (·.2 = style)).map (·.1)

end StyleMap

/-- Names with allocated styles, in the order of allocation. -/
structure StyleTable where
  names : List String
deriving DecidableEq, Repr

namespace StyleTable

/-- The top byte of allocated styles, in its place. -/
def base : StyleId := 0x05000000

def empty : StyleTable := ⟨[]⟩

/-- The style of the name with a given index. The low part of a style is never zero. -/
def styleAt (i : Nat) : StyleId :=
  base ||| (i + 1)

/-- The style of a name. A new name is allocated the next style. -/
def allocate (t : StyleTable) (name : String) : StyleId × StyleTable :=
  match t.names.idxOf? name with
  | some i => (styleAt i, t)
  | none => (styleAt t.names.length, ⟨t.names ++ [name]⟩)

def nameOf? (t : StyleTable) (style : StyleId) : Option String :=
  if style >>> 24 = base >>> 24 then
    match style % 0x01000000 with
    | 0 => none
    | i + 1 => t.names[i]?
  else none

def size (t : StyleTable) : Nat :=
  t.names.length

end StyleTable

end RenpyScript
