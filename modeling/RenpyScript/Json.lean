/-!
# JSON text

The values that the library prints as JSON, and what is written for them over several lines, with two spaces a level.
Members of an object are written in the order they are given. To write a value on one line is left to a writer.
-/

namespace RenpyScript

/-- A JSON value. Numbers are offsets and counts, so they are natural. -/
inductive Json where
  | null
  | bool (b : Bool)
  | num (n : Nat)
  | str (s : String)
  | arr (items : List Json)
  | obj (members : List (String × Json))
deriving Repr, Inhabited

namespace Json

/-- The four hexadecimal digits of a code below 65536. -/
def hex4 (n : Nat) : List Char :=
  [n / 4096 % 16, n / 256 % 16, n / 16 % 16, n % 16].map Nat.digitChar

/-- A character inside a JSON string: quotes, backslashes and control characters are escaped. -/
def escapeChar (c : Char) : List Char :=
  if c = '"' then ['\\', '"']
  else if c = '\\' then ['\\', '\\']
  else if c = '\x08' then ['\\', 'b']
  else if c = '\x0c' then ['\\', 'f']
  else if c = '\n' then ['\\', 'n']
  else if c = '\r' then ['\\', 'r']
  else if c = '\t' then ['\\', 't']
  else if c.toNat < 32 then '\\' :: 'u' :: hex4 c.toNat
  else [c]

def quote (s : String) : String :=
  String.ofList ('"' :: s.toList.flatMap escapeChar ++ ['"'])

/-- A line break followed by the indentation of a level. -/
def breakTo (level : Nat) : String :=
  String.ofList ('\n' :: List.replicate (2 * level) ' ')

mutual
/-- The value with one item or member a line. -/
def prettyAt (level : Nat) : Json → String
  | null => "null"
  | bool b => if b then "true" else "false"
  | num n => toString n
  | str s => quote s
  | arr [] => "[]"
  | arr (v :: vs) => "[" ++ prettyItems (level + 1) (v :: vs) ++ breakTo level ++ "]"
  | obj [] => "\x7b\x7d"
  | obj (m :: ms) => "\x7b" ++ prettyMembers (level + 1) (m :: ms) ++ breakTo level ++ "\x7d"

/-- The items of an array, each on lines of its own. -/
def prettyItems (level : Nat) : List Json → String
  | [] => ""
  | [v] => breakTo level ++ prettyAt level v
  | v :: vs => breakTo level ++ prettyAt level v ++ "," ++ prettyItems level vs

/-- The members of an object, each on lines of its own. -/
def prettyMembers (level : Nat) : List (String × Json) → String
  | [] => ""
  | [(k, v)] => breakTo level ++ quote k ++ ": " ++ prettyAt level v
  | (k, v) :: ms =>
    breakTo level ++ quote k ++ ": " ++ prettyAt level v ++ "," ++ prettyMembers level ms
end

/-- The value over several lines. -/
def pretty (v : Json) : String :=
  v.prettyAt 0

end Json

/-- What writes values on one line. It may fail. -/
class JsonWriter where
  write : Json → Option String

end RenpyScript
