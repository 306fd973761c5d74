import RenpyScript.Json.Compact
import Mathlib.Data.List.Forall2
import Mathlib.Data.Nat.Digits.Defs

/-!
# What JSON on one line looks like

`Json.Written` gives the texts that a value may have without blanks. A character of a string may be written in more
than one way, but a control character only by an escape. A writer is taken to write such a text for every value.
-/

namespace RenpyScript

namespace Json

/-- Letters that stand for a character behind a backslash. -/
def escapeLetters : List (Char × Char) :=
  [('"', '"'), ('\\', '\\'), ('/', '/'), ('\x08', 'b'), ('\x0c', 'f'), ('\n', 'n'), ('\r', 'r'), ('\t', 't')]

/-- How a character may be written in a string: as it is, by a letter, or by the digits of its code in either case. -/
inductive CharWritten : Char → List Char → Prop
  | plain {c : Char} (low : 32 ≤ c.toNat) (quote : c ≠ '"') (backslash : c ≠ '\\') : CharWritten c [c]
  | letter {c l : Char} (mem : (c, l) ∈ escapeLetters) : CharWritten c ['\\', l]
  | code {c : Char} {ds : List Char} (low : c.toNat < 65536) (digits : ds.map Char.toLower = hex4 c.toNat) :
    CharWritten c ('\\' :: 'u' :: ds)

/-- The text is that of a string, with quotes around it. -/
def StringWritten (text written : String) : Prop :=
  ∃ parts, List.Forall₂ CharWritten text.toList parts ∧ written = String.ofList ('"' :: parts.flatten ++ ['"'])

mutual
/-- The text is that of a value. -/
inductive Written : Json → String → Prop
  | null : Written .null "null"
  | bool (b : Bool) : Written (.bool b) (if b then "true" else "false")
  | num (n : Nat) : Written (.num n) (toString n)
  | str {text s : String} (h : StringWritten text s) : Written (.str text) s
  | arr {vs : List Json} {s : String} (h : ItemsWritten vs s) : Written (.arr vs) ("[" ++ s ++ "]")
  | obj {ms : List (String × Json)} {s : String} (h : MembersWritten ms s) : Written (.obj ms) ("\x7b" ++ s ++ "\x7d")

/-- The text is that of the items of an array. -/
inductive ItemsWritten : List Json → String → Prop
  | nil : ItemsWritten [] ""
  | single {v : Json} {s : String} (h : Written v s) : ItemsWritten [v] s
  | cons {v w : Json} {vs : List Json} {s t : String} (h : Written v s) (rest : ItemsWritten (w :: vs) t) :
    ItemsWritten (v :: w :: vs) (s ++ "," ++ t)

/-- The text is that of the members of an object. -/
inductive MembersWritten : List (String × Json) → String → Prop
  | nil : MembersWritten [] ""
  | single {k q : String} {v : Json} {s : String} (key : StringWritten k q) (h : Written v s) :
    MembersWritten [(k, v)] (q ++ ":" ++ s)
  | cons {k q : String} {v : Json} {m : String × Json} {ms : List (String × Json)} {s t : String}
    (key : StringWritten k q) (h : Written v s) (rest : MembersWritten (m :: ms) t) :
    MembersWritten ((k, v) :: m :: ms) (q ++ ":" ++ s ++ "," ++ t)
end

/-! ## The writer of the program -/

lemma map_toLower_hex4 (n : Nat) : (hex4 n).map Char.toLower = hex4 n := by
  have hdigit : ∀ k < 16, (Nat.digitChar k).toLower = Nat.digitChar k := by decide
  simp only [hex4, List.map_cons, List.map_nil, hdigit _ (Nat.mod_lt _ (by decide : 16 > 0))]

lemma escapeChar_written (c : Char) : CharWritten c (escapeChar c) := by
  unfold escapeChar
  split_ifs with hquote hbackslash h8 hc hn hr ht hlow
  · exact .letter (by simp [escapeLetters, hquote])
  · exact .letter (by simp [escapeLetters, hbackslash])
  · exact .letter (by simp [escapeLetters, h8])
  · exact .letter (by simp [escapeLetters, hc])
  · exact .letter (by simp [escapeLetters, hn])
  · exact .letter (by simp [escapeLetters, hr])
  · exact .letter (by simp [escapeLetters, ht])
  · exact .code (by omega) (map_toLower_hex4 _)
  · exact .plain (by omega) hquote hbackslash

lemma quote_written (text : String) : StringWritten text (quote text) := by
  refine ⟨text.toList.map escapeChar, ?_, ?_⟩
  · rw [List.forall₂_map_right_iff, List.forall₂_same]
    exact fun c _ => escapeChar_written c
  · rw [quote, List.flatMap_def]

mutual

theorem compact_written : ∀ v : Json, v.Written v.compact
  | null => .null
  | bool b => .bool b
  | num n => .num n
  | str s => .str (quote_written s)
  | arr items => .arr (compactItems_written items)
  | obj members => .obj (compactMembers_written members)

theorem compactItems_written : ∀ vs : List Json, ItemsWritten vs (compactItems vs)
  | [] => .nil
  | [v] => .single (compact_written v)
  | v :: w :: vs => .cons (compact_written v) (compactItems_written (w :: vs))

theorem compactMembers_written : ∀ ms : List (String × Json), MembersWritten ms (compactMembers ms)
  | [] => .nil
  | [(k, v)] => .single (quote_written k) (compact_written v)
  | (k, v) :: m :: ms => .cons (quote_written k) (compact_written v) (compactMembers_written (m :: ms))

end

end Json

/-- The writer never fails, and what it writes for a value is a text of that value. -/
def JsonWriter.Sound [JsonWriter] : Prop :=
  ∀ v : Json, ∃ s, write v = some s ∧ v.Written s

lemma Json.compact_sound : JsonWriter.Sound :=
  fun v => ⟨v.compact, rfl, v.compact_written⟩

end RenpyScript
