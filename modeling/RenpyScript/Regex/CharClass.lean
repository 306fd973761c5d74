import RenpyScript.Text.Blank
import RenpyScript.Text.CaseFold
import RenpyScript.Text.Letters

/-!
# Character classes

A class is built from ranges and properties by the operations of sets. `CharClass.contains` says
which characters are in it.
-/

namespace RenpyScript

/-- A property of characters that a class may ask for. -/
inductive CharProperty where
  | category (c : Category)
  | script (s : Script)
  | alphabetic
  | lowercase
  | uppercase
  | whiteSpace
  | word
deriving Repr

def CharProperty.holds : CharProperty → Char → Bool
  | .category g, c => Category.of c = g
  | .script s, c => s.contains c.toNat
  | .alphabetic, c => isAlphabetic c
  | .lowercase, c => isLowercase c
  | .uppercase, c => isUppercase c
  | .whiteSpace, c => isWhiteSpace c
  | .word, c => isWordChar c

/-- A set of characters. -/
inductive CharClass where
  | empty
  /-- The code points from `first` to `last`. -/
  | range (first last : Nat)
  | property (p : CharProperty)
  | union (a b : CharClass)
  | intersection (a b : CharClass)
  | difference (a b : CharClass)
  | symmetricDifference (a b : CharClass)
  | complement (a : CharClass)
  /-- The set together with every character that differs from a member in case only. -/
  | anyCase (a : CharClass)
  /-- The same, but letters outside ASCII have one case. -/
  | anyAsciiCase (a : CharClass)
deriving Repr

namespace CharClass

/-- The other case of an ASCII letter; other characters stay. -/
def flipAsciiCase (c : Char) : Char :=
  if c.isUpper then c.toLower else c.toUpper

def contains : CharClass → Char → Bool
  | .empty, _ => false
  | .range first last, c => first ≤ c.toNat && c.toNat ≤ last
  | .property p, c => p.holds c
  | .union a b, c => a.contains c || b.contains c
  | .intersection a b, c => a.contains c && b.contains c
  | .difference a b, c => a.contains c && !b.contains c
  | .symmetricDifference a b, c => a.contains c != b.contains c
  | .complement a, c => !a.contains c
  | .anyCase a, c => (caseVariants c.toNat).any fun n => a.contains (Char.ofNat n)
  | .anyAsciiCase a, c => a.contains c || a.contains (flipAsciiCase c)

def single (c : Char) : CharClass :=
  .range c.toNat c.toNat

def full : CharClass :=
  .range 0 0x10ffff

def unionAll (cs : List CharClass) : CharClass :=
  cs.foldr union empty

def ranges (rs : List (Nat × Nat)) : CharClass :=
  unionAll (rs.map fun r => .range r.1 r.2)

def categories (gs : List Category) : CharClass :=
  unionAll (gs.map fun g => .property (.category g))

def asciiNamed? (name : String) : Option CharClass :=
  match name with
  | "alnum" => some (ranges [(0x30, 0x39), (0x41, 0x5a), (0x61, 0x7a)])
  | "alpha" => some (ranges [(0x41, 0x5a), (0x61, 0x7a)])
  | "ascii" => some (ranges [(0, 0x7f)])
  | "blank" => some (ranges [(0x9, 0x9), (0x20, 0x20)])
  | "cntrl" => some (ranges [(0, 0x1f), (0x7f, 0x7f)])
  | "digit" => some (ranges [(0x30, 0x39)])
  | "graph" => some (ranges [(0x21, 0x7e)])
  | "lower" => some (ranges [(0x61, 0x7a)])
  | "print" => some (ranges [(0x20, 0x7e)])
  | "punct" => some (ranges [(0x21, 0x2f), (0x3a, 0x40), (0x5b, 0x60), (0x7b, 0x7e)])
  | "space" => some (ranges [(0x9, 0xd), (0x20, 0x20)])
  | "upper" => some (ranges [(0x41, 0x5a)])
  | "word" => some (ranges [(0x30, 0x39), (0x41, 0x5a), (0x5f, 0x5f), (0x61, 0x7a)])
  | "xdigit" => some (ranges [(0x30, 0x39), (0x41, 0x46), (0x61, 0x66)])
  | _ => none

/-- The categories of a name, short or long, in small letters and without separators. -/
def categoriesNamed? (name : String) : Option (List Category) :=
  match name with
  | "lu" | "uppercaseletter" => some [.uppercaseLetter]
  | "ll" | "lowercaseletter" => some [.lowercaseLetter]
  | "lt" | "titlecaseletter" => some [.titlecaseLetter]
  | "lc" | "casedletter" => some [.uppercaseLetter, .lowercaseLetter, .titlecaseLetter]
  | "lm" | "modifierletter" => some [.modifierLetter]
  | "lo" | "otherletter" => some [.otherLetter]
  | "l" | "letter" =>
    some [.uppercaseLetter, .lowercaseLetter, .titlecaseLetter, .modifierLetter, .otherLetter]
  | "mn" | "nonspacingmark" => some [.nonspacingMark]
  | "mc" | "spacingmark" => some [.spacingMark]
  | "me" | "enclosingmark" => some [.enclosingMark]
  | "m" | "mark" | "combiningmark" => some [.nonspacingMark, .spacingMark, .enclosingMark]
  | "nd" | "decimalnumber" | "digit" => some [.decimalNumber]
  | "nl" | "letternumber" => some [.letterNumber]
  | "no" | "othernumber" => some [.otherNumber]
  | "n" | "number" => some [.decimalNumber, .letterNumber, .otherNumber]
  | "pc" | "connectorpunctuation" => some [.connectorPunctuation]
  | "pd" | "dashpunctuation" => some [.dashPunctuation]
  | "ps" | "openpunctuation" => some [.openPunctuation]
  | "pe" | "closepunctuation" => some [.closePunctuation]
  | "pi" | "initialpunctuation" => some [.initialPunctuation]
  | "pf" | "finalpunctuation" => some [.finalPunctuation]
  | "po" | "otherpunctuation" => some [.otherPunctuation]
  | "p" | "punctuation" | "punct" =>
    some [.connectorPunctuation, .dashPunctuation, .openPunctuation, .closePunctuation,
      .initialPunctuation, .finalPunctuation, .otherPunctuation]
  | "sm" | "mathsymbol" => some [.mathSymbol]
  | "sc" | "currencysymbol" => some [.currencySymbol]
  | "sk" | "modifiersymbol" => some [.modifierSymbol]
  | "so" | "othersymbol" => some [.otherSymbol]
  | "s" | "symbol" => some [.mathSymbol, .currencySymbol, .modifierSymbol, .otherSymbol]
  | "zs" | "spaceseparator" => some [.spaceSeparator]
  | "zl" | "lineseparator" => some [.lineSeparator]
  | "zp" | "paragraphseparator" => some [.paragraphSeparator]
  | "z" | "separator" => some [.spaceSeparator, .lineSeparator, .paragraphSeparator]
  | "cc" | "control" | "cntrl" => some [.control]
  | "cf" | "format" => some [.format]
  | "co" | "privateuse" => some [.privateUse]
  | "cn" | "unassigned" => some [.unassigned]
  | "c" | "other" => some [.control, .format, .privateUse, .unassigned]
  | _ => none

def categoryNamed? (name : String) : Option CharClass :=
  match name with
  | "any" => some full
  | "assigned" => some (.complement (.property (.category .unassigned)))
  | "ascii" => some (.range 0 0x7f)
  | _ => (categoriesNamed? name).map categories

def scriptNamed? (name : String) : Option CharClass :=
  (Script.ofName? name).map fun s => .property (.script s)

/-- The class that a property with two values names. -/
def propertyNamed? (name : String) : Option CharClass :=
  match name with
  | "alphabetic" | "alpha" => some (.property .alphabetic)
  | "lowercase" | "lower" => some (.property .lowercase)
  | "uppercase" | "upper" => some (.property .uppercase)
  | "whitespace" | "wspace" | "space" => some (.property .whiteSpace)
  | _ => none

/-- A name without case and separators; `is` in front is dropped. -/
def looseName (cs : List Char) : String :=
  let bare := (cs.filter fun c => !(c = ' ' || c = '_' || c = '-')).map Char.toLower
  match bare with
  | 'i' :: 's' :: rest => if rest = ['c'] then "isc" else String.ofList rest
  | _ => String.ofList bare

def named? (cs : List Char) : Option CharClass :=
  let name := looseName cs
  propertyNamed? name <|> categoryNamed? name <|> scriptNamed? name

def valued? (property value : List Char) : Option CharClass :=
  match looseName property with
  | "generalcategory" | "gc" => categoryNamed? (looseName value)
  | "script" | "sc" => scriptNamed? (looseName value)
  | _ => none

end CharClass

end RenpyScript
