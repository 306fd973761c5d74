import RenpyScript.Outline
import RenpyScript.Tree.Basic

/-!
# Parsing

`Tree.parse` reads a whole script. It never fails: text that matches nothing becomes error nodes. A
`Parser` is given its grammar first, as hosts do that handle several grammars.
-/

namespace RenpyScript

/-- The root over the items of a document. It covers the whole text. -/
def Node.root (items : List Node) (text : List Char) : Node :=
  ⟨none, .sourceFile, ⟨0, byteLength text⟩, false, items⟩

def Tree.parse (text : String) : Tree :=
  let chars := text.toList
  ⟨.renpy, text, .root (Outline.itemsOf (LogicalLine.scan chars)) chars⟩

/-- A parser with the grammar it has been given, if any. -/
structure Parser where
  language : Option Language

namespace Parser

def empty : Parser := ⟨none⟩

/-- Gives the parser a grammar, unless it is of a version that parsers do not accept. -/
def setLanguage (_ : Parser) (l : Language) : Except LanguageError Parser := do
  l.checkVersion
  return ⟨some l⟩

/-- Reads a script; without a grammar there is no tree. -/
def parse? (p : Parser) (text : String) : Option Tree :=
  p.language.map fun l => { Tree.parse text with language := l }

end Parser

end RenpyScript
