import RenpyScript.Files.Access
import RenpyScript.Files.Path
import RenpyScript.Text.Quoted

/-!
# Configuration of a language

Which files are scripts, how comments and indentation are written, and which queries replace the bundled
ones.
-/

namespace RenpyScript

/-- How comments are written. -/
structure CommentTokens where
  line : Option String
  blockStart : Option String
  blockEnd : Option String
deriving DecidableEq, Repr

namespace CommentTokens

def none : CommentTokens := ⟨.none, .none, .none⟩

def ofLine (token : String) : CommentTokens := ⟨some token, .none, .none⟩

end CommentTokens

/-- The configuration of a language. -/
structure LanguageConfig where
  name : String
  scope : String
  /-- Extensions, without the dot, of the language's files. -/
  fileTypes : List String
  comment : CommentTokens
  indentUnit : String
  highlights : Option String
  /-- The file with the query for folds, if it is not the bundled one. -/
  folds : Option String
deriving DecidableEq, Repr

/-- Why there is no configuration. -/
inductive ConfigError where
  /-- The text is no YAML, or not of the expected shape. -/
  | yaml
  | file (e : FileError)
  | indentUnit (unit : String)
deriving DecidableEq, Repr

namespace ConfigError

def message : ConfigError → String
  | yaml => "YAML parse error"
  | file e => "I/O error: " ++ e.message
  | indentUnit unit => "invalid indent unit " ++ quoted unit ++ ": expected spaces or a single tab"

/-- What an error says, followed by what its causes say. -/
def causes : ConfigError → List String
  | file e => [message (file e), e.message]
  | e => [e.message]

end ConfigError

namespace LanguageConfig

/-- The configuration that holds without any other. -/
def standard : LanguageConfig where
  name := "renpy"
  scope := "source.renpy"
  fileTypes := ["rpy", "rpym"]
  comment := .ofLine "#"
  indentUnit := "    "
  highlights := none
  folds := none

/-- Whether a text can be a level of indentation: spaces, or one tab. -/
def isIndentUnit (unit : String) : Bool :=
  unit = "\t" || (!unit.isEmpty && unit.toList.all (· = ' '))

/-- Refuses a configuration whose level of indentation cannot be one. -/
def check (c : LanguageConfig) : Except ConfigError LanguageConfig :=
  if isIndentUnit c.indentUnit then .ok c else .error (.indentUnit c.indentUnit)

/-- Whether a path is that of one of the language's files. The case of ASCII letters in extensions does
not matter. -/
def matchesPath (c : LanguageConfig) (path : String) : Bool :=
  (Path.extension? path).any fun e =>
    c.fileTypes.any fun t => t.toList.map Char.toLower = e.map Char.toLower

end LanguageConfig

end RenpyScript
