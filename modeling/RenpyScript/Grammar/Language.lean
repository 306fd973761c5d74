import RenpyScript.Grammar.Kind
import RenpyScript.Grammar.Queries

/-!
# The grammar as a value

A `Language` describes a grammar to its hosts: its name, the version of its tables, its file types
and its queries. `Language.checkVersion` says which versions a parser accepts.
-/

namespace RenpyScript

/-- Description of a grammar. -/
structure Language where
  name : String
  version : Nat
  /-- Extensions, without the dot, of the files the grammar is for. -/
  fileTypes : List String
  highlights : String
  folds : String
deriving DecidableEq, Repr

/-- Why a parser refuses a grammar. -/
inductive LanguageError where
  /-- The version of the tables lies outside `oldest ..= latest`. -/
  | version (found oldest latest : Nat)
deriving DecidableEq, Repr

def LanguageError.message : LanguageError → String
  | version found oldest latest =>
    s!"incompatible language version {found}; expected {oldest}..={latest}"

namespace Language

/-- The latest version of grammar tables that parsers accept. -/
def latestVersion : Nat := 15

/-- The oldest version of grammar tables that parsers accept. -/
def oldestVersion : Nat := 13

/-- The grammar of Ren'Py scripts. -/
def renpy : Language where
  name := "renpy"
  version := latestVersion
  fileTypes := ["rpy", "rpym"]
  highlights := highlightsQuery
  folds := foldsQuery

/-- Number of node kinds, hidden ones included. -/
def kindCount : Nat := Kind.all.length

def fieldCount : Nat := Field.all.length

/-- Refuses a grammar whose tables have a version that parsers do not accept. -/
def checkVersion (l : Language) : Except LanguageError Unit :=
  if oldestVersion ≤ l.version ∧ l.version ≤ latestVersion then .ok ()
  else .error (.version l.version oldestVersion latestVersion)

def describe (l : Language) : String :=
  "Language \x7b name: \"" ++ l.name ++ "\", abi_version: " ++ toString l.version ++
    ", node_kind_count: " ++ toString kindCount ++ ", field_count: " ++ toString fieldCount ++ " \x7d"

end Language

end RenpyScript
