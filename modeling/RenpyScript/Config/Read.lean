import RenpyScript.Config.Basic
import RenpyScript.Text.Blank
import RenpyScript.Yaml.Document

/-!
# Reading configurations

A configuration is a YAML mapping from the names of its parts. A part that is missing is that of the
standard configuration, and unknown parts are passed over. Every scalar may stand for a text, also one
that looks like a number; only where a text is optional, a plain null means that there is none.
-/

namespace RenpyScript

namespace Yaml.Document

def text? (d : Document) (v : Value) : Option String :=
  match d.resolve v with
  | .scalar text _ _ => some text
  | _ => none

def nulls : List String :=
  ["null", "Null", "NULL", "~"]

/-- An optional text; the outer option tells whether the value is one. -/
def optionalText? (d : Document) (v : Value) : Option (Option String) :=
  match d.resolve v with
  | .scalar text false _ => some (some text)
  | .scalar text true none => some (if text.isEmpty || nulls.contains text then none else some text)
  | .scalar text true (some tag) =>
    if tag = "tag:yaml.org,2002:null" then if nulls.contains text then some none else none
    else some (some text)
  | _ => none

/-- Whether nothing is written where a value could be. -/
def isVoid (d : Document) (v : Value) : Bool :=
  match d.resolve v with
  | .scalar text true _ => text.isEmpty
  | _ => false

def texts? (d : Document) (v : Value) : Option (List String) :=
  if d.isVoid v then some []
  else
    match d.resolve v with
    | .list items => items.mapM d.text?
    | _ => none

/-- The entries of a mapping whose keys are texts. -/
def entries? (d : Document) (v : Value) : Option (List (String × Value)) :=
  if d.isVoid v then some []
  else
    match d.resolve v with
    | .mapping entries => entries.mapM fun e => (d.text? e.1).map fun k => (k, e.2)
    | _ => none

/-- The entry under a key, read by `read`, or `standard` if there is none. A key must not be repeated. -/
def entry? {α : Type} (entries : List (String × Value)) (key : String) (standard : α)
    (read : Value → Option α) : Option α :=
  match entries.filter (·.1 = key) with
  | [] => some standard
  | [e] => read e.2
  | _ => none

def comment? (d : Document) (v : Value) : Option CommentTokens := do
  let entries ← d.entries? v
  let line ← entry? entries "line" none d.optionalText?
  let blockStart ← entry? entries "block_start" none d.optionalText?
  let blockEnd ← entry? entries "block_end" none d.optionalText?
  return ⟨line, blockStart, blockEnd⟩

def config? (d : Document) : Option LanguageConfig := do
  let standard := LanguageConfig.standard
  let entries ← d.entries? d.root
  let name ← entry? entries "name" standard.name d.text?
  let scope ← entry? entries "scope" standard.scope d.text?
  let fileTypes ← entry? entries "file_types" standard.fileTypes d.texts?
  let comment ← entry? entries "comment" standard.comment d.comment?
  let indentUnit ← entry? entries "indent_unit" standard.indentUnit d.text?
  let highlights ← entry? entries "highlights" none d.optionalText?
  let folds ← entry? entries "folds" none d.optionalText?
  return ⟨name, scope, fileTypes, comment, indentUnit, highlights, folds⟩

end Yaml.Document

namespace LanguageConfig

/-- The configuration written in a text. White space alone stands for the standard one. -/
def ofYaml (text : String) : Except ConfigError LanguageConfig :=
  if text.toList.all isWhiteSpace then .ok standard
  else
    match (Yaml.Document.ofText? text).bind (·.config?) with
    | some c => c.check
    | none => .error .yaml

variable {m : Type → Type} [Monad m]

/-- The configuration in a file. The files it names are looked for from the directory of that file. -/
def load (files : FileAccess m) (path : String) : m (Except ConfigError LanguageConfig) := do
  match (← files.readText path) with
  | .error e => return .error (.file e)
  | .ok text =>
    let fromHere (p : String) : String := Path.join (Path.directory path) p
    return (ofYaml text).map fun c =>
      { c with highlights := c.highlights.map fromHere, folds := c.folds.map fromHere }

/-- The text of a file that a configuration may name. -/
def readOptional (files : FileAccess m) (path : Option String) :
    m (Except ConfigError (Option String)) := do
  match path with
  | none => return .ok none
  | some path =>
    match (← files.readText path) with
    | .ok text => return .ok (some text)
    | .error e => return .error (.file e)

end LanguageConfig

end RenpyScript
