import RenpyScript.Command.Help
import RenpyScript.Config.Read
import RenpyScript.Grammar.NodeTypes
import RenpyScript.Highlight.Session
import RenpyScript.Regex.Engine

/-!
# Running commands

`Command.run` answers the arguments of the command line. Files are reached through a `FileAccess`. What a
command has printed before it fails stays printed.
-/

namespace RenpyScript

/-- What the program leaves behind. -/
structure Outcome where
  /-- Zero, one if scripts have errors or the program fails, two for arguments that cannot be used. -/
  code : Nat
  output : String
  errors : String
deriving DecidableEq, Repr

/-- Why a command fails. -/
inductive Failure where
  | loading (path : String) (e : ConfigError)
  /-- A file that the configuration names cannot be read. -/
  | configured (e : ConfigError)
  | reading (path : String) (e : FileError)
  | walking (path : String) (e : FileError)
  | compiling (path : String) (e : QueryError)
  | highlighting (e : HighlightError)
deriving DecidableEq, Repr

namespace Failure

/-- What a failure says, followed by what its causes say. -/
def causes : Failure → List String
  | loading path e => ("loading config " ++ path) :: e.causes
  | configured e => e.causes
  | reading path e => ["reading " ++ path, e.message]
  | walking path e => ["walking " ++ path, e.message]
  | compiling path e => ["compiling " ++ path, e.message]
  | highlighting e => [e.message, e.cause.message]

def message (f : Failure) : String :=
  "error: " ++ ": ".intercalate f.causes ++ "\n"

end Failure

/-- Part of a command: it prints, and may fail. -/
abbrev Job (m : Type → Type) := ExceptT Failure (StateT String m)

namespace Job

variable {m : Type → Type} [Monad m]

def printLine (line : String) : Job m Unit :=
  modify fun printed => printed ++ line ++ "\n"

/-- Carries out an access to files; `failure` says what its error means. -/
def attempt {α ε : Type} (failure : ε → Failure) (action : m (Except ε α)) : Job m α := do
  match (← (action : m (Except ε α))) with
  | .ok a => return a
  | .error e => throw (failure e)

def read (files : FileAccess m) (path : String) : Job m String :=
  attempt (.reading path) (files.readText path)

/-- Whether the names of one path come before those of another or are the same. -/
def pathBefore (a b : String) : Bool :=
  !(Path.names b).lex (Path.names a) fun x y => x.lex y fun c d => c.toNat < d.toNat

/-- The files that a path stands for: itself, or the scripts below it in order. -/
def filesOf (files : FileAccess m) (config : LanguageConfig) (path : String) : Job m (List String) := do
  if (← (files.isDirectory path : m Bool)) then
    let found ← attempt (.walking path) (files.filesBelow path)
    return (found.filter config.matchesPath).mergeSort pathBefore
  else return [path]

def filesOfAll (files : FileAccess m) (config : LanguageConfig) (paths : List String) :
    Job m (List String) := do
  return (← paths.mapM (filesOf files config)).flatten

def errorLine? (path : String) (t : Tree) : Option String :=
  t.root.firstError?.map fun n =>
    let lines := t.lineTable
    path ++ "\t" ++ (if n.missing then "MISSING" else "ERROR") ++ " " ++ n.kind.name ++ " [" ++
      (lines.point n.span.start).render ++ " - " ++ (lines.point n.span.stop).render ++ "]"

/-- Prints the tree of a file, unless `quiet`, and its first error. Tells whether there is none. -/
def parseFile (files : FileAccess m) (json quiet : Bool) (path : String) : Job m Bool := do
  let t := Tree.parse (← read files path)
  if !quiet then printLine (if json then t.toJson.pretty else t.root.sexp)
  match errorLine? path t with
  | some line =>
    printLine line
    return false
  | none => return true

def intervalLine (h : Highlighter) (text : String) (i : Interval) : String :=
  let index := LineIndex.ofText text
  let first := index.position i.start
  let last := index.position i.stop
  let covered := (text.toList.drop i.start).take (i.stop - i.start)
  toString first.row ++ ":" ++ toString first.column ++ "-" ++ toString last.row ++ ":" ++
    toString last.column ++ "\t" ++ (h.nameOf? i.style).getD "?" ++ "\t" ++
    quoted (String.ofList covered)

def foldLine (r : FoldRegion) : String :=
  "fold\t" ++ toString r.startLine ++ "-" ++ toString r.endLine ++ "\t" ++ toString r.hiddenLines ++
    " hidden"

def editLines (h : Highlighter) (text : String) : Edit → List String
  | .styles _ intervals => intervals.map (intervalLine h text)
  | .folds regions _ => regions.map foldLine

/-- Prints the highlights and folds of a file. -/
def highlightFile (files : FileAccess m) (config : LanguageConfig) (path : String) : Job m Unit := do
  let text ← read files path
  let highlights ← attempt .configured (LanguageConfig.readOptional files config.highlights)
  let folds ← attempt .configured (LanguageConfig.readOptional files config.folds)
  let bundled := HighlightConfig.renpy
  let wanted := { bundled with
    highlights := highlights.getD bundled.highlights, folds := folds.or bundled.folds }
  match Highlighter.ofConfig wanted with
  | .error e => throw (.highlighting e)
  | .ok h =>
    for line in (h.edits (Tree.parse text)).flatMap (editLines h text) do
      printLine line

def matchLines (q : Query) (t : Tree) (r : Match) : List String :=
  let lines := t.lineTable
  let chars := t.text.toList
  ("  pattern: " ++ toString r.pattern) :: r.captures.map fun c =>
    "    capture: " ++ toString c.index ++ " - " ++ q.captureNames.getD c.index "" ++ ", start: " ++
      (lines.point c.node.span.start).render ++ ", end: " ++ (lines.point c.node.span.stop).render ++
      ", text: " ++ quoted (c.node.textIn chars)

def queryFile (files : FileAccess m) (q : Query) (path : String) : Job m Unit := do
  let t := Tree.parse (← read files path)
  printLine path
  for line in (q.matchesIn t.text.toUTF8 none t.root).flatMap (matchLines q t) do
    printLine line

/-- Carries out a command. Tells whether no script has an error. -/
def command (files : FileAccess m) (config : LanguageConfig) : Command → Job m Bool
  | .parse paths json quiet => do
    let found ← filesOfAll files config paths
    let clean ← found.mapM (parseFile files json quiet)
    return clean.all id
  | .highlight path => do
    highlightFile files config path
    return true
  | .query query paths => do
    let source ← read files query
    match Query.ofSource source with
    | .error e => throw (.compiling query e)
    | .ok q =>
      for path in (← filesOfAll files config paths) do
        queryFile files q path
      return true
  | .nodeTypes => do
    printLine nodeTypesJson.pretty
    return true

def configOf (files : FileAccess m) (path : Option String) : Job m LanguageConfig :=
  match path with
  | some path => attempt (.loading path) (LanguageConfig.load files path)
  | none => return .standard

end Job

namespace Request

variable {m : Type → Type} [Monad m]

def answer (files : FileAccess m) : Request → m Outcome
  | .run config command => do
    let job : Job m Bool := do
      let config ← Job.configOf files config
      Job.command files config command
    let (result, printed) ← job.run.run ""
    match result with
    | .ok clean => return ⟨if clean then 0 else 1, printed, ""⟩
    | .error f => return ⟨1, printed, f.message⟩
  | .help topic => return ⟨0, ((topic.map HelpText.ofCommand).getD HelpText.ofProgram).render, ""⟩
  | .version => return ⟨0, HelpText.versionLine, ""⟩

end Request

def runProgram {m : Type → Type} [Monad m] (files : FileAccess m) (arguments : List String) :
    m Outcome :=
  match Request.ofArguments? arguments with
  | some r => r.answer files
  | none => return ⟨2, "", HelpText.ofProgram.render⟩

end RenpyScript
