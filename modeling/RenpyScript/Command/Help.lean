import RenpyScript.Command.Arguments

/-!
# Help

How to use the program and its commands. Help has a purpose, a line on usage, and lists of what may be
given; the entries of a list are aligned.
-/

namespace RenpyScript

/-- A list in a help text: a heading, and entries with their meaning. -/
structure HelpList where
  heading : String
  entries : List (String × String)

/-- A help text. -/
structure HelpText where
  purpose : String
  usage : String
  lists : List HelpList

namespace HelpText

/-- Spaces that bring a text to a given width. -/
def padding (width : Nat) (s : String) : String :=
  String.ofList (List.replicate (width - s.length) ' ')

def listLines (l : HelpList) : List String :=
  let width := (l.entries.map (·.1.length)).foldl max 0
  ["", l.heading ++ ":"] ++ l.entries.map fun e => "  " ++ e.1 ++ padding width e.1 ++ "  " ++ e.2

def render (h : HelpText) : String :=
  String.join
    (([h.purpose, "", "Usage: " ++ h.usage] ++ h.lists.flatMap listLines).map fun l => l ++ "\n")

end HelpText

namespace CommandName

def purpose : CommandName → String
  | parse => "Parse files and print their syntax trees"
  | highlight => "Print highlight captures and fold regions for a file"
  | query => "Run a query file against files and print its captures"
  | nodeTypes => "Print the grammar's node types as JSON"
  | help => "Print this message or the help of the given subcommand(s)"

/-- What is given to a command besides options. -/
def arguments : CommandName → List (String × String)
  | parse => [("<PATHS>...", "Files or directories (searched for matching file types)")]
  | highlight => [("<PATH>", "File to highlight")]
  | query => [("<QUERY>", "Query source (`.scm`)"), ("<PATHS>...", "Files or directories")]
  | nodeTypes => []
  | help => [("[COMMAND]...", "Print help for the subcommand(s)")]

end CommandName

namespace HelpText

def configOption : String × String :=
  ("    --config <PATH>", "Language config (YAML) overriding file types and queries")

def helpOption : String × String :=
  ("-h, --help", "Print help")

def options : CommandName → List (String × String)
  | .parse =>
    [configOption, ("    --json", "Print trees as JSON instead of S-expressions"),
      ("-q, --quiet", "Only report files that contain errors"), helpOption]
  | .help => []
  | _ => [configOption, helpOption]

def listOf (heading : String) (entries : List (String × String)) : List HelpList :=
  if entries.isEmpty then [] else [⟨heading, entries⟩]

def ofCommand (name : CommandName) : HelpText :=
  let options := options name
  let words := ["renpy", name.word] ++ (if options.isEmpty then [] else ["[OPTIONS]"]) ++
    name.arguments.map (·.1)
  ⟨name.purpose, " ".intercalate words,
    listOf "Arguments" name.arguments ++ listOf "Options" options⟩

def ofProgram : HelpText :=
  ⟨"Parse, highlight and query Ren'Py scripts", "renpy [OPTIONS] <COMMAND>",
    [⟨"Commands", CommandName.all.map fun name => (name.word, name.purpose)⟩,
      ⟨"Options", [configOption, helpOption, ("-V, --version", "Print version")]⟩]⟩

def versionLine : String :=
  "renpy 0.1.0\n"

end HelpText

end RenpyScript
