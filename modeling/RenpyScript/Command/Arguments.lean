/-!
# Arguments of the command line

`Request.ofArguments?` says what is asked of the program, or that the arguments cannot be used. They are
read from left to right, and the first that asks for help, or cannot be used, decides.
-/

namespace RenpyScript

/-- What the program does with files. -/
inductive Command where
  | parse (paths : List String) (json quiet : Bool)
  | highlight (path : String)
  | query (query : String) (paths : List String)
  | nodeTypes
deriving DecidableEq, Repr

/-- The names of the commands. -/
inductive CommandName where
  | parse
  | highlight
  | query
  | nodeTypes
  | help
deriving DecidableEq, Repr

/-- What is asked of the program. -/
inductive Request where
  | run (config : Option String) (command : Command)
  | help (topic : Option CommandName)
  | version
deriving DecidableEq, Repr

namespace CommandName

def all : List CommandName :=
  [.parse, .highlight, .query, .nodeTypes, .help]

def word : CommandName → String
  | parse => "parse"
  | highlight => "highlight"
  | query => "query"
  | nodeTypes => "node-types"
  | help => "help"

def ofWord? (w : String) : Option CommandName :=
  all.find? (·.word = w)

/-- Whether a command takes another path when it has `n`. -/
def takesMore (n : Nat) : CommandName → Bool
  | parse | query => true
  | highlight => n = 0
  | _ => false

end CommandName

/-- What has been read behind the name of a command. -/
structure Given where
  config : Option String
  json : Bool
  quiet : Bool
  paths : List String
deriving DecidableEq, Repr

namespace Given

/-- The command that has been given, if nothing is missing. -/
def command? (g : Given) : CommandName → Option Command
  | .parse => if g.paths.isEmpty then none else some (.parse g.paths g.json g.quiet)
  | .highlight =>
    match g.paths with
    | [path] => some (.highlight path)
    | _ => none
  | .query =>
    match g.paths with
    | query :: path :: paths => some (.query query (path :: paths))
    | _ => none
  | .nodeTypes => if g.paths.isEmpty then some .nodeTypes else none
  | .help => none

/-- Adds a path. It must not be empty. -/
def addPath? (g : Given) (name : CommandName) (path : String) : Option Given :=
  if name.takesMore g.paths.length && !path.isEmpty then some { g with paths := g.paths ++ [path] }
  else none

/-- Sets a switch by its long name. It must not be set already. -/
def switch? (g : Given) (name : CommandName) (long : String) : Option Given :=
  if name ≠ .parse then none
  else if long = "json" && !g.json then some { g with json := true }
  else if long = "quiet" && !g.quiet then some { g with quiet := true }
  else none

/-- Sets the path of the configuration. It must not be empty, or given twice. -/
def setConfig? (g : Given) (path : String) : Option Given :=
  if g.config.isNone && !path.isEmpty then some { g with config := some path } else none

end Given

/-- How an argument looks. -/
inductive Argument where
  /-- Two dashes: only paths follow. -/
  | pathsOnly
  /-- An option by its long name, with the value behind an equals sign. -/
  | long (name : String) (value : Option String)
  | short (letters : List Char)
  | word (w : String)
deriving DecidableEq, Repr

/-- The look of an argument. A single dash is a word. -/
def Argument.of (a : String) : Argument :=
  match a.toList with
  | ['-', '-'] => .pathsOnly
  | '-' :: '-' :: cs =>
    let name := String.ofList (cs.takeWhile (· ≠ '='))
    match cs.dropWhile (· ≠ '=') with
    | [] => .long name none
    | _ :: value => .long name (some (String.ofList value))
  | '-' :: c :: cs => .short (c :: cs)
  | _ => .word a

/-- Whether an argument can be the value of the option before it. -/
def Argument.isWord (a : String) : Bool :=
  match of a with
  | .word _ => true
  | _ => false

namespace Request

/-- Reads letters of options: what they ask for, or the switches they set. -/
def letters? (name : CommandName) (g : Given) : List Char → Option (Request ⊕ Given)
  | [] => some (.inr g)
  | c :: cs =>
    if c = 'h' then some (.inl (.help (some name)))
    else if c = 'q' then (g.switch? name "quiet").bind fun g => letters? name g cs
    else none

/-- Reads the arguments behind the name of a command. `config` stands in front of the name. -/
def ofCommand? (config : Option String) (name : CommandName) (g : Given) : List String → Option Request
  | [] => (g.command? name).map (.run (g.config.or config))
  | a :: rest =>
    match Argument.of a with
    | .pathsOnly =>
      (rest.foldlM (fun (g : Given) path => g.addPath? name path) g).bind fun g =>
        (g.command? name).map (.run (g.config.or config))
    | .long "config" (some path) => (g.setConfig? path).bind fun g => ofCommand? config name g rest
    | .long "config" none =>
      match rest with
      | [] => none
      | path :: rest =>
        if Argument.isWord path then (g.setConfig? path).bind fun g => ofCommand? config name g rest
        else none
    | .long "help" none => some (.help (some name))
    | .long long none => (g.switch? name long).bind fun g => ofCommand? config name g rest
    | .long _ (some _) => none
    | .short letters =>
      match letters? name g letters with
      | some (.inl r) => some r
      | some (.inr g) => ofCommand? config name g rest
      | none => none
    | .word w => (g.addPath? name w).bind fun g => ofCommand? config name g rest

/-- Help on what is named behind `help`: the program, or one command. -/
def helpOn? : List String → Option Request
  | [] => some (.help none)
  | [w] => (CommandName.ofWord? w).map fun name => .help (some name)
  | _ => none

def ofArgumentsFrom? (config : Option String) : List String → Option Request
  | [] => none
  | a :: rest =>
    match Argument.of a with
    | .long "config" (some path) =>
      if config.isNone && !path.isEmpty then ofArgumentsFrom? (some path) rest else none
    | .long "config" none =>
      match rest with
      | [] => none
      | path :: rest =>
        if Argument.isWord path && config.isNone && !path.isEmpty then
          ofArgumentsFrom? (some path) rest
        else none
    | .long "help" none | .short ('h' :: _) => some (.help none)
    | .long "version" none | .short ('V' :: _) => some .version
    | .word w =>
      match CommandName.ofWord? w with
      | some .help => helpOn? rest
      | some name => ofCommand? config name ⟨none, false, false, []⟩ rest
      | none => none
    | _ => none

/-- What the arguments ask for; nothing if they cannot be used. -/
def ofArguments? (arguments : List String) : Option Request :=
  ofArgumentsFrom? none arguments

end Request

end RenpyScript
