/-!
# Keywords

The reserved words of the script language and the classes they fall into. A word may be in
several classes: `transform` opens a header at the top level and a statement inside a block.
-/

namespace RenpyScript

/-- A reserved word. -/
inductive Keyword where
  | python | label | init | early | animate | define | default | transform
  | screen | image | hide | show | scene | jump | menu | return
  | call | if | elif | else | play | stop | queue | voice
  | sustain | event | on | pause | linear | ease | easein | easeout
  | choice | function | parallel | block | contains | time | pass | repeat
  | add | bar | vbar | button | textbutton | imagebutton | mousearea | imagemap
  | fixed | frame | grid | hbox | vbox | side | window | null
  | input | key | timer | viewport | hotspot | hotbar | text | has
  | for | use
deriving DecidableEq, Repr

namespace Keyword

/-- Every keyword, in the order of the grammar's token table. -/
def all : List Keyword :=
  [
    .python, .label, .init, .early, .animate, .define, .default, .transform, .screen, .image,
    .hide, .show, .scene, .jump, .menu, .return, .call, .if, .elif, .else, .play, .stop,
    .queue, .voice, .sustain, .event, .on, .pause, .linear, .ease, .easein, .easeout, .choice,
    .function, .parallel, .block, .contains, .time, .pass, .repeat, .add, .bar, .vbar, .button,
    .textbutton, .imagebutton, .mousearea, .imagemap, .fixed, .frame, .grid, .hbox, .vbox,
    .side, .window, .null, .input, .key, .timer, .viewport, .hotspot, .hotbar, .text, .has,
    .for, .use
  ]

def word : Keyword → String
  | .python => "python"
  | .label => "label"
  | .init => "init"
  | .early => "early"
  | .animate => "animate"
  | .define => "define"
  | .default => "default"
  | .transform => "transform"
  | .screen => "screen"
  | .image => "image"
  | .hide => "hide"
  | .show => "show"
  | .scene => "scene"
  | .jump => "jump"
  | .menu => "menu"
  | .return => "return"
  | .call => "call"
  | .if => "if"
  | .elif => "elif"
  | .else => "else"
  | .play => "play"
  | .stop => "stop"
  | .queue => "queue"
  | .voice => "voice"
  | .sustain => "sustain"
  | .event => "event"
  | .on => "on"
  | .pause => "pause"
  | .linear => "linear"
  | .ease => "ease"
  | .easein => "easein"
  | .easeout => "easeout"
  | .choice => "choice"
  | .function => "function"
  | .parallel => "parallel"
  | .block => "block"
  | .contains => "contains"
  | .time => "time"
  | .pass => "pass"
  | .repeat => "repeat"
  | .add => "add"
  | .bar => "bar"
  | .vbar => "vbar"
  | .button => "button"
  | .textbutton => "textbutton"
  | .imagebutton => "imagebutton"
  | .mousearea => "mousearea"
  | .imagemap => "imagemap"
  | .fixed => "fixed"
  | .frame => "frame"
  | .grid => "grid"
  | .hbox => "hbox"
  | .vbox => "vbox"
  | .side => "side"
  | .window => "window"
  | .null => "null"
  | .input => "input"
  | .key => "key"
  | .timer => "timer"
  | .viewport => "viewport"
  | .hotspot => "hotspot"
  | .hotbar => "hotbar"
  | .text => "text"
  | .has => "has"
  | .for => "for"
  | .use => "use"

def ofWord? (w : String) : Option Keyword :=
  all.find? (·.word = w)

def headers : List Keyword :=
  [.label, .init, .early, .transform, .animate]

/-- Keywords that begin a statement with free arguments. -/
def statements : List Keyword :=
  [
    .transform, .screen, .image, .hide, .show, .scene, .jump, .menu, .return, .call, .if,
    .elif, .else, .play, .stop, .queue, .voice, .sustain, .event, .on, .pause, .linear, .ease,
    .easein, .easeout, .choice, .function, .parallel, .block, .contains, .time, .pass, .repeat,
    .add, .bar, .vbar, .button, .textbutton, .imagebutton, .mousearea, .imagemap, .fixed,
    .frame, .grid, .hbox, .vbox, .side, .window, .null, .input, .key, .timer, .viewport,
    .hotspot, .hotbar, .text, .has, .for, .use
  ]

/-- Keywords that begin a statement with a condition. -/
def controls : List Keyword :=
  [.for, .if, .elif]

def definitions : List Keyword :=
  [.define, .default]

/-- Keywords that may stand before `python` in the first line of a Python block. -/
def pythonModifiers : List Keyword :=
  [.init, .early]

def isHeader (k : Keyword) : Bool := k ∈ headers

/-- Whether the keyword begins a statement with free arguments. -/
def isStatement (k : Keyword) : Bool := k ∈ statements

/-- Whether the keyword begins a statement with a condition. -/
def isControl (k : Keyword) : Bool := k ∈ controls

def isDefinition (k : Keyword) : Bool := k ∈ definitions

/-- Whether the keyword may stand before `python`. -/
def isPythonModifier (k : Keyword) : Bool := k ∈ pythonModifiers

/-- Every keyword is listed. -/
theorem mem_all (k : Keyword) : k ∈ all := by
  cases k <;> decide

/-- Looking up the spelling of a keyword gives the keyword. -/
theorem ofWord?_word (k : Keyword) : ofWord? k.word = some k := by
  cases k <;> decide

end Keyword

end RenpyScript
