import RenpyScript.Highlight.Session

/-!
# Processors

A session keeps the tree of the last document and works out from it what else there is to know of that document. A
processor keeps each of these by itself and writes it when it has been found: the conversions of offsets, then the tree,
for which the parser needs its grammar, and at last the version and what has been done.
-/

namespace RenpyScript

variable [RegexEngine]

/-- A highlighter and a parser, and what they processed last. -/
structure Processor where
  highlighter : Highlighter
  parser : Parser
  tree : Option Tree
  /-- Conversions of offsets for the last document. -/
  index : LineIndex
  version : Option Nat
  mode : UpdateMode

namespace Processor

/-- A processor that has processed nothing yet. -/
def start (h : Highlighter) : Processor :=
  ⟨h, ⟨some .renpy⟩, none, .empty, none, .fullReparse⟩

def ofConfig (config : HighlightConfig) : Except HighlightError Processor :=
  (Highlighter.ofConfig config).map start

/-- The styled intervals of a tree by the processor's conversions, in order and each once. -/
def intervals (p : Processor) (t : Tree) : List Interval :=
  let captures := (p.highlighter.highlights.matchesIn t.text.toUTF8 none t.root).flatMap (·.captures)
  let found := captures.filterMap fun c =>
    (p.highlighter.styles[c.index]?.join).bind fun style => Highlighter.intervalOf? p.index style c.node
  collapseRuns (found.mergeSort Interval.before)

/-- The intervals of the errors in a tree by the processor's conversions, in order. -/
def errorIntervals (p : Processor) (style : StyleId) (t : Tree) : List Interval :=
  ((Highlighter.outermostErrors t.root).filterMap (Highlighter.intervalOf? p.index style)).mergeSort Interval.before

def edits (p : Processor) (t : Tree) : List Edit :=
  let config := p.highlighter.config
  [.styles config.layer (p.intervals t)] ++
    (config.errorStyle.toList.map fun s => .styles HighlightConfig.errorLayer (p.errorIntervals s t)) ++
    (p.highlighter.folds.toList.map fun q => .folds (Highlighter.foldRegions q t) config.preserveCollapsed)

def process (p : Processor) (text : String) (version : Nat) : List Edit × Processor :=
  if p.version = some version then ([], { p with mode := .skipped })
  else
    let mode : UpdateMode := if p.tree.isNone then .initial else .fullReparse
    let p := { p with index := .ofText text }
    let p := { p with tree := p.parser.parse? text }
    match p.tree with
    | none => ([], { p with version := some version, mode })
    | some t => (p.edits t, { p with version := some version, mode })

/-- The processor after a run of calls, each with a text and its version. -/
def after (p : Processor) (calls : List (String × Nat)) : Processor :=
  calls.foldl (fun p call => (p.process call.1 call.2).2) p

end Processor

end RenpyScript
