import RenpyScript.Highlight.Edit
import RenpyScript.Query.Walk
import RenpyScript.Query.Source
import RenpyScript.Grammar.Language
import RenpyScript.Text.LineIndex

/-!
# Highlighting

A `HighlightConfig` says what to look for: a query whose captures are styled, and a query whose
captures may be folded. A `Highlighter` has both compiled and knows the style of each capture; it turns
a tree into edits.
-/

namespace RenpyScript

/-- What to highlight, and how. -/
structure HighlightConfig where
  highlights : String
  folds : Option String
  styles : StyleMap
  /-- Whether the other captures are allocated styles. -/
  dynamicStyles : Bool
  layer : Nat
  /-- The style of errors; without one they are not reported. -/
  errorStyle : Option StyleId
  /-- Whether collapsed regions stay collapsed. -/
  preserveCollapsed : Bool
deriving DecidableEq, Repr

namespace HighlightConfig

/-- The layer of highlights unless a configuration names another one. -/
def defaultLayer : Nat := 1

def errorLayer : Nat := 2

/-- Highlights from a query, only captures with explicit styles, and no folds. -/
def ofQuery (highlights : String) : HighlightConfig where
  highlights := highlights
  folds := none
  styles := .empty
  dynamicStyles := false
  layer := defaultLayer
  errorStyle := none
  preserveCollapsed := true

def withDefaultFolds (c : HighlightConfig) : HighlightConfig :=
  { c with folds := some foldsQuery }

/-- The bundled queries, with a style for every capture. -/
def renpy : HighlightConfig :=
  { (ofQuery highlightsQuery).withDefaultFolds with dynamicStyles := true }

end HighlightConfig

/-- Why a configuration is refused. -/
inductive HighlightError where
  | highlightsQuery (e : QueryError)
  | foldsQuery (e : QueryError)
deriving DecidableEq, Repr

namespace HighlightError

def cause : HighlightError → QueryError
  | highlightsQuery e => e
  | foldsQuery e => e

def message : HighlightError → String
  | highlightsQuery e => "highlights query error: " ++ e.message
  | foldsQuery e => "folds query error: " ++ e.message

end HighlightError

namespace Highlighter

/-- The styles of captures: the explicit one, or an allocated one if `dynamic`. -/
def stylesOf (explicit : StyleMap) (dynamic : Bool) :
    StyleTable → List String → List (Option StyleId) × StyleTable
  | t, [] => ([], t)
  | t, name :: names =>
    match explicit.get? name with
    | some s =>
      let r := stylesOf explicit dynamic t names
      (some s :: r.1, r.2)
    | none =>
      if dynamic then
        let a := t.allocate name
        let r := stylesOf explicit dynamic a.2 names
        (some a.1 :: r.1, r.2)
      else
        let r := stylesOf explicit dynamic t names
        (none :: r.1, r.2)

/-- The interval that a node covers, unless it is empty. -/
def intervalOf? (index : LineIndex) (style : StyleId) (n : Node) : Option Interval :=
  let start := index.charOffset n.span.start
  let stop := index.charOffset n.span.stop
  if n.span.start < n.span.stop ∧ start < stop then some ⟨start, stop, style⟩ else none

mutual
/-- The errors of a subtree that lie in no other error. -/
def outermostErrors : Node → List Node
  | ⟨field, kind, span, missing, children⟩ =>
    if kind = .error then [⟨field, kind, span, missing, children⟩]
    else outermostErrorsAmong children

/-- The errors of several subtrees that lie in no other error. -/
def outermostErrorsAmong : List Node → List Node
  | [] => []
  | n :: ns => outermostErrors n ++ outermostErrorsAmong ns
end

def errorIntervals (style : StyleId) (t : Tree) : List Interval :=
  let index := LineIndex.ofText t.text
  ((outermostErrors t.root).filterMap (intervalOf? index style)).mergeSort Interval.before

end Highlighter

section
variable [RegexEngine]

/-- A compiled configuration. -/
structure Highlighter where
  config : HighlightConfig
  highlights : Query
  folds : Option Query
  /-- The style of each capture of `highlights`. -/
  styles : List (Option StyleId)
  table : StyleTable

namespace Highlighter

/-- The query for folds, if there is more to it than white space. -/
def foldsOf? (folds : Option String) : Except HighlightError (Option Query) :=
  match folds with
  | none => .ok none
  | some source =>
    if source.toList.all isWhiteSpace then .ok none
    else
      match Query.ofSource source with
      | .ok q => .ok (some q)
      | .error e => .error (.foldsQuery e)

def ofConfig (config : HighlightConfig) : Except HighlightError Highlighter := do
  let highlights ← (Query.ofSource config.highlights).mapError .highlightsQuery
  let styles := stylesOf config.styles config.dynamicStyles .empty highlights.captureNames
  let folds ← foldsOf? config.folds
  return ⟨config, highlights, folds, styles.1, styles.2⟩

def nameOf? (h : Highlighter) (style : StyleId) : Option String :=
  (h.config.styles.nameOf? style).or (h.table.nameOf? style)

/-- The styled intervals of a tree, in order and each once. -/
def intervals (h : Highlighter) (t : Tree) : List Interval :=
  let index := LineIndex.ofText t.text
  let captures := (h.highlights.matchesIn t.text.toUTF8 none t.root).flatMap (·.captures)
  let found := captures.filterMap fun c =>
    (h.styles[c.index]?.join).bind fun style => intervalOf? index style c.node
  collapseRuns (found.mergeSort Interval.before)

/-- The fold regions of a tree, in order and each once. A region has two lines at least. -/
def foldRegions (folds : Query) (t : Tree) : List FoldRegion :=
  let lines := t.lineTable
  let captures := (folds.matchesIn t.text.toUTF8 none t.root).flatMap (·.captures)
  let found := captures.filterMap fun c =>
    let first := (lines.point c.node.span.start).row
    let last := (lines.point c.node.span.stop).row
    if first < last then some (.between first last) else none
  collapseRuns (found.mergeSort FoldRegion.before)

def edits (h : Highlighter) (t : Tree) : List Edit :=
  [.styles h.config.layer (h.intervals t)] ++
    (h.config.errorStyle.toList.map fun s =>
      .styles HighlightConfig.errorLayer (errorIntervals s t)) ++
    (h.folds.toList.map fun q => .folds (foldRegions q t) h.config.preserveCollapsed)

end Highlighter

end

end RenpyScript
