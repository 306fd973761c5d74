import RenpyScript.Highlight.Style

/-!
# Edits

Styled intervals and fold regions, and the edits that carry them to an editor.
-/

namespace RenpyScript

/-- A styled half-open stretch of a document, in characters. -/
structure Interval where
  start : Nat
  stop : Nat
  style : StyleId
deriving DecidableEq, Repr

/-- Whether an interval comes before another one or equals it: by start, by stop, and by style. -/
def Interval.before (a b : Interval) : Bool :=
  a.start < b.start || (a.start = b.start && (a.stop < b.stop || (a.stop = b.stop && a.style ≤ b.style)))

/-- Lines that can be folded into the first of them. -/
structure FoldRegion where
  startLine : Nat
  endLine : Nat
  collapsed : Bool
deriving DecidableEq, Repr

namespace FoldRegion

def between (startLine endLine : Nat) : FoldRegion :=
  ⟨startLine, endLine, false⟩

def hiddenLines (r : FoldRegion) : Nat :=
  r.endLine - r.startLine

/-- Whether a region comes before another one or equals it: by first line, then by last. -/
def before (a b : FoldRegion) : Bool :=
  a.startLine < b.startLine || (a.startLine = b.startLine && a.endLine ≤ b.endLine)

end FoldRegion

/-- A change to what an editor shows of a document. -/
inductive Edit where
  | styles (layer : Nat) (intervals : List Interval)
  /-- The fold regions are replaced. With `preserveCollapsed`, a region that was collapsed stays so. -/
  | folds (regions : List FoldRegion) (preserveCollapsed : Bool)
deriving DecidableEq, Repr

/-- The list with each run of equal members reduced to one. -/
def collapseRuns {α : Type} [DecidableEq α] : List α → List α
  | [] => []
  | a :: as => if as.head? = some a then collapseRuns as else a :: collapseRuns as

end RenpyScript
