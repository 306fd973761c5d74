import RenpyScript.Checked.Arena
import RenpyScript.Highlight.Highlighter

/-!
# The search for outermost errors

A stack of nodes is searched from the top. A node without an error in it is left out, and an error is not entered; any
other node is replaced with its children, the last of them on top. What was found is sorted at the end, and nothing is
taken out. An index without an entry has no value.
-/

namespace RenpyScript

/-- The interval of a span, unless it is empty. -/
def Span.interval? (index : LineIndex) (style : StyleId) (s : Span) : Option Interval :=
  if s.stop ≤ s.start then none
  else
    let start := index.charOffset s.start
    let stop := index.charOffset s.stop
    if start < stop then some ⟨start, stop, style⟩ else none

/-- Whether an interval comes before another one, by start and by stop, or covers the same. -/
def Interval.coversBefore (i j : Interval) : Bool :=
  i.start < j.start || (i.start = j.start && i.stop ≤ j.stop)

namespace Arena

section
variable (a : Arena) (index : LineIndex) (style : StyleId)

/-- The intervals of the outermost errors below the nodes on a stack, found in so many steps at the most. -/
def errorsUpTo : Nat → List Nat → Option (List Interval)
  | _, [] => some []
  | 0, _ :: _ => none
  | n + 1, i :: stack => do
    let e ← a.nodes[i]?
    if e.hasError then
      if e.kind = .error then
        let found ← errorsUpTo n stack
        return (e.span.interval? index style).toList ++ found
      else errorsUpTo n (e.children.reverse ++ stack)
    else errorsUpTo n stack

/-- The intervals of the outermost errors in order. The search needs no more steps than there are nodes. -/
def errorIntervals? : Option (List Interval) := do
  let found ← a.errorsUpTo index style a.nodes.length [a.root]
  return found.mergeSort Interval.coversBefore

end

end Arena

end RenpyScript
