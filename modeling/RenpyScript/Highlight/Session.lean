import RenpyScript.Highlight.Highlighter
import RenpyScript.Parser

/-!
# Sessions

A session highlights the versions of a document, one after the other. It does nothing when it is given
the version it has just processed.
-/

namespace RenpyScript

/-- What the last call of a session did. -/
inductive UpdateMode where
  | initial
  /-- It processed another document from the beginning. -/
  | fullReparse
  | skipped
deriving DecidableEq, Repr

variable [RegexEngine]

/-- A highlighter, and what it processed last. -/
structure Session where
  highlighter : Highlighter
  tree : Option Tree
  version : Option Nat
  mode : UpdateMode

namespace Session

/-- A session that has processed nothing yet. -/
def start (h : Highlighter) : Session :=
  ⟨h, none, none, .fullReparse⟩

/-- Conversions of offsets for the last document. -/
def lineIndex (s : Session) : LineIndex :=
  (s.tree.map fun t => LineIndex.ofText t.text).getD .empty

def process (s : Session) (text : String) (version : Nat) : List Edit × Session :=
  if s.version = some version then ([], { s with mode := .skipped })
  else
    let t := Tree.parse text
    (s.highlighter.edits t,
      ⟨s.highlighter, some t, some version, if s.tree.isNone then .initial else .fullReparse⟩)

/-- The style of a name, allocated if the highlighter has none for it yet. -/
def allocateStyle (s : Session) (name : String) : StyleId × Session :=
  let r := s.highlighter.table.allocate name
  (r.1, { s with highlighter := { s.highlighter with table := r.2 } })

end Session

end RenpyScript
