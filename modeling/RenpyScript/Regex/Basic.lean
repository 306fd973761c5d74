import RenpyScript.Regex.CharClass

/-!
# Regular expressions

A `Regex` denotes a relation between positions of a text: `Regex.reach` maps the positions where a
match may begin to those where it may end. A text contains a match if some position is reached from
some position.
-/

namespace RenpyScript

/-- A condition on a position. With `ascii`, words consist of ASCII letters, digits and underscores
only. -/
inductive Assertion where
  | textStart
  | textEnd
  | lineStart
  | lineEnd
  /-- Line starts and ends where carriage return, line feed, and both together end lines. -/
  | lineStartCRLF
  | lineEndCRLF
  | wordBoundary (ascii : Bool)
  | noWordBoundary (ascii : Bool)
  | wordStart (ascii : Bool)
  | wordEnd (ascii : Bool)
  | noWordBefore (ascii : Bool)
  | noWordAfter (ascii : Bool)
deriving DecidableEq, Repr

/-- A regular expression. -/
inductive Regex where
  | empty
  | char (c : CharClass)
  | look (a : Assertion)
  | concat (a b : Regex)
  | alternate (a b : Regex)
  /-- At least `min` and at most `max` times, or without limit. -/
  | times (r : Regex) (min : Nat) (max : Option Nat)
deriving Repr

def isWordPart (ascii : Bool) (c : Char) : Bool :=
  if ascii then c.isAlphanum || c = '_' else isWordChar c

namespace Assertion

/-- Whether the condition holds between the characters `before` and `after`. -/
def holds (before after : Option Char) : Assertion → Bool
  | .textStart => before = none
  | .textEnd => after = none
  | .lineStart => before = none || before = some '\n'
  | .lineEnd => after = none || after = some '\n'
  | .lineStartCRLF => before = none || before = some '\n' || (before = some '\r' && after != some '\n')
  | .lineEndCRLF => after = none || after = some '\r' || (after = some '\n' && before != some '\r')
  | .wordBoundary ascii => before.any (isWordPart ascii) != after.any (isWordPart ascii)
  | .noWordBoundary ascii => before.any (isWordPart ascii) == after.any (isWordPart ascii)
  | .wordStart ascii => !before.any (isWordPart ascii) && after.any (isWordPart ascii)
  | .wordEnd ascii => before.any (isWordPart ascii) && !after.any (isWordPart ascii)
  | .noWordBefore ascii => !before.any (isWordPart ascii)
  | .noWordAfter ascii => !after.any (isWordPart ascii)

end Assertion

/-- The members of two ascending lists, each once, in ascending order. -/
def mergeAscending : List Nat → List Nat → List Nat
  | [], bs => bs
  | as, [] => as
  | a :: as, b :: bs =>
    if a < b then a :: mergeAscending as (b :: bs)
    else if b < a then b :: mergeAscending (a :: as) bs
    else a :: mergeAscending as bs

/-- Applies a step to a set of positions `n` times, or until no position is left. -/
def stepTimes (step : List Nat → List Nat) : Nat → List Nat → List Nat
  | 0, ps => ps
  | n + 1, ps => if ps.isEmpty then [] else stepTimes step n (step ps)

/-- The positions `seen` and those that up to `n` steps reach from `frontier`. -/
def stepUpTo (step : List Nat → List Nat) : Nat → List Nat → List Nat → List Nat
  | 0, seen, _ => seen
  | n + 1, seen, frontier =>
    let new := (step frontier).filter fun p => !seen.contains p
    if new.isEmpty then seen else stepUpTo step n (mergeAscending seen new) new

namespace Regex

/-- The positions that matches from the positions `starts` end at. Both lists are ascending. -/
def reach (text : Array Char) : Regex → List Nat → List Nat
  | .empty, starts => starts
  | .char c, starts =>
    starts.filterMap fun p => if (text[p]?).any c.contains then some (p + 1) else none
  | .look a, starts =>
    starts.filter fun p => a.holds (if p = 0 then none else text[p - 1]?) text[p]?
  | .concat a b, starts => b.reach text (a.reach text starts)
  | .alternate a b, starts => mergeAscending (a.reach text starts) (b.reach text starts)
  | .times r min max, starts =>
    let least := stepTimes (r.reach text) min starts
    stepUpTo (r.reach text) ((max.map (· - min)).getD (text.size + 1)) least least

def isMatch (r : Regex) (text : String) : Bool :=
  let chars := text.toList.toArray
  !(r.reach chars (List.range (chars.size + 1))).isEmpty

/-- The regular expressions one after the other. -/
def concatAll : List Regex → Regex
  | [] => .empty
  | [r] => r
  | r :: rs => .concat r (concatAll rs)

def alternateAll : List Regex → Regex
  | [] => .empty
  | [r] => r
  | r :: rs => .alternate r (alternateAll rs)

end Regex

end RenpyScript
