import RenpyScript.Query.Error
import RenpyScript.Query.Pattern

/-!
# Predicates by name

A predicate is written as a name and arguments, the first of which is a capture. `Predicate.ofArguments`
finds the comparison with that name and checks that it has the arguments it needs. `not-` in front of a
name turns the comparison around.
-/

namespace RenpyScript

namespace Comparison

/-- The texts in a list of arguments, if there is no capture among them. -/
def texts? (args : List Operand) : Option (List String) :=
  args.mapM fun a =>
    match a with
    | .text s => some s
    | .capture _ => none

/-- The comparison with a given name, made of the arguments behind the capture. -/
def ofArguments [RegexEngine] (name : String) (args : List Operand) : Except PredicateFault Comparison :=
  if name = "eq?" then
    match args with
    | [other] => .ok (.eq other)
    | _ => .error .notTwoArguments
  else if name = "match?" then
    match args with
    | [.text pattern] =>
      match RegexEngine.compile pattern with
      | .ok r => .ok (.matches r)
      | .error why => .error (.malformedPattern why)
    | _ => .error .noPattern
  else if name = "any-of?" then
    match texts? args with
    | none => .error .valueIsCapture
    | some [] => .error .noValues
    | some values => .ok (.anyOf values)
  else .error .unknown

end Comparison

namespace Predicate

/-- The name without `not-` in front, and whether that was there. -/
def splitNegation (name : String) : String × Bool :=
  match name.toList with
  | 'n' :: 'o' :: 't' :: '-' :: cs => (String.ofList cs, true)
  | _ => (name, false)

def ofArguments [RegexEngine] (name : String) (args : List Operand) : Except PredicateFault Predicate :=
  match args with
  | .capture index :: others =>
    let (base, negated) := splitNegation name
    (Comparison.ofArguments base others).map fun c => ⟨index, c, negated⟩
  | _ => .error .firstIsNoCapture

end Predicate

end RenpyScript
