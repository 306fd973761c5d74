import RenpyScript.Tree.Node

/-!
# S-expressions

A node is written as its kind in parentheses, followed by those children that are named or missing,
each after the name of its field. A missing node says so, and a missing token is put in quotes.
-/

namespace RenpyScript

/-- A token between double quotes, with a backslash before each double quote in it. -/
def quoteToken (name : String) : String :=
  String.ofList ('"' :: name.toList.flatMap (fun c => if c = '"' then ['\\', c] else [c]) ++ ['"'])

namespace Node

/-- The label of a child: the name of its field. -/
def fieldLabel : Option Field → String
  | none => ""
  | some f => f.name ++ ": "

def missingSexp (kind : Kind) : String :=
  "(MISSING " ++ (if kind.named then kind.name else quoteToken kind.name) ++ ")"

mutual
def sexp : Node → String
  | ⟨_, kind, _, missing, children⟩ =>
    if missing then missingSexp kind else "(" ++ kind.name ++ childrenSexp children ++ ")"

/-- The children that show, each after a space and its label. -/
def childrenSexp : List Node → String
  | [] => ""
  | n :: ns =>
    (if n.named || n.missing then " " ++ fieldLabel n.field ++ n.sexp else "") ++ childrenSexp ns
end

end Node

end RenpyScript
