import RenpyScript.Proofs.Line.Neutral
import RenpyScript.Proofs.Outline.Alike
import RenpyScript.Proofs.Tree.Indentation

/-!
# Scripts with carriage returns

A script whose line feeds all have carriage returns in front of them has the same tree, as long as no
logical line has a backslash right in front of a line feed. In a string such a backslash hides one
character: without the carriage return it is the line feed, and the string goes on.
-/

namespace RenpyScript

/-- The text with a carriage return in front of every line feed. -/
def withReturns (text : String) : String :=
  .ofList (text.toList.flatMap fun c => if c = '\n' then ['\r', '\n'] else [c])

instance (cs : List Char) : Decidable (FeedsUnescaped cs) :=
  inferInstanceAs (Decidable (¬ _))

lemma withReturns_returned (text : String) : Returned text.toList (withReturns text).toList := by
  unfold withReturns
  rw [String.toList_ofList]
  generalize text.toList = cs
  induction cs with
  | nil => exact .nil
  | cons c cs ih =>
    rw [List.flatMap_cons]
    split
    · next hc =>
      subst hc
      exact .feed ih
    · exact .cons c ih

namespace LogicalLine
variable {l l' : LogicalLine}

lemma Returned.kind (h : l.Returned l') : l'.kind = l.kind := by
  have hcontent := h.content
  unfold LogicalLine.kind
  generalize l.content = cs at hcontent
  generalize l'.content = cs' at hcontent
  cases hcontent with
  | nil => rfl
  | cons c rest => by_cases hc : c = '#' <;> simp [hc]
  | feed rest => simp

lemma Returned.alike (h : l.Returned l') : l.Alike id Set.univ [] [] l' := by
  have hunread : l.unread.Returned l'.unread := ⟨h.content, h.unescaped⟩
  exact ⟨h.kind, h.indent, trivial, sameKinds_leaf .comment _ _, fun bodyFollows => Form.topLevel_neutral bodyFollows hunread,
    Form.nested_neutral hunread, Unread.neutral_expressionPieces .pythonExpression hunread⟩

end LogicalLine

lemma keepsOrder_id : KeepsOrder id Set.univ :=
  ⟨trivial, rfl, strictMono_id.strictMonoOn _⟩

namespace Tree

lemma sexp_of_returned {a b : String} (h : Returned a.toList b.toList)
    (hfeeds : ∀ l ∈ LogicalLine.scan a.toList, FeedsUnescaped l.content) :
    (parse b).root.sexp = (parse a).root.sexp := by
  have hlines := LogicalLine.scan_returned h hfeeds
  have hrun := (Outline.empty_alike [] []).run keepsOrder_id (hlines.imp fun _ _ => LogicalLine.Returned.alike)
  have hshapes : SameShapes [] [] (parse a).root.children (parse b).root.children := by
    change SameShapes _ _ (Outline.itemsOf (LogicalLine.scan a.toList)) (Outline.itemsOf (LogicalLine.scan b.toList))
    exact hrun.finish
  exact sexp_of_shapes hshapes

/-- Carriage returns in front of line feeds do not change the tree of a script that has no backslash in
front of a line feed inside a logical line. -/
theorem parse_withReturns (text : String)
    (h : ∀ l ∈ LogicalLine.scan text.toList, FeedsUnescaped l.content) :
    (parse (withReturns text)).root.sexp = (parse text).root.sexp :=
  sexp_of_returned (withReturns_returned text) h

theorem parse_withReturns_label :
    (parse (withReturns "label a: # b\n    \"c\\\" d\"\n")).root.sexp =
      (parse "label a: # b\n    \"c\\\" d\"\n").root.sexp :=
  parse_withReturns _ (by decide +kernel)

/-- A backslash in front of a line feed keeps a string open, but not if there is a carriage return
between them. -/
theorem parse_withReturns_escapedFeed :
    (parse (withReturns "\"abc\\\ndef\"\n")).root.sexp ≠ (parse "\"abc\\\ndef\"\n").root.sexp := by
  decide +kernel

end Tree

end RenpyScript
