import RenpyScript.Proofs.Query.Completeness

/-!
# Repeated child patterns

A repeated child pattern takes every child that it accepts, and leaves to the patterns behind it only the children
behind the last of these. So one that may also take no child can make a match impossible: a pattern with it matches
where it matches without it, provided that the patterns behind it match the children that it leaves.
-/

namespace RenpyScript.Pattern

section
variable {star : Pattern} {before after : List Pattern} {ns : List Node} {n : Node} {test : NodeTest} {role : Role}

/-- The patterns `after` match among the nodes behind the last one that `star` accepts. -/
def Spares (star : Pattern) (after : List Pattern) (ns : List Node) : Prop :=
  ∃ behind, behind <:+ ns ∧ (∀ m ∈ behind, star.childSolution? m = none) ∧ (sequence? after behind).isSome = true

lemma isSome_sequence?_insert (hstar : star.role.quantifier = .zeroOrMore) :
    (sequence? (before ++ star :: after) ns).isSome = true ↔
      (sequence? (before ++ after) ns).isSome = true ∧ star.Spares after ns := by
  have hleaves (left rest : List Node) : star.Leaves left rest ↔
      rest <:+ left ∧ ∀ m ∈ rest, star.childSolution? m = none := by
    simp only [Leaves, hstar]
  rw [isSome_sequence?_append, isSome_sequence?_append]
  simp only [isSome_sequence?_cons, hleaves]
  constructor
  · rintro ⟨left, hbefore, rest, ⟨hrest, hnone⟩, hafter⟩
    exact ⟨⟨left, hbefore, monotone after rest left hrest hafter⟩, rest, hrest.trans hbefore.suffix, hnone, hafter⟩
  · rintro ⟨⟨left, hbefore, hafter⟩, behind, hbehind, hnone, hafter'⟩
    refine ⟨left, hbefore, ?_⟩
    -- The nodes left by the patterns in front may begin behind the last one that the repeated pattern accepts.
    rcases List.suffix_or_suffix_of_suffix hbehind hbefore.suffix with hle | hle
    · exact ⟨behind, ⟨hle, hnone⟩, hafter'⟩
    · exact ⟨left, ⟨List.suffix_refl _, fun m hm => hnone m (hle.subset hm)⟩, hafter⟩

lemma isSome_solution?_insert (hstar : star.role.quantifier = .zeroOrMore) :
    ((node test (before ++ star :: after) role).solution? n).isSome = true ↔
      ((node test (before ++ after) role).solution? n).isSome = true ∧ star.Spares after n.children := by
  rw [isSome_solution?_node, isSome_solution?_node, isSome_sequence?_insert hstar, and_assoc]

/-- A child pattern that takes any number of children can be put anywhere among others, and the pattern still matches,
if and only if those behind it match among the children behind the last one that it accepts. -/
theorem solutions_insert_ne_nil (hstar : star.role.quantifier = .zeroOrMore) (test : NodeTest)
    (before after : List Pattern) (role : Role) (n : Node) :
    (((node test (before ++ star :: after) role).solution? n).isSome = true ↔
      ((node test (before ++ after) role).solution? n).isSome = true ∧ star.Spares after n.children) ∧
    ((node test (before ++ star :: after) role).solutions n ≠ [] ↔
      (node test (before ++ after) role).solutions n ≠ [] ∧ star.Spares after n.children) := by
  rw [solutions_ne_nil, solutions_ne_nil]
  exact ⟨isSome_solution?_insert hstar, isSome_solution?_insert hstar⟩

end

/-- All statements, and then a comment, which the repeated pattern leaves. -/
theorem solutions_insert_ne_nil_comment :
    (statements .zeroOrMore).role.quantifier = .zeroOrMore ∧
      (statements .zeroOrMore).Spares [.node (.rule .comment) [] .plain]
        [.leaf .statement ⟨0, 4⟩, .leaf .comment ⟨5, 8⟩] ∧
      (node (.rule .block) [statements .zeroOrMore, .node (.rule .comment) [] .plain] .plain).solutions
        ⟨none, .block, ⟨0, 8⟩, false, [.leaf .statement ⟨0, 4⟩, .leaf .comment ⟨5, 8⟩]⟩ ≠ [] := by
  have hstar : (statements .zeroOrMore).role.quantifier = .zeroOrMore := rfl
  have hspares : (statements .zeroOrMore).Spares [.node (.rule .comment) [] .plain]
      [.leaf .statement ⟨0, 4⟩, .leaf .comment ⟨5, 8⟩] :=
    ⟨[.leaf .comment ⟨5, 8⟩], List.suffix_cons .., by decide, by decide⟩
  have hcomment := solutions_insert_ne_nil hstar (.rule .block) [] [.node (.rule .comment) [] .plain] .plain
    ⟨none, .block, ⟨0, 8⟩, false, [.leaf .statement ⟨0, 4⟩, .leaf .comment ⟨5, 8⟩]⟩
  exact ⟨hstar, hspares, hcomment.2.mpr ⟨by decide, hspares⟩⟩

/-- The only statement of a block is taken by the repeated pattern, and the pattern behind it has none. -/
theorem solutions_insert_eq_nil_statement : ¬∀ (text : String), ∀ n ∈ (Tree.parse text).root.preorder,
    ∀ (test : NodeTest) (before after : List Pattern) (star : Pattern) (role : Role),
      star.role.quantifier = .zeroOrMore → (node test (before ++ after) role).solutions n ≠ [] →
        (node test (before ++ star :: after) role).solutions n ≠ [] := by
  intro h
  have hblock : ((Tree.parse "label a:\n    jump b\n").root.preorder.find? (·.kind = .block)).map (fun n =>
      (((node (.rule .block) [statements .one] .plain).solutions n).length,
        ((node (.rule .block) [statements .zeroOrMore, statements .one] .plain).solutions n).length)) =
      some (1, 0) := by
    decide +kernel
  obtain ⟨n, hn, hlengths⟩ := Option.map_eq_some_iff.mp hblock
  obtain ⟨hone, hnone⟩ := Prod.mk.inj hlengths
  have hmatch := h "label a:\n    jump b\n" n (List.mem_of_find?_eq_some hn) (.rule .block) [] [statements .one]
    (statements .zeroOrMore) .plain rfl (List.ne_nil_of_length_pos (by rw [List.nil_append, hone]; exact Nat.one_pos))
  exact hmatch (List.eq_nil_of_length_eq_zero hnone)

end RenpyScript.Pattern
