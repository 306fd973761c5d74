import RenpyScript.Proofs.Outline.Derivation
import RenpyScript.Proofs.Tree.Shape
import RenpyScript.Tree.Skeleton

/-!
# S-expressions are unambiguous

The reader gets the skeleton of a node back from its S-expression, whatever text follows. Nothing in the names says
where they end, but after each of them stands a character that is in no name.
-/

namespace RenpyScript

namespace Skeleton

/-! ## Names -/

/-- The text is not empty, and reading a name does not stop in it. -/
def IsName (name : String) : Prop :=
  name ≠ "" ∧ name.toList.all isNameChar = true

instance (name : String) : Decidable (IsName name) :=
  inferInstanceAs (Decidable (_ ∧ _))

def EndsName (text : List Char) : Prop :=
  ∀ c ∈ text.head?, isNameChar c = false

end Skeleton

namespace Kind

lemma mem_all (k : Kind) : k ∈ all := by
  cases k with
  | keyword word => exact List.mem_append_left _ (List.mem_append_right _ (List.mem_map_of_mem word.mem_all))
  | _ => decide

lemma spelled?_name (k : Kind) : spelled? k.name k.named = some k := by
  have hall : ∀ k ∈ all, spelled? k.name k.named = some k := by decide +kernel
  exact hall k k.mem_all

lemma isName_name {k : Kind} (h : k.named = true) : Skeleton.IsName k.name ∧ k.name ≠ "MISSING" := by
  have hall : ∀ k ∈ all, k.named = true → Skeleton.IsName k.name ∧ k.name ≠ "MISSING" := by decide +kernel
  exact hall k k.mem_all h

lemma backslash_notMem_name (k : Kind) : '\\' ∉ k.name.toList := by
  have hall : ∀ k ∈ all, '\\' ∉ k.name.toList := by decide +kernel
  exact hall k k.mem_all

end Kind

namespace Skeleton

section
variable {kind : Kind} {missing : Bool} {name : String} {c : Char} {text : List Char}

lemma endsName_cons (h : isNameChar c = false) (text : List Char) : EndsName (c :: text) := by
  intro d hd
  obtain rfl := Option.mem_some_iff.mp hd
  exact h

lemma IsName.append_ne_quote (h : IsName name) (text cs : List Char) : name.toList ++ text ≠ '"' :: cs := by
  intro heq
  obtain ⟨hne, hname⟩ := h
  cases hchars : name.toList with
  | nil => exact hne (String.toList_eq_nil_iff.mp hchars)
  | cons c name =>
    rw [hchars, List.cons_append, List.cons.injEq] at heq
    rw [hchars, heq.1] at hname
    exact absurd (List.all_eq_true.mp hname '"' (List.mem_cons_self ..)) (by decide)

lemma readName_append (hname : IsName name) (htext : EndsName text) : readName (name.toList ++ text) = (name, text) := by
  have hchars := List.all_eq_true.mp hname.2
  have hstops : text.takeWhile isNameChar = [] ∧ text.dropWhile isNameChar = text := by
    cases text with
    | nil => exact ⟨rfl, rfl⟩
    | cons c text =>
      have hc : ¬ isNameChar c = true := by simp [htext c rfl]
      exact ⟨List.takeWhile_cons_of_neg hc, List.dropWhile_cons_of_neg hc⟩
  rw [readName, List.takeWhile_append_of_pos hchars, List.dropWhile_append_of_pos hchars, hstops.1, hstops.2,
    List.append_nil, String.ofList_toList]

/-! ## Heads of nodes -/

lemma readNamedKind_name (h : kind.named = true) (htext : EndsName text) :
    readNamedKind (kind.name.toList ++ text) = some (kind, text) := by
  rw [readNamedKind, readName_append (Kind.isName_name h).1 htext]
  dsimp only
  rw [← h, Kind.spelled?_name, Option.map_some]

lemma readQuoted_escaped {name : List Char} (h : '\\' ∉ name) (text : List Char) :
    readQuoted (name.flatMap (fun c => if c = '"' then ['\\', c] else [c]) ++ '"' :: text) = some (name, text) := by
  induction name with
  | nil => rfl
  | cons c name ih =>
    obtain ⟨hc, hname⟩ := not_or.mp (List.mem_cons.not.mp h)
    rw [List.flatMap_cons]
    by_cases hquote : c = '"'
    · subst hquote
      rw [if_pos rfl, List.append_assoc, List.cons_append, List.cons_append, List.nil_append, readQuoted, ih hname]
      rfl
    · rw [if_neg hquote, List.append_assoc, List.cons_append, List.nil_append, readQuoted, ih hname]
      · rfl
      · exact hquote
      · intro _ hbackslash
        exact absurd hbackslash.symm hc

/-- The name of a missing node, in quotes if it is a token. -/
def spelling (kind : Kind) : String :=
  if kind.named then kind.name else quoteToken kind.name

lemma readKind_spelling (htext : EndsName text) : readKind ((spelling kind).toList ++ text) = some (kind, text) := by
  unfold spelling
  cases hnamed : kind.named with
  | true =>
    rw [if_pos rfl, readKind, readNamedKind_name hnamed htext]
    exact (Kind.isName_name hnamed).1.append_ne_quote text
  | false =>
    rw [if_neg Bool.false_ne_true, quoteToken, String.toList_ofList, List.cons_append, List.cons_append,
      List.append_assoc, List.singleton_append, readKind, readQuoted_escaped kind.backslash_notMem_name]
    dsimp only [Option.bind_eq_bind, Option.bind_some]
    rw [String.ofList_toList, ← hnamed, Kind.spelled?_name]
    rfl

/-- What stands between the parenthesis and the children of a node. -/
def heading (kind : Kind) (missing : Bool) : String :=
  if missing then "MISSING " ++ spelling kind else kind.name

lemma readHead_heading (h : kind.named = true ∨ missing = true) (htext : EndsName text) :
    readHead ((heading kind missing).toList ++ text) = some ((kind, missing), text) := by
  cases missing with
  | true =>
    have hword : readName ((heading kind true).toList ++ text) = ("MISSING", ' ' :: ((spelling kind).toList ++ text)) := by
      have hsplit : (heading kind true).toList ++ text = "MISSING".toList ++ ' ' :: ((spelling kind).toList ++ text) := by
        rw [heading, if_pos rfl, String.toList_append, List.append_assoc]
        rfl
      rw [hsplit]
      exact readName_append (by decide) (endsName_cons (by decide) _)
    rw [readHead, hword]
    dsimp only
    rw [if_pos rfl, List.tail_cons, readKind_spelling htext]
    rfl
  | false =>
    have hnamed : kind.named = true := h.resolve_right Bool.false_ne_true
    rw [readHead, heading, if_neg Bool.false_ne_true, readName_append (Kind.isName_name hnamed).1 htext]
    dsimp only
    rw [if_neg (Kind.isName_name hnamed).2, readNamedKind_name hnamed htext]
    rfl

lemma readField_fieldLabel (field : Option Field) (text : List Char) :
    readField ((Node.fieldLabel field).toList ++ '(' :: text) = some (field, '(' :: text) := by
  cases field with
  | none => rfl
  | some f => cases f <;> rfl

end

end Skeleton

namespace Node
variable {n : Node} {ns : List Node}

lemma endsName_childrenSexp (ns : List Node) (text : List Char) :
    Skeleton.EndsName ((childrenSexp ns).toList ++ ')' :: text) := by
  induction ns with
  | nil => exact Skeleton.endsName_cons (by decide) _
  | cons n ns ih =>
    rw [childrenSexp]
    split
    · rw [String.toList_append, String.toList_append, String.toList_append]
      exact Skeleton.endsName_cons (by decide) _
    · rwa [String.empty_append]

lemma Conforms.toList_sexp (h : n.Conforms) : n.sexp.toList =
    '(' :: ((Skeleton.heading n.kind n.missing).toList ++ (childrenSexp n.children).toList ++ [')']) := by
  rw [sexp_eq, Skeleton.heading]
  cases hmissing : n.missing with
  | true =>
    rw [if_pos rfl, if_pos rfl, (h.missing hmissing).1, childrenSexp, missingSexp]
    simp [Skeleton.spelling]
  | false =>
    rw [if_neg Bool.false_ne_true, if_neg Bool.false_ne_true]
    simp

lemma exists_toList_sexp (n : Node) : ∃ cs, n.sexp.toList = '(' :: cs := by
  rw [sexp_eq]
  split
  · rw [missingSexp, String.toList_append, String.toList_append]
    exact ⟨_, rfl⟩
  · rw [String.toList_append, String.toList_append, String.toList_append]
    exact ⟨_, rfl⟩

lemma skeleton_eq (n : Node) : n.skeleton = .node n.kind n.missing (skeletons n.children) := by
  obtain ⟨field, kind, span, missing, children⟩ := n
  rw [skeleton]

end Node

namespace Skeleton
open Node (childrenSexp skeletons)
variable {n : Node} {ns : List Node}

lemma readNode_of_children {children : List Char → Option (List (Option Field × Skeleton) × List Char)} {text : List Char}
    (h : n.Conforms) (hshown : n.named = true ∨ n.missing = true)
    (hchildren : children ((childrenSexp n.children).toList ++ ')' :: text) = some (skeletons n.children, ')' :: text)) :
    readNode children (n.sexp.toList ++ text) = some (n.skeleton, text) := by
  rw [h.toList_sexp, List.cons_append, List.append_assoc, List.append_assoc, List.singleton_append, readNode,
    readHead_heading hshown (Node.endsName_childrenSexp _ _)]
  dsimp only [Option.bind_eq_bind, Option.bind_some]
  rw [hchildren, n.skeleton_eq]
  rfl

lemma readChildren_cons {field : Option Field} {s : Skeleton} {siblings : List (Option Field × Skeleton)} {fuel : Nat}
    {cs text rest : List Char} (hnode : readNode (readChildren fuel) ('(' :: cs) = some (s, text))
    (hsiblings : readChildren fuel text = some (siblings, rest)) :
    readChildren (fuel + 1) (' ' :: ((Node.fieldLabel field).toList ++ '(' :: cs)) =
      some ((field, s) :: siblings, rest) := by
  rw [readChildren, readField_fieldLabel]
  dsimp only [Option.bind_eq_bind, Option.bind_some]
  rw [hnode]
  dsimp only [Option.bind_some]
  rw [hsiblings]
  rfl

/-- Children are read one after the other if every one of them is read whatever follows it. -/
lemma readChildren_childrenSexp {fuel : Nat} (hns : ∀ n ∈ ns, n.named = true ∨ n.missing = true →
      ∀ fuel text, n.sexp.length ≤ fuel → readNode (readChildren fuel) (n.sexp.toList ++ text) = some (n.skeleton, text))
    (hfuel : (childrenSexp ns).length < fuel) (text : List Char) :
    readChildren fuel ((childrenSexp ns).toList ++ ')' :: text) = some (skeletons ns, ')' :: text) := by
  induction ns generalizing fuel with
  | nil =>
    obtain ⟨fuel, rfl⟩ := Nat.exists_eq_succ_of_ne_zero (Nat.ne_zero_of_lt hfuel)
    rfl
  | cons n ns ih =>
    obtain ⟨hn, hns⟩ := List.forall_mem_cons.mp hns
    rw [childrenSexp] at hfuel ⊢
    rw [skeletons]
    by_cases hshown : (n.named || n.missing) = true
    · rw [if_pos hshown, String.length_append, String.length_append, String.length_append] at hfuel
      change 1 + _ + _ + _ < _ at hfuel
      obtain ⟨fuel, rfl⟩ := Nat.exists_eq_succ_of_ne_zero (Nat.ne_zero_of_lt hfuel)
      obtain ⟨cs, hcs⟩ := n.exists_toList_sexp
      have hnode := hn (Bool.or_eq_true_iff.mp hshown) fuel ((childrenSexp ns).toList ++ ')' :: text) (by omega)
      rw [hcs] at hnode
      have htext : (" " ++ Node.fieldLabel n.field ++ n.sexp ++ childrenSexp ns).toList ++ ')' :: text =
          ' ' :: ((Node.fieldLabel n.field).toList ++ '(' :: (cs ++ ((childrenSexp ns).toList ++ ')' :: text))) := by
        simp [hcs]
      rw [if_pos hshown, if_pos hshown, htext]
      exact readChildren_cons hnode (ih hns (by omega))
    · rw [if_neg hshown, String.empty_append] at hfuel ⊢
      rw [if_neg hshown]
      exact ih hns hfuel

/-- The parentheses take the fuel that is lacking for the children. -/
theorem readNode_sexp (h : n.Grammatical) (hshown : n.named = true ∨ n.missing = true) {fuel : Nat}
    (hfuel : n.sexp.length ≤ fuel) (text : List Char) :
    readNode (readChildren fuel) (n.sexp.toList ++ text) = some (n.skeleton, text) := by
  induction n using Node.childInduction generalizing fuel text with
  | step n ih =>
    obtain ⟨hconforms, hchildren⟩ := Node.grammatical_iff.mp h
    refine readNode_of_children hconforms hshown (readChildren_childrenSexp (fun c hc hshown fuel text hfuel =>
      ih c hc (hchildren c hc) hshown hfuel text) ?_ text)
    have hlength := congrArg List.length hconforms.toList_sexp
    simp only [List.length_cons, List.length_append, String.length_toList] at hlength
    omega

theorem read?_sexp (h : n.Grammatical) (hshown : n.named = true ∨ n.missing = true) :
    read? n.sexp = some n.skeleton := by
  have hread := readNode_sexp h hshown (Nat.le_refl _) []
  rw [List.append_nil] at hread
  rw [read?, hread]

/-- The closing quote of a string is missing. -/
example : read? "(source_file (string (MISSING \"\\\"\")))" =
    some (.node .sourceFile false [(none, .node .string false [(none, .node .doubleQuote true [])])]) := by
  rfl

/-! ## S-expressions of skeletons -/

lemma writeAll_skeletons (h : ∀ n ∈ ns, n.skeleton.write = n.sexp) : writeAll (skeletons ns) = childrenSexp ns := by
  induction ns with
  | nil => rw [skeletons, writeAll, childrenSexp]
  | cons n ns ih =>
    obtain ⟨hn, hns⟩ := List.forall_mem_cons.mp h
    rw [skeletons, childrenSexp]
    by_cases hshown : (n.named || n.missing) = true
    · rw [if_pos hshown, if_pos hshown, writeAll, writeChild, hn, ih hns]
    · rw [if_neg hshown, if_neg hshown, ih hns, String.empty_append]

lemma write_skeleton (n : Node) : n.skeleton.write = n.sexp := by
  induction n using Node.childInduction with
  | step n ih => rw [n.skeleton_eq, write, writeAll_skeletons ih, n.sexp_eq]

end Skeleton

namespace Tree

/-- The S-expression of a script is read back to the skeleton of its tree. So two scripts have the same S-expression if and
only if their trees have the same skeleton. -/
theorem sexp_unambiguous (text text' : String) :
    Skeleton.read? (parse text).root.sexp = some (parse text).root.skeleton ∧
      ((parse text).root.sexp = (parse text').root.sexp ↔ (parse text).root.skeleton = (parse text').root.skeleton) := by
  have hread : ∀ text, Skeleton.read? (parse text).root.sexp = some (parse text).root.skeleton := by
    intro text
    have hroot : (parse text).root.Grammatical :=
      (Outline.empty_grammatical.run (LogicalLine.scan text.toList)).root _
    exact Skeleton.read?_sexp hroot (.inl rfl)
  refine ⟨hread text, fun h => ?_, fun h => ?_⟩
  · exact Option.some.inj (by rw [← hread text, h, hread text'])
  · rw [← Skeleton.write_skeleton, h, Skeleton.write_skeleton]

end Tree

end RenpyScript
