import RenpyScript.Checked.Rendering
import RenpyScript.Proofs.Arena.Linked

/-!
# Renderings of entries

What is rendered from entries is what is rendered from the nodes that they denote. The text written so far matters to
the first node only, as every other one stands behind the parenthesis of its parent; and the members that are set in the
object of a node come to stand in the order in which they are printed.
-/

namespace RenpyScript

section
variable {table : LineTable} {nodes : List Entry} {parent : Option Nat} {field : Option Field} {i : Nat} {n : Node}

lemma Denotes.linked_children (hlinked : Linked nodes) (h : Denotes table nodes parent field i n) :
    ∃ is, nodes[i]? = some (n.entry table field parent is) ∧ List.Forall₂ (fun c m =>
      c < i ∧ m ∈ n.children ∧ Denotes table nodes (some i) m.field c m) is n.children := by
  obtain ⟨hentry, hlength, hchildren⟩ := h
  refine ⟨_, hentry, List.forall₂_iff_get.mpr ⟨hlength, fun k hk hk' => ⟨?_, List.get_mem .., ?_⟩⟩⟩
  · exact hlinked.below i _ hentry _ (List.get_mem ..)
  · exact hchildren k _ _ (List.getElem?_eq_getElem hk) (List.getElem?_eq_getElem hk')

end

/-! ## S-expressions -/

namespace Node

/-- A child as it is written behind its siblings, if it shows. -/
def shown (n : Node) : String :=
  if n.named || n.missing then " " ++ fieldLabel n.field ++ n.sexp else ""

lemma childrenSexp_cons (n : Node) (ns : List Node) : childrenSexp (n :: ns) = n.shown ++ childrenSexp ns := by
  rw [childrenSexp, shown]

end Node

lemma spaced_of_ne {out : String} (h : out ≠ "") : spaced out = out ++ " " := by
  rw [spaced, if_neg (by simpa using h)]

namespace Arena

section
variable {a : Arena} {table : LineTable} {parent : Option Nat} {field : Option Field} {i c : Nat} {n m : Node}
  {out : String}

lemma foldlM_shown {f : String → Nat → Option String} {is : List Nat} {ns : List Node} (hout : out ≠ "")
    (h : List.Forall₂ (fun c m => ∀ out, out ≠ "" → f out c = some (out ++ m.shown)) is ns) :
    is.foldlM f out = some (out ++ Node.childrenSexp ns) := by
  induction h generalizing out with
  | nil =>
    rw [Node.childrenSexp, String.append_empty]
    rfl
  | @cons c m is ns hc _ ih =>
    have hnext : out ++ m.shown ≠ "" := fun h => hout (String.append_eq_empty_iff.mp h).1
    rw [List.foldlM_cons, hc out hout, Option.bind_eq_bind, Option.bind_some, ih hnext, Node.childrenSexp_cons,
      String.append_assoc]

/-- A node is written behind a space, unless nothing is in front of it, and behind its label. -/
lemma write?_eq (hlinked : Linked a.nodes) (h : Denotes table a.nodes parent field i n) (out : String) :
    a.write? out field i = some (spaced out ++ Node.fieldLabel field ++ n.sexp) := by
  induction n using Node.childInduction generalizing parent field i out with
  | step n ih =>
    obtain ⟨is, hget, hchildren⟩ := h.linked_children hlinked
    generalize hentry : n.entry table field parent is = e at hget
    obtain rfl : is = e.children := hentry ▸ rfl
    have hkind : e.kind = n.kind := hentry ▸ rfl
    have hmissing : e.missing = n.missing := hentry ▸ rfl
    rw [write?, hget, Option.bind_eq_bind, Option.bind_some, hkind, hmissing, n.sexp_eq]
    cases n.missing with
    | true => rfl
    | false =>
      rw [if_neg Bool.false_ne_true, if_neg Bool.false_ne_true, foldlM_shown (by simp) (hchildren.imp ?_)]
      · simp [String.append_assoc]
      · rintro c m ⟨hlt, hm, hc⟩ out hout
        obtain ⟨is', hget'⟩ := hc.get
        rw [hget', Option.bind_some, dif_pos hlt]
        change (if (m.named || m.missing) = true then a.write? out m.field c else some out) = _
        rw [ih m hm hc, spaced_of_ne hout, Node.shown]
        split
        · simp [String.append_assoc]
        · simp

lemma sexp?_eq (hlinked : Linked a.nodes) (h : Denotes table a.nodes parent none i n) : a.sexp? i = some n.sexp := by
  rw [sexp?, write?_eq hlinked h]
  simp [spaced, Node.fieldLabel]

end

end Arena

/-! ## JSON -/

lemma mapM_eq_some {α β : Type*} {f : α → Option β} {xs : List α} {ys : List β}
    (h : List.Forall₂ (fun x y => f x = some y) xs ys) : xs.mapM f = some ys := by
  induction h with
  | nil => rfl
  | cons hx _ ih =>
    rw [List.mapM_cons, hx, ih]
    rfl

namespace Node
open Json (childMembers)

lemma allToJson_eq (table : LineTable) (ns : List Node) : allToJson table ns = ns.map (toJson table) := by
  induction ns with
  | nil => rfl
  | cons n ns ih => rw [allToJson, ih, List.map_cons]

lemma toJson_eq (table : LineTable) (n : Node) : n.toJson table =
    .obj (childMembers (n.children.map (toJson table)) ++ jsonMembers table n.field n.kind n.span n.missing) := by
  obtain ⟨field, kind, span, missing, children⟩ := n
  cases children with
  | nil =>
    rw [toJson]
    rfl
  | cons c cs =>
    rw [toJson, allToJson_eq]
    rfl

lemma ofMembers_entry (table : LineTable) (n : Node) (parent : Option Nat) (is : List Nat) (below : List Json) :
    Json.ofMembers ((n.entry table n.field parent is).members ++ childMembers below) =
      .obj (childMembers below ++ jsonMembers table n.field n.kind n.span n.missing) := by
  obtain ⟨field, kind, span, missing, children⟩ := n
  -- Which members there are depends on the field, the marks and the children.
  cases field <;> cases missing <;> cases below <;> by_cases hextra : kind = .comment <;>
    simp +decide [Json.ofMembers, Json.setMember, Point.toJson, Entry.members, entry, extra, jsonMembers, childMembers,
      hextra]

end Node

namespace Arena
variable {a : Arena} {table : LineTable} {parent : Option Nat} {i : Nat} {n : Node}

lemma json?_eq (hlinked : Linked a.nodes) (h : Denotes table a.nodes parent n.field i n) :
    a.json? i = some (n.toJson table) := by
  induction n using Node.childInduction generalizing parent i with
  | step n ih =>
    obtain ⟨is, hget, hchildren⟩ := h.linked_children hlinked
    have hbelow : is.mapM (fun c => if _h : c < i then a.json? c else none) =
        some (n.children.map (Node.toJson table)) := by
      refine mapM_eq_some (List.forall₂_map_right_iff.mpr (hchildren.imp ?_))
      rintro c m ⟨hlt, hm, hc⟩
      rw [dif_pos hlt, ih m hm hc]
    rw [json?, hget, Option.bind_eq_bind, Option.bind_some, n.toJson_eq, ← n.ofMembers_entry table parent is]
    exact congrArg (Option.bind · _) hbelow

lemma Represents.renders {t : Tree} (h : a.Represents t) (hfield : t.root.field = none) :
    a.sexp? a.root = some t.root.sexp ∧ a.json? a.root = some t.toJson := by
  have hdenotes : Denotes (.ofText t.text.toList) a.nodes none t.root.field a.root t.root := by
    rw [hfield]
    exact h.denotes
  exact ⟨sexp?_eq h.linked h.denotes, json?_eq h.linked hdenotes⟩

end Arena

end RenpyScript
