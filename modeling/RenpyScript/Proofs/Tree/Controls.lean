import RenpyScript.Proofs.Checked.Bytes
import RenpyScript.Proofs.Tree.Skeleton
import RenpyScript.Proofs.Tree.Written
import RenpyScript.Tree.Basic

/-!
# Control characters

No rendering of a node holds a control character: there are none in the names of kinds and fields, and in JSON on one
line they are escaped. In particular there is no NUL, and therefore no zero among the bytes.
-/

namespace RenpyScript

/-- The control characters of ASCII, but for the last one, come before the space. -/
def isControl (c : Char) : Bool :=
  c.toNat < 32

/-- No character of the text is a control character. -/
def FreeOfControls (s : String) : Prop :=
  s.toList.any isControl = false

instance (s : String) : Decidable (FreeOfControls s) :=
  inferInstanceAs (Decidable (_ = false))

namespace FreeOfControls

section
variable {s t : String} {cs : List Char}

lemma append (hs : FreeOfControls s) (ht : FreeOfControls t) : FreeOfControls (s ++ t) := by
  rw [FreeOfControls, String.toList_append, List.any_append, hs, ht]
  rfl

lemma ofList (h : cs.any isControl = false) : FreeOfControls (String.ofList cs) := by
  rwa [FreeOfControls, String.toList_ofList]

lemma nul_notMem (h : FreeOfControls s) : '\x00' ∉ s.toList := by
  intro hnul
  exact absurd (List.any_eq_false.mp h _ hnul) (by decide)

lemma zero_notMem (h : FreeOfControls s) : 0 ∉ utf8 s.toList :=
  fun hzero => h.nul_notMem (mem_of_mem_utf8 (by decide) hzero)

lemma quotes {parts : List (List Char)} (h : ∀ part ∈ parts, part.any isControl = false) :
    FreeOfControls (String.ofList ('"' :: parts.flatten ++ ['"'])) := by
  have hparts : parts.flatten.any isControl = false := by
    rw [List.any_flatten, List.any_eq_false]
    exact fun part hpart => Bool.not_eq_true _ ▸ h part hpart
  refine ofList ?_
  rw [List.any_append, List.any_cons, hparts]
  rfl

end

end FreeOfControls

/-! ## JSON -/

namespace Json

lemma any_isControl_hex4 (n : Nat) : (hex4 n).any isControl = false := by
  have hdigit : ∀ k < 16, isControl (Nat.digitChar k) = false := by decide
  simp only [hex4, List.map_cons, List.map_nil, List.any_cons, List.any_nil, hdigit _ (Nat.mod_lt _ (by decide : 16 > 0)),
    Bool.or_self]

lemma isControl_toLower {c : Char} (h : isControl c.toLower = false) : isControl c = false := by
  unfold Char.toLower at h
  split at h
  · next hupper =>
    simp only [isControl, decide_eq_false_iff_not]
    have hlow : 65 ≤ c.toNat := hupper.1
    omega
  · exact h

lemma CharWritten.any_isControl {c : Char} {part : List Char} (h : CharWritten c part) : part.any isControl = false := by
  cases h with
  | plain low _ _ => simpa [isControl] using low
  | letter mem =>
    have hall : ∀ p ∈ escapeLetters, isControl p.2 = false := by decide
    rw [List.any_cons, List.any_cons, hall _ mem]
    rfl
  | @code ds _ digits =>
    have hdigits : ds.any isControl = false := by
      rw [List.any_eq_false]
      intro d hd
      have hlower := List.any_eq_false.mp (any_isControl_hex4 c.toNat) d.toLower (digits ▸ List.mem_map_of_mem hd)
      exact Bool.not_eq_true _ ▸ isControl_toLower (Bool.not_eq_true _ ▸ hlower)
    rw [List.any_cons, List.any_cons, hdigits]
    rfl

lemma StringWritten.freeOfControls {text s : String} (h : StringWritten text s) : FreeOfControls s := by
  obtain ⟨parts, hparts, rfl⟩ := h
  have hfree := hparts.flip.imp fun part c (h : CharWritten c part) => And.intro h.any_isControl h
  exact .quotes ((List.forall₂_and_left _ _).mp hfree).1

lemma freeOfControls_toString (n : Nat) : FreeOfControls (toString n) := by
  refine .ofList (List.any_eq_false.mpr fun c hc => ?_)
  have hdigit := Nat.isDigit_of_mem_toDigits (by decide) (by decide) hc
  rw [Char.isDigit, Bool.and_eq_true, decide_eq_true_eq] at hdigit
  have hzero : 48 ≤ c.toNat := hdigit.1
  simp only [isControl, decide_eq_true_eq]
  omega

mutual

theorem Written.freeOfControls {v : Json} {s : String} : Written v s → FreeOfControls s
  | .null => by decide
  | .bool b => by cases b <;> decide
  | .num n => freeOfControls_toString n
  | .str h => h.freeOfControls
  | .arr h => .append (.append (by decide) h.freeOfControls) (by decide)
  | .obj h => .append (.append (by decide) h.freeOfControls) (by decide)

theorem ItemsWritten.freeOfControls {vs : List Json} {s : String} : ItemsWritten vs s → FreeOfControls s
  | .nil => by decide
  | .single h => h.freeOfControls
  | .cons h rest => .append (.append h.freeOfControls (by decide)) rest.freeOfControls

theorem MembersWritten.freeOfControls {ms : List (String × Json)} {s : String} : MembersWritten ms s → FreeOfControls s
  | .nil => by decide
  | .single key h => .append (.append key.freeOfControls (by decide)) h.freeOfControls
  | .cons key h rest =>
    .append (.append (.append (.append key.freeOfControls (by decide)) h.freeOfControls) (by decide)) rest.freeOfControls

end

end Json

/-! ## S-expressions -/

lemma Kind.freeOfControls_name (k : Kind) : FreeOfControls k.name := by
  have hall : ∀ k ∈ all, FreeOfControls k.name := by decide +kernel
  exact hall k k.mem_all

namespace Node

lemma freeOfControls_fieldLabel (field : Option Field) : FreeOfControls (fieldLabel field) := by
  cases field with
  | none => decide
  | some f => cases f <;> decide

lemma freeOfControls_missingSexp (k : Kind) : FreeOfControls (missingSexp k) := by
  have hbackslash : isControl '\\' = false := by decide
  have hquoted : FreeOfControls (quoteToken k.name) := by
    rw [quoteToken, List.flatMap_def]
    refine .quotes fun part hpart => ?_
    obtain ⟨c, hc, rfl⟩ := List.mem_map.mp hpart
    have hc := List.any_eq_false.mp k.freeOfControls_name c hc
    split <;> simpa [hbackslash] using hc
  refine .append (.append (by decide) ?_) (by decide)
  split
  · exact k.freeOfControls_name
  · exact hquoted

lemma freeOfControls_childrenSexp {ns : List Node} (h : ∀ n ∈ ns, FreeOfControls n.sexp) :
    FreeOfControls (childrenSexp ns) := by
  induction ns with
  | nil => decide
  | cons n ns ih =>
    obtain ⟨hn, hns⟩ := List.forall_mem_cons.mp h
    rw [childrenSexp]
    refine .append ?_ (ih hns)
    split
    · exact .append (.append (by decide) (freeOfControls_fieldLabel n.field)) hn
    · decide

theorem freeOfControls_sexp (n : Node) : FreeOfControls n.sexp := by
  induction n using childInduction with
  | step n ih =>
    rw [sexp_eq]
    split
    · exact freeOfControls_missingSexp n.kind
    · have hopened : FreeOfControls ("(" ++ n.kind.name) := .append (by decide) n.kind.freeOfControls_name
      exact .append (hopened.append (freeOfControls_childrenSexp ih)) (by decide)

end Node

end RenpyScript
