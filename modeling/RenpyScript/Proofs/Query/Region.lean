import RenpyScript.Proofs.Query.Reading

/-!
# Code, comments and strings

Each place in the text of a query lies in code, in a comment or in a string; what stands in front of it tells which. The
readers follow the same division: what they pass over as trivia begins and ends in code, and so does a string.
-/

namespace RenpyScript.Query

/-- What a place in the text of a query lies in. -/
inductive Region where
  | code
  | comment
  | string
  /-- Behind a backslash in a string. -/
  | escape
deriving DecidableEq, Repr

namespace Region

def next (c : Char) : Region → Region
  | code => if c = ';' then comment else if c = '"' then string else code
  | comment => if c = '\n' then code else comment
  | string => if c = '\\' then escape else if c = '"' then code else string
  | escape => string

/-- The region behind a text. -/
def after (r : Region) (cs : List Char) : Region :=
  cs.foldl (fun r c => r.next c) r

variable {r : Region} {c : Char} {cs ds : List Char}

@[simp] lemma after_cons : r.after (c :: cs) = (r.next c).after cs :=
  rfl

@[simp] lemma after_append : r.after (cs ++ ds) = (r.after cs).after ds :=
  List.foldl_append

lemma next_code (hsemicolon : c ≠ ';') (hquote : c ≠ '"') : code.next c = code := by
  rw [next, if_neg hsemicolon, if_neg hquote]

end Region

/-- Behind the text lies code, if code lies in front of it. -/
def InCode (cs : List Char) : Prop :=
  Region.code.after cs = .code
deriving Decidable

/-- White space, and comments with the ends of their lines. -/
inductive Trivia : List Char → Prop
  | nil : Trivia []
  | blank {c cs} (hc : isWhiteSpace c) (h : Trivia cs) : Trivia (c :: cs)
  | comment {text cs} (htext : '\n' ∉ text) (h : Trivia cs) : Trivia (';' :: (text ++ '\n' :: cs))

section
variable {c : Char} {cs ds : List Char}

lemma inCode_nil : InCode [] :=
  rfl

lemma inCode_cons (hsemicolon : c ≠ ';') (hquote : c ≠ '"') : InCode (c :: cs) ↔ InCode cs := by
  rw [InCode, InCode, Region.after_cons, Region.next_code hsemicolon hquote]

lemma InCode.append_iff (h : InCode cs) : InCode (cs ++ ds) ↔ InCode ds := by
  rw [InCode, InCode, Region.after_append, h]

lemma inCode_of_forall {p : Char → Bool} (h : ∀ c ∈ cs, p c = true) (hsemicolon : p ';' = false) (hquote : p '"' = false) :
    InCode cs := by
  induction cs with
  | nil => rfl
  | cons c cs ih =>
    obtain ⟨hc, hcs⟩ := List.forall_mem_cons.mp h
    refine (inCode_cons ?_ ?_).mpr (ih hcs)
    · rintro rfl
      exact Bool.false_ne_true (hsemicolon.symm.trans hc)
    · rintro rfl
      exact Bool.false_ne_true (hquote.symm.trans hc)

lemma inCode_of_blank (h : ∀ c ∈ cs, isWhiteSpace c) : InCode cs :=
  inCode_of_forall h (by decide) (by decide)

lemma inCode_takeWhile_name (cs : List Char) : InCode (cs.takeWhile isNameChar) :=
  inCode_of_forall (fun _ hc => List.mem_takeWhile_imp hc) (by decide) (by decide)

/-! ## Trivia -/

lemma skipTrivia_comment {text : List Char} (h : '\n' ∉ text) (cs : List Char) :
    skipTrivia true (text ++ '\n' :: cs) = skipTrivia false cs := by
  induction text with
  | nil => rfl
  | cons c text ih =>
    have hc : c ≠ '\n' := fun heq => h (heq ▸ List.mem_cons_self)
    rw [List.cons_append, skipTrivia, if_pos rfl, decide_eq_true hc, ih fun hmem => h (List.mem_cons_of_mem c hmem)]

lemma Trivia.skipTrivia_append (h : Trivia cs) (ds : List Char) : skipTrivia false (cs ++ ds) = skipTrivia false ds := by
  induction h with
  | nil => rfl
  | blank hc _ ih => rw [List.cons_append, skipTrivia, if_neg Bool.false_ne_true, if_pos hc, ih]
  | comment htext _ ih =>
    rw [List.cons_append, List.append_assoc, List.cons_append, ← ih]
    exact skipTrivia_comment htext _

lemma isNameChar_of_isWhiteSpace (h : isWhiteSpace c = true) : isNameChar c = false := by
  have hupper : c.isUpper = decide (c.val ≥ 'A'.val ∧ c.val ≤ 'Z'.val) := rfl
  have hlower : c.isLower = (c.val ≥ 'a'.val && c.val ≤ 'z'.val) := rfl
  have halpha : c.isAlpha = (c.isUpper || c.isLower) := rfl
  simp only [isWhiteSpace, isNameChar, Char.isAlphanum, halpha, hupper, hlower, Char.isDigit,
    Bool.or_eq_true, Bool.and_eq_true, Bool.or_eq_false_iff, Bool.and_eq_false_iff, decide_eq_true_eq,
    decide_eq_false_iff_not, Char.le_def, Char.ext_iff, UInt32.le_iff_toNat_le, ← UInt32.toNat_inj] at h ⊢
  simp at h ⊢
  omega

lemma Trivia.isNameChar_head (h : Trivia (c :: cs)) : isNameChar c = false := by
  cases h with
  | blank hc => exact isNameChar_of_isWhiteSpace hc
  | comment => rfl

/-- The region in which trivia are passed over. -/
def Region.trivia (comment : Bool) : Region :=
  if comment then .comment else .code

/-- In front of a text that ends in code, the same trivia are passed over no matter what follows. -/
lemma skipTrivia_of_inCode {comment : Bool} (h : (Region.trivia comment).after cs = .code) :
    ∃ v w, cs = v ++ w ∧ (Region.trivia comment).after v = .code ∧
      ∀ ds, skipTrivia comment (cs ++ ds) = if w = [] then skipTrivia false ds else w ++ ds := by
  induction cs generalizing comment with
  | nil =>
    cases comment with
    | false => exact ⟨[], [], rfl, rfl, fun ds => rfl⟩
    | true => cases h
  | cons c cs ih =>
    -- A character that is passed over stands in front of what `ih` finds.
    have hpassed (more : Bool) (hmore : (Region.trivia comment).next c = Region.trivia more)
        (hskip : ∀ ds, skipTrivia comment (c :: ds) = skipTrivia more ds) :
        ∃ v w, c :: cs = v ++ w ∧ (Region.trivia comment).after v = .code ∧
          ∀ ds, skipTrivia comment (c :: cs ++ ds) = if w = [] then skipTrivia false ds else w ++ ds := by
      rw [Region.after_cons, hmore] at h
      obtain ⟨v, w, rfl, hv, hrest⟩ := ih h
      refine ⟨c :: v, w, rfl, ?_, fun ds => ?_⟩
      · rw [Region.after_cons, hmore, hv]
      · rw [List.cons_append, hskip, hrest]
    cases comment with
    | true =>
      refine hpassed (c ≠ '\n') ?_ fun ds => by rw [skipTrivia, if_pos rfl]
      by_cases hc : c = '\n' <;> simp [Region.trivia, Region.next, hc]
    | false =>
      by_cases hspace : isWhiteSpace c = true
      · refine hpassed false ?_ fun ds => by rw [skipTrivia, if_neg Bool.false_ne_true, if_pos hspace]
        refine Region.next_code ?_ ?_
        · rintro rfl
          exact absurd hspace (by decide)
        · rintro rfl
          exact absurd hspace (by decide)
      by_cases hsemicolon : c = ';'
      · subst hsemicolon
        exact hpassed true rfl fun ds => rfl
      · refine ⟨[], c :: cs, rfl, rfl, fun ds => ?_⟩
        rw [List.cons_append, skipTrivia, if_neg Bool.false_ne_true, if_neg hspace, if_neg hsemicolon,
          if_neg (List.cons_ne_nil c cs)]

/-! ## Strings -/

/-- A string that is closed in a text is read from it, no matter what follows. -/
lemma splitString_of_inCode (h : Region.string.after cs = .code) :
    ∃ value v w, cs = v ++ w ∧ Region.string.after v = .code ∧ ∀ ds, splitString (cs ++ ds) = some (value, w ++ ds) := by
  fun_induction splitString cs with
  | case1 => cases h
  | case2 cs => exact ⟨[], ['"'], cs, rfl, rfl, fun ds => rfl⟩
  | case3 => cases h
  | case4 c cs ih =>
    obtain ⟨value, v, w, rfl, hv, hsplit⟩ := ih h
    refine ⟨unescaped c :: value, '\\' :: c :: v, w, rfl, hv, fun ds => ?_⟩
    rw [List.cons_append, List.cons_append, splitString, hsplit]
    rfl
  | case5 c cs hquote hlast hescape ih =>
    have hbackslash : c ≠ '\\' := by
      rintro rfl
      cases cs with
      | nil => exact hlast rfl rfl
      | cons d cs => exact hescape d cs rfl rfl
    have hnext : Region.string.next c = .string := by
      rw [Region.next, if_neg hbackslash, if_neg hquote]
    rw [Region.after_cons, hnext] at h
    obtain ⟨value, v, w, rfl, hv, hsplit⟩ := ih h
    refine ⟨c :: value, c :: v, w, rfl, ?_, fun ds => ?_⟩
    · rw [Region.after_cons, hnext, hv]
    · rw [List.cons_append, splitString, hsplit]
      · rfl
      · exact hquote
      · rintro rfl
        exact absurd rfl hbackslash
      · rintro d ds rfl
        exact absurd rfl hbackslash

end

end RenpyScript.Query
