import Mathlib.Data.List.DropRight
import RenpyScript.Layout.LogicalLine
import RenpyScript.Text.Blank

/-!
# Boundaries and gaps

A boundary of a text is an offset between two of its characters. A gap consists of characters
that may stand between the nodes of a tree. The trimming functions split a text into what they
keep and what they drop.
-/

namespace RenpyScript

/-- An offset between two characters of the text, at its beginning or at its end. -/
def IsBoundary (text : List Char) (offset : Nat) : Prop :=
  ∃ before, before <+: text ∧ byteLength before = offset

lemma isBoundary_append (as bs : List Char) : IsBoundary (as ++ bs) (byteLength as) :=
  ⟨as, List.prefix_append as bs, rfl⟩

lemma length_le_byteLength (cs : List Char) : cs.length ≤ byteLength cs := by
  induction cs with
  | nil => exact Nat.le_refl 0
  | cons c cs ih =>
    have hsize := Char.utf8Size_pos c
    rw [List.length_cons, byteLength_cons]
    omega

lemma byteLength_pos {cs : List Char} (h : cs ≠ []) : 0 < byteLength cs := by
  obtain ⟨c, cs, rfl⟩ := List.exists_cons_of_ne_nil h
  have hc := Char.utf8Size_pos c
  rw [byteLength_cons]
  omega

lemma byteLength_eq_zero_iff {cs : List Char} : byteLength cs = 0 ↔ cs = [] := by
  constructor
  · intro hzero
    by_contra hne
    have hpos := byteLength_pos hne
    omega
  · rintro rfl
    rfl

lemma IsBoundary.le_byteLength {text : List Char} {offset : Nat} (h : IsBoundary text offset) :
    offset ≤ byteLength text := by
  obtain ⟨before, ⟨after, rfl⟩, rfl⟩ := h
  rw [byteLength_append]
  omega

lemma prefix_of_byteLength_le {as bs text : List Char} (has : as <+: text) (hbs : bs <+: text)
    (hle : byteLength as ≤ byteLength bs) : as <+: bs := by
  rcases List.prefix_or_prefix_of_prefix has hbs with h | ⟨more, rfl⟩
  · exact h
  · obtain rfl : more = [] := by
      by_contra hne
      have hpos := byteLength_pos hne
      rw [byteLength_append] at hle
      omega
    simp

/-- Blanks of the script language and white space of Unicode. -/
def isGap (c : Char) : Bool :=
  isBlank c || isWhiteSpace c

/-- Every character is one that `gap` accepts. -/
def OnlyGap (gap : Char → Bool) (cs : List Char) : Prop :=
  ∀ c ∈ cs, gap c = true

namespace OnlyGap
variable {gap : Char → Bool} {as bs : List Char}

lemma nil : OnlyGap gap [] := by
  intro c hc
  simp at hc

lemma append (ha : OnlyGap gap as) (hb : OnlyGap gap bs) : OnlyGap gap (as ++ bs) := by
  intro c hc
  rcases List.mem_append.mp hc with h | h
  · exact ha c h
  · exact hb c h

lemma mono {gap' : Char → Bool} (hg : ∀ c, gap c = true → gap' c = true) (h : OnlyGap gap as) :
    OnlyGap gap' as :=
  fun c hc => hg c (h c hc)

lemma any (cs : List Char) : OnlyGap (fun _ => true) cs :=
  fun _ _ => rfl

end OnlyGap

lemma isGap_of_isBlank {c : Char} (h : isBlank c = true) : isGap c = true := by
  simp [isGap, h]

lemma isGap_of_isWhiteSpace {c : Char} (h : isWhiteSpace c = true) : isGap c = true := by
  simp [isGap, h]

lemma isBlank_of_isLinePadding {c : Char} (h : isLinePadding c = true) : isBlank c = true := by
  simp only [isLinePadding, Bool.or_eq_true, decide_eq_true_eq] at h
  rcases h with ((rfl | rfl) | rfl) | rfl <;> decide

lemma takeWhile_onlyGap (p : Char → Bool) (cs : List Char) : OnlyGap p (cs.takeWhile p) :=
  fun _ hc => List.mem_takeWhile_imp hc

lemma take_length_takeWhile (p : Char → Bool) (cs : List Char) :
    cs.take (cs.takeWhile p).length = cs.takeWhile p :=
  (List.prefix_iff_eq_take.mp (List.takeWhile_prefix p)).symm

lemma drop_length_takeWhile (p : Char → Bool) (cs : List Char) :
    cs.drop (cs.takeWhile p).length = cs.dropWhile p := by
  have h : cs.takeWhile p ++ cs.dropWhile p = cs := List.takeWhile_append_dropWhile
  nth_rewrite 2 [← h]
  exact List.drop_left

lemma trimEnd_split (drop : Char → Bool) (cs : List Char) :
    ∃ dropped, cs = trimEnd drop cs ++ dropped ∧ OnlyGap drop dropped :=
  ⟨cs.rtakeWhile drop, List.rdropWhile_append_rtakeWhile.symm,
    fun _ hc => List.mem_rtakeWhile_imp hc⟩

lemma trimEnd_cons {drop : Char → Bool} {c : Char} (hc : drop c = false) (cs : List Char) :
    trimEnd drop (c :: cs) = c :: trimEnd drop cs := by
  unfold trimEnd
  rw [List.reverse_cons, List.dropWhile_append]
  split
  · next h =>
    have hnil : cs.reverse.dropWhile drop = [] := by simpa using h
    simp [hc, hnil]
  · simp

end RenpyScript
