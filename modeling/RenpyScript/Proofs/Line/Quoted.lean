import RenpyScript.Line.Quoted
import RenpyScript.Proofs.Line.Reading

/-!
# Strings and arguments leave nothing out

A string fills the text from its first delimiter to its last, or to the place where it breaks off.
-/

namespace RenpyScript

open Node

lemma Delimiter.kind_ne_comment (d : Delimiter) : d.kind ≠ .comment := by
  unfold Delimiter.kind
  split <;> split <;> decide

lemma utf8Size_of_isEscapable {c : Char} (h : isEscapable c = true) : c.utf8Size = 1 := by
  simp only [isEscapable, Bool.or_eq_true, decide_eq_true_eq] at h
  rcases h with (((((((rfl | rfl) | rfl) | rfl) | rfl) | rfl) | rfl) | rfl) | rfl <;> decide

namespace StringBody

lemma laid_behind (passed : List Char) {pos : Nat} {cs : List Char} {ns : List Node}
    (h : Laid (fun _ => true) (pos + byteLength passed) cs ns) :
    Laid (fun _ => true) pos (passed ++ cs) ns :=
  h.gap_before (.any passed)

lemma laid_behindEscape (kind : Kind) {c e : Char} (hc : c.utf8Size = 1) (he : e.utf8Size = 1) {pos : Nat}
    {cs : List Char} {ns : List Node} (h : Laid (fun _ => true) (pos + 2) cs ns) :
    Laid (fun _ => true) pos (c :: e :: cs) (.leaf kind ⟨pos, pos + 2⟩ :: ns) := by
  have hleaf : Laid (fun _ => true) pos [c, e] [.leaf kind (.covering pos [c, e])] :=
    (fills_leaf kind pos [c, e]).laid
  simp only [Span.covering, byteLength_cons, byteLength_nil, hc, he] at hleaf
  exact hleaf.append (by simpa [hc, he] using h)

theorem read_laid (d : Delimiter) (pos : Nat) (cs : List Char) :
    Laid (fun _ => true) pos (cs.take (read d pos cs).length) (read d pos cs).escapes := by
  fun_induction read d pos cs with
  | case1 pos => exact laid_nil.mpr (.any _)
  | case2 pos c hd => exact laid_nil.mpr (.any _)
  | case3 pos c hd hn => exact laid_nil.mpr (.any _)
  | case4 pos c hd hn => exact laid_nil.mpr (.any _)
  | case5 pos e cs he ih =>
    exact laid_behindEscape .escapeSequence (by decide) (utf8Size_of_isEscapable he) ih
  | case6 pos e cs he ih =>
    apply laid_behind ['\\', e]
    simpa [behind, Nat.add_assoc] using ih
  | case7 pos c e cs hc hdouble ih =>
    simp only [Bool.and_eq_true, Bool.or_eq_true, decide_eq_true_eq] at hdouble
    obtain ⟨hbracket, rfl⟩ := hdouble
    have hsize : e.utf8Size = 1 := by
      rcases hbracket with rfl | rfl <;> decide
    exact laid_behindEscape .escapeInterpolation hsize hsize ih
  | case8 pos c e cs hc hdouble hd => exact laid_nil.mpr (.any _)
  | case9 pos c e cs hc hdouble hd hn => exact laid_nil.mpr (.any _)
  | case10 pos c e cs hc hdouble hd hn ih =>
    apply laid_behind [c]
    simpa [behind] using ih

end StringBody

namespace Unread

/-- The place behind the first delimiter of a string. -/
def insideString (u : Unread) (d : Delimiter) : Unread :=
  u.skipBlanks.advance d.length

/-- What is read of a string behind its first delimiter. -/
def stringBody (u : Unread) (d : Delimiter) : StringBody :=
  .read d (u.insideString d).pos (u.insideString d).rest

/-- The place where the body of a string ends. -/
def stringTail (u : Unread) (d : Delimiter) : Unread :=
  (u.insideString d).advance (u.stringBody d).length

def behindString (u : Unread) (d : Delimiter) : Unread :=
  if (u.stringBody d).closed then (u.stringTail d).advance d.length else u.stringTail d

def openingDelimiter (u : Unread) (d : Delimiter) : Node :=
  .leaf d.kind ⟨u.skipBlanks.pos, (u.insideString d).pos⟩

def closingDelimiter (u : Unread) (d : Delimiter) : Node :=
  if (u.stringBody d).closed then .leaf d.kind ⟨(u.stringTail d).pos, (u.behindString d).pos⟩
  else .absent d.kind (u.stringTail d).pos

def stringParts (u : Unread) (d : Delimiter) : List Node :=
  u.openingDelimiter d :: (u.stringBody d).escapes ++ [u.closingDelimiter d]

lemma string?_eq {u : Unread} {d : Delimiter} (hd : Delimiter.at? u.skipBlanks.rest = some d) :
    u.string? = some (.branch .string (u.stringParts d) u.skipBlanks.pos, u.behindString d) := by
  simp only [string?, hd]
  by_cases hclosed : (u.stringBody d).closed = true
  · rw [stringParts, closingDelimiter, behindString, if_pos hclosed, if_pos hclosed]
    exact if_pos hclosed
  · rw [stringParts, closingDelimiter, behindString, if_neg hclosed, if_neg hclosed]
    exact if_neg hclosed

lemma string?_eq_some_iff {u v : Unread} {n : Node} : u.string? = some (n, v) ↔
    ∃ d, Delimiter.at? u.skipBlanks.rest = some d ∧
      n = .branch .string (u.stringParts d) u.skipBlanks.pos ∧ v = u.behindString d := by
  rcases hd : Delimiter.at? u.skipBlanks.rest with _ | d
  · simp [string?, hd]
  · rw [string?_eq hd]
    simp [eq_comm]

lemma reads_closingDelimiter (u : Unread) (d : Delimiter) :
    (u.stringTail d).ReadsAcross (fun _ => true) [u.closingDelimiter d] (u.behindString d) := by
  by_cases hclosed : (u.stringBody d).closed = true
  · rw [closingDelimiter, if_pos hclosed, behindString, if_pos hclosed]
    exact reads_leaf _ _ _
  · rw [closingDelimiter, if_neg hclosed, behindString, if_neg hclosed]
    exact reads_absent _ _

lemma reads_stringParts (u : Unread) (d : Delimiter) :
    u.skipBlanks.ReadsAcross (fun _ => true) (u.stringParts d) (u.behindString d) := by
  have hopening : u.skipBlanks.ReadsAcross (fun _ => true) [u.openingDelimiter d] (u.insideString d) :=
    reads_leaf _ _ _
  have hescapes : (u.insideString d).ReadsAcross (fun _ => true) (u.stringBody d).escapes (u.stringTail d) :=
    reads_advance (StringBody.read_laid d _ _)
  exact (hopening.trans hescapes).trans (u.reads_closingDelimiter d)

lemma closingDelimiter_stop (u : Unread) (d : Delimiter) :
    (u.closingDelimiter d).span.stop = (u.behindString d).pos := by
  unfold closingDelimiter behindString
  split
  · rfl
  · rfl

lemma stringParts_hull (u : Unread) (d : Delimiter) (fallback : Nat) :
    hull (u.stringParts d) fallback = ⟨u.skipBlanks.pos, (u.behindString d).pos⟩ := by
  have hlast : (u.stringParts d).getLast? = some (u.closingDelimiter d) := List.getLast?_concat
  rw [stringParts, List.cons_append] at hlast ⊢
  rw [hull_cons hlast, closingDelimiter_stop]
  rfl

lemma delimiter_length_pos (d : Delimiter) : 0 < d.length := by
  unfold Delimiter.length
  split <;> decide

lemma behindString_length_lt {u : Unread} {d : Delimiter} (hd : Delimiter.at? u.skipBlanks.rest = some d) :
    (u.behindString d).rest.length < u.rest.length := by
  have hne : u.skipBlanks.rest ≠ [] := by
    intro hnil
    simp [hnil, Delimiter.at?] at hd
  have hinside : (u.insideString d).rest.length < _ := advance_length_lt (delimiter_length_pos d) hne
  have hskip := u.skipBlanks_length_le
  have htail : (u.stringTail d).rest.length ≤ (u.insideString d).rest.length := by
    simp [stringTail, advance]
  have hbehind : (u.behindString d).rest.length ≤ (u.stringTail d).rest.length := by
    unfold behindString
    split
    · simp [advance]
    · exact Nat.le_refl _
  omega

/-- A string fills the text from its first delimiter to the place behind it. -/
theorem isNodeReader_string? : IsNodeReader string? := by
  intro u n v h
  obtain ⟨d, hd, rfl, rfl⟩ := string?_eq_some_iff.mp h
  refine ⟨Reads.of_skipBlanks ?_, behindString_length_lt hd⟩
  obtain ⟨used, hrest, hpos, hl⟩ := u.reads_stringParts d
  refine ⟨used, hrest, hpos, Fills.laid (fills_iff.mpr ⟨?_, Or.inr hl⟩)⟩
  rw [Node.branch, stringParts_hull, hpos, Span.covering]

lemma isReader_commaName? : IsReader id commaName? := by
  intro u ns v h
  simp only [commaName?, Option.bind_eq_bind, Option.bind_eq_some_iff, Option.pure_def,
    Option.some.injEq, Prod.mk.injEq, Prod.exists] at h
  obtain ⟨comma, u₁, hcomma, name, u₂, hname, rfl, rfl⟩ := h
  obtain ⟨hreads, hlt⟩ := isNodeReader_char? _ _ u comma u₁ hcomma
  obtain ⟨hreads', hlt'⟩ := isNodeReader_name? u₁ name u₂ hname
  exact ⟨hreads.trans hreads', by omega⟩

theorem isNodeReader_arguments? : IsNodeReader arguments? := by
  intro u n v h
  simp only [arguments?, Option.bind_eq_bind, Option.bind_eq_some_iff, Option.pure_def,
    Prod.exists] at h
  obtain ⟨opening, u₁, hopening, h⟩ := h
  obtain ⟨hreads, hlt⟩ := isNodeReader_char? _ _ u opening u₁ hopening
  split at h
  · next closing u₂ hclosing =>
    obtain ⟨rfl, rfl⟩ : _ ∧ _ := by simpa using h
    obtain ⟨hreads', hlt'⟩ := isNodeReader_char? _ _ u₁ closing u₂ hclosing
    exact ⟨Reads.branch (by decide) (hreads.trans hreads') (by simp) _, by omega⟩
  · simp only [Option.bind_eq_some_iff, Option.some.injEq, Prod.mk.injEq, Prod.exists] at h
    obtain ⟨first, u₂, hfirst, closing, u₄, hclosing, rfl, rfl⟩ := h
    obtain ⟨hreads₁, hlt₁⟩ := isNodeReader_name? u₁ first u₂ hfirst
    have hmore := isReader_commaName?.many u₂
    obtain ⟨hreads₃, hlt₃⟩ := isNodeReader_char? _ _ _ closing u₄ hclosing
    constructor
    · apply Reads.branch (by decide) _ (by simp)
      simpa [List.flatMap_id'] using ((hreads.trans hreads₁).trans hmore).trans hreads₃
    · have hle := hmore.length_le
      omega

end Unread

end RenpyScript
