import RenpyScript.Proofs.Text.Boundary

/-!
# Carriage returns in front of line feeds

`Returned cs cs'` says that `cs'` is `cs` with carriage returns put in front of some of its line feeds.
What passes over characters one at a time does not see them, as long as it treats the two alike.
-/

namespace RenpyScript

/-- The second text is the first with carriage returns in front of some line feeds. -/
inductive Returned : List Char → List Char → Prop
  | nil : Returned [] []
  | cons (c : Char) {cs cs' : List Char} (rest : Returned cs cs') : Returned (c :: cs) (c :: cs')
  | feed {cs cs' : List Char} (rest : Returned cs cs') : Returned ('\n' :: cs) ('\r' :: '\n' :: cs')

/-- No backslash stands right in front of a line feed. -/
def FeedsUnescaped (cs : List Char) : Prop :=
  ¬ ['\\', '\n'] <:+: cs

section
variable {cs cs' : List Char} {c e : Char}

lemma FeedsUnescaped.of_infix (h : FeedsUnescaped cs) (hwithin : cs' <:+: cs) : FeedsUnescaped cs' :=
  fun hfeed => h (hfeed.trans hwithin)

lemma FeedsUnescaped.tail (h : FeedsUnescaped (c :: cs)) : FeedsUnescaped cs :=
  h.of_infix (List.suffix_cons c cs).isInfix

lemma FeedsUnescaped.drop (h : FeedsUnescaped cs) (n : Nat) : FeedsUnescaped (cs.drop n) :=
  h.of_infix (List.drop_suffix n cs).isInfix

lemma FeedsUnescaped.dropWhile (h : FeedsUnescaped cs) (p : Char → Bool) : FeedsUnescaped (cs.dropWhile p) :=
  h.of_infix (List.dropWhile_suffix p).isInfix

lemma FeedsUnescaped.ne_feed (h : FeedsUnescaped ('\\' :: e :: cs)) : e ≠ '\n' := by
  rintro rfl
  exact h (List.prefix_append ['\\', '\n'] cs).isInfix

namespace Returned
variable {p : Char → Bool}

lemma eq_nil_iff (h : Returned cs cs') : cs' = [] ↔ cs = [] := by
  cases h with
  | nil => rfl
  | cons c rest => simp
  | feed rest => simp

lemma head?_eq_some_iff (h : Returned cs cs') (hfeed : c ≠ '\n') (hreturn : c ≠ '\r') :
    cs'.head? = some c ↔ cs.head? = some c := by
  cases h with
  | nil => rfl
  | cons c rest => rfl
  | feed rest => simp [Ne.symm hfeed, Ne.symm hreturn]

lemma dropWhile (hp : p '\r' = p '\n') (h : Returned cs cs') : Returned (cs.dropWhile p) (cs'.dropWhile p) := by
  induction h with
  | nil => exact .nil
  | cons c rest ih =>
    rw [List.dropWhile_cons, List.dropWhile_cons]
    split
    · exact ih
    · exact .cons c rest
  | @feed cs cs' rest ih =>
    by_cases hfeed : p '\n' = true
    · rwa [List.dropWhile_cons_of_pos hfeed, List.dropWhile_cons_of_pos (hp.trans hfeed),
        List.dropWhile_cons_of_pos hfeed]
    · rw [List.dropWhile_cons_of_neg hfeed, List.dropWhile_cons_of_neg (hp ▸ hfeed)]
      exact .feed rest

lemma of_take {n : Nat} (h : Returned cs cs') (hn : '\n' ∉ cs.take n) :
    cs'.take n = cs.take n ∧ Returned (cs.drop n) (cs'.drop n) := by
  induction n generalizing cs cs' with
  | zero => exact ⟨rfl, h⟩
  | succ n ih =>
    cases h with
    | nil => exact ⟨rfl, .nil⟩
    | cons c rest =>
      rw [List.take_succ_cons, List.mem_cons, not_or] at hn
      obtain ⟨htake, hdrop⟩ := ih rest hn.2
      rw [List.take_succ_cons, List.take_succ_cons, htake]
      exact ⟨rfl, hdrop⟩
    | feed rest => simp at hn

lemma takeWhile_eq (hfeed : p '\n' = false) (hreturn : p '\r' = false) (h : Returned cs cs') :
    cs'.takeWhile p = cs.takeWhile p := by
  induction h with
  | nil => rfl
  | cons c rest ih => rw [List.takeWhile_cons, List.takeWhile_cons, ih]
  | feed rest ih => simp [hfeed, hreturn]

lemma beginsWithCopies_eq (hfeed : c ≠ '\n') (hreturn : c ≠ '\r') (h : Returned cs cs') (n : Nat) :
    beginsWithCopies n c cs' = beginsWithCopies n c cs := by
  induction n generalizing cs cs' with
  | zero => rfl
  | succ n ih =>
    cases h with
    | nil => rfl
    | cons d rest =>
      have hrest := ih rest
      unfold beginsWithCopies at hrest ⊢
      rw [decide_eq_decide] at hrest ⊢
      simp only [List.take_succ_cons, List.replicate_succ, List.cons.injEq, hrest]
    | feed rest => simp [beginsWithCopies, List.replicate_succ, Ne.symm hfeed, Ne.symm hreturn]

lemma getLast?_eq (h : Returned cs cs') : cs'.getLast? = cs.getLast? := by
  induction h with
  | nil => rfl
  | cons c rest ih => rw [List.getLast?_cons, List.getLast?_cons, ih]
  | feed rest ih => rw [List.getLast?_cons, List.getLast?_cons, List.getLast?_cons, ih, Option.getD_some]

lemma dropLast (h : Returned cs cs') (hlast : cs.getLast? ≠ some '\n') : Returned cs.dropLast cs'.dropLast := by
  induction h with
  | nil => exact .nil
  | @cons c cs cs' rest ih =>
    by_cases hnil : cs = []
    · subst hnil
      rw [rest.eq_nil_iff.mpr rfl]
      exact .nil
    · rw [List.dropLast_cons_of_ne_nil hnil, List.dropLast_cons_of_ne_nil (mt rest.eq_nil_iff.mp hnil)]
      exact .cons c (ih (by rwa [List.getLast?_cons_of_ne_nil hnil] at hlast))
  | @feed cs cs' rest ih =>
    by_cases hnil : cs = []
    · simp [hnil] at hlast
    · rw [List.dropLast_cons_of_ne_nil hnil, List.dropLast_cons_of_ne_nil (by simp),
        List.dropLast_cons_of_ne_nil (mt rest.eq_nil_iff.mp hnil)]
      exact .feed (ih (by rwa [List.getLast?_cons_of_ne_nil hnil] at hlast))

end Returned

/-! ## Trimming -/

lemma trimEnd_cons_eq (drop : Char → Bool) (c : Char) (cs : List Char) :
    trimEnd drop (c :: cs) = if trimEnd drop cs = [] ∧ drop c = true then [] else c :: trimEnd drop cs := by
  by_cases hc : drop c = true
  · unfold trimEnd
    rw [List.reverse_cons, List.dropWhile_append]
    by_cases hnil : cs.reverse.dropWhile drop = []
    · simp [hnil, hc]
    · simp [hnil]
  · rw [trimEnd_cons (by simpa using hc), if_neg (fun h => hc h.2)]

/-- Where line feeds are trimmed, carriage returns have to be trimmed as well. -/
lemma Returned.trimEnd {drop : Char → Bool} (hdrop : drop '\n' = true → drop '\r' = true) (h : Returned cs cs') :
    Returned (trimEnd drop cs) (trimEnd drop cs') := by
  induction h with
  | nil => exact .nil
  | @cons c cs cs' rest ih =>
    have hnil := ih.eq_nil_iff
    rw [trimEnd_cons_eq, trimEnd_cons_eq]
    by_cases htrim : RenpyScript.trimEnd drop cs = [] ∧ drop c = true
    · rw [if_pos htrim, if_pos ⟨hnil.mpr htrim.1, htrim.2⟩]
      exact .nil
    · rw [if_neg htrim, if_neg fun h => htrim ⟨hnil.mp h.1, h.2⟩]
      exact .cons c ih
  | @feed cs cs' rest ih =>
    have hnil := ih.eq_nil_iff
    rw [trimEnd_cons_eq, trimEnd_cons_eq drop '\r']
    by_cases htrim : RenpyScript.trimEnd drop cs = [] ∧ drop '\n' = true
    · have hinner : RenpyScript.trimEnd drop ('\n' :: cs') = [] := by
        rw [trimEnd_cons_eq, if_pos ⟨hnil.mpr htrim.1, htrim.2⟩]
      rw [if_pos htrim, if_pos ⟨hinner, hdrop htrim.2⟩]
      exact .nil
    · have hinner : RenpyScript.trimEnd drop ('\n' :: cs') = '\n' :: RenpyScript.trimEnd drop cs' := by
        rw [trimEnd_cons_eq, if_neg fun h => htrim ⟨hnil.mp h.1, h.2⟩]
      rw [if_neg htrim, hinner, if_neg (by simp)]
      exact .feed ih

lemma trimEnd_append_of_onlyGap {drop : Char → Bool} {spaces : List Char} (h : OnlyGap drop spaces) (cs : List Char) :
    trimEnd drop (cs ++ spaces) = trimEnd drop cs := by
  unfold trimEnd
  rw [List.reverse_append, List.dropWhile_append_of_pos fun c hc => h c (List.mem_reverse.mp hc)]

lemma FeedsUnescaped.of_trimEnd {drop : Char → Bool} (hfeed : drop '\n' = false) {cs : List Char}
    (h : FeedsUnescaped (RenpyScript.trimEnd drop cs)) : FeedsUnescaped cs := by
  induction cs with
  | nil => exact h
  | cons c cs ih =>
    rw [trimEnd_cons_eq] at h
    intro hwithin
    rcases List.infix_cons_iff.mp hwithin with hprefix | hwithin
    · obtain ⟨bs, hcs⟩ := hprefix
      obtain ⟨rfl, rfl⟩ : '\\' = c ∧ '\n' :: bs = cs := by simpa using hcs
      rw [trimEnd_cons hfeed, if_neg (by simp)] at h
      exact h.ne_feed rfl
    · refine ih ?_ hwithin
      split at h
      · next hnil => rwa [hnil.1]
      · exact h.tail

end

end RenpyScript
