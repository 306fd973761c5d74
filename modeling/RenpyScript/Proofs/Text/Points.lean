import RenpyScript.Proofs.Text.Boundary
import RenpyScript.Text.Point

/-!
# Points of a text in two parts

If a text consists of two parts and the first one ends with a line feed, the points of the first part
are its points in the whole, and those of the second part move down by the lines of the first.
-/

namespace RenpyScript

def Point.down (rows : Nat) (p : Point) : Point :=
  ⟨p.row + rows, p.column⟩

section
variable {pos : Nat} {xs cs : List Char}

lemma startsAfterBreaks_append (pos : Nat) (as bs : List Char) : startsAfterBreaks pos (as ++ bs) =
    startsAfterBreaks pos as ++ startsAfterBreaks (pos + byteLength as) bs := by
  induction as generalizing pos with
  | nil => rfl
  | cons a as ih =>
    rw [List.cons_append, startsAfterBreaks, startsAfterBreaks, byteLength_cons, ← Nat.add_assoc]
    by_cases ha : a = '\n'
    · have hsize : a.utf8Size = 1 := by rw [ha]; decide
      rw [if_pos ha, if_pos ha, ih, hsize, List.cons_append]
    · rw [if_neg ha, if_neg ha, ih]

lemma startsAfterBreaks_shift (k pos : Nat) (cs : List Char) :
    startsAfterBreaks (pos + k) cs = (startsAfterBreaks pos cs).map (· + k) := by
  induction cs generalizing pos with
  | nil => rfl
  | cons c cs ih =>
    rw [startsAfterBreaks, startsAfterBreaks]
    by_cases hc : c = '\n'
    · rw [if_pos hc, if_pos hc, Nat.add_right_comm, ih, List.map_cons]
    · rw [if_neg hc, if_neg hc, Nat.add_right_comm, ih]

lemma mem_startsAfterBreaks {s : Nat} (h : s ∈ startsAfterBreaks pos cs) : pos < s ∧ s ≤ pos + byteLength cs := by
  induction cs generalizing pos with
  | nil => simp [startsAfterBreaks] at h
  | cons c cs ih =>
    have hsize := Char.utf8Size_pos c
    rw [byteLength_cons]
    rw [startsAfterBreaks] at h
    split at h
    · rcases List.mem_cons.mp h with rfl | h
      · omega
      · have hs := ih h
        omega
    · have hs := ih h
      omega

lemma length_startsAfterBreaks (pos : Nat) (cs : List Char) :
    (startsAfterBreaks pos cs).length = cs.count '\n' := by
  induction cs generalizing pos with
  | nil => rfl
  | cons c cs ih =>
    rw [startsAfterBreaks]
    by_cases hc : c = '\n'
    · rw [if_pos hc, List.length_cons, ih, hc, List.count_cons_self]
    · rw [if_neg hc, ih, List.count_cons_of_ne hc]

lemma takeWhile_append_left {p : Nat → Bool} {as bs : List Nat} (h : ∀ b ∈ bs, p b = false) :
    (as ++ bs).takeWhile p = as.takeWhile p := by
  induction as with
  | nil =>
    cases bs with
    | nil => rfl
    | cons b bs => simp [h b (by simp)]
  | cons a as ih => rw [List.cons_append, List.takeWhile_cons, List.takeWhile_cons, ih]

end

namespace LineTable

lemma point_append_left {as : List Char} {offset : Nat} (h : offset ≤ byteLength as) (bs : List Char) :
    (ofText (as ++ bs)).point offset = (ofText as).point offset := by
  have htake : (ofText (as ++ bs)).starts.takeWhile (· ≤ offset) =
      (ofText as).starts.takeWhile (· ≤ offset) := by
    unfold ofText
    rw [startsAfterBreaks_append, ← List.cons_append]
    apply takeWhile_append_left
    intro s hs
    have hgt := (mem_startsAfterBreaks hs).1
    simp only [decide_eq_false_iff_not]
    omega
  rw [point, point, htake]

/-- Behind a seam the points are those of the second part, further down. -/
lemma point_append_right {as xs : List Char} (hxs : as = xs ++ ['\n']) (bs : List Char) (offset : Nat) :
    (ofText (as ++ bs)).point (offset + byteLength as) =
      ((ofText bs).point offset).down (as.count '\n') := by
  have hlast : startsAfterBreaks 0 as = startsAfterBreaks 0 xs ++ [byteLength as] := by
    rw [hxs, startsAfterBreaks_append, byteLength_append, Nat.zero_add]
    rfl
  have hshift := startsAfterBreaks_shift (byteLength as) 0 bs
  have hstarts : (ofText (as ++ bs)).starts =
      0 :: startsAfterBreaks 0 xs ++ (ofText bs).starts.map (· + byteLength as) := by
    simp only [ofText, startsAfterBreaks_append, hlast, List.map_cons, Nat.zero_add, List.cons_append,
      List.append_assoc, List.nil_append] at hshift ⊢
    rw [hshift]
  have htake : (ofText (as ++ bs)).starts.takeWhile (· ≤ offset + byteLength as) =
      0 :: startsAfterBreaks 0 xs ++
        ((ofText bs).starts.takeWhile (· ≤ offset)).map (· + byteLength as) := by
    rw [hstarts, List.takeWhile_append_of_pos]
    · rw [List.takeWhile_map]
      congr 3
      funext s
      simp
    · intro s hs
      rw [decide_eq_true_eq]
      rcases List.mem_cons.mp hs with rfl | hs
      · exact Nat.zero_le _
      · have hle := (mem_startsAfterBreaks hs).2
        rw [hxs, byteLength_append]
        omega
  have hcount : (startsAfterBreaks 0 xs).length + 1 = as.count '\n' := by
    rw [length_startsAfterBreaks, hxs, List.count_append]
    rfl
  obtain ⟨ss, s, hbefore⟩ : ∃ ss s, (ofText bs).starts.takeWhile (· ≤ offset) = ss ++ [s] := by
    rcases List.eq_nil_or_concat ((ofText bs).starts.takeWhile (· ≤ offset)) with hnil | ⟨ss, s, hss⟩
    · simp [ofText] at hnil
    · exact ⟨ss, s, by rw [hss, List.concat_eq_append]⟩
  rw [hbefore, List.map_append, List.map_cons, List.map_nil, ← List.append_assoc] at htake
  simp only [point, htake, hbefore, Point.down, List.getLastD_concat, List.length_append, List.length_cons,
    List.length_map, List.length_nil, Point.mk.injEq]
  omega

end LineTable

end RenpyScript
