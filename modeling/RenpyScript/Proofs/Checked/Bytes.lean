import RenpyScript.Checked.Bytes
import RenpyScript.Proofs.Text.Boundary

/-!
# Characters among bytes

A loop over bytes meets a character at its first byte. That byte is the one of an ASCII character only if
the character is, and none of the bytes behind it is the byte of an ASCII character. So a loop that looks
for ASCII characters passes over any other character as a whole.
-/

namespace RenpyScript

def lead (c : Char) : UInt8 :=
  (String.utf8EncodeChar c).headD 0

/-- The bytes from an index on begin with those of `cs`. -/
def BytesAt (bytes : List UInt8) (i : Nat) (cs : List Char) : Prop :=
  utf8 cs <+: bytes.drop i

section
variable {bytes : List UInt8} {i : Nat} {c : Char} {as bs cs : List Char}

lemma utf8_cons (c : Char) (cs : List Char) : utf8 (c :: cs) = String.utf8EncodeChar c ++ utf8 cs :=
  List.flatMap_cons

lemma utf8_append (as bs : List Char) : utf8 (as ++ bs) = utf8 as ++ utf8 bs :=
  List.flatMap_append

lemma length_utf8 (cs : List Char) : (utf8 cs).length = byteLength cs := by
  induction cs with
  | nil => rfl
  | cons c cs ih => rw [utf8_cons, List.length_append, String.length_utf8EncodeChar, ih, byteLength_cons]

lemma utf8EncodeChar_eq (c : Char) : ∃ more, String.utf8EncodeChar c = lead c :: more := by
  obtain ⟨b, more, h⟩ := List.exists_cons_of_ne_nil (String.utf8EncodeChar_ne_nil (c := c))
  exact ⟨more, by rw [lead, h]; rfl⟩

/-! ## ASCII -/

lemma utf8EncodeChar_ascii (h : c.val.toNat ≤ 127) : String.utf8EncodeChar c = [c.toUInt8] := by
  unfold String.utf8EncodeChar
  dsimp only
  rw [if_pos h]
  rfl

lemma utf8Size_ascii {a : Char} (ha : a.val.toNat ≤ 127) : a.utf8Size = 1 := by
  rw [← String.length_utf8EncodeChar, utf8EncodeChar_ascii ha]
  rfl

lemma le_of_mem_utf8EncodeChar (h : 127 < c.val.toNat) {b : UInt8} (hb : b ∈ String.utf8EncodeChar c) :
    128 ≤ b.toNat := by
  unfold String.utf8EncodeChar at hb
  dsimp only at hb
  rw [if_neg (by omega)] at hb
  split at hb
  · simp only [List.mem_cons, List.not_mem_nil, or_false] at hb
    rcases hb with rfl | rfl <;> rw [UInt8.toNat_ofNat'] <;> omega
  split at hb
  · simp only [List.mem_cons, List.not_mem_nil, or_false] at hb
    rcases hb with rfl | rfl | rfl <;> rw [UInt8.toNat_ofNat'] <;> omega
  · simp only [List.mem_cons, List.not_mem_nil, or_false] at hb
    rcases hb with rfl | rfl | rfl | rfl <;> rw [UInt8.toNat_ofNat'] <;> omega

lemma toUInt8_toNat {a : Char} (ha : a.val.toNat ≤ 127) : a.toUInt8.toNat = a.val.toNat := by
  rw [Char.toUInt8, UInt32.toNat_toUInt8]
  omega

lemma ne_of_high {b : UInt8} {a : Char} (hb : 128 ≤ b.toNat) (ha : a.val.toNat ≤ 127) : b ≠ a.toUInt8 := by
  rintro rfl
  rw [toUInt8_toNat ha] at hb
  omega

/-- A character begins with the byte of an ASCII character only if it is that character. -/
lemma lead_eq_iff {a : Char} (ha : a.val.toNat ≤ 127) : lead c = a.toUInt8 ↔ c = a := by
  constructor
  · intro h
    have hb := toUInt8_toNat ha
    rcases Nat.lt_or_ge 127 c.val.toNat with hc | hc
    · obtain ⟨more, heq⟩ := utf8EncodeChar_eq c
      have hle := le_of_mem_utf8EncodeChar hc (heq ▸ List.mem_cons_self ..)
      rw [h, hb] at hle
      omega
    · rw [lead, utf8EncodeChar_ascii hc] at h
      have hn : c.val.toNat = a.val.toNat := by
        rw [← toUInt8_toNat hc, ← hb]
        exact congrArg UInt8.toNat h
      exact Char.ext (UInt32.toNat_inj.mp hn)
  · rintro rfl
    rw [lead, utf8EncodeChar_ascii ha]
    rfl

/-! ## Places -/

lemma bytesAt_utf8 (cs : List Char) : BytesAt (utf8 cs) 0 cs :=
  List.prefix_refl _

lemma bytesAt_append (as bs cs : List Char) : BytesAt (utf8 (as ++ (bs ++ cs))) (byteLength as) bs := by
  rw [BytesAt, utf8_append, ← length_utf8 as, List.drop_left, utf8_append]
  exact List.prefix_append _ _

lemma BytesAt.length_le (h : BytesAt bytes i cs) : i + byteLength cs ≤ bytes.length ∨ cs = [] := by
  by_cases hcs : cs = []
  · exact Or.inr hcs
  · left
    have hlength := List.IsPrefix.length_le h
    rw [length_utf8, List.length_drop] at hlength
    have hpos := byteLength_pos hcs
    omega

lemma BytesAt.lead (h : BytesAt bytes i (c :: cs)) : bytes[i]? = some (lead c) := by
  obtain ⟨rest, hrest⟩ := h
  obtain ⟨more, heq⟩ := utf8EncodeChar_eq c
  rw [utf8_cons, heq] at hrest
  have hhead := congrArg List.head? hrest
  rw [List.head?_drop] at hhead
  exact hhead.symm

lemma BytesAt.right (h : BytesAt bytes i (as ++ bs)) : BytesAt bytes (i + byteLength as) bs := by
  obtain ⟨rest, hrest⟩ := h
  refine ⟨rest, ?_⟩
  rw [← List.drop_drop, ← hrest, utf8_append, List.append_assoc, ← length_utf8 as, List.drop_left]

lemma BytesAt.left (h : BytesAt bytes i (as ++ bs)) : BytesAt bytes i as := by
  rw [BytesAt, utf8_append] at h
  exact (List.prefix_append _ _).trans h

lemma BytesAt.tail (h : BytesAt bytes i (c :: cs)) : BytesAt bytes (i + c.utf8Size) cs := by
  have hright : BytesAt bytes i ([c] ++ cs) := h
  simpa using hright.right

lemma BytesAt.tail_ascii (ha : c.val.toNat ≤ 127) (h : BytesAt bytes i (c :: cs)) : BytesAt bytes (i + 1) cs := by
  exact utf8Size_ascii ha ▸ h.tail

lemma BytesAt.inside (h : BytesAt bytes i (c :: cs)) {k : Nat} (hk : 0 < k) (hlt : k < c.utf8Size) :
    ∃ b : UInt8, bytes[i + k]? = some b ∧ 128 ≤ b.toNat := by
  obtain ⟨rest, hrest⟩ := h
  rw [utf8_cons, List.append_assoc] at hrest
  have hlength := String.length_utf8EncodeChar c
  have hc : 127 < c.val.toNat := by
    by_contra hle
    rw [utf8EncodeChar_ascii (by omega)] at hlength
    simp only [List.length_singleton] at hlength
    omega
  obtain ⟨b, hb⟩ : ∃ b, (String.utf8EncodeChar c)[k]? = some b := ⟨_, List.getElem?_eq_getElem (hlength ▸ hlt)⟩
  refine ⟨b, ?_, le_of_mem_utf8EncodeChar hc (List.mem_of_getElem? hb)⟩
  rw [← List.getElem?_drop, ← hrest, List.getElem?_append_left (hlength ▸ hlt), hb]

/-- A character ends with the byte of an ASCII character only if it is that character. -/
lemma BytesAt.last (h : BytesAt bytes i (c :: cs)) :
    ∃ b : UInt8, bytes[i + (c.utf8Size - 1)]? = some b ∧ ∀ a : Char, a.val.toNat ≤ 127 → (b = a.toUInt8 ↔ c = a) := by
  by_cases hone : c.utf8Size = 1
  · rw [hone]
    exact ⟨_, h.lead, fun a ha => lead_eq_iff ha⟩
  · have hsize := Char.utf8Size_pos c
    obtain ⟨b, hb, hhigh⟩ := h.inside (k := c.utf8Size - 1) (by omega) (by omega)
    refine ⟨b, hb, fun a ha => ?_⟩
    constructor
    · exact fun heq => absurd heq (ne_of_high hhigh ha)
    · rintro rfl
      exact absurd (utf8Size_ascii ha) hone

lemma BytesAt.leave {ρ : Type} (h : BytesAt bytes i (c :: cs)) (loop : Nat → ρ)
    (hloop : ∀ j b, bytes[j]? = some b → 128 ≤ b.toNat → i < j → j < i + c.utf8Size → loop j = loop (j + 1)) {k : Nat}
    (hk : 0 < k) (hle : k ≤ c.utf8Size) : loop (i + k) = loop (i + c.utf8Size) := by
  -- On the bytes of the character that are left. None of them is ASCII, so the loop passes each of them.
  induction hn : c.utf8Size - k generalizing k with
  | zero =>
    obtain rfl : k = c.utf8Size := by omega
    rfl
  | succ n ih =>
    obtain ⟨b, hb, hnot⟩ := h.inside hk (by omega)
    rw [hloop _ b hb hnot (by omega) (by omega)]
    exact ih (k := k + 1) (by omega) (by omega) (by omega)

lemma exists_split_ascii {a : Char} (ha : a.val.toNat ≤ 127) {k : Nat} (h : (utf8 cs)[k]? = some a.toUInt8) :
    ∃ as bs, cs = as ++ a :: bs ∧ byteLength as = k := by
  -- The byte begins the first character, or it lies behind it: the others of a character are not ASCII.
  induction cs generalizing k with
  | nil => simp [utf8] at h
  | cons c cs ih =>
    have hat := bytesAt_utf8 (c :: cs)
    rcases Nat.lt_or_ge k c.utf8Size with hlt | hge
    · rcases Nat.eq_zero_or_pos k with rfl | hpos
      · rw [hat.lead, Option.some.injEq] at h
        rw [(lead_eq_iff ha).mp h]
        exact ⟨[], cs, rfl, rfl⟩
      · obtain ⟨b, hb, hhigh⟩ := hat.inside hpos hlt
        rw [Nat.zero_add, h, Option.some.injEq] at hb
        exact absurd hb.symm (ne_of_high hhigh ha)
    · rw [utf8_cons, List.getElem?_append_right (by rwa [String.length_utf8EncodeChar]),
        String.length_utf8EncodeChar] at h
      obtain ⟨as, bs, rfl, hlength⟩ := ih h
      exact ⟨c :: as, bs, rfl, by rw [byteLength_cons]; omega⟩

lemma mem_of_mem_utf8 {a : Char} (ha : a.val.toNat ≤ 127) (h : a.toUInt8 ∈ utf8 cs) : a ∈ cs := by
  obtain ⟨k, hk⟩ := List.mem_iff_getElem?.mp h
  obtain ⟨as, bs, rfl, -⟩ := exists_split_ascii ha hk
  simp

lemma count_utf8 {a : Char} (ha : a.val.toNat ≤ 127) (cs : List Char) : (utf8 cs).count a.toUInt8 = cs.count a := by
  induction cs with
  | nil => rfl
  | cons c cs ih =>
    have hchar : (utf8 [c]).count a.toUInt8 = if c = a then 1 else 0 := by
      split
      · next heq =>
        subst heq
        rw [utf8, List.flatMap_singleton, utf8EncodeChar_ascii ha, List.count_singleton_self]
      · next hne => exact List.count_eq_zero.mpr fun h => hne (List.mem_singleton.mp (mem_of_mem_utf8 ha h)).symm
    rw [List.count_cons, ← ih, ← List.singleton_append, utf8_append, List.count_append, hchar, Nat.add_comm]
    simp only [beq_iff_eq]

lemma BytesAt.slice (h : BytesAt bytes i cs) {stop : Nat} (hstop : i + byteLength cs = stop) (hle : stop ≤ bytes.length) :
    byteSlice bytes i stop = some (utf8 cs) := by
  obtain ⟨rest, hrest⟩ := h
  rw [byteSlice, if_pos ⟨by omega, hle⟩, ← hrest, show stop - i = (utf8 cs).length by rw [length_utf8]; omega,
    List.take_left]

lemma take_utf8_eq_replicate {a : Char} (ha : a.val.toNat ≤ 127) (n : Nat) (cs : List Char) :
    (utf8 cs).take n = List.replicate n a.toUInt8 ↔ cs.take n = List.replicate n a := by
  induction n generalizing cs with
  | zero => simp
  | succ n ih =>
    cases cs with
    | nil => simp [utf8, List.replicate_succ]
    | cons c cs =>
      obtain ⟨more, heq⟩ := utf8EncodeChar_eq c
      rw [utf8_cons, heq, List.cons_append, List.take_succ_cons, List.take_succ_cons, List.replicate_succ,
        List.replicate_succ, List.cons.injEq, List.cons.injEq, lead_eq_iff ha]
      apply and_congr_right
      rintro rfl
      rw [utf8EncodeChar_ascii ha, List.cons.injEq] at heq
      rw [← heq.2, List.nil_append, ih]

lemma BytesAt.copies (h : BytesAt bytes i cs) {stop : Nat} (hstop : i + byteLength cs = stop) (hle : stop ≤ bytes.length)
    (n : Nat) {a : Char} (ha : a.val.toNat ≤ 127) :
    byteCopies bytes i stop n a.toUInt8 = some (decide (cs.take n = List.replicate n a)) := by
  rw [byteCopies, h.slice hstop hle, Option.bind_eq_bind, Option.bind_some, Option.pure_def, Option.some.injEq,
    decide_eq_decide]
  exact take_utf8_eq_replicate ha n cs

end

end RenpyScript
