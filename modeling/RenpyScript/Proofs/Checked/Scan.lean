import RenpyScript.Checked.Scan
import RenpyScript.Proofs.Checked.Bytes
import RenpyScript.Proofs.Layout.Seams

/-!
# The lines of bytes are the logical lines

The loops over bytes stay in range, and they split a text as `LogicalLine.scan` does. Where a loop lands
inside a character, it goes on to the end of that character before it does anything else.
-/

namespace RenpyScript

/-- The string that a context is inside of, as the loops over bytes know it. -/
def Context.byteQuote? : Context → Option ByteQuote
  | .code => none
  | .comment => none
  | .string q => some (.single q.toUInt8)
  | .tripled q => some (.tripled q.toUInt8)

/-- Strings are delimited by quote characters. -/
def Context.Sound : Context → Prop
  | .code => True
  | .comment => True
  | .string q => isQuote q = true
  | .tripled q => isQuote q = true

lemma isQuote_ascii {q : Char} (h : isQuote q = true) : q.val.toNat ≤ 127 := by
  simp only [isQuote, Bool.or_eq_true, decide_eq_true_eq] at h
  rcases h with rfl | rfl <;> decide

section
variable {bytes : List UInt8} {i depth row : Nat} {c : Char} {cs : List Char}

lemma BytesAt.lt_length (h : BytesAt bytes i (c :: cs)) : i < bytes.length := by
  have hsize := Char.utf8Size_pos c
  rcases h.length_le with hle | hnil
  · rw [byteLength_cons] at hle
    omega
  · exact absurd hnil (List.cons_ne_nil c cs)

/-! ## Loops -/

lemma toLineFeed_eq (h : BytesAt bytes i cs) (hend : i + byteLength cs = bytes.length) :
    toLineFeed bytes i = some (i + byteLength (cs.takeWhile (· ≠ '\n'))) := by
  have hloop (j : Nat) (b : UInt8) (hb : bytes[j]? = some b) (hne : b ≠ '\n'.toUInt8) :
      toLineFeed bytes j = toLineFeed bytes (j + 1) := by
    have hlt : j < bytes.length := List.getElem?_eq_some_iff.mp hb |>.1
    rw [toLineFeed, if_pos hlt, hb, Option.bind_eq_bind, Option.bind_some, if_neg hne]
  induction cs generalizing i with
  | nil =>
    rw [byteLength_nil, Nat.add_zero] at hend
    rw [toLineFeed, if_neg (by omega)]
    rfl
  | cons c cs ih =>
    have hlead := lead_eq_iff (c := c) (a := '\n') (by decide)
    by_cases hc : c = '\n'
    · rw [toLineFeed, if_pos h.lt_length, h.lead, Option.bind_eq_bind, Option.bind_some, if_pos (hlead.mpr hc),
        List.takeWhile_cons, if_neg (by simp [hc])]
      rfl
    · have hsize := Char.utf8Size_pos c
      rw [hloop i _ h.lead (mt hlead.mp hc), h.leave (toLineFeed bytes) _ (Nat.le_refl 1) hsize,
        ih h.tail (by rw [← hend, byteLength_cons, Nat.add_assoc]), List.takeWhile_cons, if_pos (by simp [hc]),
        byteLength_cons, Nat.add_assoc]
      intro j b hb hhigh _ _
      exact hloop j b hb (ne_of_high hhigh (by decide))

/-! ## One byte -/

lemma scanByte_high {context : Context} (hsound : context.Sound) {b : UInt8} (hb : bytes[i]? = some b)
    (hhigh : 128 ≤ b.toNat) :
    scanByte bytes i depth context.byteQuote? row = some (.go (i + 1) depth context.byteQuote? row) := by
  have hne (a : Char) (ha : a.val.toNat ≤ 127) : b ≠ a.toUInt8 := ne_of_high hhigh ha
  rw [scanByte, hb, Option.bind_eq_bind, Option.bind_some]
  cases context with
  | code => simp [Context.byteQuote?, scanOutside, hne]
  | comment => simp [Context.byteQuote?, scanOutside, hne]
  | string q => simp [Context.byteQuote?, scanInside, hne, hne q (isQuote_ascii hsound)]
  | tripled q => simp [Context.byteQuote?, scanInside, endsTripled, hne, hne q (isQuote_ascii hsound)]

/-- What a character does outside a comment: the loop goes on at another place, or the line ends. -/
def LineScan.byteStep (s : LineScan) (i row : Nat) (c : Char) (cs : List Char) : ScanStep :=
  if s.endsAt c then .done i (i + 1) row
  else
    .go (i + 1 + (s.next c cs).skip) (s.next c cs).depth (s.next c cs).context.byteQuote?
      (row + ((c :: cs).take (1 + (s.next c cs).skip)).count '\n')

lemma beginsWithCopies_cons (n : Nat) (c : Char) (cs : List Char) :
    beginsWithCopies (n + 1) c (c :: cs) = beginsWithCopies n c cs := by
  simp [beginsWithCopies, List.replicate_succ]

lemma count_take_copies {n : Nat} (hc : c ≠ '\n') (h : beginsWithCopies n c cs = true) :
    (cs.take n).count '\n' = 0 := by
  simp only [beginsWithCopies, decide_eq_true_eq] at h
  rw [h, List.count_replicate]
  simp [hc]

lemma scanOutside_quote (h : BytesAt bytes i (c :: cs)) (hend : i + byteLength (c :: cs) = bytes.length)
    (hq : isQuote c = true) :
    scanOutside bytes i depth row (lead c) = some (LineScan.byteStep ⟨.code, depth, 0⟩ i row c cs) := by
  have hlead (a : Char) (ha : a.val.toNat ≤ 127) : lead c = a.toUInt8 ↔ c = a := lead_eq_iff ha
  have hasc := isQuote_ascii hq
  have hfeed := LineScan.isQuote_ne hq
  have hc : c ≠ '#' := by
    rintro rfl
    exact absurd hq (by decide)
  have hquote : lead c = '"'.toUInt8 ∨ lead c = '\''.toUInt8 := by
    rw [hlead _ (by decide), hlead _ (by decide)]
    simpa [isQuote] using hq
  have hcopies := beginsWithCopies_cons 2 c cs
  rw [beginsWithCopies] at hcopies
  rw [scanOutside, if_neg (mt (hlead '#' (by decide)).mp hc), if_pos hquote, (hlead c hasc).mpr rfl,
    h.copies hend (Nat.le_refl _) 3 hasc, Option.bind_eq_bind, Option.bind_some, hcopies]
  by_cases htripled : beginsWithCopies 2 c cs = true
  · have hcount := count_take_copies hfeed htripled
    simp [LineScan.byteStep, LineScan.endsAt, LineScan.next, LineScan.afterCode, hc, hq, hfeed, htripled, hcount,
      Context.byteQuote?]
  · simp [LineScan.byteStep, LineScan.endsAt, LineScan.next, LineScan.afterCode, hc, hq, hfeed, htripled,
      Context.byteQuote?]

lemma scanOutside_eq (h : BytesAt bytes i (c :: cs)) (hend : i + byteLength (c :: cs) = bytes.length) (hc : c ≠ '#') :
    scanOutside bytes i depth row (lead c) = some (LineScan.byteStep ⟨.code, depth, 0⟩ i row c cs) := by
  by_cases hq : isQuote c = true
  · exact scanOutside_quote h hend hq
  have hlead (a : Char) (ha : a.val.toNat ≤ 127) : lead c = a.toUInt8 ↔ c = a := lead_eq_iff ha
  have hquote : ¬(lead c = '"'.toUInt8 ∨ lead c = '\''.toUInt8) := by
    rw [hlead _ (by decide), hlead _ (by decide)]
    simpa [isQuote] using hq
  rw [scanOutside, if_neg (mt (hlead '#' (by decide)).mp hc), if_neg hquote]
  simp only [hlead '(' (by decide), hlead '[' (by decide), hlead '\x7b' (by decide), hlead ')' (by decide),
    hlead ']' (by decide), hlead '\x7d' (by decide), hlead '\n' (by decide)]
  by_cases hopens : c = '(' ∨ c = '[' ∨ c = '\x7b'
  · rw [if_pos hopens]
    rcases hopens with rfl | rfl | rfl <;>
      simp [LineScan.byteStep, LineScan.endsAt, LineScan.next, LineScan.afterCode, isQuote, Context.byteQuote?]
  rw [if_neg hopens]
  by_cases hcloses : c = ')' ∨ c = ']' ∨ c = '\x7d'
  · rw [if_pos hcloses]
    rcases hcloses with rfl | rfl | rfl <;>
      simp [LineScan.byteStep, LineScan.endsAt, LineScan.next, LineScan.afterCode, isQuote, Context.byteQuote?]
  rw [if_neg hcloses]
  have hnext : LineScan.afterCode depth c cs = ⟨.code, depth, 0⟩ := by
    simp only [not_or] at hopens hcloses
    simp [LineScan.afterCode, hc, hq, hopens, hcloses]
  by_cases hfeed : c = '\n'
  · subst hfeed
    rw [if_pos rfl]
    by_cases hdepth : 0 < depth
    · have hne : depth ≠ 0 := by omega
      simp [LineScan.byteStep, LineScan.endsAt, LineScan.next, hnext, hdepth, hne, Context.byteQuote?]
    · have hzero : depth = 0 := by omega
      simp [LineScan.byteStep, LineScan.endsAt, hzero]
  · rw [if_neg hfeed]
    simp [LineScan.byteStep, LineScan.endsAt, LineScan.next, hnext, hfeed, Context.byteQuote?]

lemma getElem?_eq_feed (h : BytesAt bytes i cs) (hend : i + byteLength cs = bytes.length) :
    bytes[i]? = some '\n'.toUInt8 ↔ cs.head? = some '\n' := by
  cases cs with
  | nil =>
    rw [byteLength_nil, Nat.add_zero] at hend
    simp [List.getElem?_eq_none (Nat.le_of_eq hend.symm)]
  | cons c cs =>
    rw [h.lead, List.head?_cons, Option.some.injEq, Option.some.injEq]
    exact lead_eq_iff (by decide)

lemma count_take_one (cs : List Char) : (cs.take 1).count '\n' = if cs.head? = some '\n' then 1 else 0 := by
  cases cs with
  | nil => rfl
  | cons c cs => by_cases hc : c = '\n' <;> simp [hc]

lemma scanInside_escape (h : BytesAt bytes i ('\\' :: cs)) (hend : i + byteLength ('\\' :: cs) = bytes.length)
    {context : Context} {quote : ByteQuote} (hquote : context.byteQuote? = some quote) :
    scanInside bytes i depth row quote '\\'.toUInt8 =
      some (LineScan.byteStep ⟨context, depth, 0⟩ i row '\\' cs) := by
  have hnext : LineScan.next ⟨context, depth, 0⟩ '\\' cs = ⟨context, depth, 1⟩ := by
    cases context <;> simp_all [LineScan.next, Context.byteQuote?]
  have hsize : ('\\').utf8Size = 1 := by decide
  have hfeed := getElem?_eq_feed (h.tail_ascii (by decide)) (by rw [← hend, byteLength_cons, hsize, Nat.add_assoc])
  have hcount := count_take_one cs
  have hnot : LineScan.endsAt ⟨context, depth, 0⟩ '\\' = false := by simp [LineScan.endsAt]
  unfold scanInside
  rw [if_pos rfl, LineScan.byteStep, hnot, hnext, hquote]
  by_cases hhead : cs.head? = some '\n'
  · simp_all [Nat.add_assoc]
  · simp_all [Nat.add_assoc]

lemma scanInside_single {q : Char} (h : BytesAt bytes i (c :: cs)) (hend : i + byteLength (c :: cs) = bytes.length)
    (hescape : c ≠ '\\') (hq : isQuote q = true) :
    scanInside bytes i depth row (.single q.toUInt8) (lead c) =
      some (LineScan.byteStep ⟨.string q, depth, 0⟩ i row c cs) := by
  have hlead (a : Char) (ha : a.val.toNat ≤ 127) : lead c = a.toUInt8 ↔ c = a := lead_eq_iff ha
  have hasc := isQuote_ascii hq
  have hfeed := LineScan.isQuote_ne hq
  rw [scanInside, if_neg (mt (hlead '\\' (by decide)).mp hescape)]
  by_cases hcloses : c = q
  · subst hcloses
    rw [if_pos ((hlead c hasc).mpr rfl)]
    simp [LineScan.byteStep, LineScan.endsAt, LineScan.next, hescape, hfeed, Context.byteQuote?]
  rw [if_neg (mt (hlead q hasc).mp hcloses)]
  by_cases hc : c = '\n'
  · subst hc
    rw [if_pos ((hlead '\n' (by decide)).mpr rfl), scanOutside_eq h hend (by decide)]
    simp [LineScan.byteStep, LineScan.endsAt, LineScan.next, LineScan.afterCode, isQuote, Context.byteQuote?]
  rw [if_neg (mt (hlead '\n' (by decide)).mp hc)]
  simp [LineScan.byteStep, LineScan.endsAt, LineScan.next, hescape, hcloses, hc, Context.byteQuote?]

lemma endsTripled_eq {q : Char} (h : BytesAt bytes i (c :: cs)) (hend : i + byteLength (c :: cs) = bytes.length)
    (hq : isQuote q = true) :
    endsTripled bytes i q.toUInt8 (lead c) = some (c = q && beginsWithCopies 2 c cs) := by
  have hlead : lead c = q.toUInt8 ↔ c = q := lead_eq_iff (isQuote_ascii hq)
  unfold endsTripled
  by_cases hcq : c = q
  · rw [if_pos (hlead.mpr hcq), h.copies hend (Nat.le_refl _) 3 (isQuote_ascii hq)]
    subst hcq
    rw [← beginsWithCopies_cons]
    simp [beginsWithCopies]
  · rw [if_neg (mt hlead.mp hcq)]
    simp [hcq]

lemma scanInside_tripled {q : Char} (h : BytesAt bytes i (c :: cs)) (hend : i + byteLength (c :: cs) = bytes.length)
    (hescape : c ≠ '\\') (hq : isQuote q = true) :
    scanInside bytes i depth row (.tripled q.toUInt8) (lead c) =
      some (LineScan.byteStep ⟨.tripled q, depth, 0⟩ i row c cs) := by
  have hlead (a : Char) (ha : a.val.toNat ≤ 127) : lead c = a.toUInt8 ↔ c = a := lead_eq_iff ha
  rw [scanInside, if_neg (mt (hlead '\\' (by decide)).mp hescape)]
  rw [endsTripled_eq h hend hq, Option.bind_eq_bind, Option.bind_some]
  by_cases hclose : c = q ∧ beginsWithCopies 2 c cs = true
  · obtain ⟨rfl, hcopies⟩ := hclose
    have hfeed := LineScan.isQuote_ne hq
    have hcount := count_take_copies hfeed hcopies
    simp [LineScan.byteStep, LineScan.endsAt, LineScan.next, hescape, hfeed, hcopies, hcount, Context.byteQuote?]
  have hnext : LineScan.next ⟨.tripled q, depth, 0⟩ c cs = ⟨.tripled q, depth, 0⟩ := by
    simp only [LineScan.next, hescape, if_false]
    rw [if_neg (by simpa using hclose)]
  have hnot : LineScan.endsAt ⟨.tripled q, depth, 0⟩ c = false := by simp [LineScan.endsAt]
  have hbyte := hlead '\n' (by decide)
  rw [if_neg (by simpa using hclose), LineScan.byteStep, hnot, hnext]
  by_cases hc : c = '\n'
  · rw [if_pos (hbyte.mpr hc)]
    simp [hc, Context.byteQuote?]
  · rw [if_neg (mt hbyte.mp hc)]
    simp [hc, Context.byteQuote?]

lemma scanInside_eq (h : BytesAt bytes i (c :: cs)) (hend : i + byteLength (c :: cs) = bytes.length) {context : Context}
    (hsound : context.Sound) {quote : ByteQuote} (hquote : context.byteQuote? = some quote) :
    scanInside bytes i depth row quote (lead c) = some (LineScan.byteStep ⟨context, depth, 0⟩ i row c cs) := by
  by_cases hescape : c = '\\'
  · subst hescape
    rw [(lead_eq_iff (by decide)).mpr rfl]
    exact scanInside_escape h hend hquote
  cases context with
  | code => cases hquote
  | comment => cases hquote
  | string q =>
    cases hquote
    exact scanInside_single h hend hescape hsound
  | tripled q =>
    cases hquote
    exact scanInside_tripled h hend hescape hsound

lemma scanByte_eq (depth row : Nat) (h : BytesAt bytes i (c :: cs)) (hend : i + byteLength (c :: cs) = bytes.length) {context : Context}
    (hsound : context.Sound) (hcomment : context ≠ .comment) (hc : context = .code → c ≠ '#') :
    scanByte bytes i depth context.byteQuote? row = some (LineScan.byteStep ⟨context, depth, 0⟩ i row c cs) := by
  rw [scanByte, h.lead, Option.bind_eq_bind, Option.bind_some]
  cases context with
  | code => exact scanOutside_eq h hend (hc rfl)
  | comment => exact absurd rfl hcomment
  | string q => exact scanInside_eq h hend hsound rfl
  | tripled q => exact scanInside_eq h hend hsound rfl

/-! ## The content of a line -/

lemma splitLine_skip (context : Context) (depth k : Nat) (cs : List Char) :
    LineScan.splitLine ⟨context, depth, k⟩ cs =
      (cs.take k ++ (LineScan.splitLine ⟨context, depth, 0⟩ (cs.drop k)).1,
        (LineScan.splitLine ⟨context, depth, 0⟩ (cs.drop k)).2) := by
  induction cs generalizing k with
  | nil => simp [LineScan.splitLine]
  | cons c cs ih =>
    cases k with
    | zero => simp
    | succ k =>
      have hgoes : LineScan.endsAt ⟨context, depth, k + 1⟩ c = false := by simp [LineScan.endsAt]
      have hnext : LineScan.next ⟨context, depth, k + 1⟩ c cs = ⟨context, depth, k⟩ := rfl
      rw [LineScan.splitLine, hgoes, if_neg Bool.false_ne_true, hnext, ih]
      rfl

lemma splitLine_next {s next : LineScan} (hends : ¬s.endsAt c = true) (hnext : s.next c cs = next) :
    s.splitLine (c :: cs) =
      ((c :: cs).take (1 + next.skip) ++
          (LineScan.splitLine ⟨next.context, next.depth, 0⟩ ((c :: cs).drop (1 + next.skip))).1,
        (LineScan.splitLine ⟨next.context, next.depth, 0⟩ ((c :: cs).drop (1 + next.skip))).2) := by
  have hskip := splitLine_skip next.context next.depth next.skip cs
  rw [LineScan.splitLine, if_neg hends, hnext, Nat.add_comm 1, List.take_succ_cons, List.drop_succ_cons]
  change _ = (c :: (_ ++ _), _)
  rw [hskip]

lemma splitLine_comment (depth : Nat) (cs : List Char) :
    LineScan.splitLine ⟨.comment, depth, 0⟩ cs =
      (cs.takeWhile (· ≠ '\n') ++ (LineScan.splitLine ⟨.code, depth, 0⟩ (cs.dropWhile (· ≠ '\n'))).1,
        (LineScan.splitLine ⟨.code, depth, 0⟩ (cs.dropWhile (· ≠ '\n'))).2) := by
  induction cs with
  | nil => rfl
  | cons c cs ih =>
    by_cases hc : c = '\n'
    · subst hc
      simp [LineScan.splitLine, LineScan.endsAt, LineScan.next, LineScan.afterCode, isQuote]
    · have hends : ¬LineScan.endsAt ⟨.comment, depth, 0⟩ c = true := by simp [LineScan.endsAt, hc]
      have hnext : LineScan.next ⟨.comment, depth, 0⟩ c cs = ⟨.comment, depth, 0⟩ := by simp [LineScan.next, hc]
      rw [splitLine_next hends hnext]
      simp [ih, hc]

lemma splitLine_hash (depth : Nat) (cs : List Char) :
    LineScan.splitLine ⟨.code, depth, 0⟩ ('#' :: cs) =
      ('#' :: cs.takeWhile (· ≠ '\n') ++ (LineScan.splitLine ⟨.code, depth, 0⟩ (cs.dropWhile (· ≠ '\n'))).1,
        (LineScan.splitLine ⟨.code, depth, 0⟩ (cs.dropWhile (· ≠ '\n'))).2) := by
  have hends : ¬LineScan.endsAt ⟨.code, depth, 0⟩ '#' = true := by simp [LineScan.endsAt]
  have hnext : LineScan.next ⟨.code, depth, 0⟩ '#' cs = ⟨.comment, depth, 0⟩ := by
    simp [LineScan.next, LineScan.afterCode]
  rw [splitLine_next hends hnext]
  simp [splitLine_comment]

lemma next_sound {context : Context} (h : context.Sound) (depth : Nat) (c : Char) (cs : List Char) :
    (LineScan.next ⟨context, depth, 0⟩ c cs).context.Sound := by
  have hcode : (LineScan.afterCode depth c cs).context.Sound := by
    unfold LineScan.afterCode
    split_ifs with hash hquote
    all_goals first | exact hquote | trivial
  cases context with
  | code => exact hcode
  | comment =>
    unfold LineScan.next
    dsimp only
    split_ifs
    · trivial
    · trivial
  | string q =>
    unfold LineScan.next
    dsimp only
    split_ifs
    · exact h
    · trivial
    · exact h
  | tripled q =>
    unfold LineScan.next
    dsimp only
    split_ifs
    · exact h
    · trivial
    · exact h

lemma next_comment {context : Context} (hcontext : context ≠ .comment) {depth : Nat} {c : Char} {cs : List Char}
    (h : (LineScan.next ⟨context, depth, 0⟩ c cs).context = .comment) : context = .code ∧ c = '#' := by
  cases context with
  | code =>
    refine ⟨rfl, ?_⟩
    by_contra hc
    unfold LineScan.next LineScan.afterCode at h
    dsimp only at h
    split_ifs at h
  | comment => exact absurd rfl hcontext
  | string q =>
    unfold LineScan.next at h
    dsimp only at h
    split_ifs at h
  | tripled q =>
    unfold LineScan.next at h
    dsimp only at h
    split_ifs at h

/-- The ends of a line that is split into its body and what follows, and the row there. -/
def bodyEnds (i row : Nat) (parts : List Char × List Char) : Nat × Nat × Nat :=
  (i + byteLength parts.1, i + byteLength parts.1 + byteLength (parts.2.take 1), row + parts.1.count '\n')

lemma bodyEnds_append (passed : List Char) (parts : List Char × List Char) :
    bodyEnds i row (passed ++ parts.1, parts.2) =
      bodyEnds (i + byteLength passed) (row + passed.count '\n') parts := by
  simp [bodyEnds, Nat.add_assoc]

lemma scanContent_end (h : bytes.length ≤ i) (quote : Option ByteQuote) :
    scanContent bytes i depth quote row = some (bytes.length, bytes.length, row) := by
  rw [scanContent, if_pos h]

lemma scanContent_go {quote quote' : Option ByteQuote} {i' depth' row' : Nat} (hlt : i < bytes.length) (hgo : i < i')
    (h : scanByte bytes i depth quote row = some (.go i' depth' quote' row')) :
    scanContent bytes i depth quote row = scanContent bytes i' depth' quote' row' := by
  rw [scanContent, if_neg (by omega), h]
  exact if_pos hgo

lemma scanContent_land {context : Context} (hsound : context.Sound) (h : BytesAt bytes i cs)
    (hend : i + byteLength cs = bytes.length) :
    scanContent bytes (i + 1) depth context.byteQuote? row =
      scanContent bytes (i + byteLength (cs.take 1)) depth context.byteQuote? row := by
  cases cs with
  | nil =>
    rw [byteLength_nil, Nat.add_zero] at hend
    rw [scanContent_end (by omega), scanContent_end (by simp; omega)]
  | cons c cs =>
    have hsize := Char.utf8Size_pos c
    have hland := h.leave (fun j => scanContent bytes j depth context.byteQuote? row)
      (fun j b hb hhigh _ _ => scanContent_go (List.getElem?_eq_some_iff.mp hb).1 (Nat.lt_succ_self j)
        (scanByte_high hsound hb hhigh))
      (Nat.le_refl 1) hsize
    simpa using hland

/-- What is passed over unseen: the character of an escape, or two copies of a quote. -/
lemma next_skip {context : Context} (hsound : context.Sound) (hcomment : context ≠ .comment) (depth : Nat) (c : Char)
    (cs : List Char) :
    (LineScan.next ⟨context, depth, 0⟩ c cs).skip = 0 ∨
      (LineScan.next ⟨context, depth, 0⟩ c cs).skip = 1 ∧ c = '\\' ∨
      (LineScan.next ⟨context, depth, 0⟩ c cs).skip = 2 ∧ isQuote c = true ∧ beginsWithCopies 2 c cs = true := by
  cases context with
  | code =>
    unfold LineScan.next LineScan.afterCode
    dsimp only
    split_ifs
    all_goals simp_all
  | comment => exact absurd rfl hcomment
  | string q =>
    unfold LineScan.next
    dsimp only
    split_ifs
    all_goals simp_all
  | tripled q =>
    have hquote : isQuote q = true := hsound
    unfold LineScan.next
    dsimp only
    split_ifs with hescape hclose
    · exact Or.inr (Or.inl ⟨rfl, hescape⟩)
    · simp only [Bool.and_eq_true, decide_eq_true_eq] at hclose
      obtain ⟨rfl, hcopies⟩ := hclose
      exact Or.inr (Or.inr ⟨rfl, hquote, hcopies⟩)
    · exact Or.inl rfl

/-- Behind a step the loop goes on where the characters end that the step has passed over. -/
lemma scanContent_next {context : Context} (hsound : context.Sound) (hcomment : context ≠ .comment)
    (h : BytesAt bytes i (c :: cs)) (hend : i + byteLength (c :: cs) = bytes.length) (depth' : Nat) {next : LineScan}
    (hnext : LineScan.next ⟨context, depth, 0⟩ c cs = next) :
    scanContent bytes (i + 1 + next.skip) depth' next.context.byteQuote? row =
      scanContent bytes (i + byteLength ((c :: cs).take (1 + next.skip))) depth' next.context.byteQuote? row := by
  have hsound' : next.context.Sound := hnext ▸ next_sound hsound depth c cs
  have hskip := next_skip hsound hcomment depth c cs
  rw [hnext] at hskip
  rcases hskip with hzero | ⟨hone, rfl⟩ | ⟨htwo, hquote, hcopies⟩
  · rw [hzero]
    exact scanContent_land hsound' h hend
  · have hsize : ('\\').utf8Size = 1 := by decide
    rw [byteLength_cons, hsize, ← Nat.add_assoc] at hend
    rw [hone, scanContent_land hsound' (h.tail_ascii (by decide)) hend, List.take_succ_cons, byteLength_cons, hsize,
      Nat.add_assoc]
  · have hsize : c.utf8Size = 1 := by
      rw [← String.length_utf8EncodeChar, utf8EncodeChar_ascii (isQuote_ascii hquote)]
      rfl
    simp only [beginsWithCopies, decide_eq_true_eq] at hcopies
    rw [htwo, Nat.add_comm 1 2, List.take_succ_cons, hcopies]
    simp [hsize, byteLength, Nat.add_assoc]

lemma scanByte_hash (depth row : Nat) (h : BytesAt bytes i ('#' :: cs)) (hend : i + byteLength ('#' :: cs) = bytes.length) :
    scanByte bytes i depth Context.code.byteQuote? row =
      some (.go (i + byteLength ('#' :: cs.takeWhile (· ≠ '\n'))) depth Context.code.byteQuote? row) := by
  have hfeed := toLineFeed_eq h hend
  rw [List.takeWhile_cons, if_pos (by decide)] at hfeed
  rw [scanByte, h.lead, Option.bind_eq_bind, Option.bind_some, (lead_eq_iff (a := '#') (by decide)).mpr rfl]
  unfold Context.byteQuote? scanOutside
  dsimp only
  rw [if_pos rfl, hfeed]
  rfl

/-- The loop over the content finds the ends that the splitter finds. -/
theorem scanContent_eq {context : Context} (hsound : context.Sound) (hcomment : context ≠ .comment)
    (h : BytesAt bytes i cs) (hend : i + byteLength cs = bytes.length) :
    scanContent bytes i depth context.byteQuote? row =
      some (bodyEnds i row (LineScan.splitLine ⟨context, depth, 0⟩ cs)) := by
  -- A step takes the characters that it skips along, and a comment is taken in one go.
  induction hn : cs.length using Nat.strong_induction_on generalizing context i depth row cs with
  | _ n ih =>
  cases cs with
  | nil =>
    rw [byteLength_nil, Nat.add_zero] at hend
    rw [scanContent_end (Nat.le_of_eq hend.symm)]
    simp [LineScan.splitLine, bodyEnds, hend]
  | cons c cs =>
    have hbehind {k : Nat} (hk : 0 < k) : ((c :: cs).drop k).length < n := by
      simp only [List.length_drop, ← hn, List.length_cons]
      omega
    have hsplit (k : Nat) : byteLength (c :: cs) = byteLength ((c :: cs).take k) + byteLength ((c :: cs).drop k) := by
      rw [← byteLength_append, List.take_append_drop]
    have hat (k : Nat) : BytesAt bytes (i + byteLength ((c :: cs).take k)) ((c :: cs).drop k) := by
      apply BytesAt.right
      rwa [List.take_append_drop]
    by_cases hhash : context = .code ∧ c = '#'
    · obtain ⟨rfl, rfl⟩ := hhash
      obtain ⟨k, hk⟩ : ∃ k, k = (cs.takeWhile (· ≠ '\n')).length := ⟨_, rfl⟩
      have htake : cs.takeWhile (· ≠ '\n') = cs.take k := by rw [hk, take_length_takeWhile]
      have hdrop : cs.dropWhile (· ≠ '\n') = cs.drop k := by rw [hk, drop_length_takeWhile]
      have hstep := scanByte_hash depth row h hend
      have hfeeds : ('#' :: cs.take k).count '\n' = 0 := by
        rw [← htake, List.count_eq_zero]
        intro hmem
        rcases List.mem_cons.mp hmem with hmem | hmem
        · exact absurd hmem (by decide)
        · simpa using List.mem_takeWhile_imp hmem
      have hih : scanContent bytes (i + byteLength ('#' :: cs.take k)) depth Context.code.byteQuote? row =
          some (bodyEnds (i + byteLength ('#' :: cs.take k)) row (LineScan.splitLine ⟨.code, depth, 0⟩ (cs.drop k))) :=
        ih _ (hbehind (Nat.succ_pos k)) trivial (by simp) (hat (k + 1)) (by rw [← hend, hsplit (k + 1), Nat.add_assoc]; rfl) rfl
      have hgo : i < i + byteLength ('#' :: cs.take k) := Nat.lt_add_of_pos_right (byteLength_pos (List.cons_ne_nil _ _))
      rw [htake] at hstep
      rw [scanContent_go h.lt_length hgo hstep, hih, splitLine_hash, htake, hdrop, bodyEnds_append, hfeeds, Nat.add_zero]
    · have hstep := scanByte_eq depth row h hend hsound hcomment (fun hcode hc => hhash ⟨hcode, hc⟩)
      unfold LineScan.byteStep at hstep
      by_cases hends : LineScan.endsAt ⟨context, depth, 0⟩ c = true
      · rw [if_pos hends] at hstep
        have hlt := h.lt_length
        have hc : c = '\n' := by
          simp only [LineScan.endsAt, Bool.and_eq_true, decide_eq_true_eq] at hends
          exact hends.1.1.2
        subst hc
        rw [scanContent, if_neg (by omega), hstep, LineScan.splitLine, if_pos hends]
        simp [bodyEnds, show ('\n').utf8Size = 1 by decide]
      · rw [if_neg hends] at hstep
        obtain ⟨next, hnext⟩ : ∃ next, LineScan.next ⟨context, depth, 0⟩ c cs = next := ⟨_, rfl⟩
        have hsound' : next.context.Sound := hnext ▸ next_sound hsound depth c cs
        have hcomment' : next.context ≠ .comment := fun hc => hhash (next_comment hcomment (hnext ▸ hc))
        rw [hnext] at hstep
        rw [scanContent_go h.lt_length (by omega) hstep, scanContent_next hsound hcomment h hend _ hnext,
          ih _ (hbehind (by omega)) hsound' hcomment' (hat _) (by rw [← hend, hsplit, Nat.add_assoc]) rfl,
          splitLine_next hends hnext, bodyEnds_append]

/-! ## Around the content -/

lemma skipIndent_eq (h : BytesAt bytes i cs) (hend : i + byteLength cs = bytes.length) (width : Nat) :
    skipIndent bytes i width =
      some (i + byteLength (cs.takeWhile isIndentation), (measureIndent width cs).1) := by
  induction cs generalizing i width with
  | nil =>
    rw [byteLength_nil, Nat.add_zero] at hend
    rw [skipIndent, if_neg (by omega)]
    rfl
  | cons c cs ih =>
    have hlead (a : Char) (ha : a.val.toNat ≤ 127) : lead c = a.toUInt8 ↔ c = a := lead_eq_iff ha
    have hgo (hc : c.val.toNat ≤ 127) (width : Nat) := ih (h.tail_ascii hc) (by
      rw [← hend, byteLength_cons, utf8Size_ascii hc, Nat.add_assoc]) width
    rw [skipIndent, if_pos h.lt_length, h.lead, Option.bind_eq_bind, Option.bind_some]
    by_cases hspace : c = ' '
    · subst hspace
      rw [if_pos ((hlead ' ' (by decide)).mpr rfl), hgo (by decide)]
      simp [measureIndent, isIndentation, show (' ').utf8Size = 1 by decide, Nat.add_assoc]
    rw [if_neg (by rw [hlead _ (by decide)]; exact hspace)]
    by_cases htab : c = '\t'
    · subst htab
      rw [if_pos ((hlead '\t' (by decide)).mpr rfl), hgo (by decide)]
      simp [measureIndent, isIndentation, show ('\t').utf8Size = 1 by decide, Nat.add_assoc]
    rw [if_neg (by rw [hlead _ (by decide)]; exact htab)]
    by_cases hfeed : c = '\x0c'
    · subst hfeed
      rw [if_pos ((hlead '\x0c' (by decide)).mpr rfl), hgo (by decide)]
      simp [measureIndent, isIndentation, show ('\x0c').utf8Size = 1 by decide, Nat.add_assoc]
    rw [if_neg (by rw [hlead _ (by decide)]; exact hfeed)]
    simp [measureIndent, isIndentation, hspace, htab, hfeed]

lemma trimPadding_eq (h : BytesAt bytes i cs) (hle : i + byteLength cs ≤ bytes.length) :
    trimPadding bytes i (i + byteLength cs) = some (i + byteLength (trimEnd isLinePadding cs)) := by
  -- The loop trims byte by byte from the end, and a character that is not ASCII stops it with its last byte.
  induction cs using List.reverseRecOn with
  | nil =>
    rw [trimPadding, if_neg (by simp)]
    rfl
  | append_singleton cs c ih =>
    have hsize := Char.utf8Size_pos c
    have hlength : byteLength (cs ++ [c]) = byteLength cs + c.utf8Size := by simp
    obtain ⟨b, hb, hiff⟩ := h.right.last
    have htrim : trimEnd isLinePadding (cs ++ [c]) =
        if isLinePadding c then trimEnd isLinePadding cs else cs ++ [c] := by
      simp only [trimEnd, List.reverse_append, List.reverse_cons, List.reverse_nil, List.nil_append, List.singleton_append,
        List.dropWhile_cons]
      split <;> simp
    have hsub : checkedSub (i + byteLength (cs ++ [c])) 1 = some (i + byteLength cs + (c.utf8Size - 1)) := by
      rw [checkedSub, if_pos (by omega), hlength, Option.some.injEq]
      omega
    have hpadding : (b = ' '.toUInt8 ∨ b = '\t'.toUInt8 ∨ b = '\r'.toUInt8 ∨ b = '\x0c'.toUInt8) ↔
        isLinePadding c = true := by
      rw [hiff _ (by decide), hiff _ (by decide), hiff _ (by decide), hiff _ (by decide)]
      simp [isLinePadding, or_assoc]
    rw [trimPadding, if_pos (by omega), hsub, Option.bind_eq_bind, Option.bind_some, hb, Option.bind_eq_bind,
      Option.bind_some, htrim]
    by_cases hc : isLinePadding c = true
    · have hone : c.utf8Size = 1 := by
        simp only [isLinePadding, Bool.or_eq_true, decide_eq_true_eq] at hc
        rcases hc with ((rfl | rfl) | rfl) | rfl <;> decide
      rw [if_pos (hpadding.mpr hc), if_pos hc, if_pos (by omega), hone]
      exact ih h.left (by omega)
    · rw [if_neg (mt hpadding.mp hc), if_neg hc]

lemma contentKind_eq {l : LogicalLine} (h : BytesAt bytes l.start l.content) :
    contentKind bytes l.start l.span.stop = some l.kind := by
  unfold contentKind LogicalLine.kind LogicalLine.span Span.covering
  rcases hcontent : l.content with _ | ⟨c, cs⟩
  · simp
  · rw [hcontent] at h
    have hpos := byteLength_pos (List.cons_ne_nil c cs)
    have hlead := lead_eq_iff (c := c) (a := '#') (by decide)
    dsimp only
    rw [if_neg (by omega), h.lead, Option.bind_eq_bind, Option.bind_some]
    by_cases hc : c = '#'
    · rw [if_pos (hlead.mpr hc), hc]
      rfl
    · rw [if_neg (mt hlead.mp hc)]
      simp [hc]

end

/-! ## Lines -/

/-- A logical line as the loops over bytes find it. -/
def LogicalLine.raw (l : LogicalLine) : ByteLine :=
  ⟨l.indent, l.start, l.span.stop, l.lineEnd, l.row, l.kind⟩

section
variable {bytes : List UInt8} {pos row : Nat} {cs : List Char}

lemma scanLine_eq (h : BytesAt bytes pos cs) (hend : pos + byteLength cs = bytes.length) :
    scanLine bytes pos row = some ((LogicalLine.first pos row cs).raw,
      row + (LogicalLine.firstBody cs).count '\n' + 1) := by
  obtain ⟨first, hfirst⟩ : ∃ first, first = LogicalLine.first pos row cs := ⟨_, rfl⟩
  have hsplit : cs = cs.takeWhile isIndentation ++ cs.dropWhile isIndentation := List.takeWhile_append_dropWhile.symm
  have hstart : first.start = pos + byteLength (cs.takeWhile isIndentation) := hfirst ▸ LogicalLine.first_start pos row cs
  have hcontent : BytesAt bytes first.start (cs.dropWhile isIndentation) := by
    rw [hstart]
    exact BytesAt.right (hsplit ▸ h)
  have hlength : first.start + byteLength (cs.dropWhile isIndentation) = bytes.length := by
    rw [hstart, ← hend, Nat.add_assoc, ← byteLength_append, ← hsplit]
  have hparts := LineScan.splitLine_append .initial (measureIndent 0 cs).2
  rw [measureIndent_snd] at hparts
  have hbody : BytesAt bytes first.start (LogicalLine.firstBody cs) := by
    rw [LogicalLine.firstBody, measureIndent_snd]
    exact BytesAt.left (hparts.symm ▸ hcontent)
  have hle : first.start + byteLength (LogicalLine.firstBody cs) ≤ bytes.length := by
    rw [← hlength, ← hparts, byteLength_append, LogicalLine.firstBody, measureIndent_snd]
    omega
  have hindent := skipIndent_eq h hend 0
  have hscan : scanContent bytes first.start 0 none row =
      some (bodyEnds first.start row (LineScan.initial.splitLine (cs.dropWhile isIndentation))) :=
    scanContent_eq (show Context.code.Sound from trivial) (by simp) hcontent hlength
  have htrim : trimPadding bytes first.start (first.start + byteLength (LogicalLine.firstBody cs)) = some first.span.stop := by
    rw [trimPadding_eq hbody hle, hfirst]
    rfl
  have hkind : contentKind bytes first.start first.span.stop = some first.kind := by
    apply contentKind_eq
    obtain ⟨dropped, hdropped, -⟩ := trimEnd_split isLinePadding (LogicalLine.firstBody cs)
    have heq : first.content = trimEnd isLinePadding (LogicalLine.firstBody cs) := by rw [hfirst]; rfl
    rw [hdropped, ← heq] at hbody
    exact hbody.left
  have hends : bodyEnds first.start row (LineScan.initial.splitLine (cs.dropWhile isIndentation)) =
      (first.start + byteLength (LogicalLine.firstBody cs), first.lineEnd, row + (LogicalLine.firstBody cs).count '\n') := by
    rw [← measureIndent_snd 0 cs, hfirst]
    rfl
  rw [hends] at hscan
  rw [← hstart] at hindent
  unfold scanLine
  rw [hindent, Option.bind_eq_bind, Option.bind_some]
  dsimp only
  rw [hscan, Option.bind_eq_bind, Option.bind_some]
  dsimp only
  rw [htrim, Option.bind_eq_bind, Option.bind_some, hkind, Option.bind_eq_bind, Option.bind_some, hfirst]
  rfl

theorem scanLines_eq (h : BytesAt bytes pos cs) (hend : pos + byteLength cs = bytes.length) :
    scanLines bytes pos row = some ((LogicalLine.scanFrom pos row cs).map LogicalLine.raw) := by
  -- On the characters behind the first line.
  induction hn : cs.length using Nat.strong_induction_on generalizing pos row cs with
  | _ n ih =>
  by_cases hcs : cs = []
  · subst hcs
    rw [byteLength_nil, Nat.add_zero] at hend
    rw [scanLines, if_neg (by omega), LogicalLine.scanFrom]
    rfl
  · have hpos := byteLength_pos hcs
    have hsplit := LogicalLine.first_split cs
    have hne := List.length_pos_of_ne_nil (LogicalLine.first_ne_nil hcs)
    have hlt : ((LogicalLine.afterFirst cs).drop 1).length < n := by
      have hlength := congrArg List.length hsplit
      rw [List.length_append] at hlength
      omega
    have hlineEnd : (LogicalLine.first pos row cs).lineEnd = pos + byteLength
        (cs.takeWhile isIndentation ++ LogicalLine.firstBody cs ++ (LogicalLine.afterFirst cs).take 1) := by
      rw [LogicalLine.first_lineEnd, LogicalLine.first_start]
      simp only [byteLength_append, Nat.add_assoc]
    have hat : BytesAt bytes (LogicalLine.first pos row cs).lineEnd ((LogicalLine.afterFirst cs).drop 1) := by
      rw [hlineEnd]
      exact BytesAt.right (hsplit ▸ h)
    have hrest : (LogicalLine.first pos row cs).lineEnd + byteLength ((LogicalLine.afterFirst cs).drop 1) = bytes.length := by
      rw [hlineEnd, Nat.add_assoc, ← byteLength_append, ← hsplit, hend]
    rw [scanLines, if_pos (by omega), scanLine_eq h hend, Option.bind_eq_bind, Option.bind_some]
    dsimp only
    rw [LogicalLine.scanFrom_eq pos row hcs, List.map_cons]
    have htail : scanLines bytes (LogicalLine.first pos row cs).lineEnd (row + (LogicalLine.firstBody cs).count '\n' + 1) =
        some ((LogicalLine.scanFrom (LogicalLine.first pos row cs).lineEnd
          (row + (LogicalLine.firstBody cs ++ (LogicalLine.afterFirst cs).take 1).count '\n')
          ((LogicalLine.afterFirst cs).drop 1)).map LogicalLine.raw) := by
      rw [ih _ hlt hat hrest rfl]
      -- A line without its line feed is the last one, so the row behind it does not matter.
      rcases LogicalLine.take_afterFirst cs with hnil | hfeed
      · rw [LogicalLine.drop_afterFirst hnil, LogicalLine.scanFrom, LogicalLine.scanFrom]
      · rw [hfeed, List.count_append, Nat.add_assoc]
        rfl
    have hgo : pos < (LogicalLine.first pos row cs).raw.lineEnd := by
      change pos < (LogicalLine.first pos row cs).lineEnd
      rw [hlineEnd]
      exact Nat.lt_add_of_pos_right (byteLength_pos (LogicalLine.first_ne_nil hcs))
    rw [if_pos hgo]
    change (scanLines bytes (LogicalLine.first pos row cs).lineEnd _).bind _ = _
    rw [htail]
    rfl

end

/-- The loops over the bytes of a text stay in range and find its logical lines. -/
theorem byteScan_eq (cs : List Char) : byteScan cs = some ((LogicalLine.scan cs).map LogicalLine.raw) := by
  rw [byteScan]
  by_cases hhead : cs.head? = some '\ufeff'
  · obtain ⟨rest, rfl⟩ := List.head?_eq_some_iff.mp hhead
    have h : BytesAt (utf8 (['\ufeff'] ++ rest)) (0 + byteLength ['\ufeff']) rest := (bytesAt_utf8 _).right
    rw [if_pos hhead]
    exact scanLines_eq h (by simp [length_utf8])
  · have hscan : LogicalLine.scan cs = LogicalLine.scanFrom 0 0 cs := by
      unfold LogicalLine.scan
      split
      · exact absurd rfl hhead
      · rfl
    rw [if_neg hhead, hscan]
    exact scanLines_eq (bytesAt_utf8 cs) (by rw [length_utf8, Nat.zero_add])

end RenpyScript
