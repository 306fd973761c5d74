import RenpyScript.Checked.Lexer
import RenpyScript.Proofs.Checked.Scan
import RenpyScript.Proofs.Checked.Bytes
import RenpyScript.Proofs.Line.Reading

/-!
# The lexer reads the tokens of a line

A lexer that stands at a place of a line, up to blanks, finds the tokens that the readers find there, and none
of its slices fails. The loops over bytes stop at the byte where the token ends.
-/

namespace RenpyScript

namespace Unread

def StandsIn (text : List Char) (u : Unread) : Prop :=
  ∃ as bs, text = as ++ u.rest ++ bs ∧ u.pos = byteLength as

def lexer (text : List Char) (u : Unread) : Lexer :=
  ⟨text, u.pos, u.pos + byteLength u.rest⟩

section
variable {text : List Char} {u : Unread}

lemma skipBlanks_skipBlanks (u : Unread) : u.skipBlanks.skipBlanks = u.skipBlanks := by
  have hnone : u.skipBlanks.rest.takeWhile isBlank = [] := by
    rw [skipBlanks_rest, List.takeWhile_eq_nil_iff]
    intro hlength
    simpa using List.dropWhile_get_zero_not isBlank u.rest hlength
  rw [skipBlanks, hnone]
  simp [advance]

lemma advance_zero (u : Unread) : u.advance 0 = u := by
  simp [advance]

lemma advance_advance (u : Unread) (k l : Nat) : (u.advance k).advance l = u.advance (k + l) := by
  simp only [advance, List.drop_drop, Nat.add_assoc, ← byteLength_append, List.take_add]

lemma advance_rest_length (u : Unread) (k : Nat) :
    (u.advance k).pos + byteLength (u.advance k).rest = u.pos + byteLength u.rest := by
  rw [advance, Nat.add_assoc, ← byteLength_append, List.take_append_drop]

lemma StandsIn.advance (h : u.StandsIn text) (k : Nat) : (u.advance k).StandsIn text := by
  obtain ⟨as, bs, htext, hpos⟩ := h
  refine ⟨as ++ u.rest.take k, bs, ?_, ?_⟩
  · change text = as ++ u.rest.take k ++ u.rest.drop k ++ bs
    rw [htext, List.append_assoc as (u.rest.take k), List.take_append_drop]
  · rw [Unread.advance, hpos, byteLength_append]

lemma StandsIn.skipBlanks (h : u.StandsIn text) : u.skipBlanks.StandsIn text :=
  h.advance _

lemma lexer_advance (text : List Char) (u : Unread) (k : Nat) :
    (u.advance k).lexer text = { u.lexer text with pos := (u.advance k).pos } := by
  rw [lexer, advance_rest_length]
  rfl

lemma StandsIn.slice (h : u.StandsIn text) : slice text ⟨u.pos, u.pos + byteLength u.rest⟩ = some u.rest := by
  obtain ⟨as, bs, rfl, hpos⟩ := h
  rw [hpos, List.append_assoc]
  exact slice_append as u.rest bs

lemma StandsIn.slice_take (h : u.StandsIn text) (k : Nat) :
    RenpyScript.slice text ⟨u.pos, (u.advance k).pos⟩ = some (u.rest.take k) := by
  obtain ⟨as, bs, rfl, hpos⟩ := h
  rw [Unread.advance, hpos, List.append_assoc]
  nth_rewrite 1 [← List.take_append_drop k u.rest]
  rw [List.append_assoc]
  exact slice_append as (u.rest.take k) _

lemma StandsIn.rest? (h : u.StandsIn text) : (u.lexer text).rest? = some u.rest :=
  h.slice

end

end Unread

/-- The lexer stands at a place of a line, or somewhere in the blanks there. -/
def Lexer.At (x : Lexer) (text : List Char) (u : Unread) : Prop :=
  ∃ w : Unread, x = w.lexer text ∧ w.StandsIn text ∧ w.skipBlanks = u.skipBlanks

section
variable {text : List Char} {x : Lexer} {u v : Unread} {kind : Kind} {n : Node} {length : List Char → Nat}

lemma Unread.StandsIn.at (h : u.StandsIn text) : (u.lexer text).At text u :=
  ⟨u, rfl, h, rfl⟩

lemma Lexer.At.standsIn (h : x.At text u) : u.skipBlanks.StandsIn text := by
  obtain ⟨w, -, hw, hskip⟩ := h
  exact hskip ▸ hw.skipBlanks

lemma Lexer.At.text_eq (h : x.At text u) : x.text = text := by
  obtain ⟨w, rfl, -, -⟩ := h
  rfl

lemma Lexer.At.stop_eq (h : x.At text u) : x.stop = u.skipBlanks.pos + byteLength u.skipBlanks.rest := by
  obtain ⟨w, rfl, -, hskip⟩ := h
  rw [← hskip]
  exact (w.advance_rest_length _).symm

lemma Lexer.At.length_le (h : x.At text u) : u.rest.length ≤ x.stop := by
  have hlength := length_le_byteLength u.rest
  have hend : u.skipBlanks.pos + byteLength u.skipBlanks.rest = u.pos + byteLength u.rest := u.advance_rest_length _
  rw [h.stop_eq, hend]
  omega

lemma Unread.StandsIn.at_skipBlanks (h : u.skipBlanks.StandsIn text) : (u.skipBlanks.lexer text).At text u :=
  ⟨u.skipBlanks, rfl, h, u.skipBlanks_skipBlanks⟩

namespace Lexer

/-! ## White space and single bytes -/

lemma At.skipWhitespace (h : x.At text u) : x.skipWhitespace = some (u.skipBlanks.lexer text) := by
  obtain ⟨w, rfl, hw, hskip⟩ := h
  have hsplit : byteLength w.rest = byteLength (w.rest.takeWhile isBlank) + byteLength (w.rest.dropWhile isBlank) := by
    rw [← byteLength_append, List.takeWhile_append_dropWhile]
  have hrest := w.advance_rest_length (w.rest.takeWhile isBlank).length
  rw [Lexer.skipWhitespace, hw.rest?, Option.bind_eq_bind, Option.bind_some, checkedSub, if_pos (by omega),
    Option.bind_eq_bind, Option.bind_some, ← hskip, hsplit, Nat.add_sub_cancel, Unread.skipBlanks]
  unfold Unread.lexer
  rw [hrest, Unread.advance, take_length_takeWhile]
  rfl

lemma At.peek (h : x.At text u) : x.peek = some ((u.peek?.map lead), u.skipBlanks.lexer text) := by
  rw [Lexer.peek, h.skipWhitespace, Option.bind_eq_bind, Option.bind_some, h.standsIn.rest?, Option.bind_eq_bind,
    Option.bind_some, Unread.peek?]
  rcases u.skipBlanks.rest with _ | ⟨c, cs⟩
  · rfl
  · obtain ⟨more, heq⟩ := utf8EncodeChar_eq c
    rw [utf8_cons, heq]
    rfl

lemma peek?_eq_lead_iff {c : Char} (hc : c.val.toNat ≤ 127) : u.peek?.map lead = some c.toUInt8 ↔ u.peek? = some c := by
  rcases u.peek? with _ | d
  · simp
  · rw [Option.map_some, Option.some.injEq, Option.some.injEq]
    exact lead_eq_iff hc

lemma At.atLineEnd (h : x.At text u) : x.atLineEnd = some (u.atLineEnd, u.skipBlanks.lexer text) := by
  rw [Lexer.atLineEnd, h.peek, Option.bind_eq_bind, Option.bind_some]
  have hhash : u.peek?.map lead = some '#'.toUInt8 ↔ u.peek? = some '#' := peek?_eq_lead_iff (by decide)
  have hnone : u.peek?.map lead = none ↔ u.peek? = none := Option.map_eq_none_iff
  simp only [hhash, hnone, Unread.atLineEnd]
  rfl

/-- What a lexer gives where a reader reads a node or declines. -/
def outcome {α : Type} (value : Node → α) (text : List Char) (u : Unread) :
    Option (Node × Unread) → Option α × Lexer
  | none => (none, u.skipBlanks.lexer text)
  | some (n, v) => (some (value n), v.lexer text)

lemma At.eat (h : x.At text u) {c : Char} (hc : c.val.toNat ≤ 127) (kind : Kind) :
    x.eat c.toUInt8 = some (outcome (·.span.start) text u (u.char? c kind)) := by
  have hiff : u.peek?.map lead = some c.toUInt8 ↔ u.peek? = some c := peek?_eq_lead_iff hc
  rw [Lexer.eat, h.peek, Option.bind_eq_bind, Option.bind_some, Unread.char?, Unread.token?]
  dsimp only
  by_cases hpeek : u.peek? = some c
  · have hhead := hpeek
    rw [Unread.peek?] at hhead
    obtain ⟨cs, hrest⟩ := List.head?_eq_some_iff.mp hhead
    have hadvance : u.skipBlanks.advance 1 = ⟨u.skipBlanks.pos + 1, cs⟩ := by
      simp [Unread.advance, hrest, utf8Size_ascii hc]
    rw [if_pos (hiff.mpr hpeek), charLength, if_pos hhead, outcome, hadvance]
    unfold Unread.lexer Node.leaf Span.covering
    simp [hrest, utf8Size_ascii hc, Nat.add_assoc]
  · have hhead : ¬u.skipBlanks.rest.head? = some c := hpeek
    rw [if_neg (mt hiff.mp hpeek), charLength, if_neg hhead]
    rfl

/-! ## Tokens -/

lemma At.matched (h : x.At text u) (length : List Char → Nat) (kind : Kind) :
    x.matched length = some (outcome (·.span) text u (u.token? kind length)) := by
  rw [Lexer.matched, h.skipWhitespace, Option.bind_eq_bind, Option.bind_some, h.standsIn.rest?, Option.bind_eq_bind,
    Option.bind_some, Unread.token?]
  dsimp only
  rcases length u.skipBlanks.rest with _ | k
  · rfl
  · have hlength := u.skipBlanks.advance_rest_length (k + 1)
    simp only [outcome]
    unfold Unread.lexer
    rw [hlength]
    rfl

lemma head?_dropWhile_false {p : Char → Bool} {cs : List Char} {c : Char} (h : (cs.dropWhile p).head? = some c) :
    p c = false := by
  rw [← List.find?_not_eq_head?_dropWhile] at h
  simpa using List.find?_some h

lemma nameLength_eq_zero_iff {cs : List Char} : nameLength cs = 0 ↔ beginsName cs = false := by
  rcases cs with _ | ⟨c, cs⟩
  · simp [nameLength, beginsName]
  · by_cases hc : isNameStart c = true
    · have hpart : isNamePart c = true := by
        simp only [isNameStart, isNamePart, Bool.or_eq_true, decide_eq_true_eq, Char.isAlphanum] at hc ⊢
        tauto
      simp [nameLength, beginsName, hc, hpart]
    · simp [nameLength, beginsName, hc]

lemma dottedTailLength_split (cs : List Char) :
    dottedTailLength cs = (cs.takeWhile isNamePart).length + dottedTailLength (cs.dropWhile isNamePart) := by
  induction cs with
  | nil => rfl
  | cons c cs ih =>
    by_cases hc : isNamePart c = true
    · rw [dottedTailLength, if_pos (by simp [hc]), ih, List.takeWhile_cons, if_pos hc, List.dropWhile_cons, if_pos hc,
        List.length_cons]
      omega
    · rw [List.takeWhile_cons, if_neg hc, List.dropWhile_cons, if_neg hc, List.length_nil, Nat.zero_add]

lemma dottedTailLength_name {cs : List Char} (h : beginsName cs = true) :
    dottedTailLength cs = nameLength cs + dottedTailLength (cs.drop (nameLength cs)) := by
  rw [nameLength, if_pos h, drop_length_takeWhile]
  exact dottedTailLength_split cs

/-- Behind a name there is a dot and another name, or nothing more. -/
lemma dottedTailLength_behind {cs : List Char} (h : ∀ c, cs.head? = some c → isNamePart c = false) :
    dottedTailLength cs =
      if cs.head? = some '.' ∧ nameLength cs.tail ≠ 0 then
        1 + nameLength cs.tail + dottedTailLength (cs.drop (1 + nameLength cs.tail))
      else 0 := by
  rcases cs with _ | ⟨c, cs⟩
  · simp [dottedTailLength]
  · have hc := h c rfl
    rw [dottedTailLength, List.head?_cons, List.tail_cons, Nat.add_comm 1, List.drop_succ_cons]
    by_cases hname : beginsName cs = true
    · have hne : nameLength cs ≠ 0 := by
        rw [Ne, nameLength_eq_zero_iff, hname]
        simp
      by_cases hdot : c = '.'
      · rw [if_pos (by simp [hdot, hname]), if_pos ⟨by rw [hdot], hne⟩, dottedTailLength_name hname]
        omega
      · rw [if_neg (by simp [hc, hdot]), if_neg (by simp [hdot])]
    · have hzero : nameLength cs = 0 := by
        rw [nameLength_eq_zero_iff]
        simpa using hname
      rw [if_neg (by simp [hc, hname]), if_neg (by simp [hzero])]

lemma dottedTail_eq {w : Unread} (h : w.StandsIn text) (hhead : ∀ c, w.rest.head? = some c → isNamePart c = false) :
    (w.lexer text).dottedTail w.pos =
      some ((w.advance (dottedTailLength w.rest)).pos, (w.advance (dottedTailLength w.rest)).lexer text) := by
  -- A turn takes a dot and a whole name, so the induction is on the characters left.
  induction hn : w.rest.length using Nat.strong_induction_on generalizing w with
  | _ n ih =>
  rw [dottedTail, h.rest?, Option.bind_eq_bind, Option.bind_some, dottedTailLength_behind hhead]
  by_cases hdot : w.rest.head? = some '.'
  · obtain ⟨cs, hrest⟩ := List.head?_eq_some_iff.mp hdot
    have hbehind : w.advance 1 = ⟨w.pos + 1, cs⟩ := by
      simp [Unread.advance, hrest, utf8Size_ascii (show '.'.val.toNat ≤ 127 by decide)]
    have hstands : (w.advance 1).StandsIn text := h.advance 1
    have hlexer : ({ w.lexer text with pos := w.pos + 1 } : Lexer) = (w.advance 1).lexer text := by
      rw [w.lexer_advance, hbehind]
    have hadvance (k : Nat) : (w.advance (1 + k)).pos = w.pos + 1 + byteLength (cs.take k) := by
      rw [← w.advance_advance, hbehind]
      rfl
    rw [if_pos hdot, hrest, List.tail_cons]
    change ((({ w.lexer text with pos := w.pos + 1 } : Lexer).rest?).bind _) = _
    rw [hlexer, hstands.rest?, Option.bind_some, hbehind]
    dsimp only
    by_cases hzero : nameLength cs = 0
    · rw [if_pos hzero, if_neg (by simp [hzero]), w.advance_zero]
      rfl
    · have hname : beginsName cs = true := by
        rw [nameLength_eq_zero_iff] at hzero
        simpa using hzero
      have hleft : (w.advance (1 + nameLength cs)).rest = cs.drop (nameLength cs) := by
        rw [← w.advance_advance, hbehind]
        rfl
      have hhead' : ∀ c, (w.advance (1 + nameLength cs)).rest.head? = some c → isNamePart c = false := by
        rw [hleft, nameLength, if_pos hname, drop_length_takeWhile]
        exact fun c hc => head?_dropWhile_false hc
      have hlt : (w.advance (1 + nameLength cs)).rest.length < n := by
        rw [hleft, ← hn, hrest, List.length_drop, List.length_cons]
        omega
      have hih := ih _ hlt (h.advance _) hhead' rfl
      -- the check of the measure that the loop makes
      have hfewer : ((w.advance (1 + nameLength cs)).lexer text).left < (w.lexer text).left := by
        have hend := w.advance_rest_length (1 + nameLength cs)
        rw [hadvance] at hend
        simp only [Unread.lexer, Lexer.left, Nat.add_sub_cancel_left]
        omega
      rw [w.lexer_advance, hadvance] at hih hfewer
      rw [if_neg hzero]
      refine (if_pos hfewer).trans ?_
      rw [if_pos ⟨rfl, hzero⟩, Nat.add_comm 1, List.drop_succ_cons, Nat.add_comm (nameLength cs) 1,
        ← w.advance_advance, ← hleft]
      exact hih
  · rw [if_neg hdot, if_neg (fun h => hdot h.1), w.advance_zero]
    rfl

lemma textOf_token? (hu : u.skipBlanks.StandsIn text) (hx : x.text = text) (h : u.token? kind length = some (n, v)) :
    x.textOf n.span = some (String.ofList (u.skipBlanks.rest.take (length u.skipBlanks.rest))) := by
  obtain ⟨-, rfl, -⟩ := Unread.token?_eq_some_iff.mp h
  rw [textOf, hx]
  change (slice text ⟨u.skipBlanks.pos, (u.skipBlanks.advance _).pos⟩).bind _ = _
  rw [hu.slice_take]
  rfl

lemma At.dottedIdentifier (h : x.At text u) : x.dottedIdentifier = some (outcome (·.span) text u u.dottedName?) := by
  rw [Lexer.dottedIdentifier, Lexer.identifier, h.matched nameLength .identifier, Option.bind_eq_bind, Option.bind_some]
  have hzero := @nameLength_eq_zero_iff u.skipBlanks.rest
  by_cases hname : beginsName u.skipBlanks.rest = true
  · have hpos : 0 < nameLength u.skipBlanks.rest := by
      rw [Nat.pos_iff_ne_zero, Ne, hzero, hname]
      simp
    have hlength : 0 < dottedNameLength u.skipBlanks.rest := by
      rw [dottedNameLength, if_pos hname, dottedTailLength_name hname]
      omega
    have hread : u.token? .identifier nameLength = some _ := Unread.token?_eq_some_iff.mpr ⟨hpos, rfl, rfl⟩
    have hdotted : u.dottedName? = some _ := Unread.token?_eq_some_iff.mpr ⟨hlength, rfl, rfl⟩
    have htail := dottedTail_eq (h.standsIn.advance (nameLength u.skipBlanks.rest)) (by
      intro c hc
      simp only [Unread.advance, nameLength, if_pos hname, drop_length_takeWhile] at hc
      exact head?_dropWhile_false hc)
    have hsum : dottedNameLength u.skipBlanks.rest = nameLength u.skipBlanks.rest +
        dottedTailLength (u.skipBlanks.advance (nameLength u.skipBlanks.rest)).rest := by
      rw [dottedNameLength, if_pos hname]
      exact dottedTailLength_name hname
    rw [u.skipBlanks.advance_advance, ← hsum] at htail
    rw [hread, hdotted]
    change ((Unread.lexer text _).dottedTail (u.skipBlanks.advance (nameLength u.skipBlanks.rest)).pos).bind _ = _
    rw [htail]
    rfl
  · have hnone : u.token? .identifier nameLength = none := by
      rw [Unread.token?, hzero.mpr (by simpa using hname)]
    have hnone' : u.dottedName? = none := by
      rw [Unread.dottedName?, Unread.token?, dottedNameLength, if_neg hname]
    rw [hnone, hnone']
    rfl

/-! ## Words -/

lemma ofWord?_eq_some_iff {w : String} {k : Keyword} : Keyword.ofWord? w = some k ↔ w = k.word := by
  constructor
  · intro h
    have hword := List.find?_some h
    simpa [eq_comm] using hword
  · rintro rfl
    exact Keyword.ofWord?_word k

lemma token?_eq_none_iff : u.token? kind length = none ↔ length u.skipBlanks.rest = 0 := by
  rw [Unread.token?]
  split
  · next h => simp [h]
  · next h => simp [h]

lemma At.peekWord (h : x.At text u) : ∃ word, x.peekWord = some (word, x) ∧ word.bind Keyword.ofWord? = u.peekKeyword? := by
  rw [Lexer.peekWord, Lexer.identifier, h.matched nameLength .identifier, Option.bind_eq_bind, Option.bind_some]
  rcases hread : u.token? .identifier nameLength with _ | ⟨n, v⟩
  · refine ⟨none, rfl, ?_⟩
    rw [token?_eq_none_iff] at hread
    rw [Unread.peekKeyword?, hread, List.take_zero]
    decide
  · have htext := textOf_token? h.standsIn h.text_eq hread
    refine ⟨some (String.ofList (u.skipBlanks.rest.take (nameLength u.skipBlanks.rest))), ?_, rfl⟩
    change (x.textOf n.span).bind _ = _
    rw [htext]
    rfl

lemma At.back (h : x.At text u) {v : Unread} (hv : u.skipBlanks.pos + byteLength u.skipBlanks.rest = v.pos + byteLength v.rest) :
    ({ v.lexer text with pos := x.pos } : Lexer) = x := by
  obtain ⟨w, rfl, -, hskip⟩ := h
  rw [← hskip, Unread.skipBlanks, w.advance_rest_length] at hv
  unfold Unread.lexer
  rw [hv]

lemma At.keyword (h : x.At text u) (k : Keyword) :
    x.keyword k.word = some
      (match u.keyword? (· = k) with
      | none => (none, x)
      | some (n, v) => (some n.span, v.lexer text)) := by
  rw [Lexer.keyword, Lexer.identifier, h.matched nameLength .identifier, Option.bind_eq_bind, Option.bind_some]
  rcases hread : u.token? .identifier nameLength with _ | ⟨n, v⟩
  · have hback := h.back rfl
    rw [token?_eq_none_iff] at hread
    have hnone : u.keyword? (· = k) = none := by
      rw [Unread.keyword?, Unread.peekKeyword?, hread, List.take_zero]
      rfl
    rw [hnone]
    change some (none, ({ u.skipBlanks.lexer text with pos := x.pos } : Lexer)) = _
    rw [hback]
  · have htext := textOf_token? h.standsIn h.text_eq hread
    obtain ⟨hpos, rfl, rfl⟩ := Unread.token?_eq_some_iff.mp hread
    have hback := h.back (u.skipBlanks.advance_rest_length (nameLength u.skipBlanks.rest)).symm
    have hword := ofWord?_eq_some_iff (w := String.ofList (u.skipBlanks.rest.take (nameLength u.skipBlanks.rest))) (k := k)
    change (x.textOf _).bind _ = _
    rw [htext, Option.bind_some]
    by_cases hk : String.ofList (u.skipBlanks.rest.take (nameLength u.skipBlanks.rest)) = k.word
    · have hpeek : u.peekKeyword? = some k := hword.mpr hk
      have hsome : u.token? (.keyword k) nameLength = some _ := Unread.token?_eq_some_iff.mpr ⟨hpos, rfl, rfl⟩
      rw [if_pos hk, Unread.keyword?, hpeek]
      dsimp only
      rw [if_pos (by simp), hsome]
      rfl
    · have hnone : u.keyword? (· = k) = none := by
        rw [Unread.keyword?]
        split
        · next k' hk' =>
          have hne : ¬k' = k := fun heq => hk (hword.mp (heq ▸ hk'))
          rw [if_neg (by simpa using hne)]
        · rfl
      rw [if_neg hk, hnone, Option.pure_def, hback]

/-! ## Text without its end -/

lemma slice_take (cs : List Char) (k : Nat) : slice cs ⟨0, byteLength (cs.take k)⟩ = some (cs.take k) := by
  have happend := slice_append [] (cs.take k) (cs.drop k)
  rwa [List.nil_append, List.take_append_drop, byteLength_nil, Span.covering, Nat.zero_add] at happend

lemma takeTrimmed_eq {w : Unread} (h : w.StandsIn text) (k : Nat) :
    (w.lexer text).takeTrimmed (byteLength (w.rest.take k)) =
      some (if (trimEnd isBlank (w.rest.take k)).isEmpty then none
        else some (.covering w.pos (trimEnd isBlank (w.rest.take k))), (w.advance k).lexer text) := by
  have hlexer := w.lexer_advance text k
  rw [takeTrimmed, h.rest?, Option.bind_eq_bind, Option.bind_some, slice_take, Option.bind_some, hlexer]
  dsimp only
  by_cases hempty : (trimEnd isBlank (w.rest.take k)).isEmpty = true
  · rw [if_pos hempty, if_pos hempty]
    rfl
  · rw [if_neg hempty, if_neg hempty]
    rfl

lemma length_eq_zero_of_tokenText {trim : Char → Bool} (htrim : ∀ c, trim c = true → isBlank c = true)
    (hlength : length [] = 0) (h : u.tokenText length trim = []) : length u.skipBlanks.rest = 0 := by
  rcases hrest : u.skipBlanks.rest with _ | ⟨c, cs⟩
  · exact hlength
  · by_contra hne
    obtain ⟨k, hk⟩ := Nat.exists_eq_succ_of_ne_zero hne
    have hblank : isBlank c = false := by
      apply @head?_dropWhile_false isBlank u.rest
      rw [← Unread.skipBlanks_rest, hrest]
      rfl
    have hc : trim c = false := by
      by_contra hc
      rw [Bool.not_eq_false] at hc
      rw [htrim c hc] at hblank
      cases hblank
    rw [Unread.tokenText, hrest, hk, List.take_succ_cons, trimEnd_cons hc] at h
    cases h

/-- What is read of a token whose end is trimmed, as the lexer finds it. -/
lemma outcome_trimmedToken? {trim : Char → Bool} (htrim : ∀ c, trim c = true → isBlank c = true)
    (hlength : length [] = 0) (text : List Char) (u : Unread) (kind : Kind) :
    outcome (·.span) text u (u.trimmedToken? kind length trim) =
      (if (u.tokenText length trim).isEmpty then none else some (.covering u.skipBlanks.pos (u.tokenText length trim)),
        (u.skipBlanks.advance (length u.skipBlanks.rest)).lexer text) := by
  unfold Unread.trimmedToken?
  by_cases ht : u.tokenText length trim = []
  · rw [length_eq_zero_of_tokenText htrim hlength ht, Unread.advance_zero, ht]
    rfl
  · have hfalse : (u.tokenText length trim).isEmpty = false := by simpa using ht
    dsimp only
    rw [hfalse]
    rfl

lemma At.comment (h : x.At text u) : x.comment = some (outcome (·.span) text u u.comment?) := by
  have hhash : u.peek?.map lead = some '#'.toUInt8 ↔ u.peek? = some '#' := peek?_eq_lead_iff (by decide)
  have houtcome := @outcome_trimmedToken? commentLength (· = '\r')
    (fun c hc => by simp_all [isBlank]) (by simp [commentLength]) text u .comment
  rw [Lexer.comment, h.peek, Option.bind_eq_bind, Option.bind_some, Unread.comment?, houtcome]
  dsimp only
  by_cases hpeek : u.peek? = some '#'
  · have hhead : u.skipBlanks.rest.head? = some '#' := hpeek
    have hlength : commentLength u.skipBlanks.rest = (u.skipBlanks.rest.takeWhile (· ≠ '\n')).length := by
      rw [commentLength, if_pos hhead]
    have htake : u.skipBlanks.rest.takeWhile (· ≠ '\n') = u.skipBlanks.rest.take (commentLength u.skipBlanks.rest) := by
      rw [hlength, take_length_takeWhile]
    have hnonempty : u.tokenText commentLength (· = '\r') ≠ [] := by
      intro hnil
      have hzero := length_eq_zero_of_tokenText (fun c hc => by simp_all [isBlank]) (by simp [commentLength]) hnil
      obtain ⟨cs, hrest⟩ := List.head?_eq_some_iff.mp hhead
      simp [commentLength, hrest] at hzero
    have hlexer := u.skipBlanks.lexer_advance text (commentLength u.skipBlanks.rest)
    rw [if_pos (hhash.mpr hpeek), h.standsIn.rest?, Option.bind_eq_bind, Option.bind_some, htake, slice_take,
      Option.bind_some, if_neg (by simpa using hnonempty), hlexer]
    rfl
  · have hzero : commentLength u.skipBlanks.rest = 0 := by
      rw [commentLength, if_neg (show ¬u.skipBlanks.rest.head? = some '#' from hpeek)]
    rw [if_neg (mt hhash.mp hpeek), hzero, Unread.advance_zero, Unread.tokenText, hzero]
    rfl

/-! ## Expressions and runs of Python -/

section
variable {bytes : List UInt8} {i : Nat} {c : Char} {cs : List Char}

lemma expressionLength_code (c : Char) (cs : List Char) :
    expressionLength none (c :: cs) =
      if c = '#' then 0 else expressionLength (if isQuote c then some c else none) cs + 1 := by
  cases cs with
  | nil => simp [expressionLength]
  | cons d cs => simp [expressionLength]

lemma expressionLength_quoted (q c : Char) (cs : List Char) :
    expressionLength (some q) (c :: cs) =
      if c = '\\' then expressionLength (some q) (cs.drop 1) + (cs.take 1).length + 1
      else expressionLength (if c = q then none else some q) cs + 1 := by
  cases cs with
  | nil => simp [expressionLength]
  | cons d cs => simp [expressionLength]

def SoundQuote (quote : Option Char) : Prop :=
  ∀ q, quote = some q → isQuote q = true

lemma soundQuote_opening (c : Char) : SoundQuote (if isQuote c then some c else none) := by
  intro q hq
  split at hq
  · next hc =>
    cases hq
    exact hc
  · cases hq

lemma soundQuote_closing {q : Char} (hq : isQuote q = true) (c : Char) : SoundQuote (if c = q then none else some q) := by
  intro r hr
  split at hr
  · cases hr
  · cases hr
    exact hq

lemma expressionStop_end (h : bytes.length ≤ i) (quote : Option UInt8) : expressionStop bytes i quote = some i := by
  rw [expressionStop, if_neg (by omega)]

lemma expressionStop_high {quote : Option Char} (hquote : SoundQuote quote) {b : UInt8} (hb : bytes[i]? = some b)
    (hhigh : 128 ≤ b.toNat) :
    expressionStop bytes i (quote.map Char.toUInt8) = expressionStop bytes (i + 1) (quote.map Char.toUInt8) := by
  have hne (a : Char) (ha : a.val.toNat ≤ 127) : b ≠ a.toUInt8 := ne_of_high hhigh ha
  have hlt : i < bytes.length := (List.getElem?_eq_some_iff.mp hb).1
  rw [expressionStop, if_pos hlt, hb, Option.bind_eq_bind, Option.bind_some]
  cases quote with
  | none => simp [hne]
  | some q => simp [hne, hne q (isQuote_ascii (hquote q rfl))]

lemma expressionStop_land {quote : Option Char} (hquote : SoundQuote quote) (h : BytesAt bytes i cs)
    (hend : i + byteLength cs = bytes.length) :
    (expressionStop bytes (i + 1) (quote.map Char.toUInt8)).map (min · bytes.length) =
      (expressionStop bytes (i + byteLength (cs.take 1)) (quote.map Char.toUInt8)).map (min · bytes.length) := by
  cases cs with
  | nil =>
    rw [byteLength_nil, Nat.add_zero] at hend
    rw [expressionStop_end (by omega), expressionStop_end (by simp; omega)]
    simp [hend]
  | cons c cs =>
    have hsize := Char.utf8Size_pos c
    have hland := h.leave (fun j => expressionStop bytes j (quote.map Char.toUInt8))
      (fun j b hb hhigh _ _ => expressionStop_high hquote hb hhigh) (Nat.le_refl 1) hsize
    simpa using congrArg (Option.map (min · bytes.length)) hland

lemma expressionStop_code (h : BytesAt bytes i (c :: cs)) : expressionStop bytes i none =
    if c = '#' then some i
    else expressionStop bytes (i + 1) ((if isQuote c then some c else none).map Char.toUInt8) := by
  have hlead (a : Char) (ha : a.val.toNat ≤ 127) : lead c = a.toUInt8 ↔ c = a := lead_eq_iff ha
  have hquote : lead c = '"'.toUInt8 ∨ lead c = '\''.toUInt8 ↔ isQuote c = true := by
    rw [hlead _ (by decide), hlead _ (by decide)]
    simp [isQuote]
  rw [expressionStop, if_pos h.lt_length, h.lead, Option.bind_eq_bind, Option.bind_some]
  by_cases hq : isQuote c = true
  · have hc : c ≠ '#' := by
      rintro rfl
      exact absurd hq (by decide)
    dsimp only
    rw [if_pos (hquote.mpr hq), if_neg hc, if_pos hq, (hlead c (isQuote_ascii hq)).mpr rfl]
    rfl
  · dsimp only
    rw [if_neg (mt hquote.mp hq), if_neg hq]
    by_cases hc : c = '#'
    · rw [if_pos ((hlead '#' (by decide)).mpr hc), if_pos hc]
    · rw [if_neg (mt (hlead '#' (by decide)).mp hc), if_neg hc]
      rfl

lemma expressionStop_quoted {q : Char} (hq : isQuote q = true) (h : BytesAt bytes i (c :: cs)) :
    expressionStop bytes i (some q.toUInt8) =
      if c = '\\' then expressionStop bytes (i + 2) (some q.toUInt8)
      else expressionStop bytes (i + 1) ((if c = q then none else some q).map Char.toUInt8) := by
  have hbackslash : lead c = '\\'.toUInt8 ↔ c = '\\' := lead_eq_iff (by decide)
  have hclose : lead c = q.toUInt8 ↔ c = q := lead_eq_iff (isQuote_ascii hq)
  rw [expressionStop, if_pos h.lt_length, h.lead, Option.bind_eq_bind, Option.bind_some]
  dsimp only
  simp only [hbackslash, hclose]
  split
  · rfl
  · split <;> rfl

/-- The loop over an expression stops where the expression ends. -/
lemma expressionStop_eq {quote : Option Char} (hquote : SoundQuote quote) (h : BytesAt bytes i cs)
    (hend : i + byteLength cs = bytes.length) :
    (expressionStop bytes i (quote.map Char.toUInt8)).map (min · bytes.length) =
      some (i + byteLength (cs.take (expressionLength quote cs))) := by
  -- An escape takes two characters at once, so the induction is on how many are left.
  induction hn : cs.length using Nat.strong_induction_on generalizing quote i cs with
  | _ n ih =>
  cases cs with
  | nil =>
    rw [byteLength_nil, Nat.add_zero] at hend
    rw [expressionStop_end (by omega)]
    simp [hend]
  | cons c cs =>
    have hpast {quote : Option Char} (hquote : SoundQuote quote) {k : Nat} (hk : 0 < k) :
        (expressionStop bytes (i + byteLength ((c :: cs).take k)) (quote.map Char.toUInt8)).map (min · bytes.length) =
          some (i + byteLength ((c :: cs).take (k + expressionLength quote ((c :: cs).drop k)))) := by
      have hsplit : byteLength (c :: cs) = byteLength ((c :: cs).take k) + byteLength ((c :: cs).drop k) := by
        rw [← byteLength_append, List.take_append_drop]
      have hat : BytesAt bytes (i + byteLength ((c :: cs).take k)) ((c :: cs).drop k) :=
        BytesAt.right (by rwa [List.take_append_drop])
      have hlt : ((c :: cs).drop k).length < n := by
        rw [← hn, List.length_drop, List.length_cons]
        omega
      rw [ih _ hlt hquote hat (by rw [← hend, hsplit, Nat.add_assoc]) rfl, Nat.add_assoc, ← byteLength_append,
        ← List.take_add]
    have hnext {quote : Option Char} (hquote : SoundQuote quote) :
        (expressionStop bytes (i + 1) (quote.map Char.toUInt8)).map (min · bytes.length) =
          some (i + byteLength ((c :: cs).take (expressionLength quote cs + 1))) := by
      rw [expressionStop_land hquote h hend, hpast hquote Nat.one_pos, Nat.add_comm 1]
      rfl
    cases quote with
    | none =>
      rw [Option.map_none, expressionStop_code h, expressionLength_code]
      split
      · have hlt := h.lt_length
        simp
        omega
      · exact hnext (soundQuote_opening c)
    | some q =>
      have hq := hquote q rfl
      rw [Option.map_some, expressionStop_quoted hq h, expressionLength_quoted]
      split
      · next hc =>
        subst hc
        have hsize : ('\\').utf8Size = 1 := utf8Size_ascii (by decide)
        have hland := expressionStop_land hquote (h.tail_ascii (by decide))
          (by rw [← hend, byteLength_cons, hsize, Nat.add_assoc])
        -- The two bytes of the escape may end inside a character; the loop leaves it.
        have hpair : i + 1 + byteLength (cs.take 1) = i + byteLength (('\\' :: cs).take 2) := by
          rw [List.take_succ_cons, byteLength_cons, hsize, Nat.add_assoc]
        have htake : ('\\' :: cs).take (expressionLength (some q) (cs.drop 1) + (cs.take 1).length + 1) =
            ('\\' :: cs).take (2 + expressionLength (some q) (('\\' :: cs).drop 2)) := by
          rw [Nat.add_comm 2]
          cases cs with
          | nil => simp
          | cons d cs => simp
        rw [htake, ← hpast hquote Nat.two_pos, ← hpair]
        exact hland
      · exact hnext (soundQuote_closing hq c)

lemma pythonRunStop_cons (h : BytesAt bytes i (c :: cs)) (inSingle : Bool) : pythonRunStop bytes i inSingle =
    if c = '\'' then pythonRunStop bytes (i + 1) (!inSingle)
    else if c = '"' ∨ c = '\\' then some i
    else if c = '#' ∧ inSingle = false then some i
    else pythonRunStop bytes (i + 1) (if c = '\n' then false else inSingle) := by
  have hlead (a : Char) (ha : a.val.toNat ≤ 127) : lead c = a.toUInt8 ↔ c = a := lead_eq_iff ha
  rw [pythonRunStop, if_pos h.lt_length, h.lead, Option.bind_eq_bind, Option.bind_some]
  simp only [hlead '\'' (by decide), hlead '"' (by decide), hlead '\\' (by decide), hlead '#' (by decide),
    hlead '\n' (by decide)]

lemma pythonRunStop_high {b : UInt8} (hb : bytes[i]? = some b) (hhigh : 128 ≤ b.toNat) (inSingle : Bool) :
    pythonRunStop bytes i inSingle = pythonRunStop bytes (i + 1) inSingle := by
  have hne (a : Char) (ha : a.val.toNat ≤ 127) : b ≠ a.toUInt8 := ne_of_high hhigh ha
  have hlt : i < bytes.length := (List.getElem?_eq_some_iff.mp hb).1
  rw [pythonRunStop, if_pos hlt, hb, Option.bind_eq_bind, Option.bind_some]
  simp [hne]

/-- The loop over a run of Python stops where the run ends. -/
lemma pythonRunStop_eq (h : BytesAt bytes i cs) (hend : i + byteLength cs = bytes.length) (inSingle : Bool) :
    pythonRunStop bytes i inSingle = some (i + byteLength (cs.take (pythonRunLength inSingle cs))) := by
  induction cs generalizing i inSingle with
  | nil =>
    rw [byteLength_nil, Nat.add_zero] at hend
    rw [pythonRunStop, if_neg (by omega)]
    rfl
  | cons c cs ih =>
    have hnext (inSingle : Bool) : pythonRunStop bytes (i + 1) inSingle =
        some (i + byteLength ((c :: cs).take (pythonRunLength inSingle cs + 1))) := by
      have hland := h.leave (fun j => pythonRunStop bytes j inSingle)
        (fun j b hb hhigh _ _ => pythonRunStop_high hb hhigh inSingle) (Nat.le_refl 1) (Char.utf8Size_pos c)
      rw [hland, ih h.tail (by rw [← hend, byteLength_cons, Nat.add_assoc]), List.take_succ_cons, byteLength_cons,
        Nat.add_assoc]
    rw [pythonRunStop_cons h, pythonRunLength]
    by_cases hsingle : c = '\''
    · subst hsingle
      rw [if_pos rfl, if_neg (by simp)]
      exact hnext _
    rw [if_neg hsingle]
    by_cases hquote : c = '"' ∨ c = '\\'
    · rw [if_pos hquote, if_pos (by rcases hquote with rfl | rfl <;> simp)]
      simp
    rw [if_neg hquote]
    by_cases hhash : c = '#' ∧ inSingle = false
    · rw [if_pos hhash, if_pos (by simp [hhash])]
      simp
    have hgo : ¬(decide (c = '"') || decide (c = '\\') || decide (c = '#') && !inSingle) = true := by
      simp only [not_or, not_and, Bool.not_eq_false] at hquote hhash
      simpa [hquote] using hhash
    rw [if_neg hhash, if_neg hgo, if_neg hsingle]
    split <;> exact hnext _

end

lemma At.restOfLine (h : x.At text u) (kind : Kind) :
    x.restOfLine = some (outcome (·.span) text u (u.expression? kind)) := by
  have houtcome := @outcome_trimmedToken? (expressionLength none) isBlank (fun _ hc => hc) rfl text u kind
  have hstop := expressionStop_eq (show SoundQuote none from fun q hq => by cases hq) (bytesAt_utf8 u.skipBlanks.rest)
    (by rw [length_utf8, Nat.zero_add])
  rw [Nat.zero_add] at hstop
  obtain ⟨j, hj, hmin⟩ := Option.map_eq_some_iff.mp hstop
  rw [Lexer.restOfLine, h.skipWhitespace, Option.bind_eq_bind, Option.bind_some, h.standsIn.rest?, Option.bind_eq_bind,
    Option.bind_some, show expressionStop _ 0 none = some j from hj, Option.bind_eq_bind, Option.bind_some, hmin, takeTrimmed_eq h.standsIn,
    Unread.expression?, houtcome]
  rfl

lemma At.pythonRun (h : x.At text u) : x.pythonRun = some (outcome (·.span) text u u.pythonRun?) := by
  have houtcome := @outcome_trimmedToken? (pythonRunLength false) isBlank (fun _ hc => hc) rfl text u
    .pythonExpression
  have hstop := pythonRunStop_eq (bytesAt_utf8 u.skipBlanks.rest) (by rw [length_utf8, Nat.zero_add]) false
  rw [Nat.zero_add] at hstop
  rw [Lexer.pythonRun, h.skipWhitespace, Option.bind_eq_bind, Option.bind_some, h.standsIn.rest?, Option.bind_eq_bind,
    Option.bind_some, hstop, Option.bind_eq_bind, Option.bind_some, takeTrimmed_eq h.standsIn, Unread.pythonRun?, houtcome]
  rfl

end Lexer

end

end RenpyScript
