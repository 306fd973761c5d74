import RenpyScript.Proofs.Checked.Runs
import RenpyScript.Proofs.Line.Quoted

/-!
# Strings and arguments step by step

A string is read byte by byte. Two bytes are passed over at a backslash, so the loop may be inside a character
then; the bytes there are not ASCII and it leaves the character again.
-/

namespace RenpyScript

lemma Unread.StandsIn.bytesAt {text : List Char} {v : Unread} (h : v.StandsIn text) : BytesAt (utf8 text) v.pos v.rest := by
  obtain ⟨as, bs, rfl, hpos⟩ := h
  rw [hpos, List.append_assoc]
  exact bytesAt_append as v.rest bs

lemma Unread.StandsIn.le_length {text : List Char} {v : Unread} (h : v.StandsIn text) :
    v.pos + byteLength v.rest ≤ (utf8 text).length := by
  obtain ⟨as, bs, rfl, hpos⟩ := h
  rw [length_utf8, byteLength_append, byteLength_append, hpos]
  omega

namespace LineReader

/-! ## Bytes of a string -/

lemma closes_of_ne {d : Delimiter} {c : Char} (hc : c ≠ d.quote) (cs : List Char) : d.closes (c :: cs) = false := by
  cases htripled : d.tripled <;>
    simp [Delimiter.closes, Delimiter.length, htripled, beginsWithCopies, List.replicate_succ, hc]

/-- What the first of some characters does inside a string. -/
def stringStep (d : Delimiter) (i stop : Nat) (c : Char) (cs : List Char) : StringStep :=
  if c = '\\' then
    if cs.head?.any isEscapable then .go (some .escapeSequence) (i + 2) else .go none (min (i + 2) stop)
  else if (c = '[' ∨ c = '\x7b') ∧ cs.head? = some c then .go (some .escapeInterpolation) (i + 2)
  else if d.closes (c :: cs) then .done true
  else if c = '\n' ∧ d.tripled = false then .done false
  else .go none (i + 1)

section
variable {bytes : List UInt8} {i stop : Nat} {c : Char} {cs : List Char} {d : Delimiter}

lemma lead_mem_escapable : lead c ∈ escapable ↔ isEscapable c = true := by
  have hiff : isEscapable c = true ↔ c ∈ ['\'', '"', '%', '\\', 'n', 't', '[', '\x7b', ' '] := by
    simp [isEscapable, or_assoc]
  have hascii : ∀ a ∈ ['\'', '"', '%', '\\', 'n', 't', '[', '\x7b', ' '], a.val.toNat ≤ 127 := by simp
  rw [hiff, escapable, List.mem_map]
  constructor
  · rintro ⟨a, ha, heq⟩
    rwa [(lead_eq_iff (hascii a ha)).mp heq.symm]
  · intro hc
    exact ⟨c, hc, ((lead_eq_iff (hascii c hc)).mpr rfl).symm⟩

lemma byteBehind_eq (h : BytesAt bytes i (c :: cs)) (hstop : i + byteLength (c :: cs) = stop)
    (hc : c.utf8Size = 1) : byteBehind bytes stop i = some (cs.head?.map lead) := by
  rw [byteLength_cons, hc] at hstop
  have htail := h.tail
  rw [hc] at htail
  cases cs with
  | nil =>
    rw [byteLength_nil] at hstop
    rw [byteBehind, if_neg (by omega)]
    rfl
  | cons e cs =>
    have hpos := Char.utf8Size_pos e
    rw [byteLength_cons] at hstop
    rw [byteBehind, if_pos (by omega), htail.lead]
    rfl

lemma byteBehind_isSome (i : Nat) (hle : stop ≤ bytes.length) : ∃ behind, byteBehind bytes stop i = some behind := by
  unfold byteBehind
  split
  · next hlt => exact ⟨_, by rw [List.getElem?_eq_getElem (by omega)]; rfl⟩
  · exact ⟨none, rfl⟩

lemma endsString_eq (h : BytesAt bytes i (c :: cs)) (hstop : i + byteLength (c :: cs) = stop) (hle : stop ≤ bytes.length)
    (hq : isQuote d.quote = true) :
    endsString bytes stop d.quote.toUInt8 d.tripled i (lead c) = some (d.closes (c :: cs)) := by
  have hascii := isQuote_ascii hq
  unfold endsString
  by_cases hc : c = d.quote
  · rw [if_pos ((lead_eq_iff hascii).mpr hc)]
    cases htripled : d.tripled with
    | true =>
      rw [if_pos rfl, h.copies hstop hle 3 hascii]
      simp [Delimiter.closes, Delimiter.length, htripled, beginsWithCopies]
    | false => simp [Delimiter.closes, Delimiter.length, htripled, beginsWithCopies, hc]
  · rw [if_neg (mt (lead_eq_iff hascii).mp hc)]
    rw [closes_of_ne hc]

/-- A byte in a string does what the character does that begins with it. -/
lemma stringByte_eq (h : BytesAt bytes i (c :: cs)) (hstop : i + byteLength (c :: cs) = stop) (hle : stop ≤ bytes.length)
    (hq : isQuote d.quote = true) :
    stringByte bytes stop d.quote.toUInt8 d.tripled i = some (stringStep d i stop c cs) := by
  have hlead {a : Char} (ha : a.val.toNat ≤ 127) : lead c = a.toUInt8 ↔ c = a := lead_eq_iff ha
  have hbehind_of {a : Char} (ha : a.val.toNat ≤ 127) (hc : c = a) :
      byteBehind bytes stop i = some (cs.head?.map lead) := byteBehind_eq h hstop (hc ▸ utf8Size_ascii ha)
  -- The byte behind tells the next character only if this one is ASCII, as it is wherever the loop looks at it.
  obtain ⟨behind, hbehind⟩ := byteBehind_isSome i hle
  unfold stringByte stringStep
  rw [h.lead, Option.bind_eq_bind, Option.bind_some, hbehind, Option.bind_eq_bind, Option.bind_some,
    endsString_eq h hstop hle hq]
  by_cases hbackslash : c = '\\'
  · have heq := Option.some.inj (hbehind.symm.trans (hbehind_of (a := '\\') (by decide) hbackslash))
    have hany : behind.any (· ∈ escapable) = cs.head?.any isEscapable := by
      rw [heq, Option.any_map]
      congr 1
      funext e
      simp [lead_mem_escapable]
    rw [if_pos ((hlead (by decide)).mpr hbackslash), if_pos hbackslash, hany]
    split <;> rfl
  rw [if_neg (mt (hlead (by decide)).mp hbackslash), if_neg hbackslash]
  have hbracket : (lead c = '['.toUInt8 ∨ lead c = '\x7b'.toUInt8) ∧ behind = some (lead c) ↔
      (c = '[' ∨ c = '\x7b') ∧ cs.head? = some c := by
    rw [hlead (by decide), hlead (by decide)]
    refine and_congr_right fun hc => ?_
    have hascii : c.val.toNat ≤ 127 := by rcases hc with rfl | rfl <;> decide
    have heq := Option.some.inj (hbehind.symm.trans (hbehind_of hascii rfl))
    have hself : lead c = c.toUInt8 := (lead_eq_iff hascii).mpr rfl
    rw [heq, hself]
    rcases cs.head? with _ | e
    · simp
    · rw [Option.map_some, Option.some.injEq, Option.some.injEq, lead_eq_iff hascii]
  by_cases hdouble : (c = '[' ∨ c = '\x7b') ∧ cs.head? = some c
  · rw [if_pos (hbracket.mpr hdouble), if_pos hdouble]
    rfl
  have hfeed : lead c = '\n'.toUInt8 ↔ c = '\n' := hlead (by decide)
  rw [if_neg (mt hbracket.mp hdouble), if_neg hdouble, Option.bind_eq_bind, Option.bind_some]
  simp only [hfeed]
  split
  · rfl
  · split <;> rfl

lemma stringBody_high (hle : stop ≤ bytes.length) (hq : isQuote d.quote = true) {b : UInt8} (hb : bytes[i]? = some b)
    (hhigh : 128 ≤ b.toNat) (hlt : i < stop) : stringBody bytes stop d.quote.toUInt8 d.tripled i =
      stringBody bytes stop d.quote.toUInt8 d.tripled (i + 1) := by
  have hne (a : Char) (ha : a.val.toNat ≤ 127) : b ≠ a.toUInt8 := ne_of_high hhigh ha
  obtain ⟨behind, hbehind⟩ := byteBehind_isSome i hle
  have hstep : stringByte bytes stop d.quote.toUInt8 d.tripled i = some (.go none (i + 1)) := by
    rw [stringByte, hb, Option.bind_eq_bind, Option.bind_some, hbehind, Option.bind_eq_bind, Option.bind_some,
      if_neg (hne '\\' (by decide)), if_neg (by simp [hne '[' (by decide), hne '\x7b' (by decide)]), endsString,
      if_neg (hne _ (isQuote_ascii hq))]
    simp [hne '\n' (by decide)]
  have hgo : i < i + 1 := Nat.lt_succ_self i
  conv_lhs => rw [stringBody, if_neg (by omega), hstep]
  have hlift : ∀ g : StringStep → LineReader (List Child × Nat × Bool), (lift (some (.go none (i + 1))) >>= g) =
      g (.go none (i + 1)) := by
    intro g
    funext s
    rw [bind_apply]
    rfl
  rw [hlift]
  dsimp only
  rw [if_pos hgo]
  exact bind_pure (stringBody bytes stop d.quote.toUInt8 d.tripled (i + 1))

end

/-! ## The body of a string -/

lemma read_cons {d : Delimiter} {pos : Nat} {c : Char} {cs : List Char} (hbackslash : ¬c = '\\')
    (hdouble : ¬((c = '[' ∨ c = '\x7b') ∧ cs.head? = some c)) : StringBody.read d pos (c :: cs) =
      if d.closes (c :: cs) then ⟨[], 0, true⟩
      else if c = '\n' ∧ d.tripled = false then ⟨[], 0, false⟩
      else (StringBody.read d (pos + c.utf8Size) cs).behind 1 := by
  cases cs with
  | nil => simp [StringBody.read, StringBody.behind]
  | cons e cs =>
    rw [StringBody.read, if_neg hbackslash, if_neg (by simpa using hdouble)]
    simp

section
variable {text : List Char} {d : Delimiter} {stop : Nat} {v w : Unread} {c : Char} {cs : List Char}

/-- The body of a string that goes on behind the first `k` characters at `v`. -/
def bodyFrom (d : Delimiter) (v : Unread) (k : Nat) : StringBody :=
  .read d (v.advance k).pos (v.advance k).rest

/-- What the loop does at `v`, and how the body of the string begins there. -/
inductive BodyStep (text : List Char) (d : Delimiter) (stop : Nat) (v : Unread) : StringStep → StringBody → Prop
  | done (closed : Bool) : BodyStep text d stop v (.done closed) ⟨[], 0, closed⟩
  | escape {kind : Kind} (hkind : kind ≠ .comment) (htwo : (v.advance 2).pos = v.pos + 2) :
    BodyStep text d stop v (.go (some kind) (v.pos + 2)) ((bodyFrom d v 2).behindEscape kind v.pos)
  | pass {k next : Nat} (hk : 0 < k) (hgo : v.pos < next)
    (hland : stringBody (utf8 text) stop d.quote.toUInt8 d.tripled next =
      stringBody (utf8 text) stop d.quote.toUInt8 d.tripled (v.advance k).pos) :
    BodyStep text d stop v (.go none next) ((bodyFrom d v k).behind k)

lemma stringBody_land {i k : Nat} (hq : isQuote d.quote = true) (hle : stop ≤ (utf8 text).length)
    (h : BytesAt (utf8 text) i (c :: cs)) (hstop : i + c.utf8Size ≤ stop) (hk : 0 < k) (hkc : k ≤ c.utf8Size) :
    stringBody (utf8 text) stop d.quote.toUInt8 d.tripled (i + k) =
      stringBody (utf8 text) stop d.quote.toUInt8 d.tripled (i + c.utf8Size) := by
  refine h.leave _ (fun j b hb hhigh _ hj => ?_) hk hkc
  exact stringBody_high hle hq hb hhigh (by omega)

lemma bodyStep_backslash (hq : isQuote d.quote = true) (hv : v.StandsIn text) (hrest : v.rest = '\\' :: cs)
    (hstop : v.pos + byteLength v.rest = stop) :
    BodyStep text d stop v (stringStep d v.pos stop '\\' cs) (.read d v.pos ('\\' :: cs)) := by
  have hsize : ('\\').utf8Size = 1 := by decide
  have hquote : '\\' ≠ d.quote := by
    intro heq
    rw [← heq] at hq
    exact absurd hq (by decide)
  rcases cs with _ | ⟨e, cs⟩
  · have hstep : stringStep d v.pos stop '\\' [] = .go none (min (v.pos + 2) stop) := by simp [stringStep]
    have hend : min (v.pos + 2) stop = (v.advance 1).pos := by
      rw [← hstop, hrest, byteLength_cons, byteLength_nil, hsize]
      simp [Unread.advance, hrest, hsize]
    have hread : StringBody.read d v.pos ['\\'] = (bodyFrom d v 1).behind 1 := by
      simp [bodyFrom, Unread.advance, hrest, StringBody.read, StringBody.behind, closes_of_ne hquote]
    rw [hstep, hend, hread]
    exact .pass Nat.one_pos (by simp [Unread.advance, hrest, hsize]) rfl
  have htwo : (v.advance 2).pos = v.pos + 1 + e.utf8Size := by
    simp [Unread.advance, hrest, byteLength_cons, hsize, Nat.add_assoc]
  have hrest₂ : (v.advance 2).rest = cs := by simp [Unread.advance, hrest]
  by_cases he : isEscapable e = true
  · have hstep : stringStep d v.pos stop '\\' (e :: cs) = .go (some .escapeSequence) (v.pos + 2) := by
      simp [stringStep, he]
    rw [utf8Size_of_isEscapable he] at htwo
    have hread : StringBody.read d v.pos ('\\' :: e :: cs) =
        (bodyFrom d v 2).behindEscape .escapeSequence v.pos := by
      rw [bodyFrom, htwo, hrest₂]
      simp [StringBody.read, he]
    rw [hstep, hread]
    exact .escape (by decide) htwo
  · have hstep : stringStep d v.pos stop '\\' (e :: cs) = .go none (min (v.pos + 2) stop) := by
      simp [stringStep, he]
    have hread : StringBody.read d v.pos ('\\' :: e :: cs) = (bodyFrom d v 2).behind 2 := by
      rw [bodyFrom, htwo, hrest₂]
      simp [StringBody.read, he, hsize]
    have hpos := Char.utf8Size_pos e
    have htail : BytesAt (utf8 text) (v.pos + 1) (e :: cs) := (hrest ▸ hv.bytesAt).tail_ascii (by decide)
    have hle : stop ≤ (utf8 text).length := hstop ▸ hv.le_length
    rw [hrest, byteLength_cons, byteLength_cons, hsize] at hstop
    -- The character behind the backslash may be a long one; the loop lands behind its first byte.
    have hmin : min (v.pos + 2) stop = v.pos + 1 + 1 := by omega
    rw [hstep, hmin, hread]
    refine .pass Nat.two_pos (by omega) ?_
    rw [htwo]
    exact stringBody_land hq hle htail (by omega) Nat.one_pos hpos

lemma bodyStep_spec (hq : isQuote d.quote = true) (hv : v.StandsIn text) (hrest : v.rest = c :: cs)
    (hstop : v.pos + byteLength v.rest = stop) :
    BodyStep text d stop v (stringStep d v.pos stop c cs) (.read d v.pos (c :: cs)) := by
  by_cases hbackslash : c = '\\'
  · subst hbackslash
    exact bodyStep_backslash hq hv hrest hstop
  by_cases hdouble : (c = '[' ∨ c = '\x7b') ∧ cs.head? = some c
  · obtain ⟨cs, rfl⟩ := List.head?_eq_some_iff.mp hdouble.2
    have hstep : stringStep d v.pos stop c (c :: cs) = .go (some .escapeInterpolation) (v.pos + 2) := by
      simp [stringStep, hbackslash, hdouble.1]
    have hsize : c.utf8Size = 1 := by rcases hdouble.1 with rfl | rfl <;> decide
    have htwo : (v.advance 2).pos = v.pos + 2 := by simp [Unread.advance, hrest, byteLength_cons, hsize]
    have hrest₂ : (v.advance 2).rest = cs := by simp [Unread.advance, hrest]
    have hread : StringBody.read d v.pos (c :: c :: cs) =
        (bodyFrom d v 2).behindEscape .escapeInterpolation v.pos := by
      rw [bodyFrom, htwo, hrest₂]
      simp [StringBody.read, hbackslash, hdouble.1]
    rw [hstep, hread]
    exact .escape (by decide) htwo
  rw [read_cons hbackslash hdouble, stringStep, if_neg hbackslash, if_neg hdouble]
  by_cases hcloses : d.closes (c :: cs) = true
  · rw [if_pos hcloses, if_pos hcloses]
    exact .done true
  rw [if_neg hcloses, if_neg hcloses]
  by_cases hfeed : c = '\n' ∧ d.tripled = false
  · rw [if_pos hfeed, if_pos hfeed]
    exact .done false
  rw [if_neg hfeed, if_neg hfeed]
  have hone : (v.advance 1).pos = v.pos + c.utf8Size := by simp [Unread.advance, hrest]
  have hread : StringBody.read d (v.pos + c.utf8Size) cs = bodyFrom d v 1 := by
    simp [bodyFrom, Unread.advance, hrest]
  have hsize := Char.utf8Size_pos c
  have hle : stop ≤ (utf8 text).length := hstop ▸ hv.le_length
  have hbytes : BytesAt (utf8 text) v.pos (c :: cs) := hrest ▸ hv.bytesAt
  rw [hrest, byteLength_cons] at hstop
  rw [hread]
  refine .pass Nat.one_pos (Nat.lt_succ_self _) ?_
  rw [hone]
  exact stringBody_land hq hle hbytes (by omega) Nat.one_pos hsize

variable {body : StringBody} {p : LineReader (List Child × Nat × Bool)} {s : Reading}

/-- From `s` on the escapes of a body are built that begins at `v`, and the place is found where it ends. -/
def BuildsBody (text : List Char) (w v : Unread) (body : StringBody) (p : LineReader (List Child × Nat × Bool))
    (s : Reading) : Prop :=
  Runs s.builder p s False fun r t =>
    r.2 = ((v.advance body.length).pos, body.closed) ∧ s.Moves text t r.1 body.escapes w

lemma BuildsBody.pass {k i : Nat} (h : BuildsBody text w (v.advance k) body p s) :
    BuildsBody text w v (body.behind k) (do
      let children ← escapeAt none i
      let behind ← p
      return (children ++ behind.1, behind.2)) s := by
  rw [BuildsBody, escapeAt, pure_bind]
  refine Runs.next h ?_
  rintro ⟨more, ending⟩ t ⟨hr, hm⟩
  refine runs_pure ⟨?_, hm⟩
  rw [hr, Unread.advance_advance, StringBody.behind, Nat.add_comm]

lemma BuildsBody.escape {kind : Kind} (hkind : kind ≠ .comment) (hs : s.lexer.At text w)
    (h : ∀ t : Reading, t.lexer.At text w → BuildsBody text w (v.advance 2) body p t) :
    BuildsBody text w v (body.behindEscape kind v.pos) (do
      let children ← escapeAt (some kind) v.pos
      let behind ← p
      return (children ++ behind.1, behind.2)) s := by
  rw [BuildsBody, escapeAt, bind_assoc]
  refine (runs_leaf hs hkind _).next ?_
  intro child t hm
  rw [pure_bind]
  refine Runs.next (h t hm.lexer) ?_
  rintro ⟨more, ending⟩ t' ⟨hr, hm'⟩
  refine runs_pure ⟨?_, hm.trans hm'⟩
  rw [hr, Unread.advance_advance, StringBody.behindEscape, Nat.add_comm]

lemma runs_stringBody (hq : isQuote d.quote = true) (hv : v.StandsIn text) (hstop : v.pos + byteLength v.rest = stop)
    (hs : s.lexer.At text w) : BuildsBody text w v (.read d v.pos v.rest)
      (stringBody (utf8 text) stop d.quote.toUInt8 d.tripled v.pos) s := by
  -- A step takes one or two characters; `bodyStep_spec` says what it reads and where the loop lands.
  induction hn : v.rest.length using Nat.strong_induction_on generalizing v s with
  | _ n ih =>
    rcases hrest : v.rest with _ | ⟨c, cs⟩
    · rw [hrest, byteLength_nil] at hstop
      rw [stringBody, if_pos (by omega)]
      exact runs_pure ⟨by simp [StringBody.read, v.advance_zero], moves_refl hs⟩
    -- the body behind the first `k` characters
    have hbehind (k : Nat) (hk : 0 < k) (t : Reading) (ht : t.lexer.At text w) :
        BuildsBody text w (v.advance k) (bodyFrom d v k)
          (stringBody (utf8 text) stop d.quote.toUInt8 d.tripled (v.advance k).pos) t := by
      have hlength : (v.advance k).rest.length < n := by
        rw [← hn, Unread.advance, List.length_drop, hrest, List.length_cons]
        omega
      exact ih _ hlength (hv.advance k) ((v.advance_rest_length k).trans hstop) ht rfl
    have hbyte := stringByte_eq (hrest ▸ hv.bytesAt) (hrest ▸ hstop) (hstop ▸ hv.le_length) hq
    have hstep := bodyStep_spec hq hv hrest hstop
    have hlt : ¬stop ≤ v.pos := by
      have hsize := Char.utf8Size_pos c
      rw [hrest, byteLength_cons] at hstop
      omega
    rw [stringBody, if_neg hlt]
    refine .lift hbyte ?_
    generalize stringStep d v.pos stop c cs = step, StringBody.read d v.pos (c :: cs) = body at hstep
    cases hstep with
    | done closed => exact runs_pure ⟨by rw [v.advance_zero], moves_refl hs⟩
    | escape hkind htwo =>
      dsimp only
      rw [if_pos (by omega), ← htwo]
      exact BuildsBody.escape hkind hs (hbehind 2 Nat.two_pos)
    | @pass k next hk hgo hland =>
      dsimp only
      rw [if_pos hgo, hland]
      exact BuildsBody.pass (hbehind k hk s hs)

end

/-! ## Strings -/

lemma read_closes (d : Delimiter) (pos : Nat) (cs : List Char) (h : (StringBody.read d pos cs).closed = true) :
    d.closes (cs.drop (StringBody.read d pos cs).length) = true := by
  fun_induction StringBody.read d pos cs <;> simp_all [StringBody.behind, StringBody.behindEscape]

section
variable {text : List Char} {s : Reading} {u v : Unread} {d : Delimiter}

lemma advance_delimiter (hq : isQuote d.quote = true) (h : d.closes v.rest = true) :
    (v.advance d.length).pos = v.pos + d.length := by
  have hcopies : v.rest.take d.length = List.replicate d.length d.quote := by
    simpa [Delimiter.closes, beginsWithCopies] using h
  have hlength : ∀ n, byteLength (List.replicate n d.quote) = n := by
    intro n
    induction n with
    | zero => rfl
    | succ n ih => rw [List.replicate_succ, byteLength_cons, ih, utf8Size_ascii (isQuote_ascii hq), Nat.add_comm]
  rw [Unread.advance, hcopies, hlength]

lemma behindString_pos (hq : isQuote d.quote = true) (hclosed : (u.stringBody d).closed = true) :
    (u.behindString d).pos = (u.stringTail d).pos + d.length := by
  rw [Unread.behindString, if_pos hclosed]
  exact advance_delimiter hq (read_closes d _ _ hclosed)

lemma delimiter_eq (hq : isQuote d.quote = true) : delimiter d.quote.toUInt8 d.tripled = (d.kind, d.length) := by
  obtain ⟨q, tripled⟩ := d
  have hquote : q = '"' ∨ q = '\'' := by simpa [isQuote] using hq
  rcases hquote with rfl | rfl <;> cases tripled <;> rfl

lemma setPos_eq {x : Lexer} (h : x.At text u) (k : Nat) :
    x.setPos (u.skipBlanks.advance k).pos = (u.skipBlanks.advance k).lexer text := by
  have hstop := h.stop_eq
  have hlength := u.skipBlanks.advance_rest_length k
  have hmin : min (u.skipBlanks.advance k).pos x.stop = (u.skipBlanks.advance k).pos := by omega
  rw [Lexer.setPos, hmin, Unread.lexer, hlength, ← hstop, ← h.text_eq]

lemma delimiter_at {q : Char} {cs : List Char} (hq : isQuote q = true) (hhead : cs.head? = some q) :
    ∃ d, Delimiter.at? cs = some d ∧ d.quote = q ∧ d.tripled = decide (cs.take 3 = List.replicate 3 q) ∧
      d.closes cs = true := by
  obtain ⟨cs, rfl⟩ := List.head?_eq_some_iff.mp hhead
  refine ⟨⟨q, beginsWithCopies 3 q (q :: cs)⟩, by rw [Delimiter.at?, if_pos hq], rfl, rfl, ?_⟩
  cases htripled : beginsWithCopies 3 q (q :: cs) with
  | true => exact htripled
  | false => simp [Delimiter.closes, Delimiter.length, beginsWithCopies]

lemma behindString_eq (u : Unread) (d : Delimiter) : ∃ k, u.behindString d = u.skipBlanks.advance k := by
  unfold Unread.behindString Unread.stringTail Unread.insideString
  split
  · exact ⟨_, by rw [Unread.advance_advance, Unread.advance_advance]⟩
  · exact ⟨_, by rw [Unread.advance_advance]⟩

lemma runs_stringEnd {b : TreeBuilder} {t : Reading} {cs : List Child} (hq : isQuote d.quote = true)
    (hd : Delimiter.at? u.skipBlanks.rest = some d) (hm : s.Moves text t cs (u.stringParts d) u) :
    Runs b (do
      lexing fun x => some ((), x.setPos
        (if (u.stringBody d).closed then (u.stringTail d).pos + d.length else (u.stringTail d).pos))
      node .string cs u.skipBlanks.pos) t False
      fun c t => ∃ n v, u.string? = some (n, v) ∧ s.Moves text t [c] [n] v := by
  have hend : (if (u.stringBody d).closed then (u.stringTail d).pos + d.length else (u.stringTail d).pos) =
      (u.behindString d).pos := by
    split
    · next hclosed => exact (behindString_pos hq hclosed).symm
    · next hclosed => rw [Unread.behindString, if_neg hclosed]
  obtain ⟨k, hk⟩ := behindString_eq u d
  have hat : ((u.skipBlanks.advance k).lexer text).At text (u.behindString d) := hk ▸ (hm.lexer.standsIn.advance k).at
  have hparts : s.Moves text ⟨(u.skipBlanks.advance k).lexer text, t.builder⟩ cs (u.stringParts d) (u.behindString d) :=
    ⟨hm.built, hat⟩
  rw [hend, hk]
  refine .lexing (by rw [setPos_eq hm.lexer]) ?_
  refine (runs_branch hparts (by decide) _).imp False.elim ?_
  intro c t hm
  exact ⟨_, _, Unread.string?_eq hd, hm⟩

lemma runs_string (h : s.lexer.At text u) {q : Char} (hpeek : u.peek? = some q) (hq : isQuote q = true) :
    Runs s.builder string s False fun c t => ∃ n v, u.string? = some (n, v) ∧ s.Moves text t [c] [n] v := by
  obtain ⟨d, hd, rfl, hd₃, hopens⟩ := delimiter_at hq hpeek
  have hstands := h.standsIn
  have hbytes := hstands.bytesAt
  have hkind := d.kind_ne_comment
  have hinside : (u.insideString d).pos = u.skipBlanks.pos + d.length := advance_delimiter hq hopens
  have hlead : (utf8 text)[u.skipBlanks.pos]? = some d.quote.toUInt8 := by
    obtain ⟨cs, hrest⟩ := List.head?_eq_some_iff.mp hpeek
    rw [hrest] at hbytes
    rw [hbytes.lead, (lead_eq_iff (isQuote_ascii hq)).mpr rfl]
  have htripled : byteCopies (utf8 text) u.skipBlanks.pos (u.skipBlanks.pos + byteLength u.skipBlanks.rest) 3
      d.quote.toUInt8 = some d.tripled := hd₃ ▸ hbytes.copies rfl hstands.le_length 3 (isQuote_ascii hq)
  unfold string
  refine .lexing (by rw [h.skipWhitespace]; rfl) (.lexer (.lift hlead (.lift htripled ?_)))
  rw [delimiter_eq hq]
  change Runs s.builder (leaf d.kind ⟨u.skipBlanks.pos, u.skipBlanks.pos + d.length⟩ >>= fun opening =>
    stringBody (utf8 text) _ d.quote.toUInt8 d.tripled (u.skipBlanks.pos + d.length) >>= _) _ _ _
  rw [← hinside]
  have hm₀ : s.Moves text ⟨u.skipBlanks.lexer text, s.builder⟩ [] [] u := moves_lexer hstands.at_skipBlanks
  refine (runs_leaf hstands.at_skipBlanks hkind _).next ?_
  intro opening t₁ hm₁
  refine Runs.next (runs_stringBody hq (hstands.advance d.length) (u.skipBlanks.advance_rest_length _) hm₁.lexer) ?_
  rintro ⟨escapes, i, closed⟩ t₂ ⟨hr, hm₂⟩
  obtain ⟨rfl, rfl⟩ := Prod.mk.inj hr
  have hm := hm₀.trans (hm₁.trans hm₂)
  change Runs s.builder (if (u.stringBody d).closed then _ else _) _ _ _
  by_cases hclosed : (u.stringBody d).closed = true
  · rw [if_pos hclosed]
    refine (runs_leaf hm₂.lexer hkind _).next ?_
    intro closing t₃ hm₃
    refine runs_stringEnd hq hd (hm.trans ?_)
    rwa [Unread.closingDelimiter, if_pos hclosed, behindString_pos hq hclosed]
  · rw [if_neg hclosed]
    refine (runs_missing hm₂.lexer hkind _).next ?_
    intro closing t₃ hm₃
    refine runs_stringEnd hq hd (hm.trans ?_)
    rwa [Unread.closingDelimiter, if_neg hclosed]

/-! ## Arguments -/

lemma char?_eq_none_iff {c : Char} {kind : Kind} : u.char? c kind = none ↔ u.peek? ≠ some c := by
  rw [Unread.char?, Lexer.token?_eq_none_iff, charLength, Unread.peek?]
  simp

/-- Names with commas between them, and the closing parenthesis. -/
def closedNames? (u : Unread) : Option (List Node × Unread) := do
  let (first, u) ← u.name?
  let (more, u) := Unread.many Unread.commaName? u
  let (closing, u) ← u.char? ')' .rightParen
  return (first :: more.flatten ++ [closing], u)

lemma closedNames?_none (h : u.name? = none) : closedNames? u = none := by
  rw [closedNames?, h]
  rfl

lemma closedNames?_last {first : Node} (h : u.name? = some (first, v)) (hcomma : v.char? ',' .comma = none) :
    closedNames? u = (v.char? ')' .rightParen).map fun (closing, w) => ([first, closing], w) := by
  have hmany : Unread.many Unread.commaName? v = ([], v) := Unread.many_of_none (by rw [Unread.commaName?, hcomma]; rfl)
  rw [closedNames?, h, Option.bind_eq_bind, Option.bind_some]
  dsimp only
  rw [hmany]
  cases v.char? ')' .rightParen <;> rfl

lemma closedNames?_comma {w : Unread} {first comma : Node} (h : u.name? = some (first, v))
    (hcomma : v.char? ',' .comma = some (comma, w)) :
    closedNames? u = (closedNames? w).map fun (ns, x) => (first :: comma :: ns, x) := by
  rcases hname : w.name? with _ | ⟨second, x⟩
  · have hmany : Unread.many Unread.commaName? v = ([], v) :=
      Unread.many_of_none (by rw [Unread.commaName?, hcomma]; simp [hname])
    have hpeek : v.peek? = some ',' := by
      by_contra hne
      rw [char?_eq_none_iff.mpr hne] at hcomma
      cases hcomma
    have hparen : v.char? ')' .rightParen = none := char?_eq_none_iff.mpr (by simp [hpeek])
    rw [closedNames?_none hname, closedNames?, h, Option.bind_eq_bind, Option.bind_some]
    dsimp only
    rw [hmany]
    simp [hparen]
  · have hread : v.commaName? = some ([comma, second], x) := by
      rw [Unread.commaName?, hcomma]
      simp [hname]
    rw [closedNames?, closedNames?, h, hname, Option.bind_eq_bind, Option.bind_some, Option.bind_some]
    dsimp only
    rw [Unread.isReader_commaName?.many_of_some hread]
    dsimp only
    cases (Unread.many Unread.commaName? x).2.char? ')' .rightParen <;> rfl

lemma runs_argumentNamesUpTo {n : Nat} (h : s.lexer.At text u) (hn : u.rest.length < n) :
    Runs s.builder (argumentNamesUpTo n) s (closedNames? u = none) fun cs t =>
      ∃ ns v, closedNames? u = some (ns, v) ∧ s.Moves text t cs ns v := by
  induction n generalizing u s with
  | zero => exact absurd hn (Nat.not_lt_zero _)
  | succ n ih =>
    rw [argumentNamesUpTo]
    refine (runs_required (runs_name h)).bind (fun hnone => ⟨.refl _, closedNames?_none hnone⟩) ?_
    rintro name t₁ ⟨first, v, hfirst, hm₁⟩
    have hlt := (Unread.isNodeReader_name? u first v hfirst).2
    refine (runs_char hm₁.lexer (show (',' : Char).val.toNat ≤ 127 by decide) (by decide)).next ?_
    rintro _ t₂ (⟨hcomma, rfl, hm₂⟩ | ⟨comma, w, c, hcomma, rfl, hm₂⟩)
    · have heq := closedNames?_last hfirst hcomma
      have hm := hm₁.trans hm₂
      refine (runs_required (runs_char hm₂.lexer (show (')' : Char).val.toNat ≤ 127 by decide) (by decide))).bind ?_ ?_
      · intro hnone
        exact ⟨hm.built.toExtends, by rw [heq, hnone]; rfl⟩
      · rintro c t₃ ⟨closing, x, hclosing, hm₃⟩
        exact runs_pure ⟨_, _, by rw [heq, hclosing]; rfl, hm.trans hm₃⟩
    · have hlt' := (Unread.isNodeReader_char? ',' .comma v comma w hcomma).2
      have heq := closedNames?_comma hfirst hcomma
      have hm := hm₁.trans hm₂
      refine (ih hm₂.lexer (by omega)).bind ?_ ?_
      · intro hnone
        exact ⟨hm.built.toExtends, by rw [heq, hnone]; rfl⟩
      · rintro more t₃ ⟨ns, x, hmore, hm₃⟩
        exact runs_pure ⟨_, _, by rw [heq, hmore]; rfl, hm.trans hm₃⟩

lemma runs_argumentNames (h : s.lexer.At text u) : Runs s.builder argumentNames s (closedNames? u = none) fun cs t =>
    ∃ ns v, closedNames? u = some (ns, v) ∧ s.Moves text t cs ns v :=
  .turns (runs_argumentNamesUpTo h (Nat.lt_succ_of_le h.length_le))

lemma arguments?_closed {w : Unread} {opening closing : Node} (h : u.char? '(' .leftParen = some (opening, v))
    (hclosing : v.char? ')' .rightParen = some (closing, w)) :
    u.arguments? = some (.branch .arguments [opening, closing] opening.span.start, w) := by
  rw [Unread.arguments?, h, Option.bind_eq_bind, Option.bind_some]
  dsimp only
  rw [hclosing]
  rfl

lemma arguments?_names {opening : Node} (h : u.char? '(' .leftParen = some (opening, v))
    (hclosing : v.char? ')' .rightParen = none) : u.arguments? =
      (closedNames? v).map fun (ns, w) => (.branch .arguments (opening :: ns) opening.span.start, w) := by
  rw [Unread.arguments?, closedNames?, h, Option.bind_eq_bind, Option.bind_some]
  dsimp only
  rw [hclosing]
  rcases v.name? with _ | ⟨first, w⟩
  · rfl
  · simp only [Option.bind_eq_bind, Option.bind_some]
    cases (Unread.many Unread.commaName? w).2.char? ')' .rightParen <;> rfl

lemma runs_arguments (h : s.lexer.At text u) : Runs s.builder arguments s (u.arguments? = none) fun c t =>
    ∃ n v, u.arguments? = some (n, v) ∧ s.Moves text t [c] [n] v := by
  unfold arguments
  refine .requiredLexing (h.eat (c := '(') (by decide) .leftParen) ?_ ?_
  · intro hnone
    exact ⟨.refl _, by rw [Unread.arguments?, hnone]; rfl⟩
  intro opening v hopening
  obtain ⟨hn, hv⟩ := token?_stands h hopening
  refine (runs_leaf hv.at (by decide) _).next ?_
  intro c t₁ hm₁
  rw [← char?_span (by decide) hopening, ← hn] at hm₁
  have hm : s.Moves text t₁ [c] [opening] v := (moves_lexer hv.at).trans hm₁
  refine (runs_char hm₁.lexer (show (')' : Char).val.toNat ≤ 127 by decide) (by decide)).next ?_
  rintro _ t₂ (⟨hclosing, rfl, hm₂⟩ | ⟨closing, w, c₂, hclosing, rfl, hm₂⟩)
  · have heq := arguments?_names hopening hclosing
    have hm := hm.trans hm₂
    change Runs s.builder (argumentNames >>= fun rest => node .arguments (c :: rest) opening.span.start) _ _ _
    refine (runs_argumentNames hm₂.lexer).bind ?_ ?_
    · intro hnone
      exact ⟨hm.built.toExtends, by rw [heq, hnone]; rfl⟩
    · rintro rest t₃ ⟨ns, w, hnames, hm₃⟩
      refine (runs_branch (hm.trans hm₃) (by decide) _).imp False.elim ?_
      intro c t hm
      exact ⟨_, _, by rw [heq, hnames]; rfl, hm⟩
  · have heq := arguments?_closed hopening hclosing
    change Runs s.builder (pure [c₂] >>= fun rest => node .arguments (c :: rest) opening.span.start) _ _ _
    rw [pure_bind]
    refine (runs_branch (hm.trans hm₂) (by decide) _).imp False.elim ?_
    intro c t hm
    exact ⟨_, _, heq, hm⟩

end

end LineReader

end RenpyScript
