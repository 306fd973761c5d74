import RenpyScript.Proofs.Arena.Places

/-!
# Misaligned lines

Between two items a descent closes blocks for one width at most, or it opens one block, and either is done for the
line that will be the next item. So whether that line is misaligned follows from its width and from the levels of
the blocks around the item before it. Items are all lines of code but those in Python bodies.
-/

namespace RenpyScript

section
variable {lines : List ByteLine} {line : ByteLine} {i : Nat}

lemma widthAhead_code (h : lines[i]? = some line) (hcode : line.kind = .code) : widthAhead lines i = line.indent := by
  obtain ⟨hi, rfl⟩ := List.getElem?_eq_some_iff.mp h
  rw [widthAhead, List.drop_eq_getElem_cons hi, List.find?_cons_of_pos (by simpa using hcode)]
  rfl

lemma widthAhead_other (h : lines[i]? = some line) (hkind : line.kind ≠ .code) :
    widthAhead lines (i + 1) = widthAhead lines i := by
  obtain ⟨hi, rfl⟩ := List.getElem?_eq_some_iff.mp h
  rw [widthAhead, widthAhead, List.drop_eq_getElem_cons hi, List.find?_cons_of_neg (by simpa using hkind)]

end

namespace Stage

/-- What can have happened to the blocks since the last item. -/
inductive Poised (lines : List ByteLine) (p : Stage) : Prop
  | settled (opened : p.opened = p.around) (indents : p.indents = ⟨p.around⟩) (pending : p.pending = 0)
      (returning : p.returning = false) (misaligned : p.misaligned = false)
  /-- Blocks have been closed down to the width of the next line of code. -/
  | closed (outside : widthAhead lines p.pos < p.around.headD 0)
      (indents : p.indents = ⟨p.around.dropWhile (widthAhead lines p.pos < ·)⟩)
      (misaligned : p.misaligned =
        decide ((p.around.dropWhile (widthAhead lines p.pos < ·)).headD 0 ≠ widthAhead lines p.pos))
  | entered {line : ByteLine} (first : lines[p.pos]? = some line) (code : line.kind = .code)
      (deeper : p.around.headD 0 < line.indent) (opened : p.opened = line.indent :: p.around)
      (indents : p.indents = ⟨line.indent :: p.around⟩) (pending : p.pending = 0) (returning : p.returning = false)
      (misaligned : p.misaligned = false)
  | past (past : lines.length ≤ p.pos)

section
variable {lines : List ByteLine} {p q : Stage} {m : Moment} {ms : List Moment} {line : ByteLine}

/-! ## Levels above a width -/

lemma dropWhile_eq_self {levels : List Nat} {width : Nat} (h : levels.headD 0 ≤ width) :
    levels.dropWhile (width < ·) = levels := by
  cases levels with
  | nil => rfl
  | cons w levels => exact List.dropWhile_cons_of_neg (by simpa using h)

lemma dropWhile_ne_self {levels : List Nat} {width : Nat} (h : width < levels.headD 0) :
    levels.dropWhile (width < ·) ≠ levels := by
  cases levels with
  | nil => exact absurd h (Nat.not_lt_zero _)
  | cons w levels =>
    intro heq
    have hle := (List.dropWhile_suffix (fun v => decide (width < v)) (l := levels)).length_le
    rw [List.dropWhile_cons_of_pos (by simpa using h)] at heq
    rw [heq, List.length_cons] at hle
    omega

/-- A width is that of the innermost level that is left if and only if it is the width of a level at all. -/
lemma headD_dropWhile_eq_iff {levels : List Nat} (h : (levels ++ [0]).Pairwise (· > ·)) (width : Nat) :
    (levels.dropWhile (width < ·)).headD 0 = width ↔ width ∈ levels ++ [0] := by
  induction levels with
  | nil => simp [eq_comm]
  | cons w levels ih =>
    by_cases hlt : width < w
    · rw [List.dropWhile_cons_of_pos (by simpa using hlt), ih (List.Pairwise.of_cons h), List.cons_append, List.mem_cons]
      exact (or_iff_right (Nat.ne_of_lt hlt)).symm
    · rw [List.dropWhile_cons_of_neg (by simpa using hlt), List.headD_cons, List.cons_append, List.mem_cons]
      refine ⟨fun heq => .inl heq.symm, ?_⟩
      rintro (rfl | hmem)
      · rfl
      · exact absurd (List.rel_of_pairwise_cons h hmem) hlt

/-! ## Steps between items -/

/-- A block is entered only if nothing has been done since the last item. -/
lemma Poised.enter {pos : Nat} {opened around : List Nat}
    (h : Poised lines ⟨pos, opened, ⟨opened⟩, 0, false, false, around⟩) (first : lines[pos]? = some line)
    (code : line.kind = .code) (deeper : opened.headD 0 < line.indent) :
    Poised lines ⟨pos, line.indent :: opened, ⟨line.indent :: opened⟩, 0, false, false, around⟩ := by
  -- The state between two items says what has been done since the first of them.
  cases h with
  | settled hopened =>
    obtain rfl : opened = around := hopened
    exact .entered first code deeper rfl rfl rfl rfl rfl
  | closed outside indents misaligned =>
    -- The blocks would have been closed down to the width of the line, which is not deeper then.
    have hopened : opened = around.dropWhile (widthAhead lines pos < ·) := congrArg IndentStack.widths indents
    have hlevel : (around.dropWhile (widthAhead lines pos < ·)).headD 0 = widthAhead lines pos := by simpa using misaligned
    rw [hopened, hlevel, widthAhead_code first code] at deeper
    exact absurd deeper (Nat.lt_irrefl _)
  | entered first' code' deeper' opened' =>
    obtain rfl := Option.some.inj (first.symm.trans first')
    have hopened : opened = line.indent :: around := opened'
    rw [hopened] at deeper
    exact absurd deeper (Nat.lt_irrefl _)
  | past past => exact .past past

/-- Blocks are closed only if nothing has been done since the last item. -/
lemma Poised.dedent {pos pending : Nat} {opened around : List Nat} {misaligned : Bool}
    (h : Poised lines ⟨pos, opened, ⟨opened⟩, 0, false, misaligned, around⟩)
    (closed : pending + 1 = opened.length - (opened.dropWhile (widthAhead lines pos < ·)).length) :
    Poised lines ⟨pos, opened, ⟨opened.dropWhile (widthAhead lines pos < ·)⟩, pending, true,
      misaligned || (opened.dropWhile (widthAhead lines pos < ·)).headD 0 ≠ widthAhead lines pos, around⟩ := by
  -- A dedent closes the innermost block at least, so the width is less than its level.
  have houtside : widthAhead lines pos < opened.headD 0 := by
    by_contra hle
    rw [dropWhile_eq_self (Nat.not_lt.mp hle), Nat.sub_self] at closed
    cases closed
  cases h with
  | settled hopened _ _ _ hm =>
    obtain rfl : opened = around := hopened
    obtain rfl : misaligned = false := hm
    exact .closed houtside rfl (Bool.false_or _)
  | closed outside indents =>
    have hopened : opened = around.dropWhile (widthAhead lines pos < ·) := congrArg IndentStack.widths indents
    rw [hopened] at houtside
    exact absurd houtside (Nat.not_lt.mpr (IndentStack.headD_dropWhile_le _ around))
  | @entered line first code _ opened' =>
    have hopened : opened = line.indent :: around := opened'
    rw [hopened, widthAhead_code first code] at houtside
    exact absurd houtside (Nat.lt_irrefl _)
  | past past => exact .past past

lemma Poised.leave {pos pending w : Nat} {opened around : List Nat} {indents : IndentStack} {misaligned : Bool}
    (h : Poised lines ⟨pos, w :: opened, indents, pending, true, misaligned, around⟩) :
    Poised lines ⟨pos, opened, indents, pending, false, misaligned, around⟩ := by
  cases h with
  | settled _ _ _ returning => cases returning
  | closed outside indents misaligned => exact .closed outside indents misaligned
  | entered _ _ _ _ _ _ returning => cases returning
  | past past => exact .past past

lemma Poised.unwind {pos pending : Nat} {opened around : List Nat} {indents : IndentStack} {misaligned : Bool}
    (h : Poised lines ⟨pos, opened, indents, pending + 1, false, misaligned, around⟩) :
    Poised lines ⟨pos, opened, indents, pending, true, misaligned, around⟩ := by
  cases h with
  | settled _ _ hpending => cases hpending
  | closed outside indents misaligned => exact .closed outside indents misaligned
  | entered _ _ _ _ _ hpending => cases hpending
  | past past => exact .past past

/-- Lines of code are read behind an item only if nothing else has been done since; other lines do not matter. -/
lemma Poised.consume {pos : Nat} {opened around : List Nat} {misaligned : Bool}
    (h : Poised lines ⟨pos, opened, ⟨opened⟩, 0, false, misaligned, around⟩) (get : lines[pos]? = some line)
    (owned : line.kind = .code → opened = around) :
    Poised lines ⟨pos + 1, opened, ⟨opened⟩, 0, false, misaligned, around⟩ := by
  cases h with
  | settled hopened indents _ _ hm => exact .settled hopened indents rfl rfl hm
  | closed outside indents hm =>
    have hopened : opened = around.dropWhile (widthAhead lines pos < ·) := congrArg IndentStack.widths indents
    -- The blocks have been closed for the next line of code, which is not read before it is an item.
    have hother : line.kind ≠ .code :=
      fun hcode => dropWhile_ne_self outside (hopened.symm.trans (owned hcode))
    have hahead : widthAhead lines (pos + 1) = widthAhead lines pos := widthAhead_other get hother
    exact .closed (hahead.symm ▸ outside) (hahead.symm ▸ indents) (hahead.symm ▸ hm)
  | entered first code _ hopened =>
    obtain rfl := Option.some.inj (get.symm.trans first)
    have hlength := congrArg List.length ((owned code).symm.trans hopened)
    rw [List.length_cons] at hlength
    exact absurd hlength (Nat.ne_of_lt (Nat.lt_succ_self _))
  | past past => exact .past (Nat.le_succ_of_le past)

lemma Step.poised (h : Step lines p m q) (hp : p.Poised lines) : q.Poised lines := by
  cases h with
  | resume forward => exact hp
  | enter first code deeper => exact hp.enter first code deeper
  | turn => exact hp
  | pop past => exact .past past
  | unwind => exact hp.unwind
  | dedent closed => exact hp.dedent closed
  | leave forward => exact hp.leave
  | item get code fits => exact .settled rfl rfl rfl rfl rfl
  | consume get owned => exact hp.consume get owned

lemma Course.poised (h : Course lines p ms q) (hp : p.Poised lines) : q.Poised lines := by
  induction h with
  | nil => exact hp
  | cons step _ ih => exact ih (step.poised hp)

/-! ## Items -/

lemma Step.around (h : Step lines p m q) : q.around = m.event.around m.opened p.around := by
  cases h <;> rfl

lemma Course.around (h : Course lines p ms q) :
    q.around = ms.foldl (fun around m => m.event.around m.opened around) p.around := by
  induction h with
  | nil => rfl
  | cons step _ ih => rw [ih, step.around, List.foldl_cons]

lemma Step.around_inwards (h : Step lines p m q) (hp : p.Nested) (hinwards : (p.around ++ [0]).Pairwise (· > ·)) :
    (q.around ++ [0]).Pairwise (· > ·) := by
  cases h with
  | item => exact hp.inwards
  | _ => exact hinwards

lemma Course.around_inwards (h : Course lines p ms q) (hp : p.Nested)
    (hinwards : (p.around ++ [0]).Pairwise (· > ·)) : (q.around ++ [0]).Pairwise (· > ·) := by
  induction h with
  | nil => exact hinwards
  | cons step _ ih => exact ih (step.nested hp) (step.around_inwards hp hinwards)

/-- An item is misaligned if and only if it fits none of the levels around the item before and does not stand deeper
than all of them. -/
lemma Poised.misaligned_iff {pos : Nat} {opened around : List Nat} {misaligned : Bool}
    (h : Poised lines ⟨pos, opened, ⟨opened⟩, 0, false, misaligned, around⟩)
    (hinwards : (around ++ [0]).Pairwise (· > ·)) (get : lines[pos]? = some line) (code : line.kind = .code)
    (fits : opened.headD 0 ≤ line.indent) :
    misaligned = true ↔ line.indent < around.headD 0 ∧ line.indent ∉ around ++ [0] := by
  cases h with
  | settled hopened _ _ _ hm =>
    obtain rfl : opened = around := hopened
    obtain rfl : misaligned = false := hm
    simp only [Bool.false_eq_true, false_iff, not_and]
    omega
  | closed outside _ hm =>
    dsimp only at outside hm
    rw [widthAhead_code get code] at outside hm
    rw [hm, decide_eq_true_eq, ne_eq, headD_dropWhile_eq_iff hinwards, and_iff_right outside]
  | entered first _ deeper _ _ _ _ hm =>
    obtain rfl := Option.some.inj (get.symm.trans first)
    obtain rfl : misaligned = false := hm
    dsimp only at deeper
    simp only [Bool.false_eq_true, false_iff, not_and]
    omega
  | past past =>
    have hlt := (List.getElem?_eq_some_iff.mp get).1
    exact absurd past (Nat.not_le.mpr hlt)

lemma Course.item {before after : List Moment} {misaligned : Bool} (h : Course lines p (before ++ m :: after) q)
    (hevent : m.event = .item misaligned) (hp : p.Nested) (hinwards : (p.around ++ [0]).Pairwise (· > ·))
    (hpoised : p.Poised lines) : m.opened = callsBehind p.opened before ∧ ∃ line, lines[m.pos]? = some line ∧
      line.kind = .code ∧ ∃ around, around = before.foldl (fun around m => m.event.around m.opened around) p.around ∧
        (misaligned = true ↔ line.indent < around.headD 0 ∧ line.indent ∉ around ++ [0]) := by
  obtain ⟨r, hbefore, hrest⟩ := h.split
  obtain _ | ⟨step, -⟩ := hrest
  have hpoised := hbefore.poised hpoised
  have hinwards := hbefore.around_inwards hp hinwards
  refine ⟨(step.item_opened hevent).trans hbefore.opened, ?_⟩
  have haround := hbefore.around
  cases step with
  | item get code fits =>
    obtain rfl : _ = misaligned := Event.item.inj hevent
    exact ⟨_, get, code, _, haround, hpoised.misaligned_iff hinwards get code fits⟩
  | _ => cases hevent

end

end Stage

/-! ## Which lines are items -/

/-- A parse that stands at a line of a text and has built nothing. -/
def ParseState.fresh (text : List Char) (pos : Nat) : ParseState :=
  ⟨pos, .empty text, .empty, 0, false, []⟩

namespace Descent
open LogicalLine LineReader ParseState

/-- The line at an index is read as the beginning of a Python block. -/
def OpensPython (lines : List ByteLine) (text : List Char) (topLevel : Bool) (i : Nat) : Prop :=
  ∃ line next children b, lines[i]? = some line ∧ nextIndent lines (i + 1) = some next ∧
    readForm topLevel (next.any (line.indent < ·)) line (.fresh text (i + 1)) = some (.opensPython children, b)

/-- The line at an index belongs to a Python body whose owner has the given indentation. -/
def HoldsPython (lines : List ByteLine) (text : List Char) (owner i : Nat) : Prop :=
  ∃ line, lines[i]? = some line ∧ insidePython lines owner line (.fresh text i) = some true

/-- One of the items opens a Python body, and the line at an index is part of the body. -/
def InPythonBody (lines : List ByteLine) (text : List Char) (items : List Moment) (k : Nat) : Prop :=
  ∃ m ∈ items, m.pos < k ∧ OpensPython lines text m.opened.isEmpty m.pos ∧
    ∃ owner, lines[m.pos]? = some owner ∧ ∀ l, m.pos < l → l ≤ k → HoldsPython lines text owner.indent l

section
variable {text : List Char} {ls : List LogicalLine} {line : LogicalLine} {topLevel : Bool} {i k owner : Nat}

lemma opensPython_iff (hls : ∀ l ∈ ls, l.StandsIn text) (hline : ls[i]? = some line) :
    OpensPython (ls.map raw) text topLevel i ↔
      (line.form topLevel (ls.drop (i + 1))).ownerIndent? line = some line.indent := by
  obtain ⟨form, b, hread, hsays⟩ := readForm_built (s := .fresh text (i + 1)) (hls line (List.mem_of_getElem? hline)) rfl
    topLevel (deeperFollows line.indent (ls.drop (i + 1)))
  have hopens : OpensPython (ls.map raw) text topLevel i ↔ ∃ children, form = .opensPython children := by
    simp only [OpensPython, getElem?_raw hline, nextIndent_eq, Option.some.injEq, exists_eq_left', exists_and_left]
    change (∃ children b', readForm topLevel (deeperFollows line.indent (ls.drop (i + 1))) line.raw (.fresh text (i + 1)) =
      some (.opensPython children, b')) ↔ _
    simp [hread]
  rw [hopens]
  change Says _ b form (line.form topLevel (ls.drop (i + 1))) at hsays
  cases hform : line.form topLevel (ls.drop (i + 1)) <;> rw [hform] at hsays <;> cases hsays <;> simp [Form.ownerIndent?]

lemma holdsPython_iff : HoldsPython (ls.map raw) text owner i ↔ BodyHolds ls owner i := by
  rcases hline : ls[i]? with _ | line
  · simp [HoldsPython, BodyHolds, hline]
  · have hinside : insidePython (ls.map raw) owner line.raw (.fresh text i) =
        some (PythonBody.holds ⟨[], false, owner, 0, false⟩ line (ls.drop (i + 1))) :=
      insidePython_eq ⟨[], false, owner, 0, false⟩ line (.fresh text i)
    simp only [HoldsPython, BodyHolds, getElem?_raw hline, hline, hinside, Option.some.injEq, exists_eq_left']

lemma ownerIndent?_eq {form : Form} {w : Nat} (h : form.ownerIndent? line = some w) : w = line.indent := by
  cases form with
  | opensPython head => exact (Option.some.inj h).symm
  | _ => cases h

lemma ownsLine_iff (hls : ∀ l ∈ ls, l.StandsIn text) (m : Moment) : m.OwnsLine ls k ↔
    m.pos < k ∧ OpensPython (ls.map raw) text m.opened.isEmpty m.pos ∧
      ∃ owner, (ls.map raw)[m.pos]? = some owner ∧
        ∀ l, m.pos < l → l ≤ k → HoldsPython (ls.map raw) text owner.indent l := by
  refine and_congr_right fun _ => ⟨?_, ?_⟩
  · rintro ⟨line, w, hline, hopens, hspans⟩
    obtain rfl := ownerIndent?_eq hopens
    exact ⟨(opensPython_iff hls hline).mpr hopens, line.raw, getElem?_raw hline,
      fun l hl hk => holdsPython_iff.mpr (hspans l hl hk)⟩
  · rintro ⟨hopens, owner, howner, hspans⟩
    rw [List.getElem?_map, Option.map_eq_some_iff] at howner
    obtain ⟨line, hline, rfl⟩ := howner
    exact ⟨line, line.indent, hline, (opensPython_iff hls hline).mp hopens,
      fun l hl hk => holdsPython_iff.mp (hspans l hl hk)⟩

lemma inPythonBody_iff (hls : ∀ l ∈ ls, l.StandsIn text) {items : List Moment} :
    InPythonBody (ls.map raw) text items k ↔ InBody ls none 0 items k := by
  simp [InPythonBody, InBody, ownsLine_iff hls]

end

end Descent

/-! ## The error around a misaligned line -/

/-- The node is an error that begins in the line, and the tokens and strings below it cover all of the line but white
space. -/
structure Arena.WrapsLine (a : Arena) (text : List Char) (line : ByteLine) (c : Nat) : Prop where
  begins : ∃ e, a.nodes[c]? = some e ∧ e.kind = .error ∧ line.start ≤ e.span.start ∧ e.span.start ≤ line.stop
  covers : ∀ i : Fin text.length, line.start ≤ byteLength (text.take i) → byteLength (text.take i) < line.stop →
    isGap text[i] = true ∨ ∃ k f, a.Within c k ∧ a.nodes[k]? = some f ∧ (f.children = [] ∨ f.kind = .string) ∧
      f.span.start ≤ byteLength (text.take i) ∧ byteLength (text.take i) + text[i].utf8Size ≤ f.span.stop

lemma Arena.Holds.exists_within {a : Arena} {table : LineTable} {i : Nat} {n m : Node} (h : a.Holds table i n)
    (hm : m ∈ n.preorder) : ∃ k, a.Within i k ∧ a.Holds table k m := by
  induction n using Node.childInduction generalizing i with
  | step n ih =>
    rw [Node.preorder_eq] at hm
    rcases List.mem_cons.mp hm with rfl | hm
    · exact ⟨i, .refl, h⟩
    · obtain ⟨c, hc, hm⟩ := List.mem_flatMap.mp hm
      obtain ⟨e, he, -⟩ := h.get
      obtain ⟨k, hk⟩ := List.mem_iff_getElem?.mp hc
      have hrel := rel_getElem? (h.children he) k
      rw [hk] at hrel
      obtain ⟨d, hd, hholds⟩ := exists_of_rel_right hrel
      obtain ⟨x, hwithin, hx⟩ := ih c hc hholds hm
      exact ⟨x, (Within.refl.child (Arena.child?_eq_some_iff.mpr ⟨e, he, hd⟩)).trans hwithin, hx⟩

lemma Form.LaidOn.nodes {form : Form} {pos : Nat} {cs : List Char} (h : form.LaidOn pos cs) :
    Node.Laid isGap pos cs form.nodes := by
  cases h with
  | items laid => exact laid
  | opens laid => exact laid
  | opensPython laid => exact laid

lemma LogicalLine.form_laidOn (topLevel : Bool) (line : LogicalLine) (rest : List LogicalLine) :
    (line.form topLevel rest).LaidOn line.start line.content := by
  unfold form
  split
  · exact Form.topLevel_laidOn _ line.unread
  · exact Form.nested_laidOn line.unread

lemma Node.Laid.hull_start {pos : Nat} {cs : List Char} {ns : List Node} (h : Laid isGap pos cs ns) :
    pos ≤ (hull ns pos).start ∧ (hull ns pos).start ≤ pos + byteLength cs := by
  rcases ns with _ | ⟨n, ns⟩
  · exact ⟨Nat.le_refl _, Nat.le_add_right _ _⟩
  · obtain ⟨before, core, rfl, -, -, hstart⟩ := h.tight_left
    obtain ⟨m, hm⟩ : ∃ m, (n :: ns).getLast? = some m := ⟨_, List.getLast?_eq_some_getLast (by simp)⟩
    rw [hull_cons hm, hstart, byteLength_append]
    omega

lemma LogicalLine.StandsIn.exists_content {text : List Char} {line : LogicalLine} (h : line.StandsIn text)
    (i : Fin text.length) (hle : line.start ≤ byteLength (text.take i)) (hlt : byteLength (text.take i) < line.span.stop) :
    ∃ as bs, line.content = as ++ text[i] :: bs ∧ line.start + byteLength as = byteLength (text.take i) := by
  obtain ⟨before, after, htext, hstart⟩ := h
  have hsplit : before ++ (line.content ++ after) = text.take i ++ text[i] :: text.drop (i + 1) := by
    rw [Fin.getElem_fin, List.cons_getElem_drop_succ, List.take_append_drop, htext, List.append_assoc]
  have hstop : line.span.stop = line.start + byteLength line.content := rfl
  rcases Node.split_append hsplit with ⟨us, hbefore⟩ | ⟨as, htake, hcontent⟩
  · rw [hstart, hbefore, byteLength_append, byteLength_cons] at hle
    have hpos := text[i].utf8Size_pos
    omega
  have hoffset : line.start + byteLength as = byteLength (text.take i) := by rw [htake, byteLength_append, hstart]
  rcases Node.split_append hcontent with ⟨bs, hbs⟩ | ⟨us, rfl, -⟩
  · exact ⟨as, bs, hbs, hoffset⟩
  · rw [byteLength_append] at hoffset
    omega

/-- The error that a misaligned line is wrapped in has an index. -/
lemma Arena.Represents.wrapsLine {a : Arena} {text : String} {line : LogicalLine} {topLevel : Bool} {e : Node}
    {rest : List LogicalLine} (h : a.Represents (Tree.parse text)) (hline : line.StandsIn text.toList)
    (he : e ∈ (Tree.parse text).root.preorder) (hwraps : e.Wraps (line.form topLevel rest).nodes line.start) :
    ∃ c, a.WrapsLine text.toList line.raw c := by
  have hlaid := (line.form_laidOn topLevel rest).nodes
  obtain ⟨c, -, hc⟩ := Holds.exists_within ⟨none, none, h.denotes⟩ he
  refine ⟨c, ?_, ?_⟩
  · obtain ⟨f, hf, hkind, hspan⟩ := hc.get
    refine ⟨f, hf, hkind.trans hwraps.error, ?_⟩
    rw [hspan, hwraps.begins]
    exact hlaid.hull_start
  · intro i hle hlt
    obtain ⟨as, bs, hcontent, hoffset⟩ := hline.exists_content i hle hlt
    refine (hlaid.covers hcontent fun n _ pos as bs hf => hf.covers).imp_right ?_
    rintro ⟨m, hm, htext, hcovers⟩
    obtain ⟨k, hwithin, hk⟩ := hc.exists_within (hwraps.below m (Node.preorderAll_eq .. ▸ hm))
    obtain ⟨f, hf, hkind, hspan⟩ := hk.get
    rw [hoffset] at hcovers
    have hchildren := (hk.children hf).length_eq
    refine ⟨k, f, hwithin, hf, htext.imp (fun hnil => ?_) hkind.trans, hspan ▸ hcovers⟩
    rw [hnil] at hchildren
    exact List.length_eq_zero_iff.mp hchildren

/-- The nodes of a line are in one error: they are the children of the error `c`, or it is their only one. -/
def TreeBuilder.InOneError (b : TreeBuilder) (nodes : List Child) (c : Child) : Prop :=
  ∃ e, b.nodes[c.index]? = some e ∧ e.kind = .error ∧ (nodes = [c] ∨ e.children = nodes.map Child.index)

lemma TreeBuilder.node_entry {b b' : TreeBuilder} {kind : Kind} {cs : List Child} {fallback i : Nat}
    (h : b.node kind cs fallback = some (i, b')) :
    ∃ e, b'.nodes[i]? = some e ∧ e.kind = kind ∧ e.children = cs.map Child.index := by
  unfold node at h
  simp only [leafData_eq, Option.bind_eq_bind, Option.bind_some, Option.bind_eq_some_iff] at h
  obtain ⟨span, -, ⟨hasError, nodes⟩, -, h⟩ := h
  obtain ⟨rfl, rfl⟩ := Prod.mk.inj (Option.some.inj h)
  exact ⟨_, List.getElem?_concat_length, rfl, rfl⟩

namespace Descent
open LogicalLine

lemma build_error {s t : ParseState} {out out' items : List Child} {start : Nat}
    (h : ((s.build (TreeBuilder.node .error items start)).bind fun r => some (out ++ [r.1], r.2)) = some (out', t)) :
    ∃ c, out' = out ++ [c] ∧ t.builder.InOneError items c := by
  unfold ParseState.build at h
  simp only [Option.bind_eq_bind, Option.bind_assoc, Option.bind_eq_some_iff] at h
  obtain ⟨⟨i, b⟩, hnode, r, hr, h⟩ := h
  obtain rfl := Option.some.inj hr
  obtain ⟨rfl, rfl⟩ := Prod.mk.inj (Option.some.inj h)
  obtain ⟨e, hentry, hkind, hchildren⟩ := TreeBuilder.node_entry hnode
  exact ⟨_, rfl, e, hentry, hkind, .inr hchildren⟩

/-- A misaligned line is one error. -/
lemma lineItem_error {lines : List ByteLine} {opened : List Nat} {topLevel : Bool} {out out' : List Child}
    {s t : ParseState} (h : lineItem lines opened topLevel out s = some (out', t)) (hm : s.misaligned = true) :
    ∃ line nodes u c, lines[s.pos]? = some line ∧ lineNodes lines opened topLevel line
        { (s.note (.item true) opened).consume opened with misaligned := false } = some (nodes, u) ∧
      out' = out ++ [c] ∧ t.builder.InOneError nodes c := by
  rw [lineItem] at h
  split at h
  · cases h
  next line hline =>
  simp only [hm, Option.bind_eq_bind, Option.bind_eq_some_iff] at h
  obtain ⟨⟨nodes, u⟩, hnodes, h⟩ := h
  have htake : takeFrom out.length (out ++ nodes) = some (out, nodes) := by
    rw [takeFrom, if_pos (by simp), List.take_left, List.drop_left]
  rw [if_pos trivial, htake, Option.bind_some] at h
  suffices herror : ∃ c, out' = out ++ [c] ∧ t.builder.InOneError nodes c by
    obtain ⟨c, hout, herror⟩ := herror
    exact ⟨line, nodes, u, c, hline, hnodes, hout, herror⟩
  dsimp only at h
  split at h
  · next item =>
    obtain ⟨kind, hkind, h⟩ := Option.bind_eq_some_iff.mp h
    split at h
    · next herror =>
      obtain ⟨rfl, rfl⟩ := Prod.mk.inj (Option.some.inj h)
      rw [TreeBuilder.kindOf, Option.bind_eq_bind, Option.bind_eq_some_iff] at hkind
      obtain ⟨e, hentry, hkind⟩ := hkind
      exact ⟨item, rfl, e, hentry, (Option.some.inj hkind).trans herror, .inl rfl⟩
    · exact build_error h
  · exact build_error h

/-- The items of a document are its lines of code in order, but for those in Python bodies. An item is misaligned if and
only if it stands less deep than the innermost block around the item before and fits no open level there, the top level
included; and then what is in the line is in one error, which has the nodes of the line for children or is the only
one of them. -/
theorem parse_misaligned (text : String) : ∃ lines r, byteScan text.toList = some lines ∧ parse text.toList = some r ∧
    ((items r.final.moments).map (·.pos)).Pairwise (· < ·) ∧
    (∀ i line, lines[i]? = some line → line.kind = .code →
      (i ∈ (items r.final.moments).map (·.pos) ↔ ¬InPythonBody lines text.toList (items r.final.moments) i)) ∧
    (∀ before m after misaligned, r.final.moments = before ++ m :: after → m.event = .item misaligned →
      m.opened = callsBehind [] before ∧ ∃ line, lines[m.pos]? = some line ∧ line.kind = .code ∧
        (misaligned = true ↔
          line.indent < (levelsAround before).headD 0 ∧ line.indent ∉ levelsAround before ++ [0]) ∧
        (misaligned = true → ∃ c, r.arena.WrapsLine text.toList line c)) ∧
    ∀ opened topLevel out s out' t, lineItem lines opened topLevel out s = some (out', t) → s.misaligned = true →
      ∃ line nodes u c, lines[s.pos]? = some line ∧ lineNodes lines opened topLevel line
          { (s.note (.item true) opened).consume opened with misaligned := false } = some (nodes, u) ∧
        out' = out ++ [c] ∧ t.builder.InOneError nodes c := by
  have hls : ∀ l ∈ scan text.toList, l.StandsIn text.toList := fun l hl => scan_standsIn hl
  obtain ⟨r, q, hparse, -, -, hcourse, -, -, -, -, hreads⟩ := parse_ends text.toList
  obtain ⟨r', hparse', hrepresents⟩ := parse_represents text
  obtain rfl := Option.some.inj (hparse.symm.trans hparse')
  refine ⟨_, r, byteScan_eq _, hparse, hreads.increasing.2, ?_, ?_, fun _ _ _ _ _ _ => lineItem_error⟩
  · intro i line hline hcode
    rw [List.getElem?_map, Option.map_eq_some_iff] at hline
    obtain ⟨logical, hlogical, rfl⟩ := hline
    rw [inPythonBody_iff hls]
    exact hreads.item_iff (Nat.zero_le i) (List.getElem?_eq_some_iff.mp hlogical).1 hlogical hcode
  · intro before m after misaligned hmoments hevent
    have hmem : m ∈ items r.final.moments := by
      rw [items, hmoments, List.mem_filter, hevent]
      exact ⟨List.mem_append_right _ List.mem_cons_self, rfl⟩
    rw [hmoments] at hcourse
    obtain ⟨hopened, line, hline, hcode, around, rfl, hiff⟩ := hcourse.item hevent beginning_nested
      (List.pairwise_singleton _ _) (.settled rfl rfl rfl rfl rfl)
    refine ⟨hopened, line, hline, hcode, hiff, ?_⟩
    rintro rfl
    obtain ⟨logical, hlogical, e, he, hwraps⟩ := hreads.item_wrapped hmem hevent
    rw [ParseState.getElem?_raw hlogical, Option.some.injEq] at hline
    subst hline
    have hmem : e ∈ (Tree.parse text).root.preorder := Node.children_subset_preorder _ (Node.preorderAll_eq _ ▸ he)
    exact hrepresents.wrapsLine (hls _ (List.mem_of_getElem? hlogical)) hmem hwraps

end Descent

end RenpyScript
