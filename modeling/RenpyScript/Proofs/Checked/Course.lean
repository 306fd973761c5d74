import RenpyScript.Checked.Descent
import RenpyScript.Proofs.Layout.Stack

/-!
# The course of a descent

What a descent notes down is the course of a small machine. The machine stands at a line, with calls open and
widths on the stack, and every moment takes it to another stage. What holds of the moments follows from the
steps of the machine, whatever nodes are built along the way.
-/

namespace RenpyScript

/-- Where a descent stands between two moments. -/
structure Stage where
  pos : Nat
  opened : List Nat
  indents : IndentStack
  pending : Nat
  /-- Whether the innermost call is about to return. -/
  returning : Bool
  /-- Whether the next line of code has a width that no block uses. -/
  misaligned : Bool
  /-- Levels of the blocks around the line that was the last item. -/
  around : List Nat

/-- Width of the next line of code from an index on, zero if there is none. -/
def widthAhead (lines : List ByteLine) (i : Nat) : Nat :=
  (((lines.drop i).find? (·.kind = .code)).map (·.indent)).getD 0

/-- The open calls once something has happened. -/
def Event.calls (opened : List Nat) : Event → List Nat
  | .enter indent => indent :: opened
  | .leave _ => opened.tail
  | _ => opened

/-- The open calls once some moments have passed, by the levels of their blocks. -/
def callsBehind (opened : List Nat) (ms : List Moment) : List Nat :=
  ms.foldl (fun opened m => m.event.calls opened) opened

/-- Levels of the blocks around the last item once something has happened inside blocks of the given levels. -/
def Event.around (opened around : List Nat) : Event → List Nat
  | .item _ => opened
  | _ => around

/-- Levels of the blocks around the line that was the last item among some moments; none if there was no item. -/
def levelsAround (ms : List Moment) : List Nat :=
  ms.foldl (fun around m => m.event.around m.opened around) []

lemma levelsAround_concat (ms : List Moment) (m : Moment) :
    levelsAround (ms ++ [m]) = m.event.around m.opened (levelsAround ms) := by
  rw [levelsAround, List.foldl_append]
  rfl

/-- A call returns, and then as many others as there are blocks still to be closed. -/
inductive Returns : Nat → List Moment → Prop
  | last {m : Moment} {since : Nat} (event : m.event = .leave since) (pending : m.pending = 0) : Returns 0 [m]
  | more {m h : Moment} {since n : Nat} {ms : List Moment} (event : m.event = .leave since) (pending : m.pending = n + 1)
      (head : h.event = .head) (same : h.pending = n + 1) (rest : Returns n ms) : Returns (n + 1) (m :: h :: ms)

namespace Stage

/-- What may happen at a stage, and where it leads. -/
inductive Step (lines : List ByteLine) : Stage → Moment → Stage → Prop
  | resume {pos : Nat} {misaligned : Bool} {around : List Nat} {since : Option Nat} (forward : ∀ i, since = some i → i < pos) :
      Step lines ⟨pos, [], .empty, 0, false, misaligned, around⟩ ⟨.resume since, pos, [], .empty, 0⟩
        ⟨pos, [], .empty, 0, false, misaligned, around⟩
  | enter {pos : Nat} {opened around : List Nat} {line : ByteLine} (first : lines[pos]? = some line)
      (code : line.kind = .code) (deeper : opened.headD 0 < line.indent) :
      Step lines ⟨pos, opened, ⟨opened⟩, 0, false, false, around⟩ ⟨.enter line.indent, pos, opened, ⟨opened⟩, 0⟩
        ⟨pos, line.indent :: opened, ⟨line.indent :: opened⟩, 0, false, false, around⟩
  | turn {pos w : Nat} {opened around : List Nat} {misaligned : Bool} :
      Step lines ⟨pos, w :: opened, ⟨w :: opened⟩, 0, false, misaligned, around⟩
        ⟨.head, pos, w :: opened, ⟨w :: opened⟩, 0⟩ ⟨pos, w :: opened, ⟨w :: opened⟩, 0, false, misaligned, around⟩
  /-- A loop ends with the last line. -/
  | pop {pos w : Nat} {opened around : List Nat} {misaligned : Bool} (past : lines.length ≤ pos) :
      Step lines ⟨pos, w :: opened, ⟨w :: opened⟩, 0, false, misaligned, around⟩
        ⟨.head, pos, w :: opened, ⟨w :: opened⟩, 0⟩ ⟨pos, w :: opened, ⟨opened⟩, 0, true, misaligned, around⟩
  /-- A loop ends since its block has been closed. -/
  | unwind {pos pending : Nat} {opened around : List Nat} {indents : IndentStack} {misaligned : Bool} :
      Step lines ⟨pos, opened, indents, pending + 1, false, misaligned, around⟩
        ⟨.head, pos, opened, indents, pending + 1⟩ ⟨pos, opened, indents, pending, true, misaligned, around⟩
  | dedent {pos pending : Nat} {opened around : List Nat} {misaligned : Bool}
      (closed : pending + 1 = opened.length - (opened.dropWhile (widthAhead lines pos < ·)).length) :
      Step lines ⟨pos, opened, ⟨opened⟩, 0, false, misaligned, around⟩
        ⟨.dedent (widthAhead lines pos), pos, opened, ⟨opened.dropWhile (widthAhead lines pos < ·)⟩, pending⟩
        ⟨pos, opened, ⟨opened.dropWhile (widthAhead lines pos < ·)⟩, pending, true,
          misaligned || (opened.dropWhile (widthAhead lines pos < ·)).headD 0 ≠ widthAhead lines pos, around⟩
  | leave {pos pending since w : Nat} {opened around : List Nat} {indents : IndentStack} {misaligned : Bool}
      (forward : since < pos) :
      Step lines ⟨pos, w :: opened, indents, pending, true, misaligned, around⟩
        ⟨.leave since, pos, opened, indents, pending⟩ ⟨pos, opened, indents, pending, false, misaligned, around⟩
  | item {pos : Nat} {opened around : List Nat} {misaligned : Bool} {line : ByteLine} (get : lines[pos]? = some line)
      (code : line.kind = .code) (fits : opened.headD 0 ≤ line.indent) :
      Step lines ⟨pos, opened, ⟨opened⟩, 0, false, misaligned, around⟩
        ⟨.item misaligned, pos, opened, ⟨opened⟩, 0⟩ ⟨pos, opened, ⟨opened⟩, 0, false, false, opened⟩
  /-- A line is read that is no code, or that belongs to the last item. -/
  | consume {pos : Nat} {opened around : List Nat} {misaligned : Bool} {line : ByteLine} (get : lines[pos]? = some line)
      (owned : line.kind = .code → opened = around) :
      Step lines ⟨pos, opened, ⟨opened⟩, 0, false, misaligned, around⟩ ⟨.consume, pos, opened, ⟨opened⟩, 0⟩
        ⟨pos + 1, opened, ⟨opened⟩, 0, false, misaligned, around⟩

/-- Steps one after the other. -/
inductive Course (lines : List ByteLine) : Stage → List Moment → Stage → Prop
  | nil {p : Stage} : Course lines p [] p
  | cons {p q r : Stage} {m : Moment} {ms : List Moment} (step : Step lines p m q) (rest : Course lines q ms r) :
      Course lines p (m :: ms) r

/-- The levels of the open calls grow inwards, and those of the blocks that are still open are on the stack. -/
structure Nested (p : Stage) : Prop where
  inwards : (p.opened ++ [0]).Pairwise (· > ·)
  widths : p.indents.widths = p.opened.drop (p.pending + p.returning.toNat)

section
variable {lines : List ByteLine} {p q r : Stage} {m : Moment} {ms ns : List Moment}

lemma Course.append (h : Course lines p ms q) (h' : Course lines q ns r) : Course lines p (ms ++ ns) r := by
  induction h with
  | nil => exact h'
  | cons step _ ih => exact .cons step (ih h')

lemma Course.split (h : Course lines p (ms ++ ns) r) : ∃ q, Course lines p ms q ∧ Course lines q ns r := by
  induction ms generalizing p with
  | nil => exact ⟨p, .nil, h⟩
  | cons m ms ih =>
    obtain _ | ⟨step, rest⟩ := h
    obtain ⟨q, hms, hns⟩ := ih rest
    exact ⟨q, .cons step hms, hns⟩

/-! ## Lines -/

lemma Step.pos_eq (h : Step lines p m q) : m.pos = p.pos := by
  cases h <;> rfl

lemma Step.pos_le (h : Step lines p m q) : p.pos ≤ q.pos := by
  cases h with
  | consume => exact Nat.le_succ _
  | _ => exact Nat.le_refl _

lemma Course.pos_le (h : Course lines p ms q) : p.pos ≤ q.pos := by
  induction h with
  | nil => exact Nat.le_refl _
  | cons step _ ih => exact step.pos_le.trans ih

lemma Step.pos_le_length (h : Step lines p m q) (hp : p.pos ≤ lines.length) : q.pos ≤ lines.length := by
  cases h with
  | consume get => exact (List.getElem?_eq_some_iff.mp get).1
  | _ => exact hp

lemma Course.pos_le_length (h : Course lines p ms q) (hp : p.pos ≤ lines.length) : q.pos ≤ lines.length := by
  induction h with
  | nil => exact hp
  | cons step _ ih => exact ih (step.pos_le_length hp)

lemma Course.le_pos (h : Course lines p ms q) (hm : m ∈ ms) : p.pos ≤ m.pos := by
  induction h with
  | nil => simp at hm
  | cons step _ ih =>
    rcases List.mem_cons.mp hm with rfl | hm
    · exact step.pos_eq.ge
    · exact step.pos_le.trans (ih hm)

lemma Course.forward (h : Course lines p ms q) : ms.Pairwise (·.pos ≤ ·.pos) := by
  induction h with
  | nil => exact .nil
  | cons step rest ih =>
    refine .cons (fun m hm => ?_) ih
    rw [step.pos_eq]
    exact step.pos_le.trans (rest.le_pos hm)

lemma Course.consumed (h : Course lines p ms q) :
    (ms.filter (·.event = .consume)).map (·.pos) = List.range' p.pos (q.pos - p.pos) := by
  induction h with
  | nil => simp
  | cons step rest ih =>
    have hle := rest.pos_le
    -- Only `consume` moves on, by the one line it reads.
    cases step with
    | @consume pos =>
      rw [List.filter_cons_of_pos (by simp), List.map_cons, ih]
      obtain ⟨n, hn⟩ : ∃ n, _ = pos + 1 + n := ⟨_, (Nat.add_sub_cancel' hle).symm⟩
      rw [hn, Nat.add_sub_cancel_left, Nat.add_assoc, Nat.add_sub_cancel_left, Nat.add_comm 1 n, List.range'_succ]
    | _ => simpa using ih

lemma Course.since_lt (h : Course lines p ms q) (hm : m ∈ ms) {i : Nat}
    (hevent : m.event = .leave i ∨ m.event = .resume (some i)) : i < m.pos := by
  induction h with
  | nil => simp at hm
  | cons step _ ih =>
    rcases List.mem_cons.mp hm with rfl | hm
    · cases step <;> simp_all
    · exact ih hm

/-! ## Blocks -/

lemma Step.returning (h : Step lines p m q) {since : Nat} (hevent : m.event = .leave since) : p.returning = true := by
  cases h with
  | leave => rfl
  | _ => cases hevent

lemma Step.opened (h : Step lines p m q) : q.opened = m.event.calls p.opened := by
  cases h <;> rfl

lemma Course.opened (h : Course lines p ms q) : q.opened = callsBehind p.opened ms := by
  induction h with
  | nil => rfl
  | cons step _ ih => rw [ih, step.opened, callsBehind, callsBehind, List.foldl_cons]

lemma Step.item_opened (h : Step lines p m q) {misaligned : Bool} (hevent : m.event = .item misaligned) :
    m.opened = p.opened := by
  cases h with
  | item => rfl
  | _ => cases hevent

lemma Step.nested (h : Step lines p m q) (hp : p.Nested) : q.Nested := by
  obtain ⟨hinwards, hwidths⟩ := hp
  cases h with
  | resume forward => exact ⟨hinwards, rfl⟩
  | enter first code deeper =>
    refine ⟨.cons (fun w hw => ?_) hinwards, rfl⟩
    exact Nat.lt_of_le_of_lt (IndentStack.headD_max hinwards hw) deeper
  | turn => exact ⟨hinwards, rfl⟩
  | pop past => exact ⟨hinwards, rfl⟩
  | unwind => exact ⟨hinwards, hwidths⟩
  | @dedent pos pending opened _ _ closed =>
    refine ⟨hinwards, ?_⟩
    have hdrop := IndentStack.drop_eq_dropWhile (widthAhead lines pos < ·) opened
    rw [← closed] at hdrop
    exact hdrop.symm
  | leave forward => exact ⟨List.Pairwise.of_cons hinwards, hwidths⟩
  | item get code fits => exact ⟨hinwards, rfl⟩
  | consume get owned => exact ⟨hinwards, rfl⟩

lemma Course.nested (h : Course lines p ms q) (hp : p.Nested) : q.Nested := by
  induction h with
  | nil => exact hp
  | cons step _ ih => exact ih (step.nested hp)

/-- If a call is about to return, it returns, and so do those whose blocks are still to be closed. -/
lemma Course.returns (h : Course lines p ms q) (hp : p.returning = true) (hq : q.returning = false)
    (hpending : q.pending = 0) : ∃ returns more r, ms = returns ++ more ∧ Returns p.pending returns ∧
      Course lines p returns r ∧ Course lines r more q ∧ r.returning = false ∧
      r.opened = p.opened.drop (p.pending + 1) := by
  -- Each return with closings pending is followed by the loop outside, which returns at once.
  induction hn : p.pending generalizing p ms with
  | zero =>
    obtain _ | ⟨step, rest⟩ := h
    · rw [hp] at hq
      cases hq
    · cases step with
      | leave forward => exact ⟨[_], _, _, rfl, .last rfl hn, .cons (.leave forward) .nil, rest, rfl, rfl⟩
      | _ => cases hp
  | succ n ih =>
    obtain _ | ⟨step, rest⟩ := h
    · rw [hp] at hq
      cases hq
    · cases step with
      | leave forward =>
        obtain rfl : _ = n + 1 := hn
        obtain _ | ⟨step, rest⟩ := rest
        · cases hpending
        · cases step with
          | unwind =>
            obtain ⟨returns, more, r, rfl, hreturns, hcourse, hmore, hr, hopened⟩ := ih rest rfl rfl
            exact ⟨_ :: _ :: returns, more, r, rfl, .more rfl rfl rfl rfl hreturns,
              .cons (.leave forward) (.cons .unwind hcourse), hmore, hr, hopened⟩
      | _ => cases hp

end

end Stage

/-! ## Moments -/

/-- What holds of a moment in which the calls for blocks of the given levels are open and which some moments
follow. -/
def Moment.Nests (lines : List ByteLine) (opened : List Nat) (m : Moment) (after : List Moment) : Prop :=
  match m.event with
  | .enter indent => lines[m.pos]?.map (·.indent) = some indent ∧ m.indents.current < indent ∧
      ∃ indents, m.indents.push? indent = some indents
  | .head => m.pending = 0 → opened.head? = some m.indents.current ∧ m.indents.levels = opened ++ [0]
  | .dedent width => m.indents.levels = opened.filter (· ≤ width) ++ [0] ∧
      ∃ returns more, after = returns ++ more ∧ Returns m.pending returns ∧
        (∀ n ∈ more.head?, ∀ since, n.event ≠ .leave since) ∧
        m.pending + 1 = (opened.filter (width < ·)).length ∧
        callsBehind opened returns = opened.filter (· ≤ width)
  | .resume _ => m.indents.depth = 0 ∧ m.pending = 0 ∧ opened = []
  | _ => True

/-- Every moment of a course that comes to an end follows the stack. -/
theorem Stage.Course.nests {lines : List ByteLine} {p q : Stage} {before after : List Moment} {m : Moment}
    (h : Stage.Course lines p (before ++ m :: after) q) (hp : p.Nested) (hq : q.returning = false)
    (hpending : q.pending = 0) : m.Nests lines (callsBehind p.opened before) after := by
  obtain ⟨r, hbefore, hrest⟩ := h.split
  have hopened := hbefore.opened
  have hnested := hbefore.nested hp
  rw [← hopened]
  obtain _ | ⟨step, hafter⟩ := hrest
  cases step with
  | resume forward => exact ⟨rfl, rfl, rfl⟩
  | enter first code deeper => exact ⟨by rw [first]; rfl, deeper, _, if_pos deeper⟩
  | turn => exact fun _ => ⟨rfl, rfl⟩
  | pop past => exact fun _ => ⟨rfl, rfl⟩
  | unwind =>
    intro hzero
    cases hzero
  | @dedent pos pending opened _ _ closed =>
    have hfilter := IndentStack.dropWhile_deeper (List.pairwise_append.mp hnested.inwards).1 (widthAhead lines pos)
    have hdrop := IndentStack.drop_eq_dropWhile (widthAhead lines pos < ·) opened
    rw [← closed] at hdrop
    obtain ⟨returns, more, s, rfl, hreturns, hcourse, hmore, hs, hkept⟩ := hafter.returns rfl hq hpending
    have hcalls := hcourse.opened
    refine ⟨?_, returns, more, rfl, hreturns, ?_, ?_, ?_⟩
    · rw [← hfilter]
      rfl
    · intro n hn since hleave
      -- A call would have to be about to return, but the last of the returns leaves none.
      obtain _ | ⟨step, -⟩ := hmore
      · cases hn
      · obtain rfl : _ = n := by simpa using hn
        rw [step.returning hleave] at hs
        cases hs
    · rw [closed, hfilter]
      exact IndentStack.length_sub_filter opened _
    · rw [← hfilter, ← hdrop, ← hkept]
      exact hcalls.symm
  | leave forward => trivial
  | item get code fits => trivial
  | consume get owned => trivial

end RenpyScript
