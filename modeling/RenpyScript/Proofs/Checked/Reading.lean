import RenpyScript.Proofs.Checked.Course
import RenpyScript.Proofs.Checked.Scan
import RenpyScript.Proofs.Outline.Wrapped

/-!
# Which lines are items

A line of code is taken as an item, or it is read as part of the Python body of an item. `LinesRead` follows what a
descent notes down from line to line, and an item may open a body, which goes on for as long as lines belong to it.
-/

namespace RenpyScript

open Outline (itemsOf)

/-- What a line of code says at the top level, or in a block. `rest` are the lines behind it. -/
def LogicalLine.form (topLevel : Bool) (line : LogicalLine) (rest : List LogicalLine) : Form :=
  if topLevel then .topLevel (deeperFollows line.indent rest) line.unread else .nested line.unread

def Form.ownerIndent? (line : LogicalLine) : Form → Option Nat
  | .opensPython _ => some line.indent
  | _ => none

/-- The line at an index belongs to a Python body whose owner has the given indentation. -/
def BodyHolds (ls : List LogicalLine) (owner i : Nat) : Prop :=
  ∃ line, ls[i]? = some line ∧ PythonBody.holds ⟨[], false, owner, 0, false⟩ line (ls.drop (i + 1)) = true

/-- The moments at which a line is taken as an item. -/
def items (ms : List Moment) : List Moment :=
  ms.filter fun m => match m.event with
    | .item _ => true
    | _ => false

@[simp] lemma items_cons_item {m : Moment} {misaligned : Bool} (h : m.event = .item misaligned) (ms : List Moment) :
    items (m :: ms) = m :: items ms :=
  List.filter_cons_of_pos (by rw [h])

@[simp] lemma items_cons_other {m : Moment} (h : ∀ misaligned, m.event ≠ .item misaligned) (ms : List Moment) :
    items (m :: ms) = items ms := by
  refine List.filter_cons_of_neg ?_
  split
  · next misaligned hitem => exact absurd hitem (h misaligned)
  · exact Bool.false_ne_true

lemma items_cons_consume {m : Moment} (h : m.event = .consume) (ms : List Moment) : items (m :: ms) = items ms :=
  items_cons_other (by simp [h]) ms

/-- How the lines from an index on are read, up to another one. At first a Python body is being read if it has an
owner, which is given by its indentation; in the end no body is. -/
inductive LinesRead (ls : List LogicalLine) : Option Nat → Nat → List Moment → Nat → Prop
  | nil {i : Nat} : LinesRead ls none i [] i
  | pass {i j : Nat} {m : Moment} {ms : List Moment} (event : ∀ misaligned, m.event ≠ .item misaligned)
      (other : m.event ≠ .consume) (rest : LinesRead ls none i ms j) : LinesRead ls none i (m :: ms) j
  | other {i j : Nat} {line : LogicalLine} {m : Moment} {ms : List Moment} (get : ls[i]? = some line)
      (kind : line.kind ≠ .code) (event : m.event = .consume) (rest : LinesRead ls none (i + 1) ms j) :
      LinesRead ls none i (m :: ms) j
  /-- A line of code is taken as an item and read. If it is misaligned, it is in one error. -/
  | item {i j : Nat} {line : LogicalLine} {misaligned : Bool} {m m' : Moment} {ms : List Moment}
      (get : ls[i]? = some line) (pos : m.pos = i) (event : m.event = .item misaligned) (event' : m'.event = .consume)
      (wrapped : misaligned = true → ∃ e ∈ Node.preorderAll (itemsOf ls),
        e.Wraps (line.form m.opened.isEmpty (ls.drop (i + 1))).nodes line.start)
      (rest : LinesRead ls ((line.form m.opened.isEmpty (ls.drop (i + 1))).ownerIndent? line) (i + 1) ms j) :
      LinesRead ls none i (m :: m' :: ms) j
  | inside {i j owner : Nat} {m : Moment} {ms : List Moment} (holds : BodyHolds ls owner i) (event : m.event = .consume)
      (rest : LinesRead ls (some owner) (i + 1) ms j) : LinesRead ls (some owner) i (m :: ms) j
  /-- A body ends in front of a line that does not belong to it. -/
  | close {i j owner : Nat} {ms : List Moment} (outside : ¬BodyHolds ls owner i) (rest : LinesRead ls none i ms j) :
      LinesRead ls (some owner) i ms j

/-- All lines from one to another belong to a Python body whose owner has the given indentation. -/
def BodySpans (ls : List LogicalLine) (owner i k : Nat) : Prop :=
  ∀ l, i ≤ l → l ≤ k → BodyHolds ls owner l

/-- The item opens a Python body, and the line at an index is part of it. -/
def Moment.OwnsLine (ls : List LogicalLine) (m : Moment) (k : Nat) : Prop :=
  m.pos < k ∧ ∃ line w, ls[m.pos]? = some line ∧
    (line.form m.opened.isEmpty (ls.drop (m.pos + 1))).ownerIndent? line = some w ∧ BodySpans ls w (m.pos + 1) k

/-- The line at an index is part of the Python body that is being read at another one, or of that of an item. -/
def InBody (ls : List LogicalLine) (owner : Option Nat) (i : Nat) (items : List Moment) (k : Nat) : Prop :=
  (∃ w, owner = some w ∧ BodySpans ls w i k) ∨ ∃ m ∈ items, m.OwnsLine ls k

namespace LinesRead

section
variable {ls : List LogicalLine} {owner : Option Nat} {i j k : Nat} {m : Moment} {ms ns : List Moment} {line : LogicalLine}

lemma append (h : LinesRead ls owner i ms j) (h' : LinesRead ls none j ns k) : LinesRead ls owner i (ms ++ ns) k := by
  induction h with
  | nil => exact h'
  | pass event other _ ih => exact .pass event other (ih h')
  | other get kind event _ ih => exact .other get kind event (ih h')
  | item get pos event event' wrapped _ ih => exact .item get pos event event' wrapped (ih h')
  | inside holds event _ ih => exact .inside holds event (ih h')
  | close outside _ ih => exact .close outside (ih h')

/-! ## Items -/

lemma increasing (h : LinesRead ls owner i ms j) :
    (∀ m ∈ items ms, i ≤ m.pos) ∧ ((items ms).map (·.pos)).Pairwise (· < ·) := by
  induction h with
  | nil => simp [items]
  | pass event other _ ih => rwa [items_cons_other event]
  | other get kind event _ ih =>
    rw [items_cons_consume event]
    exact ⟨fun m hm => Nat.le_of_succ_le (ih.1 m hm), ih.2⟩
  | item get pos event event' wrapped _ ih =>
    rw [items_cons_item event, items_cons_consume event', List.forall_mem_cons, List.map_cons, List.pairwise_cons,
      List.forall_mem_map, pos]
    exact ⟨⟨Nat.le_refl _, fun m hm => Nat.le_of_succ_le (ih.1 m hm)⟩, ih.1, ih.2⟩
  | inside holds event _ ih =>
    rw [items_cons_consume event]
    exact ⟨fun m hm => Nat.le_of_succ_le (ih.1 m hm), ih.2⟩
  | close outside _ ih => exact ih

lemma bodySpans_succ {w : Nat} (hle : i ≤ k) : BodySpans ls w i k ↔ BodyHolds ls w i ∧ BodySpans ls w (i + 1) k := by
  refine ⟨fun h => ⟨h i (Nat.le_refl i) hle, fun l hl => h l (Nat.le_of_succ_le hl)⟩, fun h l hl hk => ?_⟩
  rcases hl.eq_or_lt with rfl | hl
  · exact h.1
  · exact h.2 l hl hk

lemma inBody_item {its : List Moment} (pos : m.pos = i) (get : ls[i]? = some line) (hlt : i < k) :
    InBody ls none i (m :: its) k ↔
      InBody ls ((line.form m.opened.isEmpty (ls.drop (i + 1))).ownerIndent? line) (i + 1) its k := by
  subst pos
  have howns : m.OwnsLine ls k ↔ ∃ w, (line.form m.opened.isEmpty (ls.drop (m.pos + 1))).ownerIndent? line = some w ∧
      BodySpans ls w (m.pos + 1) k := by
    simp [Moment.OwnsLine, hlt, get]
  simp [InBody, howns]

/-- Of the lines of code those are items that are not read as part of a Python body. -/
theorem item_iff (h : LinesRead ls owner i ms j) (hle : i ≤ k) (hlt : k < j) (get : ls[k]? = some line)
    (code : line.kind = .code) : k ∈ (items ms).map (·.pos) ↔ ¬InBody ls owner i (items ms) k := by
  -- A line behind the next one is left to the rest; the next line is an item, in a body, or no code.
  induction h with
  | nil => omega
  | pass event other _ ih =>
    rw [items_cons_other event]
    exact ih hle hlt
  | @other i j line' m ms get' kind event _ ih =>
    have hne : i ≠ k := by
      rintro rfl
      obtain rfl := Option.some.inj (get.symm.trans get')
      exact kind code
    rw [items_cons_consume event, ih (hle.lt_of_ne hne) hlt]
    simp [InBody]
  | @item i j line' misaligned m m' ms get' pos event event' wrapped rest ih =>
    rw [items_cons_item event, items_cons_consume event', List.map_cons, List.mem_cons, pos]
    rcases hle.eq_or_lt with rfl | hbehind
    · refine iff_of_true (.inl rfl) ?_
      rintro (⟨w, hw, -⟩ | ⟨n, hn, hbefore, -⟩)
      · cases hw
      · rcases List.mem_cons.mp hn with rfl | hn
        · exact absurd pos hbefore.ne
        · exact absurd (rest.increasing.1 n hn) (Nat.not_le.mpr (Nat.lt_succ_of_lt hbefore))
    · rw [or_iff_right hbehind.ne', inBody_item pos get' hbehind]
      exact ih hbehind hlt
  | @inside i j w m ms holds event rest ih =>
    rw [items_cons_consume event]
    rcases hle.eq_or_lt with rfl | hbehind
    · refine iff_of_false ?_ (not_not.mpr (.inl ⟨w, rfl, (bodySpans_succ (Nat.le_refl _)).mpr ⟨holds, ?_⟩⟩))
      · intro hmem
        obtain ⟨n, hn, hpos⟩ := List.mem_map.mp hmem
        have hle := rest.increasing.1 n hn
        omega
      · intro l hl hl'
        omega
    · rw [ih hbehind hlt]
      simp [InBody, bodySpans_succ hle, holds]
  | @close i j w ms outside _ ih =>
    rw [ih hle hlt]
    simp [InBody, bodySpans_succ hle, outside]

/-- The nodes of a misaligned item are in one error. -/
theorem item_wrapped (h : LinesRead ls owner i ms j) (hm : m ∈ items ms) (hevent : m.event = .item true) :
    ∃ line, ls[m.pos]? = some line ∧ ∃ e ∈ Node.preorderAll (itemsOf ls),
      e.Wraps (line.form m.opened.isEmpty (ls.drop (m.pos + 1))).nodes line.start := by
  induction h with
  | nil => cases hm
  | pass event _ _ ih => exact ih (items_cons_other event _ ▸ hm)
  | other _ _ event _ ih => exact ih (items_cons_consume event _ ▸ hm)
  | item get pos event event' wrapped _ ih =>
    rw [items_cons_item event, items_cons_consume event'] at hm
    rcases List.mem_cons.mp hm with rfl | hm
    · subst pos
      exact ⟨_, get, wrapped (Event.item.inj (event.symm.trans hevent))⟩
    · exact ih hm
  | inside _ event _ ih => exact ih (items_cons_consume event _ ▸ hm)
  | close _ _ ih => exact ih hm

end

end LinesRead

end RenpyScript
