import RenpyScript.Checked.TreeCursor
import RenpyScript.Proofs.Arena.Places
import RenpyScript.Proofs.Query.Walk

/-!
# Cursors over entries

The stack of a cursor stays the way down from the node it was made on. So the cursor, which looks at children only,
moves as the accesses to children, siblings and parents tell, and never leaves the subtree. `Behind` lists the nodes
that a walk comes to behind the subtree of the current node; a step of the walk takes the current node away from
those to come and leaves the others as they are.
-/

namespace RenpyScript

namespace TreeCursor

/-- A stack is the way down from `start`: each node on it is the child, at its position, of the one below it. -/
inductive IsPath (a : Arena) (start : Nat) : List (Nat × Nat) → Prop
  | start : IsPath a start [(start, 0)]
  | child {c k m j : Nat} {up : List (Nat × Nat)} (above : IsPath a start ((m, j) :: up))
      (get : a.child? m k = some (some c)) : IsPath a start ((c, k) :: (m, j) :: up)

/-- The node that a move from the node `i` leads to, if there is one in the subtree of `start`. -/
def target? (a : Arena) (start i : Nat) : CursorMove → Option (Option Nat)
  | .firstChild => a.child? i 0
  | .nextSibling => if i = start then some none else a.nextSibling? i
  | .parent => if i = start then some none else a.parent? i

/-- The cursor stands at the end of a way down from `start`. A move succeeds if there is a node that it leads to, and
the cursor is on that node then. A move that fails changes nothing. -/
structure Refines (a : Arena) (start : Nat) (c : TreeCursor) : Prop where
  path : IsPath a start c.stack
  moves : ∀ m, ∃ i o d, c.node? = some i ∧ target? a start i m = some o ∧ goto a m c = some (o.isSome, d) ∧
    (o = none → d = c) ∧ ∀ j, o = some j → d.node? = some j

section
variable {a : Arena} {start c i j k m n : Nat} {l l' is : List Nat} {up stack : List (Nat × Nat)} {e : Entry}

/-! ## The stack -/

lemma IsPath.within (h : IsPath a start ((i, k) :: up)) : a.Within start i := by
  generalize hstack : (i, k) :: up = stack at h
  induction h generalizing i k up with
  | start =>
    obtain ⟨⟨rfl, rfl⟩, rfl⟩ := hstack
    exact .refl
  | child above get ih =>
    obtain ⟨⟨rfl, rfl⟩, rfl⟩ := hstack
    exact (ih rfl).child get

lemma IsPath.ne_start (hlinked : Linked a.nodes) (h : IsPath a start ((c, k) :: (m, j) :: up)) : c ≠ start := by
  cases h with
  | child above get =>
    have hle := above.within.le hlinked
    exact Nat.ne_of_lt ((hlinked.child_lt get).trans_le hle)

lemma IsPath.exists_entry (hlinked : Linked a.nodes) (hstart : start < a.nodes.length)
    (h : IsPath a start ((i, k) :: up)) : ∃ e, a.nodes[i]? = some e :=
  Arena.get_of_lt (h.within.lt_length hlinked hstart)

lemma IsPath.exists_node (h : IsPath a start stack) : ∃ i k up, stack = (i, k) :: up := by
  cases h with
  | start => exact ⟨_, _, _, rfl⟩
  | child => exact ⟨_, _, _, rfl⟩

/-! ## Moves -/

lemma gotoFirstChild_eq (he : a.nodes[i]? = some e) (k : Nat) (up : List (Nat × Nat)) :
    gotoFirstChild a ⟨(i, k) :: up⟩ = some (e.children[0]?.isSome, ⟨e.children[0]?.elim ((i, k) :: up) fun c => (c, 0) :: (i, k) :: up⟩) := by
  change (a.nodes[i]? >>= fun e => _) = _
  rw [he, Option.bind_eq_bind, Option.bind_some, ← List.head?_eq_getElem?]
  cases e.children.head? <;> rfl

lemma gotoNextSibling_eq (he : a.nodes[m]? = some e) (c k j : Nat) (up : List (Nat × Nat)) :
    gotoNextSibling a ⟨(c, k) :: (m, j) :: up⟩ = some (e.children[k + 1]?.isSome,
      ⟨e.children[k + 1]?.elim ((c, k) :: (m, j) :: up) fun d => (d, k + 1) :: (m, j) :: up⟩) := by
  rw [gotoNextSibling]
  dsimp only
  rw [he, Option.bind_eq_bind, Option.bind_some]
  cases e.children[k + 1]? <;> rfl

/-- One move from the end of a way down. -/
lemma IsPath.goto (hlinked : Linked a.nodes) (hstart : start < a.nodes.length) (h : IsPath a start stack)
    (move : CursorMove) : ∃ i o d, (TreeCursor.mk stack).node? = some i ∧ target? a start i move = some o ∧
      TreeCursor.goto a move ⟨stack⟩ = some (o.isSome, d) ∧ IsPath a start d.stack ∧ (o = none → d = ⟨stack⟩) ∧
      ∀ j, o = some j → d.node? = some j := by
  cases move with
  | firstChild =>
    obtain ⟨i, k, up, rfl⟩ := h.exists_node
    obtain ⟨e, he⟩ := h.exists_entry hlinked hstart
    have hchild : a.child? i 0 = some e.children[0]? := Arena.child?_eq_some_iff.mpr ⟨e, he, rfl⟩
    have hmove := gotoFirstChild_eq he k up
    cases hget : e.children[0]? with
    | none =>
      rw [hget] at hchild hmove
      exact ⟨i, none, _, rfl, hchild, hmove, h, fun _ => rfl, by simp⟩
    | some c =>
      rw [hget] at hchild hmove
      exact ⟨i, some c, _, rfl, hchild, hmove, h.child hchild, by simp, by rintro _ ⟨⟩; rfl⟩
  | nextSibling =>
    cases h with
    | start => exact ⟨start, none, _, rfl, if_pos rfl, rfl, .start, fun _ => rfl, by simp⟩
    | @child c k m j up above get =>
      obtain ⟨e, he⟩ := above.exists_entry hlinked hstart
      have htarget : target? a start c .nextSibling = some e.children[k + 1]? := by
        rw [target?, if_neg ((above.child get).ne_start hlinked)]
        exact Arena.nextSibling?_eq (hlinked.siblings?_child get he)
      have hmove := gotoNextSibling_eq he c k j up
      cases hget : e.children[k + 1]? with
      | none =>
        rw [hget] at htarget hmove
        exact ⟨c, none, _, rfl, htarget, hmove, above.child get, fun _ => rfl, by simp⟩
      | some d =>
        rw [hget] at htarget hmove
        have hchild : a.child? m (k + 1) = some (some d) := Arena.child?_eq_some_iff.mpr ⟨e, he, hget⟩
        exact ⟨c, some d, _, rfl, htarget, hmove, above.child hchild, by simp, by rintro _ ⟨⟩; rfl⟩
  | parent =>
    cases h with
    | start => exact ⟨start, none, _, rfl, if_pos rfl, rfl, .start, fun _ => rfl, by simp⟩
    | @child c k m j up above get =>
      have htarget : target? a start c .parent = some (some m) := by
        rw [target?, if_neg ((above.child get).ne_start hlinked), hlinked.parent?_child get]
      exact ⟨c, some m, ⟨(m, j) :: up⟩, rfl, htarget, rfl, above, by simp, by rintro _ ⟨⟩; rfl⟩

lemma IsPath.refines (hlinked : Linked a.nodes) (hstart : start < a.nodes.length) (h : IsPath a start stack) :
    Refines a start ⟨stack⟩ := by
  refine ⟨h, fun move => ?_⟩
  obtain ⟨i, o, d, hnode, htarget, hmove, -, hfailed, hmoved⟩ := h.goto hlinked hstart move
  exact ⟨i, o, d, hnode, htarget, hmove, hfailed, hmoved⟩

lemma IsPath.gotoAll (hlinked : Linked a.nodes) (hstart : start < a.nodes.length) (h : IsPath a start stack)
    (moves : List CursorMove) : ∃ c, TreeCursor.gotoAll a moves ⟨stack⟩ = some c ∧ IsPath a start c.stack := by
  induction moves generalizing stack with
  | nil => exact ⟨_, rfl, h⟩
  | cons move moves ih =>
    obtain ⟨_, o, d, -, -, hmove, hpath, -⟩ := h.goto hlinked hstart move
    rw [TreeCursor.gotoAll, hmove, Option.bind_eq_bind, Option.bind_some]
    exact ih hpath

/-! ## The walk -/

/-- The nodes behind the subtree of the current node: its later siblings and those of the nodes above it, with what is
below them. -/
inductive Behind (a : Arena) : List (Nat × Nat) → List Nat → Prop
  | start {i k : Nat} : Behind a [(i, k)] []
  | child {c k m j : Nat} {up : List (Nat × Nat)} {e : Entry} {l l' : List Nat} (get : a.nodes[m]? = some e)
      (later : a.Preorder (e.children.drop (k + 1)) l) (above : Behind a ((m, j) :: up) l') :
      Behind a ((c, k) :: (m, j) :: up) (l ++ l')

/-- The nodes to come from the current one on, in document order. -/
def Ahead (a : Arena) (c : TreeCursor) (l : List Nat) : Prop :=
  ∃ i here behind, c.node? = some i ∧ a.Preorder [i] here ∧ Behind a c.stack behind ∧ l = here ++ behind

lemma preorder_drop (h : a.Preorder (is.drop k) l) (hk : is[k]? = some c) :
    ∃ here rest, a.Preorder [c] here ∧ a.Preorder (is.drop (k + 1)) rest ∧ l = here ++ rest := by
  obtain ⟨hlt, rfl⟩ := List.getElem?_eq_some_iff.mp hk
  rw [List.drop_eq_getElem_cons hlt] at h
  cases h with
  | cons get below rest => exact ⟨_, _, .cons get below .nil, rest, by simp⟩

lemma preorder_drop_of_none (h : a.Preorder (is.drop k) l) (hk : is[k]? = none) : l = [] := by
  rw [List.drop_eq_nil_of_le (List.getElem?_eq_none_iff.mp hk)] at h
  cases h
  rfl

lemma leave_last (he : a.nodes[m]? = some e) (hlast : e.children[k + 1]? = none) :
    leave a ⟨(c, k) :: (m, j) :: up⟩ = leave a ⟨(m, j) :: up⟩ := by
  rw [leave, gotoNextSibling_eq he, hlast]
  simp [gotoParent]

/-- Leaving a node, the cursor comes to the first one behind its subtree, or it is back where it began. -/
lemma leave_eq (h : IsPath a start stack) (hbehind : Behind a stack l) :
    (leave a ⟨stack⟩ = some (false, on start) ∧ l = []) ∨
      ∃ d, leave a ⟨stack⟩ = some (true, d) ∧ IsPath a start d.stack ∧ Ahead a d l := by
  induction h generalizing l with
  | start =>
    cases hbehind
    refine .inl ⟨?_, rfl⟩
    rw [leave]
    rfl
  | @child c k m j up above get ih =>
    obtain _ | @⟨_, _, _, _, _, e, later, behind, he, hlater, hup⟩ := hbehind
    cases hnext : e.children[k + 1]? with
    | some d =>
      obtain ⟨here, rest, hhere, hrest, rfl⟩ := preorder_drop hlater hnext
      have hget : a.child? m (k + 1) = some (some d) := Arena.child?_eq_some_iff.mpr ⟨e, he, hnext⟩
      refine .inr ⟨⟨(d, k + 1) :: (m, j) :: up⟩, ?_, above.child hget, d, here, rest ++ behind, rfl, hhere,
        .child he hrest hup, List.append_assoc ..⟩
      rw [leave, gotoNextSibling_eq he, hnext]
      rfl
    | none =>
      rw [preorder_drop_of_none hlater hnext, List.nil_append, leave_last he hnext]
      exact ih hup

/-- A step of the walk takes the current node away from those to come. -/
lemma advance_eq (h : IsPath a start stack) (hahead : Ahead a ⟨stack⟩ l) :
    ∃ i rest, (TreeCursor.mk stack).node? = some i ∧ l = i :: rest ∧
      ((advance a ⟨stack⟩ = some (false, on start) ∧ rest = []) ∨
        ∃ d, advance a ⟨stack⟩ = some (true, d) ∧ IsPath a start d.stack ∧ Ahead a d rest) := by
  obtain ⟨i, k, up, rfl⟩ := h.exists_node
  obtain ⟨_, here, behind, ⟨⟩, hhere, hbehind, rfl⟩ := hahead
  obtain _ | @⟨_, _, below, _, e, he, hbelow, ⟨⟩⟩ := hhere
  rw [← List.drop_zero (l := e.children)] at hbelow
  refine ⟨i, below ++ behind, rfl, by simp, ?_⟩
  rw [advance, gotoFirstChild_eq he]
  cases hfirst : e.children[0]? with
  | some c =>
    obtain ⟨here, rest, hhere, hrest, rfl⟩ := preorder_drop hbelow hfirst
    have hget : a.child? i 0 = some (some c) := Arena.child?_eq_some_iff.mpr ⟨e, he, hfirst⟩
    exact .inr ⟨⟨(c, 0) :: (i, k) :: up⟩, rfl, h.child hget, c, here, rest ++ behind, rfl, hhere,
      .child he hrest hbehind, List.append_assoc ..⟩
  | none =>
    rw [preorder_drop_of_none hbelow hfirst, List.nil_append]
    exact leave_eq h hbehind

/-- A walk with enough steps comes to all the nodes ahead, one after the other, and is then back where it began. -/
lemma walkUpTo_eq {steps : Nat} (h : IsPath a start stack) (hahead : Ahead a ⟨stack⟩ l) (hsteps : l.length ≤ steps) :
    walkUpTo a steps ⟨stack⟩ = some (l, on start) := by
  induction steps generalizing stack l with
  | zero =>
    obtain ⟨i, rest, -, rfl, -⟩ := advance_eq h hahead
    exact absurd hsteps (by simp)
  | succ steps ih =>
    obtain ⟨i, rest, hnode, rfl, ⟨hadvance, rfl⟩ | ⟨d, hadvance, hpath, hrest⟩⟩ := advance_eq h hahead
    · rw [walkUpTo, hnode, hadvance]
      rfl
    · rw [walkUpTo, hnode, hadvance, Option.bind_eq_bind, Option.bind_some, Option.bind_eq_bind, Option.bind_some]
      dsimp only
      rw [if_pos rfl, ih hpath hrest (Nat.le_of_succ_le_succ hsteps)]
      rfl

lemma walk_eq (hlinked : Linked a.nodes) (hstart : start < a.nodes.length) :
    ∃ l, walk a start = some (l, on start) ∧ a.Preorder [start] l ∧ l.Nodup ∧ ∀ j, j ∈ l ↔ a.Within start j := by
  obtain ⟨l, hl⟩ := Arena.exists_preorder hlinked [start] (by simpa using hstart)
  have hnodup := hl.nodup_single hlinked
  have hsteps : l.length ≤ a.nodes.length := by
    simpa using (hnodup.subperm (hl.subset_range hlinked hstart)).length_le
  have hahead : Ahead a (on start) l := ⟨start, l, [], rfl, hl, .start, (List.append_nil l).symm⟩
  exact ⟨l, walkUpTo_eq .start hahead hsteps, hl, hnodup, fun j => hl.mem_single⟩

end

end TreeCursor

/-! ## Cursors in the tree -/

namespace Cursor

def goto? (c : Cursor) : CursorMove → Option Cursor
  | .firstChild => c.firstChild?
  | .nextSibling => c.nextSibling?
  | .parent => c.parent?

/-- The position after some moves. One that fails changes nothing. -/
def gotoAll (moves : List CursorMove) (c : Cursor) : Cursor :=
  moves.foldl (fun c m => (c.goto? m).getD c) c

lemma keptFrom_trailAcross? (keep : Node → Bool) (start : Node) (trail : List (Node × Nat)) :
    (trailAcross? start trail).elim [] (fun t => keptFrom keep ⟨start, t⟩) = keptBehind keep start trail := by
  fun_induction trailAcross? start trail with
  | case1 => rfl
  | case2 n i up m hm =>
    rw [keptBehind, Node.preorderAllWhere_drop hm, List.append_assoc]
    rfl
  | case3 n i up hm ih => rw [ih, keptBehind, Node.preorderAllWhere_drop_of_none hm, List.nil_append]

lemma keptFrom_advance? (c : Cursor) :
    c.keptFrom (fun _ => true) = c.node :: c.advance?.elim [] (keptFrom fun _ => true) := by
  rw [advance?]
  cases hfirst : c.firstChild? with
  | some d => exact keptFrom_firstChild? hfirst rfl
  | none =>
    rw [keptFrom_of_firstChild?_none hfirst rfl, ← keptFrom_trailAcross?]
    cases trailAcross? c.start c.trail <;> rfl

lemma map_node_walkFrom (steps : Nat) (c : Cursor) :
    (walkFrom steps c).map node = (c.keptFrom fun _ => true).take (steps + 1) := by
  induction steps generalizing c with
  | zero =>
    rw [keptFrom_advance?]
    rfl
  | succ steps ih =>
    rw [walkFrom, keptFrom_advance?, List.take_succ_cons]
    cases c.advance? with
    | none => rfl
    | some d =>
      rw [Option.elim_some, ← ih]
      rfl

lemma map_node_walk (n : Node) : (walk n).map node = n.preorder := by
  have hkept := Place.filter_kept_preorderFrom (fun _ => true) [] n
  rw [List.filter_eq_self.mpr (fun p _ => by simp [Place.kept]), Place.map_node_preorderFrom, List.all_nil,
    if_pos rfl] at hkept
  have hlength := n.length_preorder
  have hfrom : (on n).keptFrom (fun _ => true) = n.preorder := by
    rw [hkept]
    exact List.append_nil _
  rw [walk, map_node_walkFrom, hfrom, List.take_of_length_le (by omega)]

end Cursor

namespace TreeCursor

/-- The nodes on the way down to a cursor are those on the way down in the tree. -/
inductive Holds (a : Arena) (table : LineTable) (start : Node) : List (Nat × Nat) → List (Node × Nat) → Prop
  | start {i k : Nat} (node : a.Holds table i start) : Holds a table start [(i, k)] []
  | child {c k m j : Nat} {up : List (Nat × Nat)} {n : Node} {trail : List (Node × Nat)}
      (above : Holds a table start ((m, j) :: up) trail) (node : a.Holds table c n) :
      Holds a table start ((c, k) :: (m, j) :: up) ((n, k) :: trail)

/-- A cursor over the entries is where a cursor in the tree is. -/
def Tracks (a : Arena) (table : LineTable) (c : TreeCursor) (d : Cursor) : Prop :=
  Holds a table d.start c.stack d.trail

/-- The cursor is where one in the tree is, and a move has the same outcome for both. -/
structure Mirrors (a : Arena) (table : LineTable) (c : TreeCursor) (d : Cursor) : Prop where
  tracks : Tracks a table c d
  moves : ∀ m, ∃ c', TreeCursor.goto a m c = some ((d.goto? m).isSome, c') ∧ Tracks a table c' ((d.goto? m).getD d)

section
variable {a : Arena} {table : LineTable} {start i k m j : Nat} {n : Node} {up stack : List (Nat × Nat)}
  {trail : List (Node × Nat)} {c : TreeCursor} {d : Cursor}

lemma Holds.node (h : Holds a table n ((i, k) :: up) trail) : a.Holds table i (Cursor.endOf n trail) := by
  cases h with
  | start node => exact node
  | child above node => exact node

lemma Holds.exists_node (h : Holds a table n stack trail) : ∃ i k up, stack = (i, k) :: up := by
  cases h with
  | start => exact ⟨_, _, _, rfl⟩
  | child => exact ⟨_, _, _, rfl⟩

/-- A move has the same outcome for both cursors. -/
lemma Tracks.goto (h : Tracks a table c d) (move : CursorMove) : ∃ c', TreeCursor.goto a move c =
    some ((d.goto? move).isSome, c') ∧ Tracks a table c' ((d.goto? move).getD d) := by
  obtain ⟨stack⟩ := c
  obtain ⟨n, trail⟩ := d
  change Holds a table n stack trail at h
  cases move with
  | firstChild =>
    obtain ⟨i, k, up, rfl⟩ := h.exists_node
    obtain ⟨e, he, -⟩ := h.node.get
    have hmove := gotoFirstChild_eq he k up
    have hfirst : (Cursor.mk n trail).goto? .firstChild =
        (Cursor.endOf n trail).children[0]?.map fun x => ⟨n, (x, 0) :: trail⟩ := by
      rw [← List.head?_eq_getElem?]
      rfl
    rw [hfirst]
    rcases rel_cases (rel_getElem? (h.node.children he) 0) with ⟨hnone, hnone'⟩ | ⟨c, x, hsome, hsome', hx⟩
    · rw [hnone] at hmove
      rw [hnone']
      exact ⟨_, hmove, h⟩
    · rw [hsome] at hmove
      rw [hsome']
      exact ⟨_, hmove, h.child hx⟩
  | nextSibling =>
    cases h with
    | start node => exact ⟨_, rfl, .start node⟩
    | @child c k m j up x trail above node =>
      obtain ⟨e, he, -⟩ := above.node.get
      have hmove := gotoNextSibling_eq he c k j up
      have hnext : (Cursor.mk n ((x, k) :: trail)).goto? .nextSibling =
          (Cursor.endOf n trail).children[k + 1]?.map fun y => ⟨n, (y, k + 1) :: trail⟩ := rfl
      rw [hnext]
      rcases rel_cases (rel_getElem? (above.node.children he) (k + 1)) with ⟨hnone, hnone'⟩ | ⟨c, y, hsome, hsome', hy⟩
      · rw [hnone] at hmove
        rw [hnone']
        exact ⟨_, hmove, above.child node⟩
      · rw [hsome] at hmove
        rw [hsome']
        exact ⟨_, hmove, above.child hy⟩
  | parent =>
    cases h with
    | start node => exact ⟨_, rfl, .start node⟩
    | child above node => exact ⟨_, rfl, above⟩

lemma Tracks.gotoAll (h : Tracks a table c d) (moves : List CursorMove) :
    ∃ c', TreeCursor.gotoAll a moves c = some c' ∧ Tracks a table c' (d.gotoAll moves) := by
  induction moves generalizing c d with
  | nil => exact ⟨c, rfl, h⟩
  | cons move moves ih =>
    obtain ⟨c', hmove, htracks⟩ := h.goto move
    rw [TreeCursor.gotoAll, hmove, Option.bind_eq_bind, Option.bind_some]
    exact ih htracks

end

end TreeCursor

/-- In what a descent leaves behind, a cursor moves as the accesses to children, siblings and parents tell, but stays
below the node it was made on. A walk comes to every node of the subtree once, in document order, and back to where
it began. The cursors in the tree of the text do the same. -/
theorem Descent.parse_cursor (text : String) : ∃ r, parse text.toList = some r ∧
    ∀ start < r.arena.nodes.length, ∃ p, r.arena.Stands (Tree.parse text).root start p ∧
      (∀ moves, ∃ c, TreeCursor.gotoAll r.arena moves (.on start) = some c ∧ c.Refines r.arena start ∧
        c.Mirrors r.arena (.ofText text.toList) ((Cursor.on p.node).gotoAll moves)) ∧
      ∃ l, TreeCursor.walk r.arena start = some (l, .on start) ∧ r.arena.Preorder [start] l ∧ l.Nodup ∧
        (∀ j, j ∈ l ↔ r.arena.Within start j) ∧
        List.Forall₂ (r.arena.Holds (.ofText text.toList)) l ((Cursor.walk p.node).map Cursor.node) := by
  obtain ⟨r, hparse, h⟩ := parse_represents text
  refine ⟨r, hparse, fun start hstart => ?_⟩
  obtain ⟨p, hp⟩ := Arena.exists_place h hstart
  refine ⟨p, hp, fun moves => ?_, ?_⟩
  · have htracks : TreeCursor.Tracks r.arena (.ofText text.toList) (.on start) (.on p.node) := .start (hp.holds h)
    obtain ⟨c, hmoves, hpath⟩ := (TreeCursor.IsPath.start (a := r.arena)).gotoAll h.linked hstart moves
    obtain ⟨c', hmoves', hc'⟩ := htracks.gotoAll moves
    obtain rfl : c = c' := Option.some.inj (hmoves.symm.trans hmoves')
    exact ⟨c, hmoves, hpath.refines h.linked hstart, ⟨hc', hc'.goto⟩⟩
  · obtain ⟨l, hwalk, hl, hnodup, hmem⟩ := TreeCursor.walk_eq h.linked hstart
    refine ⟨l, hwalk, hl, hnodup, hmem, ?_⟩
    have hholds := hl.holds (.cons (hp.holds h) .nil)
    rwa [Node.preorderAll_eq, List.flatMap_singleton, ← Cursor.map_node_walk] at hholds

end RenpyScript
