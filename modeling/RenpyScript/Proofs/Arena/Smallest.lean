import RenpyScript.Proofs.Arena.WellFormed

/-!
# The smallest node over a range

The way down goes into the first child that covers a range and never comes back. Children lie in their parent one
behind the other, so no other child covers a range that is not empty, and the nodes of a subtree that span it are
those on the way down.
-/

namespace RenpyScript

namespace Arena

/-- The node at an index spans `start ..= stop`. -/
def Spans (a : Arena) (start stop i : Nat) : Prop :=
  ∃ e, a.nodes[i]? = some e ∧ e.span.start ≤ start ∧ stop ≤ e.span.stop

/-- Whether a node is covering, as the way down asks. -/
def isCovering (a : Arena) (start stop i : Nat) : Bool :=
  (a.covers? start stop i).getD false

/-- The answer is the first named node from `i` on up, if there is one. -/
def NearestNamed (a : Arena) (i : Nat) : Option Nat → Prop
  | none => ∀ m, a.Within m i → a.named? m ≠ some true
  | some d => a.Within d i ∧ a.named? d = some true ∧ ∀ m, a.Within m i → a.named? m = some true → a.Within m d

section
variable {a : Arena} {t : Tree} {start stop i k n m c d : Nat} {p q : Place} {e : Entry} {o : Option Nat}

/-! ## Spans -/

lemma covers?_of_get (he : a.nodes[i]? = some e) : a.covers? start stop i =
    some (decide (e.span.start ≤ start) && decide (stop ≤ e.span.stop) && decide (e.span.start < e.span.stop)) := by
  rw [covers?, he]
  rfl

lemma isCovering_iff (h : start < stop) : a.isCovering start stop i = true ↔ a.Spans start stop i := by
  rw [isCovering]
  constructor
  · intro hcovers
    cases he : a.nodes[i]? with
    | none => simp [covers?, he] at hcovers
    | some e =>
      rw [covers?_of_get he] at hcovers
      simp only [Option.getD_some, Bool.and_eq_true, decide_eq_true_eq] at hcovers
      exact ⟨e, he, hcovers.1⟩
  · rintro ⟨e, he, hstart, hstop⟩
    rw [covers?_of_get he]
    simp only [Option.getD_some, Bool.and_eq_true, decide_eq_true_eq]
    omega

lemma Laid.spans (hlaid : a.Laid) (h : a.Within n m) (hspans : a.Spans start stop m) : a.Spans start stop n := by
  induction h with
  | refl => exact hspans
  | child _ get ih =>
    obtain ⟨f, hf, hstart, hstop⟩ := hspans
    obtain ⟨e, he, -⟩ := child?_eq_some_iff.mp get
    obtain ⟨hstart', hstop'⟩ := hlaid.nested get he hf
    exact ih ⟨e, he, hstart'.trans hstart, hstop.trans hstop'⟩

lemma Laid.spans_unique (hlaid : a.Laid) (h : start < stop) (hc : a.child? n i = some (some c))
    (hd : a.child? n k = some (some d)) (hspans : a.Spans start stop c) (hspans' : a.Spans start stop d) : c = d := by
  obtain ⟨f, hf, hstart, hstop⟩ := hspans
  obtain ⟨g, hg, hstart', hstop'⟩ := hspans'
  rcases Nat.lt_trichotomy i k with hik | rfl | hki
  · have hle := hlaid.ordered hik hc hd hf hg
    omega
  · rw [hc, Option.some.injEq, Option.some.injEq] at hd
    exact hd
  · have hle := hlaid.ordered hki hd hc hg hf
    omega

/-! ## The way down -/

lemma narrow_eq (hlinked : Linked a.nodes) (he : a.nodes[i]? = some e) : a.narrow start stop i =
    (e.children.find? (a.isCovering start stop)).elim (some i) (a.narrow start stop) := by
  have hcovers : ∀ c ∈ e.children, a.covers? start stop c = some (a.isCovering start stop c) := by
    intro c hc
    obtain ⟨f, hf⟩ := get_of_lt ((hlinked.below i e he c hc).trans (lt_of_get he))
    rw [isCovering, covers?_of_get hf]
    rfl
  rw [narrow, he, Option.bind_eq_bind, Option.bind_some, findM?_eq_some hcovers, Option.bind_eq_bind, Option.bind_some]
  cases hfind : e.children.find? (a.isCovering start stop) with
  | none => rfl
  | some c =>
    dsimp only
    rw [if_pos (hlinked.below i e he c (List.mem_of_find?_eq_some hfind))]
    rfl

lemma narrow_smallest (hlinked : Linked a.nodes) (hlaid : a.Laid) (h : start < stop) (hspans : a.Spans start stop i) :
    ∃ r, a.narrow start stop i = some r ∧ a.Within i r ∧ a.Spans start stop r ∧
      ∀ m, a.Within i m → a.Spans start stop m → a.Within m r := by
  induction i using Nat.strong_induction_on with
  | _ i ih =>
    obtain ⟨e, he, -⟩ := id hspans
    rw [narrow_eq hlinked he]
    cases hfind : e.children.find? (a.isCovering start stop) with
    | none =>
      refine ⟨i, rfl, .refl, hspans, fun m hm hm' => ?_⟩
      rcases hm.cases_child with rfl | ⟨k, c, hc, hwithin⟩
      · exact .refl
      · obtain ⟨e', he', hmem⟩ := mem_children hc
        rw [he, Option.some.injEq] at he'
        subst he'
        exact absurd ((isCovering_iff h).mpr (hlaid.spans hwithin hm')) (List.find?_eq_none.mp hfind c hmem)
    | some c =>
      obtain ⟨k, hc⟩ := exists_child he (List.mem_of_find?_eq_some hfind)
      have hspans' : a.Spans start stop c := (isCovering_iff h).mp (List.find?_some hfind)
      obtain ⟨r, hr, hbelow, hspansr, hsmallest⟩ := ih c (hlinked.child_lt hc) hspans'
      have hwithin : a.Within i c := Within.refl.child hc
      refine ⟨r, hr, hwithin.trans hbelow, hspansr, fun m hm hm' => ?_⟩
      rcases hm.cases_child with rfl | ⟨k', c', hc', hwithin'⟩
      · exact hwithin.trans hbelow
      · obtain rfl := hlaid.spans_unique h hc hc' hspans' (hlaid.spans hwithin' hm')
        exact hsmallest m hwithin' hm'

lemma descendant?_smallest (hlinked : Linked a.nodes) (hlaid : a.Laid) (h : start < stop) (hn : n < a.nodes.length) :
    ∃ o, a.descendant? n start stop = some o ∧ (o = none ↔ ¬a.Spans start stop n) ∧
      ∀ r, o = some r → a.Within n r ∧ a.Spans start stop r ∧
        ∀ m, a.Within n m → a.Spans start stop m → a.Within m r := by
  obtain ⟨e, he⟩ := get_of_lt hn
  have hspans : a.Spans start stop n ↔ ¬(start < e.span.start ∨ e.span.stop < stop) := by
    simp [Spans, he]
  rw [descendant?, he, Option.bind_eq_bind, Option.bind_some]
  by_cases hout : start < e.span.start ∨ e.span.stop < stop
  · rw [if_pos hout]
    exact ⟨none, rfl, by simp [hspans, hout], by simp⟩
  · obtain ⟨r, hr, hbelow⟩ := narrow_smallest hlinked hlaid h (hspans.mpr hout)
    rw [if_neg hout, hr]
    refine ⟨some r, rfl, by simp [hspans, hout], ?_⟩
    rintro _ ⟨⟩
    exact hbelow

/-! ## The way up -/

lemma nearestNamed?_root (h : a.Whole) :
    a.nearestNamed? a.root = some (if a.isNamed a.root then some a.root else none) := by
  obtain ⟨e, he, hparent⟩ := Option.bind_eq_some_iff.mp h.root
  rw [nearestNamed?, he, isNamed, named?, he]
  dsimp only [Option.bind_eq_bind, Option.bind_some, Option.pure_def, Option.getD_some]
  rw [Option.some.inj hparent]
  split <;> rfl

lemma nearestNamed?_child (hlinked : Linked a.nodes) (hc : a.child? n k = some (some c)) :
    a.nearestNamed? c = if a.isNamed c then some (some c) else a.nearestNamed? n := by
  obtain ⟨e, he, hparent⟩ := Option.bind_eq_some_iff.mp (hlinked.parent?_child hc)
  obtain ⟨f, hf, -⟩ := child?_eq_some_iff.mp hc
  rw [nearestNamed?, he, isNamed, named?, he]
  dsimp only [Option.bind_eq_bind, Option.bind_some, Option.pure_def, Option.getD_some]
  rw [Option.some.inj hparent]
  dsimp only
  rw [if_pos (c := c < n ∧ n < a.nodes.length) ⟨hlinked.child_lt hc, lt_of_get hf⟩]

lemma nearestNamed?_nearest (h : a.Whole) (hi : i < a.nodes.length) :
    ∃ o, a.nearestNamed? i = some o ∧ a.NearestNamed i o := by
  -- A named node is the nearest to itself.
  have hself : ∀ {i : Nat}, i < a.nodes.length → a.isNamed i = true → a.NearestNamed i (some i) :=
    fun hi hnamed => ⟨.refl, by rw [named?_of_lt hi, hnamed], fun _ hm _ => hm⟩
  have hreached := h.reached i hi
  induction hreached with
  | refl =>
    rw [nearestNamed?_root h]
    by_cases hnamed : a.isNamed a.root = true
    · exact ⟨_, rfl, by rw [if_pos hnamed]; exact hself hi hnamed⟩
    · refine ⟨_, rfl, ?_⟩
      rw [if_neg hnamed]
      intro m hm hm'
      rw [h.eq_root hm, named?_of_lt hi, Option.some.injEq] at hm'
      exact hnamed hm'
  | @child m k c above get ih =>
    rw [nearestNamed?_child h.linked get]
    by_cases hnamed : a.isNamed c = true
    · exact ⟨_, if_pos hnamed, hself hi hnamed⟩
    · obtain ⟨o, ho, hnearest⟩ := ih (above.lt_length h.linked h.root_lt)
      refine ⟨o, by rw [if_neg hnamed, ho], ?_⟩
      have habove : ∀ x, a.Within x c → a.named? x = some true → a.Within x m := by
        intro x hx hx'
        rcases hx.cases_parent with rfl | ⟨p, k', above', get'⟩
        · rw [named?_of_lt hi, Option.some.injEq] at hx'
          exact absurd hx' hnamed
        · obtain ⟨rfl, -⟩ := h.linked.child_unique get get'
          exact above'
      cases o with
      | none => exact fun x hx hx' => hnearest x (habove x hx hx') hx'
      | some d => exact ⟨hnearest.1.child get, hnearest.2.1, fun x hx hx' => hnearest.2.2 x (habove x hx hx') hx'⟩

lemma namedDescendant?_eq (ho : a.descendant? n start stop = some o) :
    a.namedDescendant? n start stop = o.elim (some none) a.nearestNamed? := by
  rw [namedDescendant?, ho]
  cases o <;> rfl

end

end Arena

/-! ## In the tree -/

namespace Place

section
variable {start stop : Nat}

lemma narrowAmong_eq (parent : Node) (above : List (Node × Nat)) (i : Nat) (ns : List Node) :
    narrowAmong start stop parent above i ns =
      ((ns.mapIdx fun k n => (⟨n, (parent, i + k) :: above⟩ : Place)).find? fun q => covers start stop q.node).map
        fun q => narrow start stop q.above q.node := by
  induction ns generalizing i with
  | nil => rfl
  | cons n ns ih =>
    rw [narrowAmong, List.mapIdx_cons, List.find?_cons]
    dsimp only
    cases covers start stop n with
    | true => rfl
    | false =>
      rw [if_neg (by decide), ih]
      simp only [Nat.add_assoc, Nat.add_comm 1]

lemma narrow_eq (p : Place) : narrow start stop p.above p.node =
    (p.children.find? fun q => covers start stop q.node).elim p fun q => narrow start stop q.above q.node := by
  obtain ⟨⟨field, kind, span, missing, children⟩, above⟩ := p
  rw [children_eq]
  dsimp only
  rw [narrow, narrowAmong_eq]
  simp only [Nat.zero_add]
  cases List.find? .. <;> rfl

end

end Place

namespace Arena

section
variable {a : Arena} {t : Tree} {i : Nat} {p : Place}

lemma Stands.isCovering_eq (h : a.Represents t) (hi : a.Stands t.root i p) (start stop : Nat) :
    a.isCovering start stop i = Place.covers start stop p.node := by
  obtain ⟨e, he, -, hspan⟩ := hi.get h
  rw [isCovering, covers?_of_get he, hspan]
  rfl

lemma Stands.narrow (h : a.Represents t) (hi : a.Stands t.root i p) (start stop : Nat) :
    ∃ r, a.narrow start stop i = some r ∧ a.Stands t.root r (Place.narrow start stop p.above p.node) := by
  induction i using Nat.strong_induction_on generalizing p with
  | _ i ih =>
    obtain ⟨e, he, -⟩ := hi.get h
    rw [narrow_eq h.linked he, Place.narrow_eq]
    have hrel := rel_find? (hi.children h he) fun c q hc => hc.isCovering_eq h start stop
    rcases rel_cases hrel with ⟨hnone, hnone'⟩ | ⟨c, q, hsome, hsome', hc⟩
    · rw [hnone, hnone']
      exact ⟨i, rfl, hi⟩
    · rw [hsome, hsome']
      exact ih c (h.linked.below i e he c (List.mem_of_find?_eq_some hsome)) hc

lemma Stands.answers_descendant (h : a.Represents t) (hi : a.Stands t.root i p) (start stop : Nat) :
    a.Answers t.root (a.descendant? i start stop) (p.descendant? start stop) := by
  obtain ⟨e, he, -, hspan⟩ := hi.get h
  obtain ⟨r, hr, hstands⟩ := hi.narrow h start stop
  rw [descendant?, he, Option.bind_eq_bind, Option.bind_some, Place.descendant?, ← hspan]
  by_cases hout : start < e.span.start ∨ e.span.stop < stop
  · rw [if_pos hout, if_neg (by omega)]
    exact ⟨none, rfl, .none⟩
  · rw [if_neg hout, if_pos (by omega), hr]
    exact ⟨some r, rfl, .some hstands⟩

lemma Stands.answers_nearestNamed (h : a.Represents t) (hi : a.Stands t.root i p) :
    a.Answers t.root (a.nearestNamed? i) (Place.nearestNamed? p.node p.above) := by
  induction hi with
  | root =>
    rw [nearestNamed?_root h.toWhole, (Stands.root (a := a)).isNamed_eq h]
    refine ⟨_, rfl, ?_⟩
    change Option.Rel _ _ (if (Place.root t.root).node.named = true then some (Place.root t.root) else none)
    split
    · exact .some .root
    · exact .none
  | @child i k c p q above get get' ih =>
    have hc : a.Stands t.root c q := above.child get get'
    rw [nearestNamed?_child h.linked get, hc.isNamed_eq h, (Place.child?_eq_some_iff.mp get').2, Place.nearestNamed?,
      ← (Place.child?_eq_some_iff.mp get').2]
    split
    · exact ⟨some c, rfl, .some hc⟩
    · exact ih

lemma Stands.answers_namedDescendant (h : a.Represents t) (hi : a.Stands t.root i p) (start stop : Nat) :
    a.Answers t.root (a.namedDescendant? i start stop) (p.namedDescendant? start stop) := by
  obtain ⟨o, ho, hrel⟩ := hi.answers_descendant h start stop
  rw [namedDescendant?_eq ho, Place.namedDescendant?]
  rcases rel_cases hrel with ⟨rfl, hnone'⟩ | ⟨r, q, rfl, hsome', hr⟩
  · rw [hnone']
    exact ⟨none, rfl, .none⟩
  · rw [hsome']
    exact hr.answers_nearestNamed h

end

end Arena

/-- In what a descent leaves behind, the way down to a range that is not empty fails only at a node that does not span
it. Otherwise it ends at a node that spans it, and every node of the subtree that spans it is that one or above it.
The named node over the range is the nearest one from there on up. Both answer as the moves in the tree of the text
do. -/
theorem Descent.parse_smallest (text : String) {start stop : Nat} (h : start < stop) : ∃ r, parse text.toList = some r ∧
    ∀ n < r.arena.nodes.length, ∃ o o' p, r.arena.descendant? n start stop = some o ∧
      (o = none ↔ ¬r.arena.Spans start stop n) ∧
      (∀ d, o = some d → r.arena.Within n d ∧ r.arena.Spans start stop d ∧
        ∀ m, r.arena.Within n m → r.arena.Spans start stop m → r.arena.Within m d) ∧
      r.arena.namedDescendant? n start stop = some o' ∧ (o = none → o' = none) ∧
      (∀ d, o = some d → r.arena.NearestNamed d o') ∧
      r.arena.Stands (Tree.parse text).root n p ∧
      Option.Rel (r.arena.Stands (Tree.parse text).root) o (p.descendant? start stop) ∧
      Option.Rel (r.arena.Stands (Tree.parse text).root) o' (p.namedDescendant? start stop) := by
  obtain ⟨r, hparse, hrepresents⟩ := parse_represents text
  refine ⟨r, hparse, fun n hn => ?_⟩
  obtain ⟨p, hp⟩ := Arena.exists_place hrepresents hn
  obtain ⟨o, ho, hnone, hsmallest⟩ :=
    Arena.descendant?_smallest hrepresents.linked (Arena.represents_laid hrepresents) h hn
  obtain ⟨_, ho₂, hrel⟩ := hp.answers_descendant hrepresents start stop
  obtain ⟨o', ho', hrel'⟩ := hp.answers_namedDescendant hrepresents start stop
  obtain rfl := Option.some.inj (ho.symm.trans ho₂)
  refine ⟨o, o', p, ho, hnone, hsmallest, ho', ?_, ?_, hp, hrel, hrel'⟩
  · rintro rfl
    rw [Arena.namedDescendant?_eq ho] at ho'
    exact (Option.some.inj ho').symm
  · rintro d rfl
    rw [Arena.namedDescendant?_eq ho] at ho'
    have hd := (hsmallest d rfl).1.lt_length hrepresents.linked hn
    obtain ⟨_, hnearest, hup⟩ := Arena.nearestNamed?_nearest hrepresents.toWhole hd
    obtain rfl := Option.some.inj (hnearest.symm.trans ho')
    exact hup

/-- Over the keyword of a statement the smallest node is the keyword, which is not named, and the named node is the
statement. -/
theorem Descent.parse_smallest_keyword : 0 < 4 ∧ ∃ r d d', parse "jump a\n".toList = some r ∧
    r.arena.descendant? r.arena.root 0 4 = some (some d) ∧ r.arena.nodes[d]?.map Entry.kind = some (.keyword .jump) ∧
    (∀ m, r.arena.Within r.arena.root m → r.arena.Spans 0 4 m → r.arena.Within m d) ∧
    r.arena.namedDescendant? r.arena.root 0 4 = some (some d') ∧ r.arena.NearestNamed d (some d') ∧
    r.arena.nodes[d']?.map Entry.kind = some .renpyStatement := by
  refine ⟨by decide, ?_⟩
  obtain ⟨r, hparse, hrepresents⟩ := parse_represents "jump a\n"
  obtain ⟨r', hparse', hall⟩ := parse_smallest "jump a\n" (show 0 < 4 by decide)
  obtain rfl := Option.some.inj (hparse.symm.trans hparse')
  obtain ⟨o, o', p, ho, -, hsmallest, ho', -, hnearest, hp, hrel, hrel'⟩ := hall r.arena.root hrepresents.root_lt
  obtain rfl := hp.place_unique hrepresents .root
  have hkind : ((Place.root (Tree.parse "jump a\n").root).descendant? 0 4).map (·.node.kind) =
      some (.keyword .jump) := by decide +kernel
  have hkind' : ((Place.root (Tree.parse "jump a\n").root).namedDescendant? 0 4).map (·.node.kind) =
      some .renpyStatement := by decide +kernel
  obtain ⟨q, hq, hqkind⟩ := Option.map_eq_some_iff.mp hkind
  obtain ⟨q', hq', hqkind'⟩ := Option.map_eq_some_iff.mp hkind'
  rw [hq] at hrel
  rw [hq'] at hrel'
  obtain ⟨d, rfl, hd⟩ := exists_of_rel_right hrel
  obtain ⟨d', rfl, hd'⟩ := exists_of_rel_right hrel'
  obtain ⟨e, he, hekind, -⟩ := hd.get hrepresents
  obtain ⟨e', he', hekind', -⟩ := hd'.get hrepresents
  exact ⟨r, d, d', hparse, ho, by rw [he, Option.map_some, hekind, hqkind], (hsmallest d rfl).2.2, ho',
    hnearest d rfl, by rw [he', Option.map_some, hekind', hqkind']⟩

end RenpyScript
