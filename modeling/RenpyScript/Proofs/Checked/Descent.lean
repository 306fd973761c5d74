import RenpyScript.Proofs.Checked.Body

/-!
# The descent against the outline

Every call of the descent builds nodes that the outline puts together at some later time. While a block is open
its frame stays in the outline, and when its call returns the frame is closed, apart from the blocks that are
pending.
-/

namespace RenpyScript

/-- Levels of blocks, the innermost first. -/
abbrev Frame.levels (frames : List Frame) : List Nat :=
  frames.map (·.level)

open RenpyScript.Frame (levels)

namespace ParseState

/-- The outline that a state stands for with more nodes, once the blocks are closed that are pending. -/
def after (s : ParseState) (frames : List Frame) (items ns : List Node) : Outline :=
  Outline.closeFrames s.pending ((s.outline frames items).add ns)

/-- A state with the given frames, whose blocks are open but for those that are pending. -/
structure Stands (ls : List LogicalLine) (s : ParseState) (frames : List Frame) (items ns : List Node) : Prop where
  pending_le : s.pending ≤ frames.length
  continues : Outline.Continues ls (s.after frames items ns) s.pos

section
variable {ls : List LogicalLine} {s : ParseState} {frames : List Frame} {items ns : List Node}

lemma after_of_pending (h : s.pending = 0) : s.after frames items ns = (s.outline frames items).add ns := by
  rw [after, h, Outline.closeFrames]

lemma stands_of_pending (hpending : s.pending = 0)
    (h : Outline.Continues ls ((s.outline frames items).add ns) s.pos) : s.Stands ls frames items ns :=
  ⟨by omega, after_of_pending hpending ▸ h⟩

lemma Stands.withNodes (h : s.Stands ls frames items ns) (b : TreeBuilder) : (s.withNodes b).Stands ls frames items ns :=
  ⟨h.pending_le, h.continues⟩

lemma Stands.widths (h : s.Stands ls frames items ns) : s.indents.widths = (levels frames).drop s.pending := by
  have hwidths := h.continues.aligned.widths_eq
  rw [after, Outline.closeFrames_indents, Outline.add_indents, Outline.closeFrames_levels, Outline.add_levels] at hwidths
  exact hwidths

lemma Stands.indents (h : s.Stands ls frames items ns) (hpending : s.pending = 0) :
    s.indents = ⟨levels frames⟩ := by
  have hwidths := h.widths
  rw [hpending, List.drop_zero] at hwidths
  exact congrArg IndentStack.mk hwidths

lemma Stands.absorb {f : Frame} (h : s.Stands ls (f :: frames) items ns) :
    s.Stands ls ({ f with items := f.items ++ ns } :: frames) items [] := by
  refine ⟨h.pending_le, ?_⟩
  have hcontinues := h.continues
  rw [after, Outline.add_nil]
  exact hcontinues

lemma Stands.outline (h : s.Stands ls frames items []) (hpending : s.pending = 0) :
    Outline.Continues ls (s.outline frames items) s.pos := by
  have hcontinues := h.continues
  rwa [after_of_pending hpending, Outline.add_nil] at hcontinues

/-- A dedent closes the innermost block, and leaves the others that it closes pending. -/
lemma stands_dedent {f : Frame} {width : Nat} (opened : List Nat) (hindents : s.indents = ⟨levels (f :: frames)⟩)
    (hlt : width < f.level) (h : Outline.Continues ls ((s.outline (f :: frames) items).dedent width) s.pos) :
    0 < (s.indents.dedentTo width).1.closed ∧ (s.dedent opened width).Stands ls frames items f.close := by
  have hdrop : s.indents.widths.dropWhile (width < ·) = (levels frames).dropWhile (width < ·) := by
    rw [hindents, levels, List.map_cons, List.dropWhile_cons_of_pos (by simpa using hlt)]
  have hlength : s.indents.widths.length = frames.length + 1 := by
    rw [hindents, List.length_map, List.length_cons]
  have hclosed := s.indents.dedentTo_closed width
  have hsuffix := (List.dropWhile_suffix (fun v => decide (width < v)) (l := levels frames)).length_le
  rw [List.length_map] at hsuffix
  rw [hdrop, hlength] at hclosed
  obtain ⟨k, hk⟩ : ∃ k, (s.indents.dedentTo width).1.closed = k + 1 := ⟨(s.indents.dedentTo width).1.closed - 1, by omega⟩
  have hpending : (s.dedent opened width).pending = k := by
    change (s.indents.dedentTo width).1.closed - 1 = k
    omega
  refine ⟨by omega, by omega, ?_⟩
  rw [after, hpending]
  rw [Outline.dedent_eq, show (s.outline (f :: frames) items).indents = s.indents from rfl, hk, Outline.closeFrames] at h
  exact h

/-! ## Moments -/

lemma widthAhead_raw (ls : List LogicalLine) (i : Nat) : widthAhead (ls.map LogicalLine.raw) i = nextWidth (ls.drop i) := by
  rw [widthAhead, nextWidth, nextCodeIndent?, ← List.map_drop, List.find?_map, Option.map_map]
  rfl

section
variable {opened : List Nat} {w : Nat}

lemma goes_turn (hpending : s.pending = 0) (hindents : s.indents = ⟨w :: opened⟩) :
    s.Goes ls (w :: opened) false (s.note .head (w :: opened)) (w :: opened) false := by
  refine goes_step rfl rfl ⟨by simp, by simp⟩ ?_
  change Stage.Step (ls.map LogicalLine.raw) ⟨s.pos, w :: opened, s.indents, s.pending, false, s.misaligned, levelsAround s.moments⟩
    ⟨.head, s.pos, w :: opened, s.indents, s.pending⟩
    ⟨s.pos, w :: opened, s.indents, s.pending, false, s.misaligned, levelsAround s.moments⟩
  rw [hpending, hindents]
  exact .turn

lemma goes_unwind {p : Nat} (hpending : s.pending = p + 1) :
    s.Goes ls opened false { s.note .head opened with pending := p } opened true := by
  refine goes_step rfl rfl ⟨by simp, by simp⟩ ?_
  change Stage.Step (ls.map LogicalLine.raw) ⟨s.pos, opened, s.indents, s.pending, false, s.misaligned, levelsAround s.moments⟩
    ⟨.head, s.pos, opened, s.indents, s.pending⟩
    ⟨s.pos, opened, s.indents, p, true, s.misaligned, levelsAround s.moments⟩
  rw [hpending]
  exact .unwind

lemma goes_pop (hpending : s.pending = 0) (hindents : s.indents = ⟨w :: opened⟩) (hend : ls.length ≤ s.pos) :
    s.Goes ls (w :: opened) false { s.note .head (w :: opened) with indents := ⟨opened⟩ } (w :: opened) true := by
  refine goes_step rfl rfl ⟨by simp, by simp⟩ ?_
  change Stage.Step (ls.map LogicalLine.raw) ⟨s.pos, w :: opened, s.indents, s.pending, false, s.misaligned, levelsAround s.moments⟩
    ⟨.head, s.pos, w :: opened, s.indents, s.pending⟩
    ⟨s.pos, w :: opened, ⟨opened⟩, s.pending, true, s.misaligned, levelsAround s.moments⟩
  rw [hpending, hindents]
  exact .pop (by rwa [List.length_map])

lemma goes_enter {line : LogicalLine} (hpending : s.pending = 0) (hindents : s.indents = ⟨opened⟩)
    (hm : s.misaligned = false) (hline : ls[s.pos]? = some line) (hcode : line.kind = .code)
    (hlt : opened.headD 0 < line.indent) :
    s.Goes ls opened false { s.note (.enter line.indent) opened with indents := s.indents.push line.indent }
      (line.indent :: opened) false := by
  refine goes_step rfl rfl ⟨by simp, by simp⟩ ?_
  change Stage.Step (ls.map LogicalLine.raw) ⟨s.pos, opened, s.indents, s.pending, false, s.misaligned, levelsAround s.moments⟩
    ⟨.enter line.indent, s.pos, opened, s.indents, s.pending⟩
    ⟨s.pos, line.indent :: opened, s.indents.push line.indent, s.pending, false, s.misaligned, levelsAround s.moments⟩
  have hpush : s.indents.push line.indent = ⟨line.indent :: opened⟩ := by
    have hcurrent : (IndentStack.mk opened).current < line.indent := hlt
    rw [hindents, IndentStack.push, IndentStack.push?, if_pos hcurrent]
    rfl
  rw [hpush, hpending, hindents, hm]
  exact .enter (getElem?_raw hline) hcode hlt

lemma goes_leave {since : Nat} (hlt : since < s.pos) :
    s.Goes ls (w :: opened) true (s.note (.leave since) opened) opened false :=
  goes_step rfl rfl ⟨by simp, by simp⟩ (.leave hlt)

lemma goes_dedent (hpending : s.pending = 0) (hindents : s.indents = ⟨opened⟩)
    (hclosed : 0 < (s.indents.dedentTo (widthAhead (ls.map LogicalLine.raw) s.pos)).1.closed) :
    s.Goes ls opened false (s.dedent opened (widthAhead (ls.map LogicalLine.raw) s.pos)) opened true := by
  refine goes_step rfl rfl ⟨by simp, by simp⟩ ?_
  generalize hwidth : widthAhead (ls.map LogicalLine.raw) s.pos = width at hclosed ⊢
  change Stage.Step (ls.map LogicalLine.raw) ⟨s.pos, opened, s.indents, s.pending, false, s.misaligned, levelsAround s.moments⟩
    ⟨.dedent width, s.pos, opened, (s.indents.dedentTo width).2, (s.indents.dedentTo width).1.closed - 1⟩
    ⟨s.pos, opened, (s.indents.dedentTo width).2, (s.indents.dedentTo width).1.closed - 1, true,
      s.misaligned || (s.indents.dedentTo width).1.isInconsistent, levelsAround s.moments⟩
  rw [hpending, IndentStack.dedentTo_isInconsistent]
  rw [hindents] at hclosed ⊢
  subst hwidth
  refine .dedent ?_
  have hcount := IndentStack.dedentTo_closed ⟨opened⟩ (widthAhead (ls.map LogicalLine.raw) s.pos)
  dsimp only at hcount
  omega

/-- A line of code is taken as an item, and read; it may open a Python body. -/
lemma goes_item {line : LogicalLine} {t : ParseState} {opened' : List Nat} {r : Bool} (hpending : s.pending = 0)
    (hindents : s.indents = ⟨opened⟩) (hline : ls[s.pos]? = some line) (hcode : line.kind = .code)
    (hle : opened.headD 0 ≤ line.indent)
    (hwrapped : s.misaligned = true → ∃ e ∈ Node.preorderAll (Outline.itemsOf ls),
      e.Wraps (line.form opened.isEmpty (ls.drop (s.pos + 1))).nodes line.start)
    (h : Follows ls ((line.form opened.isEmpty (ls.drop (s.pos + 1))).ownerIndent? line)
      { (s.note (.item s.misaligned) opened).consume opened with misaligned := false } opened false t opened' r) :
    s.Goes ls opened false t opened' r := by
  obtain ⟨ms, hms, hcourse, hreads⟩ := h
  have hconsume := step_consume (s := { s.note (.item s.misaligned) opened with misaligned := false }) hpending hindents
    hline fun _ => levelsAround_concat s.moments _
  refine ⟨⟨.item s.misaligned, s.pos, opened, s.indents, s.pending⟩ :: _ :: ms, ?_, .cons ?_ (.cons hconsume hcourse),
    .item hline rfl rfl rfl hwrapped hreads⟩
  · rw [hms]
    simp [consume, note]
  · change Stage.Step _ ⟨s.pos, opened, s.indents, s.pending, false, s.misaligned, levelsAround s.moments⟩
      ⟨.item s.misaligned, s.pos, opened, s.indents, s.pending⟩
      ⟨s.pos, opened, s.indents, s.pending, false, false, levelsAround (s.moments ++ [_])⟩
    rw [hpending, hindents, levelsAround_concat]
    exact .item (getElem?_raw hline) hcode hle

end

end

end ParseState

namespace Descent
open LogicalLine LineReader ParseState

section
variable (text : List Char) (ls : List LogicalLine) (i : Nat)

/-- What a call for a block does that begins at a line. -/
def BlockBuilds : Prop :=
  ∀ {s : ParseState} (frames : List Frame) (items : List Node) {line : LogicalLine} (opening : Option Opening),
    s.pos = i → s.builder.text = text → s.pending = 0 → s.misaligned = false → (s.outline frames items).Levelled →
    ls[i]? = some line → line.kind = .code → (s.outline frames items).level < line.indent →
    Outline.Continues ls ((s.outline frames items).openFrame line opening) i →
    ∃ c t ns, block (ls.map raw) (levels frames) s = some (c, t) ∧
      s.builder.Built t.builder [c] [.branch .block ns line.start] ∧
      s.Goes ls (levels frames) false t (levels frames) false ∧ i < t.pos ∧
      t.Stands ls frames items (Frame.close ⟨line.indent, line.start, ns, opening⟩)

/-- What is done with a line of code that stays in the innermost block. -/
def ItemBuilds : Prop :=
  ∀ {s : ParseState} (frames : List Frame) (items : List Node) {line : LogicalLine} (out : List Child),
    s.pos = i → s.builder.text = text → s.pending = 0 → (s.outline frames items).Levelled →
    ls[i]? = some line → line.kind = .code → (s.outline frames items).level ≤ line.indent →
    Outline.Continues ls ((s.outline frames items).addItem line (ls.drop (i + 1))) (i + 1) →
    ∃ cs t ns, lineItem (ls.map raw) (levels frames) frames.isEmpty out s = some (out ++ cs, t) ∧
      s.builder.Built t.builder cs ns ∧
      s.Goes ls (levels frames) false t (levels frames) false ∧ i < t.pos ∧
      t.Stands ls frames items ns

/-- The loop over a block, with the nodes `cs` built since `b`, ends at the line `k` or behind it. -/
def LoopEnds (k : Nat) (s : ParseState) (f : Frame) (frames : List Frame) (items : List Node) (b : TreeBuilder)
    (cs : List Child) : Prop :=
  ∃ ds t ns, blockLoop (ls.map raw) (levels (f :: frames)) f.level cs s = some (ds, t) ∧ b.Built t.builder ds ns ∧
    s.Goes ls (levels (f :: frames)) false t (levels (f :: frames)) true ∧ k ≤ t.pos ∧
    t.Stands ls frames items ({ f with items := ns }.close)

/-- What the loop over a block does from a line on. -/
def LoopBuilds : Prop :=
  ∀ {s : ParseState} {f : Frame} {frames : List Frame} {items : List Node} {b : TreeBuilder} {cs : List Child},
    s.pos = i → s.builder.text = text → b.Built s.builder cs f.items → s.Stands ls (f :: frames) items [] →
    LoopEnds ls i s f frames items b cs

end

section
variable {text : List Char} {ls : List LogicalLine} {i : Nat} {s : ParseState} {frames : List Frame} {items : List Node}
  {line : LogicalLine} {b₀ : TreeBuilder}

/-! ## Owners of blocks -/

lemma bodyOffset_eq {b : TreeBuilder} {children : List Child} {kind : Kind} {head : List Node} {colonEnd : Nat}
    (h : b₀.Built b children head) {pos : Nat} {cs : List Char} (hlaid : Node.Laid isGap pos cs head)
    (hcolon : ∃ n ∈ head, n.span.stop = colonEnd) :
    bodyOffset colonEnd children b = some (Owner.headEnd ⟨kind, head⟩) := by
  obtain ⟨n, hn, rfl⟩ := hcolon
  obtain ⟨c, m, hc, hm, hend⟩ := last_built h (List.ne_nil_of_mem hn)
  have hle := hlaid.stop_le_last hn hm
  rw [bodyOffset, hc]
  simp only [hend, Option.bind_eq_bind, Option.bind_some, Owner.headEnd, hm, Nat.max_eq_right hle, Option.map_some,
    Option.getD_some]
  rfl

lemma addComments_eq (opening : Opening) (ns : List Node) : addComments opening ns =
    { opening with owner := { opening.owner with head := opening.owner.head ++ ns } } := by
  induction ns generalizing opening with
  | nil => simp [addComments]
  | cons n ns ih =>
    rw [addComments, List.foldl_cons, ← addComments, ih]
    simp [Opening.addComment]

lemma body_built (hblock : ∀ j, i < j → BlockBuilds text ls j) {children : List Child} {colonEnd : Nat} {owner : Owner}
    {misaligned : Bool} {pos : Nat} {cs : List Char}
    (hpos : s.pos = i + 1) (htext : s.builder.text = text) (hpending : s.pending = 0) (hm : s.misaligned = false)
    (hlevelled : (s.outline frames items).Levelled)
    (hhead : b₀.Built s.builder children owner.head)
    (hlaid : Node.Laid isGap pos cs owner.head)
    (hcolon : ∃ n ∈ owner.head, n.span.stop = colonEnd)
    (h : Outline.Continues ls ((s.outline frames items).addForm line misaligned
      (deeperFollows line.indent (ls.drop (i + 1))) (.opens owner)) (i + 1)) :
    ∃ ds c t ns n, body (ls.map raw) (levels frames) line.raw children colonEnd s = some (ds, c, t) ∧
      b₀.Built t.builder (ds ++ [⟨c.index, some .body⟩]) (ns ++ [n.under .body]) ∧
      s.Goes ls (levels frames) false t (levels frames) false ∧
      t.Stands ls frames items (settle misaligned line.start [Owner.close ⟨owner.kind, ns⟩ line.start n]) := by
  obtain ⟨o, hnext, ho⟩ := nextCode_eq ls s.pos
  have hindents : s.indents = ⟨levels frames⟩ := congrArg IndentStack.mk hlevelled.widths_eq
  have hdeeper : (nextCodeIndent? (ls.drop s.pos)).any (line.indent < ·) =
      deeperFollows line.indent (ls.drop (i + 1)) := by
    rw [hpos]
    rfl
  rw [body, hnext, nextIndent_eq]
  simp only [Option.bind_eq_bind, Option.bind_some]
  rw [show line.raw.indent = line.indent from rfl, hdeeper]
  cases hfollows : deeperFollows line.indent (ls.drop (i + 1)) with
  | true =>
    rw [hfollows] at h hdeeper
    rcases o with _ | j
    · rw [ho.indent] at hdeeper
      cases hdeeper
    obtain ⟨hle, first, hfirst, hcode⟩ := ho.exists_line
    obtain ⟨ds, b, ms, ns, hcomments, hbuilt, hgoes, hwaits⟩ :=
      commentsBefore_built hpending hindents ho (hpos ▸ h)
    have hopens := hwaits.block_code hfirst hcode
    have hlt := hwaits.aligned.deeper (.inr ⟨_, rfl⟩)
    rw [Outline.drop_of_getElem? hfirst, nextWidth_code hcode] at hlt
    obtain ⟨c, t, ms', hcall, hbuilt', hgoes', -, hstands⟩ := hblock j (by omega) (s := s.onward j b ms) _ _ _ rfl
      (hbuilt.text.trans htext) hpending hm hlevelled hfirst hcode hlt hopens
    refine ⟨children ++ ds, c, t, owner.head ++ ns, _, ?_, (hhead.append hbuilt).append (hbuilt'.under .body),
      hgoes.trans hgoes', ?_⟩
    · have hfewer : (s.onward j b ms).left (ls.map raw) < s.left (ls.map raw) + 1 :=
        Nat.lt_succ_of_le (Nat.sub_le_sub_left hle _)
      dsimp only
      rw [hcomments, Option.bind_some]
      dsimp only
      rw [below_eq hfewer, Option.bind_some, hcall]
      rfl
    · rw [Frame.close, addComments_eq] at hstands
      exact hstands
  | false =>
    rw [hfollows] at h
    have hoffset : bodyOffset colonEnd children s.builder = some owner.headEnd := bodyOffset_eq hhead hlaid hcolon
    obtain ⟨c, b, hmissing, hbuilt⟩ := build_missing (show Kind.block ≠ .comment by decide) s owner.headEnd
    refine ⟨children, c, s.withNodes b, owner.head, _, ?_, hhead.append (hbuilt.under .body), goes_refl _ _ _ _, ?_⟩
    · have habsent : ((bodyOffset colonEnd children s.builder).bind fun offset =>
          (s.build (TreeBuilder.missing .block offset)).bind fun r => some (children, r.1, r.2)) =
            some (children, c, s.withNodes b) := by
        rw [hoffset, Option.bind_some, hmissing]
        rfl
      cases o <;> exact habsent
    · exact stands_of_pending hpending (hpos ▸ h)

/-! ## Lines of code -/

lemma formOf_eq (o : Outline) (line : LogicalLine) (rest : List LogicalLine) :
    o.formOf line rest = line.form (levels o.frames).isEmpty rest := by
  rw [List.isEmpty_map]
  rfl

lemma formOf_laidOn (o : Outline) (line : LogicalLine) (rest : List LogicalLine) :
    (o.formOf line rest).LaidOn line.unread.pos line.unread.rest := by
  unfold Outline.formOf
  split
  · exact Form.topLevel_laidOn _ _
  · exact Form.nested_laidOn _

lemma close_notComment {kind : Kind} (hkind : kind ≠ .comment) {c : Child} {head : List Node} {block : Node}
    {s : ParseState} {cs : List Child} (h : b₀.Built s.builder (cs ++ [⟨c.index, some .body⟩]) (head ++ [block.under .body]))
    (start : Nat) : ∃ d b, (do
      let (node, s) ← s.build (TreeBuilder.node kind (cs ++ [⟨c.index, some .body⟩]) start)
      if kind = .header then return ([node], s)
      else
        let (statement, s) ← s.build (TreeBuilder.node .statement [node] start)
        return ([statement], s)) = some ([d], s.withNodes b) ∧
      b₀.Built b [d] [Owner.close ⟨kind, head⟩ start block] := by
  obtain ⟨c, b, hnode, hbuilt⟩ := build_node h hkind start
  rw [hnode]
  simp only [Option.bind_eq_bind, Option.bind_some, Owner.close]
  by_cases hheader : kind = .header
  · rw [if_pos hheader, if_pos hheader]
    exact ⟨c, b, rfl, hbuilt⟩
  · obtain ⟨d, b', hstatement, hbuilt'⟩ := build_node (s := s.withNodes b) hbuilt (show Kind.statement ≠ .comment by decide) start
    rw [if_neg hheader, if_neg hheader, hstatement]
    exact ⟨d, b', rfl, hbuilt'⟩

lemma lineNodes_built (hblock : ∀ j, i < j → BlockBuilds text ls j) (hls : ∀ l ∈ ls, l.StandsIn text)
    (hstands : line.StandsIn text) {misaligned : Bool} (hpos : s.pos = i + 1) (htext : s.builder.text = text)
    (hpending : s.pending = 0) (hm : s.misaligned = false) (haround : levelsAround s.moments = levels frames)
    (hlevelled : (s.outline frames items).Levelled)
    (h : Outline.Continues ls ((s.outline frames items).addForm line misaligned
      (deeperFollows line.indent (ls.drop (i + 1))) ((s.outline frames items).formOf line (ls.drop (i + 1)))) (i + 1)) :
    ∃ cs t ns, lineNodes (ls.map raw) (levels frames) frames.isEmpty line.raw s = some (cs, t) ∧
      s.builder.Built t.builder cs ns ∧
      s.Follows ls (((s.outline frames items).formOf line (ls.drop (i + 1))).ownerIndent? line) (levels frames) false
        t (levels frames) false ∧
      t.Stands ls frames items (settle misaligned line.start ns) := by
  have hindents : s.indents = ⟨levels frames⟩ := congrArg IndentStack.mk hlevelled.widths_eq
  have hdeeper : (nextCodeIndent? (ls.drop s.pos)).any (line.indent < ·) =
      deeperFollows line.indent (ls.drop (i + 1)) := by
    rw [hpos]
    rfl
  obtain ⟨form, b, hread, hsays⟩ := readForm_built (s := s) hstands htext frames.isEmpty
    (deeperFollows line.indent (ls.drop (i + 1)))
  have hlaid := formOf_laidOn (s.outline frames items) line (ls.drop (i + 1))
  change Says s.builder b form ((s.outline frames items).formOf line (ls.drop (i + 1))) at hsays
  generalize (s.outline frames items).formOf line (ls.drop (i + 1)) = read at h hlaid hsays ⊢
  rw [lineNodes, nextIndent_eq]
  simp only [Option.bind_eq_bind, Option.bind_some]
  rw [show line.raw.indent = line.indent from rfl, hdeeper, hread, Option.bind_some]
  have htext' : b.text = text := hsays.text_eq.trans htext
  cases hsays with
  | items built =>
    exact ⟨_, s.withNodes b, _, rfl, built, goes_refl _ _ _ _, stands_of_pending hpending (hpos ▸ h)⟩
  | opensPython built =>
    obtain _ | _ | ⟨-, hne⟩ := hlaid
    obtain ⟨c, j, b', ms, n, hpython, hbuilt, hfollows, hcontinues⟩ :=
      pythonBlock_built (s := s.withNodes b) hls htext' hpending hindents haround built hne (hpos ▸ h)
    refine ⟨[c], (s.withNodes b).onward j b' ms, [n], ?_, hbuilt, hfollows, stands_of_pending hpending hcontinues⟩
    dsimp only
    rw [show pythonBlock _ _ _ _ { s with builder := b } = _ from hpython]
    rfl
  | @opens kind children colonEnd head built notComment colon =>
    obtain _ | ⟨laid, -, -⟩ := hlaid
    obtain ⟨ds, c, t, ns, n, hbody, hbuilt, hgoes, hstands⟩ :=
      body_built (s := s.withNodes b) hblock hpos htext' hpending hm hlevelled built laid colon h
    obtain ⟨d, b', hclose, hbuilt'⟩ := close_notComment notComment hbuilt line.start
    refine ⟨[d], t.withNodes b', _, ?_, hbuilt', hgoes, hstands.withNodes b'⟩
    dsimp only
    rw [show body _ _ _ _ _ { s with builder := b } = _ from hbody, Option.bind_some]
    exact hclose

/-- The nodes of a misaligned line are put in an error. -/
lemma settle_built (misaligned : Bool) {cs : List Child} (out : List Child) {ns : List Node} (start : Nat) (h : b₀.Built s.builder cs ns) :
    ∃ ds b, (if misaligned then do
        let (out, items) ← takeFrom out.length (out ++ cs)
        match items with
        | [item] =>
          let kind ← s.builder.kindOf item.index
          if kind = .error then return (out ++ [item], s)
          else
            let (error, s) ← s.build (TreeBuilder.node .error items start)
            return (out ++ [error], s)
        | items =>
          let (error, s) ← s.build (TreeBuilder.node .error items start)
          return (out ++ [error], s)
      else return (out ++ cs, s)) = some (out ++ ds, s.withNodes b) ∧ b₀.Built b ds (settle misaligned start ns) := by
  cases misaligned with
  | false => exact ⟨cs, s.builder, rfl, h⟩
  | true =>
    obtain ⟨c, b, hnode, hbuilt⟩ := build_node h (show Kind.error ≠ .comment by decide) start
    have htake : takeFrom out.length (out ++ cs) = some (out, cs) := by
      rw [takeFrom, if_pos (by simp), List.take_left, List.drop_left]
    rw [if_pos rfl, htake]
    have hdenotes := h.denotes
    obtain _ | @⟨item, n, _, _, hn, _ | _⟩ := hdenotes
    · refine ⟨[c], b, ?_, hbuilt⟩
      simp only [Option.bind_eq_bind, Option.bind_some, hnode]
      rfl
    · simp only [Option.bind_eq_bind, Option.bind_some, hn.2.kindOf]
      by_cases hkind : n.kind = .error
      · refine ⟨[item], s.builder, if_pos hkind, ?_⟩
        rwa [settle, if_pos rfl, if_pos (by simpa [Node.isError] using hkind)]
      · refine ⟨[c], b, ?_, ?_⟩
        · rw [if_neg hkind, hnode]
          rfl
        · rwa [settle, if_pos rfl, if_neg (by simpa [Node.isError] using hkind)]
    · refine ⟨[c], b, ?_, hbuilt⟩
      simp only [Option.bind_eq_bind, Option.bind_some, hnode]
      rfl

lemma lineItem_built (hblock : ∀ j, i < j → BlockBuilds text ls j) (hls : ∀ l ∈ ls, l.StandsIn text) :
    ItemBuilds text ls i := by
  intro s frames items line out hpos htext hpending hlevelled hline hcode hle h
  subst hpos
  have hindents : s.indents = ⟨levels frames⟩ := congrArg IndentStack.mk hlevelled.widths_eq
  have hraw := getElem?_raw hline
  have hfits : (levels frames).headD 0 ≤ line.raw.indent := by
    rw [Outline.level_eq] at hle
    exact hle
  have haround : levelsAround ((s.note (.item s.misaligned) (levels frames)).consume (levels frames)).moments =
      levels frames := by
    rw [levelsAround_consume]
    exact levelsAround_concat s.moments _
  have hwrapped (hm : s.misaligned = true) : ∃ e ∈ Node.preorderAll (Outline.itemsOf ls),
      e.Wraps (line.form (levels frames).isEmpty (ls.drop (s.pos + 1))).nodes line.start := by
    have hwraps := (((s.outline frames items).addItem_wraps line (ls.drop (s.pos + 1)) hm).run (ls.drop (s.pos + 1))).finish
    rwa [h.finish, formOf_eq] at hwraps
  rw [Outline.addItem_eq] at h
  obtain ⟨cs, t, ns, hnodes, hbuilt, hfollows, hstands⟩ := lineNodes_built
    (s := { (s.note (.item s.misaligned) (levels frames)).consume (levels frames) with misaligned := false })
    hblock hls (hls line (List.mem_of_getElem? hline)) rfl htext hpending rfl haround
    ⟨hlevelled.widths_eq, hlevelled.positive⟩ h
  obtain ⟨ds, b, hsettle, hbuilt'⟩ := settle_built s.misaligned out line.start hbuilt
  rw [formOf_eq] at hfollows
  refine ⟨ds, t.withNodes b, _, ?_, hbuilt', goes_item hpending hindents hline hcode hfits hwrapped hfollows, ?_,
    hstands.withNodes b⟩
  · rw [lineItem, hraw]
    dsimp only
    rw [hnodes]
    exact hsettle
  · exact hfollows.pos_le

/-! ## Blocks -/

section
variable {lines : List ByteLine} {opened : List Nat} {level : Nat} {cs : List Child} {l : ByteLine}

lemma blockLoop_line (hpending : s.pending = 0) (hline : lines[s.pos]? = some l) :
    blockLoop lines opened level cs s =
      (match l.kind with
      | .blank => do
        let ⟨t, _⟩ ← ((s.note .head opened).consume opened).below lines (s.left lines)
        blockLoop lines opened level cs t
      | .comment => do
        let next ← nextIndent lines (s.pos + 1)
        if level ≤ l.indent ∨ next.any (level ≤ ·) then
          let (c, t) ← commentLine l (s.note .head opened)
          let ⟨t, _⟩ ← (t.consume opened).below lines (s.left lines)
          blockLoop lines opened level (cs ++ [c]) t
        else return (cs, (s.note .head opened).dedent opened (next.getD 0))
      | .code =>
        if l.indent < level then some (cs, (s.note .head opened).dedent opened l.indent)
        else if level < l.indent ∧ s.misaligned = false then do
          let (nested, t) ← block lines opened (s.note .head opened)
          let ⟨t, _⟩ ← t.below lines (s.left lines)
          blockLoop lines opened level (cs ++ [nested]) t
        else do
          let (children, t) ← lineItem lines opened false cs (s.note .head opened)
          let ⟨t, _⟩ ← t.below lines (s.left lines)
          blockLoop lines opened level children t) := by
  rw [blockLoop, if_neg (by omega), hline]
  rfl

end

variable {f : Frame} {cs : List Child}

lemma loop_unwind {p : Nat} (hbuilt : b₀.Built s.builder cs f.items) (hstands : s.Stands ls (f :: frames) items [])
    (hpending : s.pending = p + 1) : LoopEnds ls s.pos s f frames items b₀ cs := by
  refine ⟨cs, { s.note .head (levels (f :: frames)) with pending := p }, f.items, ?_, hbuilt, goes_unwind hpending,
    Nat.le_refl _, ?_, ?_⟩
  · rw [blockLoop, if_pos (by omega), hpending]
    rfl
  · have hle := hstands.pending_le
    change p ≤ frames.length
    rw [List.length_cons] at hle
    omega
  · have hcontinues := hstands.continues
    rw [after, hpending, Outline.add_nil, Outline.closeFrames] at hcontinues
    exact hcontinues

lemma loop_end (hbuilt : b₀.Built s.builder cs f.items) (hstands : s.Stands ls (f :: frames) items [])
    (hpending : s.pending = 0) (hend : ls.length ≤ s.pos) : LoopEnds ls s.pos s f frames items b₀ cs := by
  have hindents := hstands.indents hpending
  have hpop : s.indents.pop? = some (f.level, ⟨levels frames⟩) := by
    rw [hindents]
    rfl
  refine ⟨cs, { s.note .head (levels (f :: frames)) with indents := ⟨levels frames⟩ }, f.items, ?_, hbuilt,
    goes_pop hpending hindents hend, Nat.le_refl _,
    stands_of_pending hpending ((hstands.outline hpending).closeFrame hend rfl hpop)⟩
  rw [blockLoop, if_neg (by omega), List.getElem?_eq_none (by rwa [List.length_map])]
  dsimp only
  rw [hpop]
  rfl

lemma loop_dedent {width : Nat} (hbuilt : b₀.Built s.builder cs f.items) (hstands : s.Stands ls (f :: frames) items [])
    (hpending : s.pending = 0) (hlt : width < f.level) (hwidth : width = nextWidth (ls.drop s.pos))
    (h : Outline.Continues ls ((s.outline (f :: frames) items).dedent width) s.pos)
    (hcall : blockLoop (ls.map raw) (levels (f :: frames)) f.level cs s =
      some (cs, (s.note .head (levels (f :: frames))).dedent (levels (f :: frames)) width)) :
    LoopEnds ls s.pos s f frames items b₀ cs := by
  have hindents := hstands.indents hpending
  obtain ⟨hclosed, hstands'⟩ := stands_dedent (s := s.note .head (levels (f :: frames))) (levels (f :: frames)) hindents hlt h
  obtain rfl : width = widthAhead (ls.map raw) s.pos := hwidth.trans (widthAhead_raw ls s.pos).symm
  exact ⟨cs, _, f.items, hcall, hbuilt, (goes_turn hpending hindents).trans
    (goes_dedent (s := s.note .head (levels (f :: frames))) hpending hindents hclosed), Nat.le_refl _, hstands'⟩

lemma loop_next {t : ParseState} {ds : List Child} {ns : List Node} {k : Nat} (hloop : LoopBuilds text ls t.pos)
    (htext : s.builder.text = text) (hbuilt : b₀.Built s.builder cs f.items) (hbuilt' : s.builder.Built t.builder ds ns)
    (hgoes : s.Goes ls (levels (f :: frames)) false t (levels (f :: frames)) false) (hle : k ≤ t.pos)
    (hstands : t.Stands ls (f :: frames) items ns)
    (hcall : blockLoop (ls.map raw) (levels (f :: frames)) f.level cs s =
      blockLoop (ls.map raw) (levels (f :: frames)) f.level (cs ++ ds) t) : LoopEnds ls k s f frames items b₀ cs := by
  obtain ⟨es, t', ms, hrest, hbuilt'', hgoes', hle', hstands'⟩ := hloop rfl (hbuilt'.text.trans htext)
    (hbuilt.append hbuilt') hstands.absorb
  exact ⟨es, t', ms, hcall.trans hrest, hbuilt'', hgoes.trans hgoes', Nat.le_trans hle hle', hstands'⟩

lemma loop_item (hitem : ItemBuilds text ls s.pos) (hloop : ∀ j, s.pos < j → LoopBuilds text ls j)
    (htext : s.builder.text = text) (hbuilt : b₀.Built s.builder cs f.items) (hstands : s.Stands ls (f :: frames) items [])
    (hpending : s.pending = 0) (hline : ls[s.pos]? = some line) (hcode : line.kind = .code) (hle : f.level ≤ line.indent)
    (hstays : ¬(f.level < line.indent ∧ s.misaligned = false)) : LoopEnds ls (s.pos + 1) s f frames items b₀ cs := by
  have hcontinues := hstands.outline hpending
  have hturn : s.Goes ls (levels (f :: frames)) false _ (levels (f :: frames)) false :=
    goes_turn hpending (hstands.indents hpending)
  obtain ⟨ds, t, ns, hcall, hbuilt', hgoes, hlt, hstands'⟩ := hitem (s := s.note .head (levels (f :: frames)))
    (f :: frames) items cs rfl htext hpending hcontinues.aligned.toLevelled hline hcode hle
    (hcontinues.item rfl hline hcode hle hstays)
  refine loop_next (hloop t.pos hlt) htext hbuilt hbuilt' (hturn.trans hgoes) hlt hstands' ?_
  rw [blockLoop_line hpending (getElem?_raw hline), show line.raw.kind = .code from hcode]
  refine (if_neg (Nat.not_lt.mpr hle)).trans ((if_neg hstays).trans ?_)
  rw [show (f :: frames).isEmpty = false from rfl] at hcall
  rw [hcall]
  exact below_bind (left_lt (getElem?_raw hline) hlt) _

lemma loop_block (hblock : BlockBuilds text ls s.pos) (hloop : ∀ j, s.pos < j → LoopBuilds text ls j)
    (htext : s.builder.text = text) (hbuilt : b₀.Built s.builder cs f.items) (hstands : s.Stands ls (f :: frames) items [])
    (hpending : s.pending = 0) (hline : ls[s.pos]? = some line) (hcode : line.kind = .code) (hlt : f.level < line.indent)
    (hm : s.misaligned = false) : LoopEnds ls s.pos s f frames items b₀ cs := by
  have hcontinues := hstands.outline hpending
  have hturn : s.Goes ls (levels (f :: frames)) false _ (levels (f :: frames)) false :=
    goes_turn hpending (hstands.indents hpending)
  obtain ⟨c, t, ns, hcall, hbuilt', hgoes, hpast, hstands'⟩ := hblock (s := s.note .head (levels (f :: frames)))
    (f :: frames) items none rfl htext hpending hm hcontinues.aligned.toLevelled
    hline hcode hlt (hcontinues.openFrame rfl hline hcode hm hlt)
  refine loop_next (hloop t.pos hpast) htext hbuilt hbuilt' (hturn.trans hgoes) (Nat.le_of_lt hpast) hstands' ?_
  rw [blockLoop_line hpending (getElem?_raw hline), show line.raw.kind = .code from hcode]
  refine (if_neg (Nat.not_lt.mpr (Nat.le_of_lt hlt))).trans ((if_pos ⟨hlt, hm⟩).trans ?_)
  rw [hcall]
  exact below_bind (left_lt (getElem?_raw hline) hpast) _

/-- A comment stays in the block, or it closes the block along with the next line of code. -/
lemma loop_comment (hloop : ∀ j, s.pos < j → LoopBuilds text ls j)
    (htext : s.builder.text = text) (hbuilt : b₀.Built s.builder cs f.items) (hstands : s.Stands ls (f :: frames) items [])
    (hpending : s.pending = 0) (hline : ls[s.pos]? = some line) (hcomment : line.kind = .comment) :
    LoopEnds ls s.pos s f frames items b₀ cs := by
  have hcontinues := hstands.outline hpending
  have hindents := hstands.indents hpending
  have hcloses : (s.outline (f :: frames) items).commentCloses line (ls.drop (s.pos + 1)) =
      !decide (f.level ≤ line.indent ∨ (nextCodeIndent? (ls.drop (s.pos + 1))).any (f.level ≤ ·)) := by
    change (decide (line.indent < f.level) && !(nextCodeIndent? (ls.drop (s.pos + 1))).any (f.level ≤ ·)) = _
    rw [Bool.decide_or, Bool.not_or, Bool.decide_eq_true, ← decide_not, decide_eq_decide.mpr Nat.not_le]
  have hcall : blockLoop (ls.map raw) (levels (f :: frames)) f.level cs s =
      if f.level ≤ line.indent ∨ (nextCodeIndent? (ls.drop (s.pos + 1))).any (f.level ≤ ·) then do
        let (c, t) ← commentLine line.raw (s.note .head (levels (f :: frames)))
        let ⟨t, _⟩ ← (t.consume (levels (f :: frames))).below (ls.map raw) (s.left (ls.map raw))
        blockLoop (ls.map raw) (levels (f :: frames)) f.level (cs ++ [c]) t
      else some (cs, (s.note .head (levels (f :: frames))).dedent (levels (f :: frames)) (nextWidth (ls.drop (s.pos + 1)))) := by
    rw [blockLoop_line hpending (getElem?_raw hline), show line.raw.kind = .comment from hcomment]
    dsimp only
    rw [nextIndent_eq]
    rfl
  by_cases hstays : f.level ≤ line.indent ∨ (nextCodeIndent? (ls.drop (s.pos + 1))).any (f.level ≤ ·)
  · rw [decide_eq_true hstays] at hcloses
    obtain ⟨c, b', hbuild, hbuilt'⟩ := commentLine_built line (s.note .head (levels (f :: frames)))
    have hgoes : s.Goes ls (levels (f :: frames)) false
        (((s.note .head (levels (f :: frames))).withNodes b').consume (levels (f :: frames))) (levels (f :: frames)) false :=
      (goes_turn hpending hindents).trans
        (goes_consume_other (s := s.note .head (levels (f :: frames))) hpending hindents hline (by simp [hcomment]))
    refine loop_next (t := ((s.note .head (levels (f :: frames))).withNodes b').consume (levels (f :: frames)))
      (hloop (s.pos + 1) (Nat.lt_succ_self _)) htext hbuilt hbuilt' hgoes (Nat.le_succ _)
      (stands_of_pending hpending (hcontinues.comment rfl hline hcomment hcloses)) ?_
    rw [hcall, if_pos hstays, hbuild]
    exact below_bind (left_lt (getElem?_raw hline) (Nat.lt_succ_self s.pos)) _
  · rw [decide_eq_false hstays] at hcloses
    have hlt := hcloses
    rw [Outline.commentCloses_eq hcontinues.aligned.toLevelled, Bool.not_false, decide_eq_true_eq] at hlt
    have hwidth : nextWidth (ls.drop (s.pos + 1)) = nextWidth (ls.drop s.pos) := by
      rw [Outline.drop_of_getElem? hline, nextWidth_other (by simp [hcomment])]
    exact loop_dedent hbuilt hstands hpending hlt.2 hwidth (hcontinues.dedent_comment rfl hline hcomment hcloses)
      (hcall.trans (if_neg hstays))

lemma loop_blank (hloop : ∀ j, s.pos < j → LoopBuilds text ls j)
    (htext : s.builder.text = text) (hbuilt : b₀.Built s.builder cs f.items) (hstands : s.Stands ls (f :: frames) items [])
    (hpending : s.pending = 0) (hline : ls[s.pos]? = some line) (hblank : line.kind = .blank) :
    LoopEnds ls s.pos s f frames items b₀ cs := by
  have hindents := hstands.indents hpending
  have hgoes : s.Goes ls (levels (f :: frames)) false
      ((s.note .head (levels (f :: frames))).consume (levels (f :: frames))) (levels (f :: frames)) false :=
    (goes_turn hpending hindents).trans
      (goes_consume_other (s := s.note .head (levels (f :: frames))) hpending hindents hline (by simp [hblank]))
  have hcontinues := (hstands.outline hpending).blank hline hblank
  refine loop_next (t := (s.note .head (levels (f :: frames))).consume (levels (f :: frames)))
    (hloop (s.pos + 1) (Nat.lt_succ_self _)) htext hbuilt (.refl _) hgoes (Nat.le_succ _)
    (stands_of_pending hpending (by rw [Outline.add_nil]; exact hcontinues)) ?_
  rw [blockLoop_line hpending (getElem?_raw hline), show line.raw.kind = .blank from hblank, List.append_nil]
  exact below_bind (left_lt (getElem?_raw hline) (Nat.lt_succ_self s.pos)) _

lemma loop_code (hitem : ItemBuilds text ls s.pos) (hblock : BlockBuilds text ls s.pos)
    (hloop : ∀ j, s.pos < j → LoopBuilds text ls j)
    (htext : s.builder.text = text) (hbuilt : b₀.Built s.builder cs f.items) (hstands : s.Stands ls (f :: frames) items [])
    (hpending : s.pending = 0) (hline : ls[s.pos]? = some line) (hcode : line.kind = .code) :
    LoopEnds ls s.pos s f frames items b₀ cs := by
  by_cases hlt : line.indent < f.level
  · have hwidth : line.indent = nextWidth (ls.drop s.pos) := by
      rw [Outline.drop_of_getElem? hline, nextWidth_code hcode]
    refine loop_dedent hbuilt hstands hpending hlt hwidth ((hstands.outline hpending).dedent_code rfl hline hcode hlt) ?_
    rw [blockLoop_line hpending (getElem?_raw hline), show line.raw.kind = .code from hcode]
    exact if_pos hlt
  by_cases hopens : f.level < line.indent ∧ s.misaligned = false
  · exact loop_block hblock hloop htext hbuilt hstands hpending hline hcode hopens.1 hopens.2
  · obtain ⟨ds, t, ns, hcall, hbuilt', hgoes, hle, hstands'⟩ := loop_item hitem hloop htext hbuilt hstands hpending hline
      hcode (Nat.not_lt.mp hlt) hopens
    exact ⟨ds, t, ns, hcall, hbuilt', hgoes, Nat.le_of_succ_le hle, hstands'⟩

lemma loop_built (hitem : ItemBuilds text ls s.pos) (hblock : BlockBuilds text ls s.pos)
    (hloop : s.pos < ls.length → ∀ j, s.pos < j → LoopBuilds text ls j) (htext : s.builder.text = text)
    (hbuilt : b₀.Built s.builder cs f.items) (hstands : s.Stands ls (f :: frames) items []) :
    LoopEnds ls s.pos s f frames items b₀ cs := by
  rcases hpending : s.pending with _ | p
  · rcases hline : ls[s.pos]? with _ | line
    · exact loop_end hbuilt hstands hpending (List.getElem?_eq_none_iff.mp hline)
    · have hloop := hloop (List.getElem?_eq_some_iff.mp hline).1
      cases hkind : line.kind with
      | blank => exact loop_blank hloop htext hbuilt hstands hpending hline hkind
      | comment => exact loop_comment hloop htext hbuilt hstands hpending hline hkind
      | code => exact loop_code hitem hblock hloop htext hbuilt hstands hpending hline hkind
  · exact loop_unwind hbuilt hstands hpending

lemma block_built (hitem : ItemBuilds text ls i) (hloop : ∀ j, i < j → LoopBuilds text ls j) : BlockBuilds text ls i := by
  intro s frames items line opening hpos htext hpending hm hlevelled hline hcode hlt h
  subst hpos
  have hindents : s.indents = ⟨levels frames⟩ := congrArg IndentStack.mk hlevelled.widths_eq
  have hraw := getElem?_raw hline
  have hdeeper : (levels frames).headD 0 < line.raw.indent := by
    rw [Outline.level_eq] at hlt
    exact hlt
  have henter := goes_enter hpending hindents hm hline hcode hdeeper
  have hends : LoopEnds ls (s.pos + 1)
      { s.note (.enter line.indent) (levels frames) with indents := s.indents.push line.indent }
      ⟨line.indent, line.start, [], opening⟩ frames items s.builder [] :=
    loop_item hitem hloop htext (.refl _) (stands_of_pending hpending (by rw [Outline.add_nil]; exact h)) hpending hline
      hcode (Nat.le_refl _) (by simp)
  obtain ⟨ds, t, ns, hcall, hbuilt, hgoes, hpast, hstands⟩ := hends
  obtain ⟨c, b, hnode, hbuilt'⟩ := build_node (s := t) hbuilt (show Kind.block ≠ .comment by decide) line.start
  have hleave : (t.withNodes b).Goes ls (line.indent :: levels frames) true
      ((t.withNodes b).note (.leave s.pos) (levels frames)) (levels frames) false := goes_leave hpast
  refine ⟨c, _, ns, ?_, hbuilt', (henter.trans hgoes).trans hleave, hpast, hstands.pending_le, hstands.continues⟩
  rw [block, hraw]
  exact Option.bind_eq_some_iff.mpr ⟨_, hcall, Option.bind_eq_some_iff.mpr ⟨_, hnode, rfl⟩⟩

end

/-- The three of them from every line on. Items lie further on than the line they begin with, and a block begins
with an item, so that the induction is on the number of lines left. -/
theorem builds {text : List Char} {ls : List LogicalLine} (hls : ∀ l ∈ ls, l.StandsIn text) (i : Nat) :
    ItemBuilds text ls i ∧ BlockBuilds text ls i ∧ LoopBuilds text ls i := by
  induction hn : ls.length - i using Nat.strong_induction_on generalizing i with
  | _ n ih =>
    have hlater (hi : i < ls.length) (j : Nat) (hj : i < j) :
        ItemBuilds text ls j ∧ BlockBuilds text ls j ∧ LoopBuilds text ls j := ih (ls.length - j) (by omega) j rfl
    have hitem : ItemBuilds text ls i := by
      intro s frames items line out hpos htext hpending hlevelled hline
      have hi := (List.getElem?_eq_some_iff.mp hline).1
      exact lineItem_built (fun j hj => (hlater hi j hj).2.1) hls frames items out hpos htext hpending hlevelled hline
    have hblock : BlockBuilds text ls i := by
      intro s frames items line opening hpos htext hpending hm hlevelled hline
      have hi := (List.getElem?_eq_some_iff.mp hline).1
      exact block_built hitem (fun j hj => (hlater hi j hj).2.2) frames items opening hpos htext hpending hm
        hlevelled hline
    refine ⟨hitem, hblock, ?_⟩
    intro s f frames items b cs hpos htext hbuilt hstands
    subst hpos
    exact loop_built hitem hblock (fun hi j hj => (hlater hi j hj).2.2) htext hbuilt hstands

end Descent

end RenpyScript
