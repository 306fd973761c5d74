import RenpyScript.Proofs.Checked.Descent
import RenpyScript.Proofs.Tree.Indentation

/-!
# The whole descent

For every text the descent comes to an end, with the same tree that the outline gives. It reads every line once,
and its calls follow the indent stack.
-/

namespace RenpyScript

open RenpyScript.Frame (levels)

namespace Descent
open LogicalLine ParseState

section
variable {text : List Char} {ls : List LogicalLine} {s : ParseState} {items : List Node} {b₀ : TreeBuilder} {cs : List Child}
  {line : LogicalLine} {since : Option Nat}

lemma goes_resume (hpending : s.pending = 0) (hindents : s.indents = .empty)
    (hsince : ∀ i, since = some i → i < s.pos) : s.Goes ls [] false (s.note (.resume since) []) [] false := by
  refine goes_step rfl rfl ⟨by simp, by simp⟩ ?_
  change Stage.Step _ ⟨s.pos, [], s.indents, s.pending, false, s.misaligned, levelsAround s.moments⟩
    ⟨.resume since, s.pos, [], s.indents, s.pending⟩
    ⟨s.pos, [], s.indents, s.pending, false, s.misaligned, levelsAround s.moments⟩
  rw [hpending, hindents]
  exact .resume hsince

/-- A turn of the loop over the document. -/
lemma sourceFile_line (since : Option Nat) (cs : List Child) (hpending : s.pending = 0) (hline : ls[s.pos]? = some line) :
    sourceFile (ls.map raw) since cs s =
      (let t := s.note (.resume since) []
      match line.kind with
      | .blank => do
        let ⟨t, _⟩ ← (t.consume []).below (ls.map raw) (s.left (ls.map raw))
        sourceFile (ls.map raw) (some s.pos) cs t
      | .comment => do
        let (c, t) ← commentLine line.raw t
        let ⟨t, _⟩ ← (t.consume []).below (ls.map raw) (s.left (ls.map raw))
        sourceFile (ls.map raw) (some s.pos) (cs ++ [c]) t
      | .code =>
        if 0 < line.indent ∧ s.misaligned = false then do
          let (node, t) ← block (ls.map raw) [] t
          let ⟨t, _⟩ ← t.below (ls.map raw) (s.left (ls.map raw))
          sourceFile (ls.map raw) (some s.pos) (cs ++ [node]) t
        else do
          let (cs, t) ← lineItem (ls.map raw) [] true cs t
          let ⟨t, _⟩ ← t.below (ls.map raw) (s.left (ls.map raw))
          sourceFile (ls.map raw) (some s.pos) cs t) := by
  obtain ⟨pos, builder, indents, pending, misaligned, moments⟩ := s
  obtain rfl : pending = 0 := hpending
  rw [sourceFile]
  dsimp only [note]
  rw [getElem?_raw hline]
  rfl

/-- The loop over the document ends, with the nodes `cs` built since `b₀`. -/
def DocumentEnds (ls : List LogicalLine) (since : Option Nat) (s : ParseState) (b₀ : TreeBuilder) (cs : List Child) : Prop :=
  ∃ ds t, sourceFile (ls.map raw) since cs s = some (ds, t) ∧ b₀.Built t.builder ds (Outline.itemsOf ls) ∧
    s.Goes ls [] false t [] false ∧ t.pending = 0 ∧ ls.length ≤ t.pos

/-- What the loop over the document does from a line on. -/
def DocumentBuilds (text : List Char) (ls : List LogicalLine) (b₀ : TreeBuilder) (i : Nat) : Prop :=
  ∀ {s : ParseState} {items : List Node} {cs : List Child} {since : Option Nat}, s.pos = i → s.builder.text = text →
    s.pending = 0 → (∀ j, since = some j → j < i) → b₀.Built s.builder cs items →
    Outline.Continues ls (s.outline [] items) i → DocumentEnds ls since s b₀ cs

lemma stands_document {ns : List Node} (h : s.Stands ls [] items ns) :
    s.pending = 0 ∧ Outline.Continues ls (s.outline [] (items ++ ns)) s.pos := by
  have hpending : s.pending = 0 := Nat.le_zero.mp h.pending_le
  have hcontinues := h.continues
  rw [after_of_pending hpending] at hcontinues
  exact ⟨hpending, hcontinues⟩

lemma goes_document (since : Option Nat) (hpending : s.pending = 0)
    (h : Outline.Continues ls (s.outline [] items) s.pos) (hsince : ∀ i, since = some i → i < s.pos) :
    s.Goes ls [] false (s.note (.resume since) []) [] false :=
  goes_resume hpending (congrArg IndentStack.mk h.aligned.widths_eq) hsince

lemma document_next {t : ParseState} {ds es : List Child} {ns : List Node} (hlater : ∀ j, s.pos < j → DocumentBuilds text ls b₀ j)
    (htext : s.builder.text = text) (hbuilt : b₀.Built s.builder cs items) (hline : ls[s.pos]? = some line)
    (hgoes : s.Goes ls [] false t [] false) (hpos : s.pos < t.pos)
    (hnodes : s.builder.Built t.builder ds ns) (hpending : t.pending = 0)
    (h : Outline.Continues ls (t.outline [] (items ++ ns)) t.pos) (hes : es = cs ++ ds)
    (hcall : sourceFile (ls.map raw) since cs s =
      (t.below (ls.map raw) (s.left (ls.map raw)) >>= fun u => sourceFile (ls.map raw) (some s.pos) es u)) :
    DocumentEnds ls since s b₀ cs := by
  subst hes
  rw [below_bind (left_lt (getElem?_raw hline) hpos)] at hcall
  have hsince : ∀ j, some s.pos = some j → j < t.pos := by
    rintro j ⟨⟩
    exact hpos
  obtain ⟨fs, u, hrest, hbuilt', hgoes', hpending', hend⟩ :=
    hlater t.pos hpos rfl (hnodes.text.trans htext) hpending hsince (hbuilt.append hnodes) h
  exact ⟨fs, u, hcall.trans hrest, hbuilt', hgoes.trans hgoes', hpending', hend⟩

lemma document_end (hpending : s.pending = 0) (hsince : ∀ i, since = some i → i < s.pos)
    (hbuilt : b₀.Built s.builder cs items) (h : Outline.Continues ls (s.outline [] items) s.pos) (hend : ls.length ≤ s.pos) :
    DocumentEnds ls since s b₀ cs := by
  refine ⟨cs, s.note (.resume since) [], ?_, ?_, goes_document since hpending h hsince, hpending, hend⟩
  · rw [sourceFile]
    dsimp only
    rw [show (s.note (.resume since) []).pos = s.pos from rfl, List.getElem?_eq_none (by rwa [List.length_map])]
  · rw [← h.items_eq hend rfl rfl]
    exact hbuilt

lemma document_blank (hlater : ∀ j, s.pos < j → DocumentBuilds text ls b₀ j) (htext : s.builder.text = text)
    (hpending : s.pending = 0) (hsince : ∀ i, since = some i → i < s.pos) (hbuilt : b₀.Built s.builder cs items)
    (h : Outline.Continues ls (s.outline [] items) s.pos) (hline : ls[s.pos]? = some line) (hblank : line.kind = .blank) :
    DocumentEnds ls since s b₀ cs := by
  have hcall := sourceFile_line since cs hpending hline
  rw [hblank] at hcall
  have hindents : s.indents = .empty := congrArg IndentStack.mk h.aligned.widths_eq
  have hgoes := goes_consume_other (s := s.note (.resume since) []) hpending hindents hline (by simp [hblank])
  refine document_next hlater htext hbuilt hline ((goes_document since hpending h hsince).trans hgoes) (Nat.lt_succ_self _)
    (.refl _) hpending ?_ (List.append_nil cs).symm hcall
  rw [List.append_nil]
  exact h.blank hline hblank

lemma document_comment (hlater : ∀ j, s.pos < j → DocumentBuilds text ls b₀ j) (htext : s.builder.text = text)
    (hpending : s.pending = 0) (hsince : ∀ i, since = some i → i < s.pos) (hbuilt : b₀.Built s.builder cs items)
    (h : Outline.Continues ls (s.outline [] items) s.pos) (hline : ls[s.pos]? = some line)
    (hcomment : line.kind = .comment) : DocumentEnds ls since s b₀ cs := by
  have hcall := sourceFile_line since cs hpending hline
  rw [hcomment] at hcall
  have hindents : s.indents = .empty := congrArg IndentStack.mk h.aligned.widths_eq
  obtain ⟨c, b, hbuild, hnodes⟩ := commentLine_built line (s.note (.resume since) [])
  have hgoes := goes_consume_other (s := (s.note (.resume since) []).withNodes b) hpending hindents
    hline (by simp [hcomment])
  refine document_next (t := ((s.note (.resume since) []).withNodes b).consume []) hlater htext hbuilt hline
    ((goes_document since hpending h hsince).trans hgoes) (Nat.lt_succ_self _) hnodes hpending
    (h.comment rfl hline hcomment rfl) rfl ?_
  rw [hcall]
  dsimp only
  rw [hbuild]
  rfl

/-- A line of code opens a block, or it is an item of the document. -/
lemma document_code (hitem : ItemBuilds text ls s.pos) (hblock : BlockBuilds text ls s.pos)
    (hlater : ∀ j, s.pos < j → DocumentBuilds text ls b₀ j) (htext : s.builder.text = text)
    (hpending : s.pending = 0) (hsince : ∀ i, since = some i → i < s.pos) (hbuilt : b₀.Built s.builder cs items)
    (h : Outline.Continues ls (s.outline [] items) s.pos) (hline : ls[s.pos]? = some line) (hcode : line.kind = .code) :
    DocumentEnds ls since s b₀ cs := by
  have hcall := sourceFile_line since cs hpending hline
  rw [hcode] at hcall
  dsimp only at hcall
  have hresume : s.Goes ls [] false (s.note (.resume since) []) [] false :=
    goes_document since hpending h hsince
  by_cases hopens : 0 < line.indent ∧ s.misaligned = false
  · obtain ⟨c, t, ns, hread, hnodes, hgoes, hpast, hstands⟩ := hblock (s := s.note (.resume since) []) [] items
      none rfl htext hpending hopens.2 h.aligned.toLevelled hline hcode hopens.1
      (h.openFrame rfl hline hcode hopens.2 hopens.1)
    obtain ⟨hpending', hcontinues⟩ := stands_document hstands
    refine document_next hlater htext hbuilt hline (hresume.trans hgoes) hpast hnodes hpending' hcontinues rfl ?_
    rw [hcall, if_pos hopens]
    change ((block (ls.map raw) [] (s.note (.resume since) [])).bind fun r => _) = _
    rw [show block (ls.map raw) [] (s.note (.resume since) []) = _ from hread]
    rfl
  · obtain ⟨ds, t, ns, hread, hnodes, hgoes, hpast, hstands⟩ := hitem (s := s.note (.resume since) []) [] items
      cs rfl htext hpending h.aligned.toLevelled hline hcode (Nat.zero_le _)
      (h.item rfl hline hcode (Nat.zero_le _) hopens)
    obtain ⟨hpending', hcontinues⟩ := stands_document hstands
    refine document_next hlater htext hbuilt hline (hresume.trans hgoes) hpast hnodes hpending' hcontinues rfl ?_
    rw [hcall, if_neg hopens]
    change ((lineItem (ls.map raw) [] true cs (s.note (.resume since) [])).bind fun r => _) = _
    rw [show lineItem (ls.map raw) [] true cs (s.note (.resume since) []) = _ from hread]
    rfl

lemma document_builds (hls : ∀ l ∈ ls, l.StandsIn text) (b₀ : TreeBuilder) (i : Nat) : DocumentBuilds text ls b₀ i := by
  -- A block or an item may take many lines, so the induction is on how many are left.
  induction hn : ls.length - i using Nat.strong_induction_on generalizing i with
  | _ n ih =>
    intro s items cs since hpos htext hpending hsince hbuilt h
    subst hpos
    rcases hline : ls[s.pos]? with _ | line
    · exact document_end hpending hsince hbuilt h (List.getElem?_eq_none_iff.mp hline)
    have hlt := (List.getElem?_eq_some_iff.mp hline).1
    have hlater (j : Nat) (hj : s.pos < j) : DocumentBuilds text ls b₀ j := ih (ls.length - j) (by omega) j rfl
    obtain ⟨hitem, hblock, -⟩ := builds hls s.pos
    cases hkind : line.kind with
    | blank => exact document_blank hlater htext hpending hsince hbuilt h hline hkind
    | comment => exact document_comment hlater htext hpending hsince hbuilt h hline hkind
    | code => exact document_code hitem hblock hlater htext hpending hsince hbuilt h hline hkind

/-- The machine at the beginning of a document. -/
def beginning : Stage :=
  ⟨0, [], .empty, 0, false, false, []⟩

lemma beginning_nested : beginning.Nested :=
  ⟨List.pairwise_singleton _ _, rfl⟩

lemma sourceFile_ends (text : List Char) : DocumentEnds (scan text) none ⟨0, .empty text, .empty, 0, false, []⟩ (.empty text) [] :=
  document_builds (fun l hl => scan_standsIn hl) _ 0 rfl rfl rfl (fun i hi => by cases hi) (.refl _)
    (Outline.continues_empty (scan text))

/-- A descent over a text comes to an end, behind its last line. -/
lemma parse_ends (text : List Char) : ∃ r q, parse text = some r ∧
    Denotes (.ofText text) r.final.builder.nodes none none r.root (.root (Outline.itemsOf (scan text)) text) ∧
    r.final.builder.nodes.length = (Node.root (Outline.itemsOf (scan text)) text).preorder.length ∧
    Stage.Course ((scan text).map raw) beginning r.final.moments q ∧
    q.returning = false ∧ q.pending = 0 ∧ q.opened = [] ∧ q.pos = (scan text).length ∧
    LinesRead (scan text) none 0 r.final.moments (scan text).length := by
  obtain ⟨cs, t, hsource, hbuilt, ⟨ms, hms, hcourse, hreads⟩, hpending, hend⟩ := sourceFile_ends text
  obtain ⟨root, b, hfinish, hdenotes, hlength⟩ := hbuilt.finish
  obtain rfl : t.moments = ms := hms
  have hpos : t.pos = (scan text).length := by
    have hle := hcourse.pos_le_length (Nat.zero_le _)
    rw [List.length_map] at hle
    exact Nat.le_antisymm hle hend
  refine ⟨⟨root, t.withNodes b⟩, _, ?_, hdenotes, hlength, hcourse, rfl, hpending, rfl, hpos, hpos ▸ hreads⟩
  rw [parse, byteScan_eq]
  simp only [Option.bind_eq_bind, Option.bind_some]
  rw [hsource, Option.bind_some]
  dsimp only
  rw [hfinish]
  rfl

/-- The entries that a descent leaves behind are linked, and as many as the tree has nodes. -/
lemma parse_linked (text : List Char) : ∃ r, parse text = some r ∧ Linked r.final.builder.nodes ∧
    Denotes (.ofText text) r.final.builder.nodes none none r.root (.root (Outline.itemsOf (scan text)) text) ∧
    r.final.builder.nodes.length = (Node.root (Outline.itemsOf (scan text)) text).preorder.length := by
  obtain ⟨r, q, hparse, hdenotes, hlength, -⟩ := parse_ends text
  refine ⟨r, hparse, ?_, hdenotes, hlength⟩
  obtain ⟨cs, t, hsource, hbuilt, -⟩ := sourceFile_ends text
  obtain ⟨root, b, hfinish, -⟩ := hbuilt.finish
  rw [parse, byteScan_eq] at hparse
  simp only [Option.bind_eq_bind, Option.bind_some] at hparse
  rw [hsource, Option.bind_some] at hparse
  dsimp only at hparse
  rw [hfinish, Option.bind_some] at hparse
  obtain rfl := Option.some.inj hparse
  exact hbuilt.finish_linked hfinish

end

/-- A descent comes to an end on every text, without a failing access, and builds the tree of the text and no other
nodes. It never goes back, every call for a block and every turn of the loop over the document reads a line, and
every line is read once. -/
theorem parse_total (text : String) : ∃ lines r, byteScan text.toList = some lines ∧ parse text.toList = some r ∧
    Denotes (.ofText text.toList) r.final.builder.nodes none none r.root (Tree.parse text).root ∧
    r.final.builder.nodes.length = (Tree.parse text).nodeCount ∧
    r.final.moments.Pairwise (·.pos ≤ ·.pos) ∧
    (∀ m ∈ r.final.moments, ∀ i, m.event = .leave i ∨ m.event = .resume (some i) → i < m.pos) ∧
    (r.final.moments.filter (·.event = .consume)).map (·.pos) = List.range lines.length := by
  obtain ⟨r, q, hparse, hdenotes, hlength, hcourse, -, -, -, hpos, -⟩ := parse_ends text.toList
  refine ⟨_, r, byteScan_eq _, hparse, hdenotes, ?_, hcourse.forward, fun m hm i hi => hcourse.since_lt hm hi, ?_⟩
  · rw [Tree.nodeCount, ← Node.length_preorder]
    exact hlength
  · rw [hcourse.consumed, hpos, List.length_map]
    exact List.range_eq_range'.symm

/-- At every moment of a descent the blocks whose calls are open follow the indent stack. -/
theorem parse_nests (text : String) : ∃ lines r, byteScan text.toList = some lines ∧ parse text.toList = some r ∧
    ∀ before m after, r.final.moments = before ++ m :: after → m.Nests lines (callsBehind [] before) after := by
  obtain ⟨r, q, hparse, -, -, hcourse, hreturning, hpending, -, -⟩ := parse_ends text.toList
  refine ⟨_, r, byteScan_eq _, hparse, ?_⟩
  intro before m after hmoments
  rw [hmoments] at hcourse
  exact hcourse.nests beginning_nested hreturning hpending

end Descent

end RenpyScript
