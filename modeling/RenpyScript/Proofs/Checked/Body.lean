import RenpyScript.Proofs.Checked.Form
import RenpyScript.Proofs.Checked.Reading
import RenpyScript.Proofs.Outline.Continuation
import RenpyScript.Proofs.Outline.Reindent

/-!
# Lines of a descent

What a descent does with single lines, and with the lines of a Python body or in front of a block, against what
the outline does with them.
-/

namespace RenpyScript

namespace ParseState

/-- Where the machine stands that follows a descent. -/
def stage (s : ParseState) (opened : List Nat) (returning : Bool) : Stage :=
  ⟨s.pos, opened, s.indents, s.pending, returning, s.misaligned, levelsAround s.moments⟩

/-- What is noted down from one state to another is a course of the machine, and it tells how the lines are read. A
Python body is being read at first if it has an owner. -/
def Follows (ls : List LogicalLine) (owner : Option Nat) (s : ParseState) (opened : List Nat) (returning : Bool)
    (t : ParseState) (opened' : List Nat) (returning' : Bool) : Prop :=
  ∃ ms, t.moments = s.moments ++ ms ∧
    Stage.Course (ls.map LogicalLine.raw) (s.stage opened returning) ms (t.stage opened' returning') ∧
    LinesRead ls owner s.pos ms t.pos

/-- No Python body is being read at first. -/
abbrev Goes (ls : List LogicalLine) (s : ParseState) (opened : List Nat) (returning : Bool) (t : ParseState)
    (opened' : List Nat) (returning' : Bool) : Prop :=
  s.Follows ls none opened returning t opened' returning'

def withNodes (s : ParseState) (b : TreeBuilder) : ParseState :=
  { s with builder := b }

/-- The state at a later line; the blocks are the same. -/
def onward (s : ParseState) (i : Nat) (b : TreeBuilder) (ms : List Moment) : ParseState :=
  { s with pos := i, builder := b, moments := ms }

/-- The outline that a state stands for, if no block is pending. -/
def outline (s : ParseState) (frames : List Frame) (items : List Node) : Outline :=
  ⟨s.indents, frames, items, .nothing, s.misaligned⟩

section
variable {ls : List LogicalLine} {line : LogicalLine} {owner : Option Nat} {s t t' : ParseState}
  {opened opened' opened'' : List Nat} {r r' r'' : Bool} {m : Moment}

lemma goes_refl (ls : List LogicalLine) (s : ParseState) (opened : List Nat) (r : Bool) : s.Goes ls opened r s opened r :=
  ⟨[], (List.append_nil _).symm, .nil, .nil⟩

lemma Follows.trans (h : s.Follows ls owner opened r t opened' r') (h' : t.Goes ls opened' r' t' opened'' r'') :
    s.Follows ls owner opened r t' opened'' r'' := by
  obtain ⟨ms, hms, hcourse, hreads⟩ := h
  obtain ⟨ns, hns, hcourse', hreads'⟩ := h'
  exact ⟨ms ++ ns, by rw [hns, hms, List.append_assoc], hcourse.append hcourse', hreads.append hreads'⟩

lemma Follows.pos_le (h : s.Follows ls owner opened r t opened' r') : s.pos ≤ t.pos := by
  obtain ⟨ms, -, hcourse, -⟩ := h
  exact hcourse.pos_le

lemma goes_step (hmoments : t.moments = s.moments ++ [m]) (hpos : t.pos = s.pos)
    (hevent : (∀ misaligned, m.event ≠ .item misaligned) ∧ m.event ≠ .consume)
    (h : Stage.Step (ls.map LogicalLine.raw) (s.stage opened r) m ⟨t.pos, opened', t.indents, t.pending, r', t.misaligned,
      m.event.around m.opened (levelsAround s.moments)⟩) : s.Goes ls opened r t opened' r' := by
  rw [← levelsAround_concat, ← hmoments] at h
  refine ⟨[m], hmoments, .cons h .nil, .pass hevent.1 hevent.2 ?_⟩
  rw [hpos]
  exact .nil

lemma getElem?_raw {i : Nat} (h : ls[i]? = some line) : (ls.map LogicalLine.raw)[i]? = some line.raw := by
  rw [List.getElem?_map, h]
  rfl

lemma levelsAround_consume (s : ParseState) (opened : List Nat) :
    levelsAround (s.consume opened).moments = levelsAround s.moments :=
  levelsAround_concat s.moments _

lemma step_consume (hpending : s.pending = 0) (hindents : s.indents = ⟨opened⟩) (hline : ls[s.pos]? = some line)
    (howned : line.kind = .code → levelsAround s.moments = opened) :
    Stage.Step (ls.map LogicalLine.raw) (s.stage opened false) ⟨.consume, s.pos, opened, s.indents, s.pending⟩
      ((s.consume opened).stage opened false) := by
  change Stage.Step _ ⟨s.pos, opened, s.indents, s.pending, false, s.misaligned, levelsAround s.moments⟩
    ⟨.consume, s.pos, opened, s.indents, s.pending⟩
    ⟨s.pos + 1, opened, s.indents, s.pending, false, s.misaligned, levelsAround (s.consume opened).moments⟩
  rw [hpending, hindents, levelsAround_consume]
  exact .consume (getElem?_raw hline) fun hcode => (howned hcode).symm

lemma goes_consume_other (hpending : s.pending = 0) (hindents : s.indents = ⟨opened⟩)
    (hline : ls[s.pos]? = some line) (hkind : line.kind ≠ .code) : s.Goes ls opened false (s.consume opened) opened false :=
  ⟨_, rfl, .cons (step_consume hpending hindents hline fun hcode => absurd hcode hkind) .nil, .other hline hkind rfl .nil⟩

lemma Follows.inside {w : Nat} (hpending : s.pending = 0) (hindents : s.indents = ⟨opened⟩)
    (haround : levelsAround s.moments = opened) (hline : ls[s.pos]? = some line) (hholds : BodyHolds ls w s.pos)
    (h : (s.consume opened).Follows ls (some w) opened false t opened' r') :
    s.Follows ls (some w) opened false t opened' r' := by
  obtain ⟨ms, hms, hcourse, hreads⟩ := h
  refine ⟨_ :: ms, ?_, .cons (step_consume hpending hindents hline fun _ => haround) hcourse, .inside hholds rfl hreads⟩
  rw [hms]
  exact List.append_assoc ..

lemma follows_close {w : Nat} (h : ¬BodyHolds ls w s.pos) : s.Follows ls (some w) opened r s opened r :=
  ⟨[], (List.append_nil _).symm, .nil, .close h .nil⟩

end

end ParseState

def LogicalLine.pythonNodes (line : LogicalLine) : List Node :=
  match line.kind with
  | .blank => []
  | .comment => [line.commentNode]
  | .code => line.unread.expressionPieces .pythonExpression

lemma LogicalLine.pythonNodes_leaves (line : LogicalLine) : ∀ n ∈ line.pythonNodes, n.children = [] := by
  have hpiece : ∀ u n v, Unread.expressionPiece? .pythonExpression u = some (n, v) → n.children = [] := by
    intro u n v h
    rw [Unread.expressionPiece?] at h
    rcases hread : u.expression? .pythonExpression with _ | r
    · rw [hread] at h
      obtain ⟨-, rfl, -⟩ := Unread.trimmedToken?_eq_some_iff.mp (show u.comment? = _ from h)
      rfl
    · rw [hread] at h
      obtain rfl : r = (n, v) := Option.some.inj h
      obtain ⟨-, rfl, -⟩ := Unread.trimmedToken?_eq_some_iff.mp hread
      rfl
  unfold pythonNodes
  split
  · simp
  · simp [commentNode, Node.leaf]
  · exact Unread.forall_mem_many hpiece line.unread

namespace PythonBody

def extend (body : PythonBody) (ns : List Node) : PythonBody :=
  { body with children := body.children ++ ns, hasCode := body.hasCode || ns.any (·.kind = .pythonExpression) }

lemma extend_nil (body : PythonBody) : body.extend [] = body := by
  simp [extend]

lemma extend_extend (body : PythonBody) (ns ms : List Node) : (body.extend ns).extend ms = body.extend (ns ++ ms) := by
  simp [extend, Bool.or_assoc]

lemma add_eq (body : PythonBody) (line : LogicalLine) : body.add line = body.extend line.pythonNodes := by
  unfold add LogicalLine.pythonNodes
  cases line.kind with
  | blank => exact (extend_nil body).symm
  | comment => simp [extend, LogicalLine.commentNode, Node.leaf]
  | code => rfl

end PythonBody

namespace Descent
open LogicalLine LineReader ParseState

/-- What is found of a line of code from an index on. -/
inductive NextCode (ls : List LogicalLine) : Nat → Option Nat → Prop
  | none {i : Nat} (past : ls.length ≤ i) : NextCode ls i none
  | here {i : Nat} {line : LogicalLine} (get : ls[i]? = some line) (kind : line.kind = .code) : NextCode ls i (some i)
  | later {i : Nat} {o : Option Nat} {line : LogicalLine} (get : ls[i]? = some line) (kind : line.kind ≠ .code)
      (rest : NextCode ls (i + 1) o) : NextCode ls i o

section
variable {text : List Char} {ls : List LogicalLine} {line : LogicalLine} {s : ParseState} {i : Nat}

/-! ## Looking ahead -/

lemma nextCode_eq (ls : List LogicalLine) (i : Nat) : ∃ o, nextCode (ls.map raw) i = some o ∧ NextCode ls i o := by
  -- The search looks at one line after the other, so the induction is on the lines that are left.
  induction hn : ls.length - i generalizing i with
  | zero =>
    rw [nextCode, if_neg (by rw [List.length_map]; omega)]
    exact ⟨none, rfl, .none (by omega)⟩
  | succ n ih =>
    obtain ⟨line, hline⟩ : ∃ line, ls[i]? = some line := ⟨_, List.getElem?_eq_getElem (by omega)⟩
    obtain ⟨o, hrest, ho⟩ := ih (i + 1) (by omega)
    rw [nextCode, if_pos (by rw [List.length_map]; omega), getElem?_raw hline, Option.bind_eq_bind, Option.bind_some]
    by_cases hkind : line.kind = .code
    · exact ⟨some i, if_pos hkind, .here hline hkind⟩
    · exact ⟨o, (if_neg hkind).trans hrest, .later hline hkind ho⟩

lemma NextCode.indent {o : Option Nat} (h : NextCode ls i o) :
    nextCodeIndent? (ls.drop i) = o.bind fun j => ls[j]?.map (·.indent) := by
  induction h with
  | none past => rw [Outline.Continues.drop_end past]; rfl
  | here get kind => rw [Outline.drop_of_getElem? get, nextCodeIndent?_code kind, Option.bind_some, get]; rfl
  | later get kind rest ih => rw [Outline.drop_of_getElem? get, nextCodeIndent?_other kind, ih]

lemma NextCode.exists_line {j : Nat} (h : NextCode ls i (some j)) : i ≤ j ∧ ∃ line, ls[j]? = some line ∧ line.kind = .code := by
  generalize ho : some j = o at h
  induction h with
  | none past => cases ho
  | here get kind =>
    cases ho
    exact ⟨Nat.le_refl _, _, get, kind⟩
  | later get kind rest ih => exact ⟨Nat.le_of_succ_le (ih ho).1, (ih ho).2⟩

lemma nextIndent_eq (ls : List LogicalLine) (i : Nat) : nextIndent (ls.map raw) i = some (nextCodeIndent? (ls.drop i)) := by
  obtain ⟨o, hnext, ho⟩ := nextCode_eq ls i
  rw [nextIndent, hnext, ho.indent, Option.bind_eq_bind, Option.bind_some]
  rcases o with _ | j
  · rfl
  · obtain ⟨-, line, hline, -⟩ := ho.exists_line
    rw [Option.bind_some, hline]
    dsimp only
    rw [getElem?_raw hline]
    rfl

/-! ## Single lines -/

lemma commentLine_built (line : LogicalLine) (s : ParseState) : ∃ c b,
    commentLine line.raw s = some (c, s.withNodes b) ∧ s.builder.Built b [c] [line.commentNode] := by
  obtain ⟨i, b, hextra, hbuilt⟩ := s.builder.comment_built line.span
  refine ⟨.plain i, b, ?_, hbuilt⟩
  rw [commentLine, ParseState.build]
  change (s.builder.extra .comment line.span >>= _) = _
  rw [hextra]
  rfl

lemma build_node {b₀ : TreeBuilder} {cs : List Child} {ns : List Node} {kind : Kind} (h : b₀.Built s.builder cs ns)
    (hkind : kind ≠ .comment) (fallback : Nat) : ∃ c b, s.build (TreeBuilder.node kind cs fallback) = some (c, s.withNodes b) ∧
      b₀.Built b [c] [.branch kind ns fallback] := by
  obtain ⟨i, b, hnode, hbuilt⟩ := TreeBuilder.Built.node
    (show TreeBuilder.Built _ s.builder (cs ++ []) (ns ++ []) by simpa using h) h.length_eq hkind fallback
  exact ⟨.plain i, b, by rw [build, hnode]; rfl, hbuilt⟩

lemma build_missing {kind : Kind} (hkind : kind ≠ .comment) (s : ParseState) (offset : Nat) :
    ∃ c b, s.build (TreeBuilder.missing kind offset) = some (c, s.withNodes b) ∧
      s.builder.Built b [c] [.absent kind offset] := by
  obtain ⟨i, b, hmissing, hbuilt⟩ := s.builder.missing_built hkind offset
  exact ⟨.plain i, b, by rw [build, hmissing]; rfl, hbuilt⟩

lemma last_built {b b' : TreeBuilder} {cs : List Child} {ns : List Node} (h : b.Built b' cs ns) (hne : ns ≠ []) :
    ∃ c n, cs.getLast? = some c ∧ ns.getLast? = some n ∧ b'.endOf c.index = some n.span.stop := by
  rcases TreeBuilder.forall₂_ends h.denotes with ⟨-, hnil⟩ | ⟨-, -, -, -, -, c, n, hc, hn, hdenotes⟩
  · exact absurd hnil hne
  · exact ⟨c, n, hc, hn, hdenotes.2.endOf⟩

lemma at_unread (h : line.StandsIn text) : Lexer.At ⟨text, line.start, line.span.stop⟩ text line.unread :=
  Unread.StandsIn.at (u := line.unread) h

lemma readForm_built (h : line.StandsIn text) (htext : s.builder.text = text) (topLevel bodyFollows : Bool) :
    ∃ form b, readForm topLevel bodyFollows line.raw s = some (form, b) ∧
      Says s.builder b form (if topLevel then .topLevel bodyFollows line.unread else .nested line.unread) := by
  subst htext
  have hat := at_unread h
  have hruns : Runs s.builder (if topLevel then LineReader.topLevel bodyFollows line.start else LineReader.nested line.start)
      ⟨⟨s.builder.text, line.start, line.span.stop⟩, s.builder⟩ False fun form t =>
        Says s.builder t.builder form (if topLevel then .topLevel bodyFollows line.unread else .nested line.unread) := by
    cases topLevel
    · exact runs_nested (s := ⟨_, s.builder⟩) hat line.start
    · exact runs_topLevel (s := ⟨_, s.builder⟩) hat line.start
  obtain ⟨r, t, hread, hr⟩ := hruns
  rcases r with _ | form
  · exact hr.2.elim
  · refine ⟨form, t.builder, ?_, hr⟩
    rw [readForm]
    change ((if topLevel then LineReader.topLevel bodyFollows line.start else LineReader.nested line.start)
      ⟨⟨s.builder.text, line.start, line.span.stop⟩, s.builder⟩ >>= _) = _
    rw [hread]
    rfl

/-! ## Python bodies -/

lemma pythonLine_built (h : line.StandsIn text) (htext : s.builder.text = text) : ∃ cs b,
    pythonLine line.raw s = some (cs, s.withNodes b) ∧ s.builder.Built b cs line.pythonNodes := by
  unfold pythonLine pythonNodes
  rw [show line.raw.kind = line.kind from rfl]
  cases hkind : line.kind with
  | blank => exact ⟨[], s.builder, rfl, .refl _⟩
  | comment =>
    obtain ⟨c, b, hcomment, hbuilt⟩ := commentLine_built line s
    refine ⟨[c], b, ?_, hbuilt⟩
    dsimp only
    rw [hcomment]
    rfl
  | code =>
    subst htext
    obtain ⟨r, t, hread, hr⟩ := runs_expressions (s := ⟨_, s.builder⟩) (at_unread h) (show Kind.pythonExpression ≠ .comment by decide)
    rcases r with _ | cs
    · exact hr.2.elim
    · refine ⟨cs, t.builder, ?_, hr⟩
      change (LineReader.expressions .pythonExpression ⟨⟨s.builder.text, line.start, line.span.stop⟩, s.builder⟩ >>= _) = _
      rw [hread]
      rfl

lemma insidePython_eq (body : PythonBody) (line : LogicalLine) (s : ParseState) :
    insidePython (ls.map raw) body.indent line.raw s = some (body.holds line (ls.drop (s.pos + 1))) := by
  unfold insidePython PythonBody.holds
  rw [show line.raw.kind = line.kind from rfl]
  cases line.kind with
  | blank => rfl
  | code => rfl
  | comment =>
    dsimp only
    rw [nextIndent_eq]
    rfl

lemma hasCode_eq (b : TreeBuilder) (i : Nat) :
    hasCode b i b.nodes.length = some ((b.nodes.drop i).any fun e => e.kind = .pythonExpression) := by
  induction hn : b.nodes.length - i generalizing i with
  | zero =>
    rw [hasCode, if_neg (by omega), List.drop_eq_nil_iff.mpr (by omega)]
    rfl
  | succ n ih =>
    have hi : i < b.nodes.length := by omega
    rw [hasCode, if_pos hi, TreeBuilder.kindOf, List.getElem?_eq_getElem hi, List.drop_eq_getElem_cons hi, List.any_cons]
    by_cases hkind : b.nodes[i].kind = .pythonExpression
    · simp [hkind]
    · simp [hkind, ih (i + 1) (by omega)]

lemma pythonBody_built (hls : ∀ l ∈ ls, l.StandsIn text) {frames : List Frame} {items : List Node} {body : PythonBody}
    {opened : List Nat} (htext : s.builder.text = text) (hpending : s.pending = 0) (hindents : s.indents = ⟨opened⟩)
    (haround : levelsAround s.moments = opened)
    (h : Outline.Continues ls ((s.outline frames items).waitFor (.python body)) s.pos) :
    ∃ cs i b ms ns, pythonBody (ls.map raw) opened body.indent s =
        some (cs, s.onward i b ms) ∧
      s.builder.Built b cs ns ∧ (∀ n ∈ ns, n.children = []) ∧
      s.Follows ls (some body.indent) opened false (s.onward i b ms) opened false ∧
      Outline.Continues ls ((s.outline frames items).add (body.extend ns).close) i := by
  -- On the lines left; the body grows by the nodes of the line that is read, and `Continues` goes along.
  induction hn : ls.length - s.pos generalizing s body with
  | zero =>
    have hend : ¬BodyHolds ls body.indent s.pos := by
      rintro ⟨line, hline, -⟩
      exact absurd (List.getElem?_eq_some_iff.mp hline).1 (by omega)
    refine ⟨[], s.pos, s.builder, s.moments, [], ?_, .refl _, by simp, follows_close hend, ?_⟩
    · rw [pythonBody, List.getElem?_eq_none (by rw [List.length_map]; omega)]
      rfl
    · rw [PythonBody.extend_nil]
      exact h.python_end (by omega)
  | succ n ih =>
    obtain ⟨line, hline⟩ : ∃ line, ls[s.pos]? = some line := ⟨_, List.getElem?_eq_getElem (by omega)⟩
    have hstands := hls line (List.mem_of_getElem? hline)
    rw [pythonBody, getElem?_raw hline]
    dsimp only
    rw [insidePython_eq, Option.bind_eq_bind, Option.bind_some]
    cases hholds : body.holds line (ls.drop (s.pos + 1)) with
    | false =>
      have hend : ¬BodyHolds ls body.indent s.pos := by
        rintro ⟨line', hline', hholds'⟩
        obtain rfl := Option.some.inj (hline.symm.trans hline')
        exact absurd (hholds'.symm.trans hholds) (by decide)
      refine ⟨[], s.pos, s.builder, s.moments, [], rfl, .refl _, by simp, follows_close hend, ?_⟩
      rw [PythonBody.extend_nil]
      exact h.python_close hline hholds
    | true =>
      obtain ⟨cs, b, hpython, hbuilt⟩ := pythonLine_built (s := s.consume opened) hstands htext
      have hfewer : ((s.consume opened).withNodes b).left (ls.map raw) < s.left (ls.map raw) :=
        left_lt (getElem?_raw hline) (Nat.lt_succ_self s.pos)
      have hnext := h.python_line hline hholds
      rw [PythonBody.add_eq] at hnext
      obtain ⟨ds, i, b', ms, ns, hrest, hbuilt', hleaves, hfollows, hcontinues⟩ :=
        ih (s := (s.consume opened).withNodes b)
          (hbuilt.text.trans htext) hpending hindents ((levelsAround_consume s opened).trans haround) hnext
          (by change ls.length - (s.pos + 1) = n; omega)
      refine ⟨cs ++ ds, i, b', ms, line.pythonNodes ++ ns, ?_, hbuilt.append hbuilt', ?_,
        .inside hpending hindents haround hline ⟨line, hline, hholds⟩ hfollows, ?_⟩
      · rw [if_pos rfl, hpython]
        simp only [Option.bind_eq_bind, Option.bind_some]
        rw [below_eq hfewer, Option.bind_some, show body.indent = (body.extend line.pythonNodes).indent from rfl, hrest]
        rfl
      · intro n hn
        rcases List.mem_append.mp hn with hn | hn
        · exact line.pythonNodes_leaves n hn
        · exact hleaves n hn
      · rw [← PythonBody.extend_extend]
        exact hcontinues

lemma hasCode_built {b b' : TreeBuilder} {cs : List Child} {ns : List Node} (h : b.Built b' cs ns)
    (hleaves : ∀ n ∈ ns, n.children = []) :
    hasCode b' b.nodes.length b'.nodes.length = some (ns.any (·.kind = .pythonExpression)) := by
  have hpreorder : Node.preorderAll ns = ns := by
    have hleaf : ∀ n ∈ ns, n.preorder = [n] := by
      intro n hn
      rw [Node.preorder_eq, hleaves n hn]
      rfl
    rw [Node.preorderAll_eq, List.flatMap_congr hleaf, List.flatMap_singleton']
  have hany := h.kinds.any_eq (f := fun kind => decide (kind = Kind.pythonExpression))
  rw [hpreorder, List.any_map, List.any_map] at hany
  rw [hasCode_eq]
  exact congrArg some hany

/-- A Python block, with the first line of which the children begin. -/
lemma pythonBlock_built (hls : ∀ l ∈ ls, l.StandsIn text) {frames : List Frame} {items : List Node} {opened : List Nat}
    {b₀ : TreeBuilder} {children : List Child} {head : List Node} {misaligned : Bool} (htext : s.builder.text = text)
    (hpending : s.pending = 0) (hindents : s.indents = ⟨opened⟩) (haround : levelsAround s.moments = opened)
    (hhead : b₀.Built s.builder children head) (hne : head ≠ [])
    (h : Outline.Continues ls
      ((s.outline frames items).waitFor (.python ⟨head, false, line.indent, line.start, misaligned⟩)) s.pos) :
    ∃ c i b ms n, pythonBlock (ls.map raw) opened line.raw children s = some (c, s.onward i b ms) ∧
      b₀.Built b [c] [n] ∧ s.Follows ls (some line.indent) opened false (s.onward i b ms) opened false ∧
      Outline.Continues ls ((s.outline frames items).add (settle misaligned line.start [n])) i := by
  obtain ⟨cs, i, b, ms, ns, hbody, hbuilt, hleaves, hfollows, hcontinues⟩ :=
    pythonBody_built hls htext hpending hindents haround h
  have hcode := hasCode_built hbuilt hleaves
  have hall := hhead.append hbuilt
  unfold pythonBlock
  rw [show line.raw.indent = line.indent from rfl, hbody]
  simp only [Option.bind_eq_bind, Option.bind_some]
  change ∃ c i b' ms' n, ((hasCode b s.builder.nodes.length b.nodes.length).bind fun code => _) = _ ∧ _
  rw [hcode, Option.bind_some]
  cases hany : ns.any (·.kind = .pythonExpression) with
  | true =>
    obtain ⟨c, b', hnode, hbuilt'⟩ := build_node (s := s.onward i b ms) hall (show Kind.pythonBlock ≠ .comment by decide) line.start
    refine ⟨c, i, b', ms, _, (if_pos rfl).trans hnode, hbuilt', hfollows, ?_⟩
    have hclose : (PythonBody.extend ⟨head, false, line.indent, line.start, misaligned⟩ ns).close =
        settle misaligned line.start [.branch .pythonBlock (head ++ ns) line.start] := by
      simp [PythonBody.close, PythonBody.extend, hany]
    rwa [hclose] at hcontinues
  | false =>
    obtain ⟨last, n, hlast, hn, hend⟩ := last_built hall (by simp [hne])
    obtain ⟨absent, b₁, habsent, hbuilt₁⟩ := build_missing (show Kind.pythonExpression ≠ .comment by decide) (s.onward i b ms) n.span.stop
    obtain ⟨c, b₂, hnode, hbuilt₂⟩ := build_node (s := s.onward i b₁ ms) (hall.append hbuilt₁) (show Kind.pythonBlock ≠ .comment by decide) line.start
    refine ⟨c, i, b₂, ms, _, ?_, hbuilt₂, hfollows, ?_⟩
    · rw [if_neg Bool.false_ne_true, hlast, Option.bind_some]
      change ((b.endOf last.index).bind fun stop => _) = _
      rw [hend, Option.bind_some, habsent, Option.bind_some]
      exact hnode
    · have hclose : (PythonBody.extend ⟨head, false, line.indent, line.start, misaligned⟩ ns).close =
          settle misaligned line.start
            [.branch .pythonBlock (head ++ ns ++ [.absent .pythonExpression n.span.stop]) line.start] := by
        simp [PythonBody.close, PythonBody.extend, PythonBody.childrenEnd, hany, hn]
      rwa [hclose] at hcontinues

/-! ## In front of a block -/

/-- An opening with more comments in front of its block. -/
def addComments (opening : Opening) (comments : List Node) : Opening :=
  comments.foldl Opening.addComment opening

/-- The comments between a line and its block. -/
lemma commentsBefore_built {frames : List Frame} {items : List Node} {opening : Opening} {opened : List Nat} {j : Nat}
    (hpending : s.pending = 0) (hindents : s.indents = ⟨opened⟩) (hnext : NextCode ls s.pos (some j))
    (h : Outline.Continues ls ((s.outline frames items).waitFor (.block opening)) s.pos) :
    ∃ cs b ms ns, commentsBefore (ls.map raw) opened j s = some (cs, s.onward j b ms) ∧ s.builder.Built b cs ns ∧
      s.Goes ls opened false (s.onward j b ms) opened false ∧
      Outline.Continues ls ((s.outline frames items).waitFor (.block (addComments opening ns))) j := by
  generalize ho : some j = o at hnext
  generalize hpos : s.pos = i at hnext h
  -- `NextCode` has a case for each turn of the loop: it ends at the code, and takes a comment along before that.
  induction hnext generalizing s opening with
  | none past => cases ho
  | here get kind =>
    cases ho
    refine ⟨[], s.builder, s.moments, [], ?_, .refl _, ?_, h⟩
    · rw [commentsBefore, if_neg (by omega), onward, ← hpos]
    · rw [onward, ← hpos]
      exact goes_refl _ _ _ _
  | @later i o line get kind rest ih =>
    subst hpos ho
    have hlt := rest.exists_line.1
    have hgoes := goes_consume_other hpending hindents get kind
    rw [commentsBefore, if_pos (by omega), getElem?_raw get, Option.bind_eq_bind, Option.bind_some]
    change ∃ cs b ms ns, (if line.kind = .comment then _ else _) = _ ∧ _
    by_cases hcomment : line.kind = .comment
    · obtain ⟨c, b₁, hbuild, hbuilt⟩ := commentLine_built line s
      obtain ⟨cs, b, ms, ns, hrest, hbuilt', hgoes', hcontinues⟩ := ih (s := (s.consume opened).withNodes b₁) hpending hindents
        rfl rfl (h.block_comment get hcomment)
      refine ⟨c :: cs, b, ms, line.commentNode :: ns, ?_, hbuilt.append hbuilt', ?_, hcontinues⟩
      · have hfewer : ((s.consume opened).withNodes b₁).left (ls.map raw) < s.left (ls.map raw) :=
          left_lt (getElem?_raw get) (Nat.lt_succ_self s.pos)
        rw [if_pos hcomment, hbuild, Option.bind_eq_bind, Option.bind_some]
        change ((((s.consume opened).withNodes b₁).below (ls.map raw) (s.left (ls.map raw))).bind fun r => _) = _
        rw [below_eq hfewer, Option.bind_some]
        change ((commentsBefore (ls.map raw) opened j ((s.consume opened).withNodes b₁)).bind fun r => _) = _
        rw [hrest]
        rfl
      · exact hgoes.trans hgoes'
    · have hblank : line.kind = .blank := by
        cases hkind : line.kind with
        | blank => rfl
        | comment => exact absurd hkind hcomment
        | code => exact absurd hkind kind
      obtain ⟨cs, b, ms, ns, hrest, hbuilt', hgoes', hcontinues⟩ := ih (s := s.consume opened) hpending hindents
        rfl rfl (h.blank get hblank)
      refine ⟨cs, b, ms, ns, ?_, hbuilt', hgoes.trans hgoes', hcontinues⟩
      have hfewer : (s.consume opened).left (ls.map raw) < s.left (ls.map raw) :=
        left_lt (getElem?_raw get) (Nat.lt_succ_self s.pos)
      rw [if_neg hcomment, below_eq hfewer]
      exact hrest

end

end Descent

end RenpyScript
