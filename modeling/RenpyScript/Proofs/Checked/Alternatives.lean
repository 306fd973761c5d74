import RenpyScript.Checked.Alternatives
import RenpyScript.Proofs.Checked.Body
import RenpyScript.Proofs.Tree.Indentation

/-!
# Alternatives leave no trace

An alternative declines before it has read a block, since nothing declines that completes what a line says by
itself. Up to there only nodes have been built and added, and none of the nodes that were there before has been
given a parent or changed otherwise. So what is taken back is all that has happened.
-/

namespace RenpyScript

namespace Trial

/-- From one trial to another nodes have been built and added to the list, and nothing else has happened. -/
structure Grows (s t : Trial) : Prop where
  state : t.state = { s.state with builder := t.state.builder }
  nodes : s.state.builder.Extends t.state.builder
  out : s.out <+: t.out

section
variable {s t : Trial}

lemma grows_refl (s : Trial) : s.Grows s :=
  ⟨rfl, .refl _, List.prefix_refl _⟩

lemma grows_goOn {u : Reading} (h : s.state.builder.Extends u.builder) : s.Grows (s.goOn u) :=
  ⟨rfl, h, List.prefix_refl _⟩

lemma Grows.rollback (h : s.Grows t) : t.rollback s = s := by
  rw [Trial.rollback, h.state, h.nodes.rollback, ← List.prefix_iff_eq_take.mp h.out]

end

end Trial

namespace LineParser
open LineReader

section
variable {α β : Type} {s t : Trial}

lemma bind_apply (p : LineParser α) (f : α → LineParser β) (s : Trial) : (p >>= f) s =
    (p s).bind fun
      | (some a, t) => f a t
      | (none, t) => some (none, t) := by
  change ((p s).bind fun x => _) = _
  congr 1
  funext ⟨r, t⟩
  cases r <;> rfl

lemma orElse_apply (p q : LineParser Unit) (s : Trial) : (p <|> q) s =
    (p s).bind fun
      | (some a, t) => some (some a, t)
      | (none, t) => q t := by
  change ((p s).bind fun x => _) = _
  congr 1
  funext ⟨r, t⟩
  cases r <;> rfl

lemma reads_bind {r : LineReader α} {a : α} {u : Reading} (f : α → LineParser β) (h : r s.reading = some (some a, u)) :
    (reads r >>= f) s = f a (s.goOn u) := by
  rw [bind_apply, reads, h]
  rfl

lemma reads_bind_declines {r : LineReader α} {u : Reading} (f : α → LineParser β) (h : r s.reading = some (none, u)) :
    (reads r >>= f) s = some (none, s.goOn u) := by
  rw [bind_apply, reads, h]
  rfl

lemma parses_bind {f : ParseState → Option (α × ParseState)} {a : α} {state : ParseState} (g : α → LineParser β)
    (h : f s.state = some (a, state)) : (parses f >>= g) s = g a { s with state } := by
  rw [bind_apply, parses, h]
  rfl

lemma parses_bind_of_none {f : ParseState → Option (α × ParseState)} (g : α → LineParser β) (h : f s.state = none) :
    (parses f >>= g) s = none := by
  rw [bind_apply, parses, h]
  rfl

lemma parses_bind_eq_some {f : ParseState → Option (α × ParseState)} {g : α → LineParser β} {o : Option β}
    (h : (parses f >>= g) s = some (o, t)) : ∃ a state, g a { s with state } = some (o, t) := by
  rw [bind_apply, Option.bind_eq_some_iff] at h
  obtain ⟨⟨r, u⟩, hf, hg⟩ := h
  rw [parses, Option.bind_eq_bind, Option.bind_eq_some_iff] at hf
  obtain ⟨⟨a, state⟩, -, heq⟩ := hf
  cases heq
  exact ⟨a, state, hg⟩

lemma emit_bind (cs : List Child) (f : Unit → LineParser β) (s : Trial) :
    (emit cs >>= f) s = f () (s.add cs) :=
  bind_apply _ _ _

end

section
variable {lines : List ByteLine} {opened : List Nat} {line : ByteLine} {s t : Trial}

/-! ## What completes a line -/

lemma complete_ne_none {form : LineForm} (h : complete lines opened line form s = some (none, t)) : False := by
  cases form with
  | items children => cases h
  | opensPython children =>
    obtain ⟨node, state, h⟩ := parses_bind_eq_some h
    cases h
  | opens kind children colonEnd =>
    obtain ⟨⟨children, block⟩, state, h⟩ := parses_bind_eq_some h
    obtain ⟨node, state, h⟩ := parses_bind_eq_some h
    dsimp only at h
    split at h
    · cases h
    · obtain ⟨statement, state, h⟩ := parses_bind_eq_some h
      cases h

lemma out_of_reads {r : LineReader LineForm} (h : (reads r >>= complete lines opened line) s = some (none, t)) :
    t.out = s.out := by
  rw [bind_apply, Option.bind_eq_some_iff] at h
  obtain ⟨⟨form, u⟩, hreads, h⟩ := h
  rw [reads, Option.bind_eq_bind, Option.bind_eq_some_iff] at hreads
  obtain ⟨⟨form, v⟩, -, heq⟩ := hreads
  cases heq
  cases form with
  | none =>
    cases h
    rfl
  | some form => exact (complete_ne_none h).elim

/-! ## Alternatives and readers of a line -/

/-- Where the reader declines, the alternative does and leaves no trace behind. Otherwise it goes on with what the
reader has found that the line says by itself. -/
def Tries (lines : List ByteLine) (opened : List Nat) (line : ByteLine) (p : LineParser Unit) (r : LineReader LineForm)
    (s : Trial) : Prop :=
  ∃ form u, r s.reading = some (form, u) ∧
    match form with
    | none => ∃ t, p s = some (none, t) ∧ s.Grows t
    | some form => p s = complete lines opened line form (s.goOn u)

lemma Tries.grows {p : LineParser Unit} {r : LineReader LineForm} (h : Tries lines opened line p r s)
    (hdeclines : p s = some (none, t)) : s.Grows t := by
  obtain ⟨form, u, -, hform⟩ := h
  cases form with
  | none =>
    obtain ⟨t', ht', hgrows⟩ := hform
    rw [hdeclines, Option.some.injEq, Prod.mk.injEq] at ht'
    exact ht'.2 ▸ hgrows
  | some form => exact (complete_ne_none (hform.symm.trans hdeclines)).elim

section
variable {r r' : LineReader LineForm} {p : LineParser Unit} {ps : List (LineParser Unit)} {D : Prop}
  {Q : LineForm → Reading → Prop}

lemma tries_reads (h : Runs s.state.builder r s.reading D Q) :
    Tries lines opened line (reads r >>= complete lines opened line) r s := by
  obtain ⟨form, u, hr, hform⟩ := h
  refine ⟨form, u, hr, ?_⟩
  cases form with
  | none => exact ⟨s.goOn u, reads_bind_declines _ hr, Trial.grows_goOn hform.1⟩
  | some form => exact reads_bind _ hr

/-- Behind an alternative that has declined the others find the trial as it was. -/
lemma firstOf_cons (h : Tries lines opened line p r s) (ps : List (LineParser Unit)) :
    (∃ u, r s.reading = some (none, u) ∧ firstOf (p :: ps) s = firstOf ps s) ∨
    ∃ form u, r s.reading = some (some form, u) ∧ firstOf (p :: ps) s = complete lines opened line form (s.goOn u) := by
  obtain ⟨form, u, hr, hform⟩ := h
  change (∃ u, _ ∧ (attempt p <|> firstOf ps) s = _) ∨ ∃ form u, _ ∧ (attempt p <|> firstOf ps) s = _
  rw [orElse_apply, attempt]
  cases form with
  | none =>
    obtain ⟨t, ht, hgrows⟩ := hform
    refine .inl ⟨u, hr, ?_⟩
    rw [ht]
    exact congrArg (firstOf ps) hgrows.rollback
  | some form =>
    refine .inr ⟨form, u, hr, ?_⟩
    rw [hform]
    rcases hcomplete : complete lines opened line form (s.goOn u) with _ | ⟨_ | _, t⟩
    · rfl
    · exact (complete_ne_none hcomplete).elim
    · rfl

lemma Tries.single (h : Tries lines opened line p r s) : Tries lines opened line (firstOf [p]) r s := by
  rcases firstOf_cons h [] with ⟨u, hr, heq⟩ | ⟨form, u, hr, heq⟩
  · exact ⟨none, u, hr, s, heq, s.grows_refl⟩
  · exact ⟨some form, u, hr, heq⟩

/-- Alternatives one after the other are tried as their readers are. -/
lemma Tries.cons (h : Tries lines opened line p r s) (hruns : Runs s.state.builder r s.reading D Q)
    (h' : Tries lines opened line (firstOf ps) r' s) :
    Tries lines opened line (firstOf (p :: ps)) (LineReader.attempt r r') s := by
  rcases firstOf_cons h ps with ⟨u, hr, heq⟩ | ⟨form, u, hr, heq⟩
  · obtain ⟨_, _, hr', hruns⟩ := hruns
    rw [hr, Option.some.injEq, Prod.mk.injEq] at hr'
    obtain ⟨rfl, rfl⟩ := hr'
    have hattempt : LineReader.attempt r r' s.reading = r' s.reading := by
      rw [LineReader.attempt, hr]
      exact congrArg r' (congrArg (Reading.mk s.lexer) hruns.1.rollback)
    unfold Tries
    rw [hattempt, heq]
    exact h'
  · refine ⟨some form, u, ?_, heq⟩
    rw [LineReader.attempt, hr]
    rfl

end

/-! ## The alternatives one by one -/

section
variable {text : List Char} {v : Unread}

lemma tries_pythonBlock (h : s.lexer.At text v) :
    Tries lines opened line (pythonBlock lines opened line) LineReader.pythonBlock s :=
  tries_reads (forms_pythonBlock (s := s.reading) h)

lemma tries_header {next : Option Nat} (h : s.lexer.At text v)
    (hnext : Descent.nextIndent lines s.state.pos = some next) :
    Tries lines opened line (header lines opened line) (LineReader.header (next.any (line.indent < ·))) s := by
  have hlooks : header lines opened line s =
      (reads (LineReader.header (next.any (line.indent < ·))) >>= complete lines opened line) s := by
    have hparses : (do return (← Descent.nextIndent lines s.state.pos, s.state)) = some (next, s.state) := by
      rw [hnext]
      rfl
    exact parses_bind _ hparses
  unfold Tries
  rw [hlooks]
  exact tries_reads (forms_header (s := s.reading) h)

lemma forms_controlStatement {u : Reading} (h : u.lexer.At text v) (start : Nat) :
    Forms (LineReader.candidate Keyword.isControl (LineReader.controlStatement start)) u v.controlStatement? := by
  refine forms_candidate h (fun hnone => ?_) (runs_controlStatement h start)
  rw [Unread.controlStatement?, hnone]
  rfl

lemma forms_defineStatement {u : Reading} (h : u.lexer.At text v) (start : Nat) :
    Forms (LineReader.candidate Keyword.isDefinition (LineReader.defineStatement start)) u v.defineStatement? := by
  refine forms_candidate h (fun hnone => ?_) (runs_defineStatement h start)
  rw [Unread.defineStatement?, hnone]
  rfl

lemma forms_renpyStatement {u : Reading} (h : u.lexer.At text v) (start : Nat) :
    Forms (LineReader.candidate Keyword.isStatement (LineReader.renpyStatement start)) u v.renpyStatement? := by
  refine forms_candidate h (fun hnone => ?_) (runs_renpyStatement h start)
  rw [Unread.renpyStatement?, hnone]
  rfl

lemma tries_statement (h : s.lexer.At text v) :
    Tries lines opened line (statement lines opened line) (LineReader.statement line.start) s := by
  have hcontrol := forms_controlStatement (u := s.reading) h line.start
  have hdefine := forms_defineStatement (u := s.reading) h line.start
  exact (tries_reads hcontrol).cons hcontrol ((tries_reads hdefine).cons hdefine
    (tries_reads (forms_renpyStatement (u := s.reading) h line.start)).single)

/-! ### Alternatives that add nodes before they may decline -/

/-- The rest of a line is read alike, whether its comments are added to the list at once or not. -/
lemma finishLine_eq {o : Option (List Child)} {u : Reading} (h : LineReader.finishLine s.reading = some (o, u)) :
    ∃ more, finishLine s = some (o.map fun _ => (), (s.goOn u).add more) ∧ ∀ cs ∈ o, cs = more := by
  rw [LineReader.finishLine, LineReader.bind_apply, Option.bind_eq_some_iff] at h
  obtain ⟨⟨comments, t⟩, hcomments, h⟩ := h
  cases comments with
  | none =>
    cases h
    refine ⟨[], ?_, by simp⟩
    rw [finishLine, reads_bind_declines _ hcomments, Trial.add, List.append_nil]
    rfl
  | some comments =>
    have hfinish : finishLine s = (do
        let next ← reads (LineReader.lexing Lexer.peek)
        if next = none then return () else failure : LineParser Unit) ((s.goOn t).add comments) := by
      rw [finishLine, reads_bind _ hcomments]
      rfl
    rw [hfinish]
    dsimp only at h
    rw [LineReader.bind_apply, Option.bind_eq_some_iff] at h
    obtain ⟨⟨next, t'⟩, hnext, h⟩ := h
    refine ⟨comments, ?_⟩
    cases next with
    | none =>
      cases h
      exact ⟨reads_bind_declines (s := (s.goOn t).add comments) _ hnext, by simp⟩
    | some next =>
      rw [reads_bind (s := (s.goOn t).add comments) _ hnext]
      dsimp only at h
      split at h
      · next hnone =>
        cases h
        exact ⟨by rw [if_pos hnone]; rfl, by simp⟩
      · next hsome =>
        cases h
        exact ⟨by rw [if_neg hsome]; rfl, by simp⟩

/-- An alternative that adds what it has read and then looks at the rest of the line. -/
lemma tries_listed {first : LineReader (List Child)} {D : Prop} {Q : LineForm → Reading → Prop}
    (h : Runs s.state.builder (first >>= fun cs => if cs.isEmpty then failure else do
      let comments ← LineReader.finishLine
      return .items (cs ++ comments)) s.reading D Q) :
    Tries lines opened line
      (reads first >>= fun cs => emit cs >>= fun _ => if cs.isEmpty then failure else finishLine)
      (first >>= fun cs => if cs.isEmpty then failure else do
        let comments ← LineReader.finishLine
        return .items (cs ++ comments)) s := by
  obtain ⟨form, u, hr, hform⟩ := h
  refine ⟨form, u, hr, ?_⟩
  rw [LineReader.bind_apply, Option.bind_eq_some_iff] at hr
  obtain ⟨⟨cs, t⟩, hfirst, hr⟩ := hr
  cases cs with
  | none =>
    cases hr
    exact ⟨s.goOn u, reads_bind_declines _ hfirst, Trial.grows_goOn hform.1⟩
  | some cs =>
    rw [reads_bind _ hfirst, emit_bind]
    dsimp only at hr
    split at hr
    · next hempty =>
      cases hr
      rw [if_pos hempty]
      exact ⟨(s.goOn u).add cs, rfl, rfl, hform.1, List.prefix_append _ _⟩
    · next hsome =>
      rw [if_neg hsome]
      rw [LineReader.bind_apply, Option.bind_eq_some_iff] at hr
      obtain ⟨⟨comments, t'⟩, hfinish, hr⟩ := hr
      obtain ⟨more, heq, hmore⟩ := finishLine_eq (s := (s.goOn t).add cs) hfinish
      rw [heq]
      cases comments with
      | none =>
        cases hr
        exact ⟨((s.goOn u).add cs).add more, rfl, rfl, hform.1, (List.prefix_append _ _).trans (List.prefix_append _ _)⟩
      | some comments =>
        cases hr
        obtain rfl := hmore comments rfl
        exact congrArg (fun out => some (some (), { s.goOn u with out })) (List.append_assoc s.out cs comments)

lemma pythonInline_reader : LineReader.pythonInline = (List.singleton <$> LineReader.inlineNode >>= fun cs =>
    if cs.isEmpty then failure else do
      let comments ← LineReader.finishLine
      return .items (cs ++ comments)) := by
  simp only [LineReader.pythonInline, LineReader.inlineNode, map_eq_pure_bind, bind_assoc, pure_bind]
  rfl

lemma pythonInline_eq (s : Trial) : pythonInline s = (reads (List.singleton <$> LineReader.inlineNode) >>= fun cs =>
    emit cs >>= fun _ => if cs.isEmpty then failure else finishLine) s := by
  have hsingle : (List.singleton <$> LineReader.inlineNode) s.reading = _ := LineReader.bind_apply _ _ _
  rw [pythonInline]
  rcases hnode : LineReader.inlineNode s.reading with _ | ⟨_ | inline, u⟩
  · rw [hnode, Option.bind_none] at hsingle
    rw [bind_apply, bind_apply, reads, reads, hnode, hsingle]
    rfl
  · rw [hnode, Option.bind_some] at hsingle
    rw [reads_bind_declines _ hnode, reads_bind_declines _ hsingle]
  · rw [hnode, Option.bind_some] at hsingle
    rw [reads_bind _ hnode, reads_bind (a := [inline]) _ hsingle]
    rfl

lemma tries_pythonInline (h : s.lexer.At text v) : Tries lines opened line pythonInline LineReader.pythonInline s := by
  have hruns := forms_pythonInline (s := s.reading) h
  unfold Forms at hruns
  rw [pythonInline_reader] at hruns ⊢
  unfold Tries
  rw [pythonInline_eq]
  exact tries_listed hruns

lemma tries_stringLine (h : s.lexer.At text v) : Tries lines opened line stringLine LineReader.stringLine s :=
  tries_listed (forms_stringLine (s := s.reading) h)

end

/-! ## The alternatives of a line -/

section
variable {text : List Char} {ls : List LogicalLine} {topLevel : Bool}

/-- What a trial leaves behind for the rest of the parse. -/
def result (r : Option Unit × Trial) : Option Unit × ParseState × List Child :=
  (r.1, r.2.state, r.2.out)

/-- Behind what a line says by itself the descent goes on as `complete` does. -/
lemma complete_eq {topLevel : Bool} {next : Option Nat} {form : LineForm} {u : Reading}
    (hnext : Descent.nextIndent lines s.state.pos = some next)
    (hread : Descent.readForm topLevel (next.any (line.indent < ·)) line s.state = some (form, u.builder)) :
    (complete lines opened line form (s.goOn u)).map result =
      (Descent.lineNodes lines opened topLevel line s.state).map fun r => (some (), r.2, s.out ++ r.1) := by
  rw [Descent.lineNodes, hnext]
  simp only [Option.bind_eq_bind, Option.bind_some]
  rw [hread]
  simp only [Option.bind_some]
  cases form with
  | items children => rfl
  | opensPython children =>
    rw [complete]
    dsimp only
    rcases h : Descent.pythonBlock lines opened line children { s.state with builder := u.builder } with _ | ⟨node, t⟩
    · rw [parses_bind_of_none (s := s.goOn u) _ h]
      rfl
    · rw [parses_bind (s := s.goOn u) _ h]
      rfl
  | opens kind children colonEnd =>
    rw [complete]
    dsimp only
    rcases h : Descent.body lines opened line children colonEnd { s.state with builder := u.builder } with _ | ⟨ds, block, t⟩
    · rw [parses_bind_of_none (s := s.goOn u) _ (Option.bind_eq_none_iff.mpr fun r hr => by cases h.symm.trans hr)]
      rfl
    · have hbody : (do
          let r ← Descent.body lines opened line children colonEnd (s.goOn u).state
          return ((r.1, r.2.1), r.2.2)) = some ((ds, block), t) := Option.bind_eq_some_iff.mpr ⟨_, h, rfl⟩
      rw [parses_bind _ hbody, Option.bind_some]
      dsimp only
      rcases h : t.build (TreeBuilder.node kind (ds ++ [⟨block.index, some .body⟩]) line.start) with _ | ⟨node, t'⟩
      · rw [parses_bind_of_none _ h, h]
        rfl
      · rw [parses_bind _ h, h, Option.bind_some]
        by_cases hheader : kind = .header
        · rw [if_pos hheader, if_pos hheader]
          rfl
        · rw [if_neg hheader, if_neg hheader]
          rcases h : t'.build (TreeBuilder.node .statement [node] line.start) with _ | ⟨statement, t''⟩
          · rw [parses_bind_of_none _ h]
            rfl
          · rw [parses_bind _ h]
            rfl

end

end

section
variable {text : List Char} {ls : List LogicalLine} {line : LogicalLine} {state : ParseState}

lemma at_start (h : line.StandsIn text) (htext : state.builder.text = text) (out : List Child) :
    (Trial.start line.raw state out).lexer.At text line.unread := by
  subst htext
  exact Descent.at_unread h

def wholeLine (topLevel bodyFollows : Bool) (start : Nat) : LineReader LineForm :=
  if topLevel then LineReader.topLevel bodyFollows start else LineReader.nested start

lemma tries_alternatives (ls : List LogicalLine) (h : line.StandsIn text) (htext : state.builder.text = text)
    (opened : List Nat) (out : List Child) (topLevel : Bool) :
    Tries (ls.map LogicalLine.raw) opened line.raw (firstOf (alternatives (ls.map LogicalLine.raw) opened line.raw topLevel))
      (wholeLine topLevel ((nextCodeIndent? (ls.drop state.pos)).any (line.indent < ·)) line.start)
      (.start line.raw state out) := by
  have hat := at_start h htext out
  have hpython := forms_pythonBlock hat (s := (Trial.start line.raw state out).reading)
  have hstatement := forms_statement hat line.start (s := (Trial.start line.raw state out).reading)
  unfold alternatives wholeLine
  cases topLevel with
  | true =>
    have hstrings := forms_stringLine hat (s := (Trial.start line.raw state out).reading)
    have herror : Runs state.builder LineReader.errorLine (Trial.start line.raw state out).reading False fun _ _ => True :=
      (runs_expressions hat (s := (Trial.start line.raw state out).reading) (by decide)).next fun cs t _ => runs_pure trivial
    rw [if_pos rfl, if_pos rfl]
    refine (tries_pythonBlock hat).cons hpython ?_
    refine (tries_header hat (Descent.nextIndent_eq ls state.pos)).cons
      (forms_header hat (s := (Trial.start line.raw state out).reading)) ?_
    refine (tries_statement hat).cons hstatement ?_
    exact (tries_stringLine hat).cons hstrings (tries_reads herror).single
  | false =>
    have hinline := forms_pythonInline hat (s := (Trial.start line.raw state out).reading)
    rw [if_neg Bool.false_ne_true, if_neg Bool.false_ne_true]
    refine (tries_pythonBlock hat).cons hpython ?_
    refine (tries_pythonInline hat).cons hinline ?_
    refine (tries_statement hat).cons hstatement ?_
    exact (tries_reads (runs_blockLine hat (s := (Trial.start line.raw state out).reading))).single

lemma runs_wholeLine (h : line.StandsIn text) (htext : state.builder.text = text) (out : List Child)
    (topLevel bodyFollows : Bool) : Runs state.builder (wholeLine topLevel bodyFollows line.start)
      (Trial.start line.raw state out).reading False fun _ _ => True := by
  have hat := at_start h htext out
  unfold wholeLine
  cases topLevel with
  | true => exact (runs_topLevel hat line.start).imp False.elim fun _ _ _ => trivial
  | false => exact (runs_nested hat line.start).imp False.elim fun _ _ _ => trivial

lemma firstOf_alternatives (h : line.StandsIn text) (htext : state.builder.text = text) (opened : List Nat)
    (out : List Child) (topLevel : Bool) :
    (firstOf (alternatives (ls.map LogicalLine.raw) opened line.raw topLevel) (.start line.raw state out)).map result =
      (Descent.lineNodes (ls.map LogicalLine.raw) opened topLevel line.raw state).map fun r => (some (), r.2, out ++ r.1) := by
  obtain ⟨form, u, hr, hform⟩ := tries_alternatives ls h htext opened out topLevel
  obtain ⟨form', u', hr', hform'⟩ := runs_wholeLine h htext out topLevel
    ((nextCodeIndent? (ls.drop state.pos)).any (line.indent < ·))
  rw [hr, Option.some.injEq, Prod.mk.injEq] at hr'
  obtain ⟨rfl, rfl⟩ := hr'
  obtain _ | form := form
  · exact hform'.2.elim
  have hread : Descent.readForm topLevel ((nextCodeIndent? (ls.drop state.pos)).any (line.indent < ·)) line.raw state =
      some (form, u.builder) := by
    rw [Descent.readForm]
    exact Option.bind_eq_some_iff.mpr ⟨_, hr, rfl⟩
  exact (congrArg (Option.map result) hform).trans (complete_eq (s := .start line.raw state out)
    (Descent.nextIndent_eq ls state.pos) hread)

lemma tries_everyAlternative {s : Trial} {next : Option Nat} (h : s.lexer.At text line.unread)
    (hnext : Descent.nextIndent (ls.map LogicalLine.raw) s.state.pos = some next) (opened : List Nat) :
    ∀ p ∈ everyAlternative (ls.map LogicalLine.raw) opened line.raw,
      ∃ r, Tries (ls.map LogicalLine.raw) opened line.raw p r s := by
  have herror : Runs s.state.builder LineReader.errorLine s.reading False fun _ _ => True :=
    (runs_expressions h (s := s.reading) (by decide)).next fun cs t _ => runs_pure trivial
  simp only [everyAlternative, candidates, List.cons_append, List.nil_append, List.forall_mem_cons, List.not_mem_nil,
    false_imp_iff, implies_true, and_true]
  exact ⟨⟨_, tries_pythonBlock h⟩, ⟨_, tries_header h hnext⟩, ⟨_, tries_pythonInline h⟩, ⟨_, tries_statement h⟩,
    ⟨_, tries_stringLine h⟩, ⟨_, tries_reads herror⟩, ⟨_, tries_reads (runs_blockLine h (s := s.reading))⟩,
    ⟨_, tries_reads (forms_controlStatement h (u := s.reading) _)⟩,
    ⟨_, tries_reads (forms_defineStatement h (u := s.reading) _)⟩,
    ⟨_, tries_reads (forms_renpyStatement h (u := s.reading) _)⟩⟩

/-- For a line of a text and any state of a parse of the text: the nodes of the line are those of the first alternative
that does not decline, and once an alternative has declined and what it has built and added is taken back, the state
is what it was before, down to every entry, and so is the list of nodes. A candidate for a statement that declines has
added nothing to the list. -/
theorem alternatives_leave_no_trace {lines : List ByteLine} (hlines : byteScan text = some lines) {line : ByteLine}
    (hline : line ∈ lines) {state : ParseState} (htext : state.builder.text = text) (opened : List Nat) (out : List Child) :
    (∀ topLevel, (firstOf (alternatives lines opened line topLevel) (.start line state out)).map result =
      (Descent.lineNodes lines opened topLevel line state).map fun r => (some (), r.2, out ++ r.1)) ∧
    (∀ p ∈ everyAlternative lines opened line, ∀ t, p (.start line state out) = some (none, t) →
      (t.rollback (.start line state out)).state = state ∧ (t.rollback (.start line state out)).out = out) ∧
    ∀ p ∈ candidates lines opened line, ∀ t, p (.start line state out) = some (none, t) → t.out = out := by
  rw [byteScan_eq, Option.some.injEq] at hlines
  subst hlines
  obtain ⟨line, hmem, rfl⟩ := List.mem_map.mp hline
  have hstands := LogicalLine.scan_standsIn hmem
  refine ⟨firstOf_alternatives hstands htext opened out, ?_, ?_⟩
  · intro p hp t hdeclines
    obtain ⟨r, htries⟩ := tries_everyAlternative (at_start hstands htext out) (Descent.nextIndent_eq _ _) opened p hp
    rw [(htries.grows hdeclines).rollback]
    exact ⟨rfl, rfl⟩
  · intro p hp t hdeclines
    simp only [candidates, List.mem_cons, List.not_mem_nil, or_false] at hp
    rcases hp with rfl | rfl | rfl
    · exact out_of_reads hdeclines
    · exact out_of_reads hdeclines
    · exact out_of_reads hdeclines

/-- A string with a name behind it is no line of strings: its three nodes are built and it is added to the list before
that shows. -/
theorem alternatives_leave_no_trace_string :
    byteScan "\"a\" b\n".toList = some [⟨0, 0, 5, 6, 0, .code⟩] ∧
      ∃ t, stringLine (.start ⟨0, 0, 5, 6, 0, .code⟩ ⟨1, .empty "\"a\" b\n".toList, .empty, 0, false, []⟩ []) = some (none, t) ∧
        t.state.builder.nodes.length = 3 ∧ t.out = [.plain 2] ∧
        (t.rollback (.start ⟨0, 0, 5, 6, 0, .code⟩ ⟨1, .empty "\"a\" b\n".toList, .empty, 0, false, []⟩ [])).state =
          ⟨1, .empty "\"a\" b\n".toList, .empty, 0, false, []⟩ ∧
        (t.rollback (.start ⟨0, 0, 5, 6, 0, .code⟩ ⟨1, .empty "\"a\" b\n".toList, .empty, 0, false, []⟩ [])).out = [] := by
  have hlines : byteScan "\"a\" b\n".toList = some [⟨0, 0, 5, 6, 0, .code⟩] := by decide +kernel
  have hrun : (stringLine (.start ⟨0, 0, 5, 6, 0, .code⟩ ⟨1, .empty "\"a\" b\n".toList, .empty, 0, false, []⟩ [])).any
      (fun r => r.1.isNone && r.2.state.builder.nodes.length = 3 && r.2.out = [.plain 2]) = true := by decide +kernel
  obtain ⟨⟨r, t⟩, heq, hr⟩ := (Option.any_eq_true _ _).mp hrun
  simp only [Bool.and_eq_true, decide_eq_true_eq, Option.isNone_iff_eq_none] at hr
  obtain ⟨⟨rfl, hnodes⟩, hout⟩ := hr
  have htext : (ParseState.mk 1 (.empty "\"a\" b\n".toList) .empty 0 false []).builder.text = "\"a\" b\n".toList := rfl
  have hrestored := (alternatives_leave_no_trace hlines (List.mem_singleton_self _) htext [] []).2.1 stringLine
    (by simp [everyAlternative]) t heq
  exact ⟨hlines, t, heq, hnodes, hout, hrestored⟩

end

end LineParser

end RenpyScript
