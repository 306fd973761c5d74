import RenpyScript.Checked.Line
import RenpyScript.Proofs.Checked.Built
import RenpyScript.Proofs.Checked.Lexer

/-!
# What a line reader does

`Runs p s D Q` says that a reader has a value from `s` on: it yields something for which `Q` holds, or it
declines and `D` holds, and in both cases the nodes that were there are still there. `Moves` says which nodes
have been built meanwhile and where the lexer stands. With these the readers follow the functions on unread
text one step at a time.
-/

namespace RenpyScript

/-- The lexer goes on to a place of the line, and the nodes `ns` are built. -/
structure Reading.Moves (text : List Char) (s t : Reading) (cs : List Child) (ns : List Node) (v : Unread) : Prop where
  built : s.builder.Built t.builder cs ns
  lexer : t.lexer.At text v

lemma Reading.Moves.trans {text : List Char} {s t t' : Reading} {cs ds : List Child} {ns ms : List Node} {v w : Unread}
    (h : s.Moves text t cs ns v) (h' : t.Moves text t' ds ms w) : s.Moves text t' (cs ++ ds) (ns ++ ms) w :=
  ⟨h.built.append h'.built, h'.lexer⟩

namespace LineReader

/-- From `s` on the reader yields something with `Q`; or it declines, `D` holds, and the nodes of `b` are still
as they were. -/
def Runs {α : Type} (b : TreeBuilder) (p : LineReader α) (s : Reading) (D : Prop) (Q : α → Reading → Prop) : Prop :=
  ∃ r t, p s = some (r, t) ∧
    match r with
    | none => b.Extends t.builder ∧ D
    | some a => Q a t

/-- The outcome of a step that reads a node if there is one. -/
def Tried {α : Type} (children : α → List Child) (text : List Char) (s : Reading) (u : Unread)
    (read : Option (Node × Unread)) (r : Option α) (t : Reading) : Prop :=
  (read = none ∧ r = none ∧ s.Moves text t [] [] u) ∨
    ∃ n v a, read = some (n, v) ∧ r = some a ∧ s.Moves text t (children a) [n] v

section
variable {α β : Type} {b : TreeBuilder} {p q : LineReader α} {f : α → LineReader β} {s t : Reading} {D E : Prop}
  {Q Q' : α → Reading → Prop} {R : β → Reading → Prop}

/-! ## Composition -/

lemma runs_pure {a : α} (h : Q a s) : Runs b (pure a) s D Q :=
  ⟨some a, s, rfl, h⟩

lemma runs_failure (hb : b.Extends s.builder) (h : D) : Runs b (failure : LineReader α) s D Q :=
  ⟨none, s, rfl, hb, h⟩

lemma bind_apply (p : LineReader α) (f : α → LineReader β) (s : Reading) : (p >>= f) s =
    (p s).bind fun
      | (some a, t) => f a t
      | (none, t) => some (none, t) := by
  change ((p s).bind fun x => _) = _
  congr 1
  funext ⟨r, t⟩
  cases r <;> rfl

lemma bind_eq_some {c : β} (h : (p >>= f) s = some (some c, t)) :
    ∃ a s', p s = some (some a, s') ∧ f a s' = some (some c, t) := by
  rw [bind_apply, Option.bind_eq_some_iff] at h
  obtain ⟨⟨r, s'⟩, hp, hf⟩ := h
  cases r with
  | none => cases hf
  | some a => exact ⟨a, s', hp, hf⟩

lemma lift_eq_some {o : Option α} {a : α} (h : lift o s = some (some a, t)) : o = some a := by
  rw [LineReader.lift, Option.bind_eq_bind, Option.bind_eq_some_iff] at h
  obtain ⟨c, hc, heq⟩ := h
  cases heq
  exact hc

lemma Runs.bind (h : Runs s.builder p s E Q) (hnone : E → b.Extends s.builder ∧ D) (hsome : ∀ a t, Q a t → Runs b (f a) t D R) :
    Runs b (p >>= f) s D R := by
  obtain ⟨r, t, hp, hr⟩ := h
  unfold Runs
  rw [bind_apply, hp, Option.bind_some]
  cases r with
  | none => exact ⟨none, t, rfl, (hnone hr.2).1.trans hr.1, (hnone hr.2).2⟩
  | some a => exact hsome a t hr

lemma Runs.next (h : Runs s.builder p s False Q) (hsome : ∀ a t, Q a t → Runs b (f a) t D R) : Runs b (p >>= f) s D R :=
  h.bind False.elim hsome

lemma Runs.imp (h : Runs s.builder p s E Q) (hnone : E → b.Extends s.builder ∧ D) (hsome : ∀ a t, Q a t → Q' a t) :
    Runs b p s D Q' := by
  obtain ⟨r, t, hp, hr⟩ := h
  cases r with
  | none => exact ⟨none, t, hp, (hnone hr.2).1.trans hr.1, (hnone hr.2).2⟩
  | some a => exact ⟨some a, t, hp, hsome a t hr⟩

lemma Runs.attempt (h : Runs s.builder p s E Q) (hq : E → Runs b q s D Q) : Runs b (attempt p q) s D Q := by
  obtain ⟨r, t, hp, hr⟩ := h
  cases r with
  | some a => exact ⟨some a, t, by rw [LineReader.attempt, hp]; rfl, hr⟩
  | none =>
    have hattempt : LineReader.attempt p q s = q ⟨s.lexer, t.builder.rollback s.builder.checkpoint⟩ := by
      rw [LineReader.attempt, hp]
      rfl
    unfold Runs
    rw [hattempt, hr.1.rollback]
    exact hq hr.2

/-! ## Single steps -/

lemma Runs.lift {o : Option α} {a : α} (h : o = some a) (hf : Runs b (f a) s D R) : Runs b (lift o >>= f) s D R := by
  unfold Runs
  rw [bind_apply, LineReader.lift, h]
  exact hf

lemma Runs.lexer {f : Lexer → LineReader β} (hf : Runs b (f s.lexer) s D R) : Runs b (lexer >>= f) s D R := by
  unfold Runs
  rw [bind_apply]
  exact hf

lemma Runs.turns {f : Nat → LineReader β} (hf : Runs b (f (s.lexer.stop + 1)) s D R) : Runs b (turns >>= f) s D R := by
  unfold Runs
  rw [bind_apply]
  exact hf

lemma Runs.lexing {g : Lexer → Option (α × Lexer)} {a : α} {x : Lexer} (h : g s.lexer = some (a, x))
    (hf : Runs b (f a) ⟨x, s.builder⟩ D R) : Runs b (lexing g >>= f) s D R := by
  unfold Runs
  rw [bind_apply, LineReader.lexing, h]
  exact hf

lemma Runs.endOf {table : LineTable} {f : Nat → LineReader β} {c : Child} {n : Node}
    (h : Denotes table s.builder.nodes none none c.index n) (hf : Runs b (f n.span.stop) s D R) :
    Runs b (endOf c >>= f) s D R := by
  unfold Runs
  rw [bind_apply, LineReader.endOf, h.endOf]
  exact hf

lemma runs_building {g : TreeBuilder → Option (Nat × TreeBuilder)} {Q : Child → Reading → Prop}
    (h : ∃ i b', g s.builder = some (i, b') ∧ Q (.plain i) ⟨s.lexer, b'⟩) : Runs b (building g) s D Q := by
  obtain ⟨i, b', hg, hb⟩ := h
  exact ⟨some (.plain i), ⟨s.lexer, b'⟩, by rw [building, hg]; rfl, hb⟩

end

section
variable {α : Type} {b : TreeBuilder} {s s₀ t : Reading} {D : Prop} {text : List Char} {u v : Unread}
  {cs ts : List Child} {c : Child} {ns ms : List Node} {n : Node} {kind : Kind} {children : α → List Child}

lemma moves_refl (h : s.lexer.At text u) : s.Moves text s [] [] u :=
  ⟨.refl _, h⟩

lemma moves_lexer {x : Lexer} (h : x.At text u) : s.Moves text ⟨x, s.builder⟩ [] [] u :=
  ⟨.refl _, h⟩

lemma runs_leaf (h : s.lexer.At text u) (hkind : kind ≠ .comment) (span : Span) :
    Runs s.builder (leaf kind span) s False fun c t => s.Moves text t [c] [.leaf kind span] u := by
  obtain ⟨i, b', hleaf, hbuilt⟩ := s.builder.leaf_built hkind span
  exact runs_building ⟨i, b', hleaf, hbuilt, h⟩

lemma runs_missing (h : s.lexer.At text u) (hkind : kind ≠ .comment) (offset : Nat) :
    Runs s.builder (missing kind offset) s False fun c t => s.Moves text t [c] [.absent kind offset] u := by
  obtain ⟨i, b', hmissing, hbuilt⟩ := s.builder.missing_built hkind offset
  exact runs_building ⟨i, b', hmissing, hbuilt, h⟩

lemma runs_node (h : s₀.Moves text s (cs ++ ts) (ns ++ ms) u) (hlength : cs.length = ns.length)
    (hkind : kind ≠ .comment) (fallback : Nat) : Runs s.builder (node kind cs fallback) s False fun c t =>
      s₀.Moves text t (c :: ts) (.branch kind ns fallback :: ms) u := by
  obtain ⟨i, b', hnode, hbuilt⟩ := h.built.node hlength hkind fallback
  exact runs_building ⟨i, b', hnode, hbuilt, h.lexer⟩

lemma runs_branch (h : s₀.Moves text s cs ns u) (hkind : kind ≠ .comment) (fallback : Nat) :
    Runs s.builder (node kind cs fallback) s False fun c t => s₀.Moves text t [c] [.branch kind ns fallback] u := by
  rw [← List.append_nil cs, ← List.append_nil ns] at h
  have hlength := h.built.length_eq
  rw [List.append_nil, List.append_nil] at hlength
  exact runs_node h hlength hkind fallback

/-! ## Repetition -/

lemma runs_whileSome {step : LineReader (Option α)} {read? : Unread → Option (Node × Unread)}
    (hread : Unread.IsNodeReader read?)
    (hstep : ∀ s u, s.lexer.At text u → Runs s.builder step s False (Tried children text s u (read? u)))
    (h : s.lexer.At text u) : Runs s.builder (whileSome step) s False fun as t =>
      s.Moves text t (as.flatMap children) (Unread.many read? u).1 (Unread.many read? u).2 := by
  suffices hall : ∀ k u s, u.rest.length ≤ k → s.lexer.At text u →
      Runs s.builder (whileSomeUpTo step (k + 1)) s False fun as t =>
        s.Moves text t (as.flatMap children) (Unread.repeatUpTo read? k u).1 (Unread.repeatUpTo read? k u).2 by
    rw [Unread.many, hread.repeatUpTo_eq (Nat.le_refl _) h.length_le]
    exact .turns (hall s.lexer.stop u s h.length_le h)
  intro k
  induction k with
  | zero =>
    intro u s hk h
    have hnone : read? u = none := hread.repeatUpTo_declines hk
    rw [whileSomeUpTo]
    refine (hstep s u h).next ?_
    rintro _ t (⟨-, rfl, hm⟩ | ⟨n, v, a, hsome, -, -⟩)
    · exact runs_pure hm
    · simp [hnone] at hsome
  | succ k ih =>
    intro u s hk h
    rw [whileSomeUpTo, Unread.repeatUpTo]
    refine (hstep s u h).next ?_
    rintro _ t (⟨hnone, rfl, hm⟩ | ⟨n, v, a, hsome, rfl, hm⟩)
    · rw [hnone]
      exact runs_pure hm
    · rw [hsome]
      have hlt := (hread u n v hsome).2
      refine (ih v t (by omega) hm.lexer).next ?_
      intro as t' hm'
      exact runs_pure (hm.trans hm')

/-! ## Tokens -/

lemma runs_token {f : Lexer → Option (Option Span × Lexer)} {read : Option (Node × Unread)} (h : s.lexer.At text u)
    (hf : f s.lexer = some (Lexer.outcome (·.span) text u read)) (hkind : kind ≠ .comment)
    (hread : ∀ n v, read = some (n, v) → n = .leaf kind n.span ∧ v.StandsIn text) :
    Runs s.builder (token kind f) s False (Tried (fun c => [c]) text s u read) := by
  unfold token
  refine .lexing hf ?_
  rcases hcases : read with _ | ⟨n, v⟩
  · exact runs_pure (.inl ⟨rfl, rfl, moves_lexer h.standsIn.at_skipBlanks⟩)
  · obtain ⟨hn, hv⟩ := hread n v hcases
    refine (runs_leaf hv.at hkind n.span).next ?_
    intro c t hm
    rw [← hn] at hm
    exact runs_pure (.inr ⟨n, v, c, rfl, rfl, (moves_lexer hv.at).trans hm⟩)

lemma token?_stands {x : Lexer} {length : List Char → Nat} (h : x.At text u)
    (hread : u.token? kind length = some (n, v)) : n = .leaf kind n.span ∧ v.StandsIn text := by
  obtain ⟨-, rfl, rfl⟩ := Unread.token?_eq_some_iff.mp hread
  exact ⟨rfl, h.standsIn.advance _⟩

lemma trimmedToken?_stands {x : Lexer} {length : List Char → Nat} {trim : Char → Bool} (h : x.At text u)
    (hread : u.trimmedToken? kind length trim = some (n, v)) : n = .leaf kind n.span ∧ v.StandsIn text := by
  obtain ⟨-, rfl, rfl⟩ := Unread.trimmedToken?_eq_some_iff.mp hread
  exact ⟨rfl, h.standsIn.advance _⟩

lemma runs_name (h : s.lexer.At text u) :
    Runs s.builder (token .identifier Lexer.identifier) s False (Tried (fun c => [c]) text s u u.name?) :=
  runs_token h (h.matched nameLength .identifier) (by decide) fun _ _ hread => token?_stands h hread

lemma runs_dottedName (h : s.lexer.At text u) :
    Runs s.builder (token .identifier Lexer.dottedIdentifier) s False (Tried (fun c => [c]) text s u u.dottedName?) :=
  runs_token h h.dottedIdentifier (by decide) fun _ _ hread => token?_stands h hread

lemma runs_number (h : s.lexer.At text u) :
    Runs s.builder (token .number Lexer.number) s False (Tried (fun c => [c]) text s u u.number?) :=
  runs_token h (h.matched numberLength .number) (by decide) fun _ _ hread => token?_stands h hread

lemma runs_expression (h : s.lexer.At text u) (hkind : kind ≠ .comment) :
    Runs s.builder (token kind Lexer.restOfLine) s False (Tried (fun c => [c]) text s u (u.expression? kind)) :=
  runs_token h (h.restOfLine kind) hkind fun _ _ hread => trimmedToken?_stands h hread

lemma runs_pythonRun (h : s.lexer.At text u) :
    Runs s.builder (token .pythonExpression Lexer.pythonRun) s False (Tried (fun c => [c]) text s u u.pythonRun?) :=
  runs_token h h.pythonRun (by decide) fun _ _ hread => trimmedToken?_stands h hread

lemma char?_span {ch : Char} (hch : ch.val.toNat ≤ 127) (hread : u.char? ch kind = some (n, v)) :
    n.span = ⟨n.span.start, n.span.start + 1⟩ := by
  obtain ⟨hpos, rfl, -⟩ := Unread.token?_eq_some_iff.mp hread
  rcases hrest : u.skipBlanks.rest with _ | ⟨d, cs⟩
  · simp [hrest, charLength] at hpos
  · by_cases hd : d = ch
    · simp [charLength, hd, Node.leaf, Span.covering, utf8Size_ascii hch]
    · simp [hrest, charLength, hd] at hpos

lemma runs_char (h : s.lexer.At text u) {ch : Char} (hch : ch.val.toNat ≤ 127) (hkind : kind ≠ .comment) :
    Runs s.builder (char ch kind) s False (Tried (fun c => [c]) text s u (u.char? ch kind)) := by
  unfold char
  refine .lexing (h.eat hch kind) ?_
  rcases hread : u.char? ch kind with _ | ⟨n, v⟩
  · exact runs_pure (.inl ⟨rfl, rfl, moves_lexer h.standsIn.at_skipBlanks⟩)
  · obtain ⟨hn, hv⟩ := token?_stands h hread
    refine (runs_leaf hv.at hkind _).next ?_
    intro c t hm
    have hspan := char?_span hch hread
    rw [← hspan, ← hn] at hm
    exact runs_pure (.inr ⟨n, v, c, rfl, rfl, (moves_lexer hv.at).trans hm⟩)

lemma runs_comment (h : s.lexer.At text u) :
    Runs s.builder comment s False (Tried (fun c => [c]) text s u u.comment?) := by
  unfold comment
  refine .lexing h.comment ?_
  rcases hread : u.comment? with _ | ⟨n, v⟩
  · exact runs_pure (.inl ⟨rfl, rfl, moves_lexer h.standsIn.at_skipBlanks⟩)
  · obtain ⟨hn, hv⟩ := trimmedToken?_stands h hread
    obtain ⟨i, b', hextra, hbuilt⟩ := s.builder.comment_built n.span
    have hm : s.Moves text ⟨v.lexer text, b'⟩ [.plain i] [n] v := ⟨hn ▸ hbuilt, hv.at⟩
    have hbuilding : Runs s.builder (building (TreeBuilder.extra .comment n.span)) ⟨v.lexer text, s.builder⟩ False
        fun c t => s.Moves text t [c] [n] v := runs_building ⟨i, b', hextra, hm⟩
    refine hbuilding.next ?_
    intro c t hm
    exact runs_pure (.inr ⟨n, v, c, rfl, rfl, hm⟩)

lemma runs_required {step : LineReader (Option Child)} {read : Option (Node × Unread)}
    (h : Runs s.builder step s False (Tried (fun c => [c]) text s u read)) :
    Runs s.builder (required step) s (read = none) fun c t => ∃ n v, read = some (n, v) ∧ s.Moves text t [c] [n] v := by
  unfold required
  refine h.next ?_
  rintro _ t (⟨hread, rfl, hm⟩ | ⟨n, v, c, hread, rfl, hm⟩)
  · exact runs_failure hm.built.toExtends hread
  · exact runs_pure ⟨n, v, hread, hm⟩

lemma Runs.requiredLexing {α β : Type} {g : Lexer → Option (Option α × Lexer)} {value : Node → α} {f : α → LineReader β}
    {R : β → Reading → Prop} {read : Option (Node × Unread)} (hg : g s.lexer = some (Lexer.outcome value text u read))
    (hnone : read = none → b.Extends s.builder ∧ D)
    (hsome : ∀ n v, read = some (n, v) → Runs b (f (value n)) ⟨v.lexer text, s.builder⟩ D R) :
    Runs b (required (LineReader.lexing g) >>= f) s D R := by
  unfold required
  rw [bind_assoc]
  refine .lexing hg ?_
  rcases hread : read with _ | ⟨n, v⟩
  · exact ⟨none, ⟨u.skipBlanks.lexer text, s.builder⟩, rfl, hnone hread⟩
  · exact hsome n v hread

/-! ## Keywords -/

lemma Runs.peekKeyword {β : Type} {f : Bool → LineReader β} {R : β → Reading → Prop} {inClass : Keyword → Bool}
    (h : s.lexer.At text u) (hf : Runs b (f (u.peekKeyword?.any inClass)) s D R) :
    Runs b (peekKeyword inClass >>= f) s D R := by
  obtain ⟨word, hword, heq⟩ := h.peekWord
  rw [← heq] at hf
  unfold LineReader.peekKeyword
  rw [bind_assoc]
  refine .lexing hword ?_
  rw [pure_bind]
  exact hf

/-- The next name, where it is known to be a keyword of a class. -/
lemma runs_keyword (h : s.lexer.At text u) {inClass : Keyword → Bool} (hclass : u.peekKeyword?.any inClass = true) :
    Runs s.builder keyword s False fun c t => ∃ n v, u.keyword? inClass = some (n, v) ∧ s.Moves text t [c] [n] v := by
  obtain ⟨k, hk, hin⟩ : ∃ k, u.peekKeyword? = some k ∧ inClass k = true := by
    simpa [Option.any_eq_true] using hclass
  have hempty : Keyword.ofWord? (String.ofList []) = none := by decide
  have hpos : 0 < nameLength u.skipBlanks.rest := by
    rw [Nat.pos_iff_ne_zero]
    intro hzero
    rw [Unread.peekKeyword?, hzero, List.take_zero, hempty] at hk
    cases hk
  have hname : u.token? .identifier nameLength = some _ := Unread.token?_eq_some_iff.mpr ⟨hpos, rfl, rfl⟩
  have hkeyword : u.keyword? inClass = u.token? (.keyword k) nameLength := by
    rw [Unread.keyword?, hk]
    exact if_pos hin
  unfold keyword
  refine .requiredLexing (h.matched nameLength .identifier) (fun hnone => by simp [hname] at hnone) ?_
  intro n v hread
  obtain ⟨-, hv⟩ := token?_stands h hread
  have htext := Lexer.textOf_token? h.standsIn (x := v.lexer text) rfl hread
  obtain ⟨-, rfl, rfl⟩ := Unread.token?_eq_some_iff.mp hread
  refine .lexer (.lift htext ?_)
  have hword : Keyword.ofWord? (String.ofList (u.skipBlanks.rest.take (nameLength u.skipBlanks.rest))) = some k := hk
  rw [hword]
  refine (runs_leaf hv.at (by simp) _).imp False.elim ?_
  intro c t hm
  exact ⟨_, _, hkeyword.trans (Unread.token?_eq_some_iff.mpr ⟨hpos, rfl, rfl⟩), (moves_lexer hv.at).trans hm⟩

lemma keyword?_eq_none {inClass : Keyword → Bool} (hclass : u.peekKeyword?.any inClass = false) :
    u.keyword? inClass = none := by
  rw [Unread.keyword?]
  split
  · next k hk =>
    rw [hk] at hclass
    rw [if_neg (by simpa using hclass)]
  · rfl

/-! ## The end of a line -/

lemma runs_finishLine (h : s.lexer.At text u) :
    Runs s.builder finishLine s (u.finish? = none) fun cs t =>
      ∃ ns v, u.finish? = some ns ∧ s.Moves text t cs ns v := by
  unfold finishLine
  refine (runs_whileSome Unread.isNodeReader_comment? (fun s u h => runs_comment h) h).next ?_
  intro cs t hm
  rw [List.flatMap_singleton'] at hm
  refine .lexing hm.lexer.peek ?_
  have hfinish : u.finish? = if (Unread.many Unread.comment? u).2.peek? = none then
    some (Unread.many Unread.comment? u).1 else none := rfl
  by_cases hpeek : (Unread.many Unread.comment? u).2.peek? = none
  · rw [if_pos hpeek] at hfinish
    rw [if_pos (Option.map_eq_none_iff.mpr hpeek)]
    exact runs_pure ⟨_, _, hfinish, hm.built, hm.lexer.standsIn.at_skipBlanks⟩
  · rw [if_neg hpeek] at hfinish
    rw [if_neg (mt Option.map_eq_none_iff.mp hpeek)]
    exact runs_failure hm.built.toExtends hfinish

end

end LineReader

end RenpyScript
