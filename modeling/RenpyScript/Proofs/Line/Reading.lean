import RenpyScript.Line.Unread
import RenpyScript.Proofs.Tree.Placement

/-!
# Readers leave nothing out

`u.Reads ns v` says that the nodes `ns` are laid in the text between `u` and `v`. A function
`IsReader` if whatever it reads is laid in the text that it passes over, and if it passes over a
character at least. The readers of tokens are readers in this sense, and reading as often as
possible, or at most once, keeps the property.
-/

namespace RenpyScript

open Node

namespace Unread

/-- The nodes are laid in the text between two places of a line, with the given gaps. -/
def ReadsAcross (gap : Char → Bool) (u : Unread) (ns : List Node) (v : Unread) : Prop :=
  ∃ used, u.rest = used ++ v.rest ∧ v.pos = u.pos + byteLength used ∧ Laid gap u.pos used ns

/-- The nodes are laid in the text between two places of a line. -/
abbrev Reads (u : Unread) (ns : List Node) (v : Unread) : Prop :=
  u.ReadsAcross isGap ns v

section
variable {gap : Char → Bool} {u v w : Unread} {n : Node} {ns ms : List Node}

lemma reads_refl (u : Unread) : u.ReadsAcross gap [] u :=
  ⟨[], rfl, rfl, laid_nil.mpr .nil⟩

lemma ReadsAcross.trans (h : u.ReadsAcross gap ns v) (h' : v.ReadsAcross gap ms w) :
    u.ReadsAcross gap (ns ++ ms) w := by
  obtain ⟨used, hrest, hpos, hl⟩ := h
  obtain ⟨used', hrest', hpos', hl'⟩ := h'
  refine ⟨used ++ used', ?_, ?_, hl.append (hpos ▸ hl')⟩
  · rw [hrest, hrest', List.append_assoc]
  · rw [hpos', hpos, byteLength_append, Nat.add_assoc]

lemma ReadsAcross.length_le (h : u.ReadsAcross gap ns v) : v.rest.length ≤ u.rest.length := by
  obtain ⟨used, hrest, -, -⟩ := h
  simp [hrest]

lemma ReadsAcross.under (field : Field) (h : u.ReadsAcross gap ns v) :
    u.ReadsAcross gap (ns.map (·.under field)) v := by
  obtain ⟨used, hrest, hpos, hl⟩ := h
  exact ⟨used, hrest, hpos, hl.under field⟩

lemma ReadsAcross.append_absent (kind : Kind) (h : u.ReadsAcross gap ns v) (hn : ns.getLast? = some n) :
    u.ReadsAcross gap (ns ++ [.absent kind n.span.stop]) v := by
  obtain ⟨used, hrest, hpos, hl⟩ := h
  exact ⟨used, hrest, hpos, hl.append_absent kind hn⟩

lemma ReadsAcross.laid (h : u.ReadsAcross gap ns v) (hl : Laid gap v.pos v.rest ms) :
    Laid gap u.pos u.rest (ns ++ ms) := by
  obtain ⟨used, hrest, hpos, hl'⟩ := h
  rw [hrest]
  exact hl'.append (hpos ▸ hl)

lemma Reads.branch {kind : Kind} (hk : kind ≠ .string) (h : u.Reads ns v) (hne : ns ≠ [])
    (fallback : Nat) : u.Reads [.branch kind ns fallback] v := by
  obtain ⟨used, hrest, hpos, hl⟩ := h
  exact ⟨used, hrest, hpos, hl.branch hk (fun hnil => absurd hnil hne)⟩

lemma reads_advance {k : Nat} (h : Laid gap u.pos (u.rest.take k) ns) :
    u.ReadsAcross gap ns (u.advance k) :=
  ⟨u.rest.take k, (List.take_append_drop k u.rest).symm, rfl, h⟩

lemma reads_leaf (kind : Kind) (u : Unread) (k : Nat) :
    u.ReadsAcross gap [.leaf kind ⟨u.pos, (u.advance k).pos⟩] (u.advance k) :=
  reads_advance (fills_leaf kind u.pos (u.rest.take k)).laid

lemma reads_absent (kind : Kind) (u : Unread) : u.ReadsAcross gap [.absent kind u.pos] u :=
  ⟨[], rfl, rfl, (fills_absent kind u.pos).laid⟩

lemma skipBlanks_rest (u : Unread) : u.skipBlanks.rest = u.rest.dropWhile isBlank := by
  rw [skipBlanks, advance]
  exact drop_length_takeWhile isBlank u.rest

lemma reads_skipBlanks (u : Unread) : u.Reads [] u.skipBlanks := by
  apply reads_advance
  rw [laid_nil, take_length_takeWhile]
  exact (takeWhile_onlyGap isBlank u.rest).mono fun _ => isGap_of_isBlank

lemma Reads.of_skipBlanks (h : u.skipBlanks.Reads ns v) : u.Reads ns v := by
  simpa using (reads_skipBlanks u).trans h

lemma skipBlanks_length_le (u : Unread) : u.skipBlanks.rest.length ≤ u.rest.length := by
  rw [skipBlanks_rest]
  exact List.length_dropWhile_le isBlank u.rest

lemma advance_length_lt {k : Nat} (hk : 0 < k) (hu : u.rest ≠ []) :
    (u.advance k).rest.length < u.rest.length := by
  have hpos : 0 < u.rest.length := List.length_pos_of_ne_nil hu
  simp only [advance, List.length_drop]
  omega

lemma peek?_eq_none_iff : u.peek? = none ↔ OnlyGap isBlank u.rest := by
  rw [peek?, List.head?_eq_none_iff, skipBlanks_rest, List.dropWhile_eq_nil_iff, OnlyGap]

lemma not_isBlank_of_peek? {c : Char} (h : u.peek? = some c) : isBlank c = false := by
  rw [peek?, skipBlanks_rest, ← List.find?_not_eq_head?_dropWhile] at h
  simpa using List.find?_some h

end

/-! ## Readers -/

/-- Whatever is read is laid in the text that was passed over, and that text is not empty. -/
def IsReader {α : Type} (nodes : α → List Node) (read? : Unread → Option (α × Unread)) : Prop :=
  ∀ u a v, read? u = some (a, v) → u.Reads (nodes a) v ∧ v.rest.length < u.rest.length

abbrev IsNodeReader (read? : Unread → Option (Node × Unread)) : Prop :=
  IsReader (fun n => [n]) read?

section
variable {α : Type} {nodes : α → List Node} {read? read?' : Unread → Option (α × Unread)}

lemma IsReader.orElse (h : IsReader nodes read?) (h' : IsReader nodes read?') :
    IsReader nodes (fun u => read? u <|> read?' u) := by
  intro u a v hread
  rcases hr : read? u with _ | ⟨b, w⟩
  · exact h' u a v (by simpa [hr] using hread)
  · exact h u a v (by simpa [hr] using hread)

lemma IsReader.repeatUpTo (h : IsReader nodes read?) (k : Nat) (u : Unread) :
    u.Reads ((repeatUpTo read? k u).1.flatMap nodes) (repeatUpTo read? k u).2 := by
  induction k generalizing u with
  | zero => exact reads_refl u
  | succ k ih =>
    rw [Unread.repeatUpTo]
    rcases hr : read? u with _ | ⟨a, v⟩
    · exact reads_refl u
    · exact (h u a v hr).1.trans (ih v)

lemma IsReader.many (h : IsReader nodes read?) (u : Unread) :
    u.Reads ((many read? u).1.flatMap nodes) (many read? u).2 :=
  h.repeatUpTo u.rest.length u

lemma IsReader.repeatUpTo_declines (h : IsReader nodes read?) {k : Nat} {u : Unread}
    (hk : u.rest.length ≤ k) : read? (Unread.repeatUpTo read? k u).2 = none := by
  induction k generalizing u with
  | zero =>
    rw [Unread.repeatUpTo]
    rcases hr : read? u with _ | ⟨a, v⟩
    · rfl
    · have hlt := (h u a v hr).2
      omega
  | succ k ih =>
    rw [Unread.repeatUpTo]
    rcases hr : read? u with _ | ⟨a, v⟩
    · exact hr
    · have hlt := (h u a v hr).2
      exact ih (by omega)

lemma IsReader.many_declines (h : IsReader nodes read?) (u : Unread) :
    read? (Unread.many read? u).2 = none :=
  h.repeatUpTo_declines (Nat.le_refl _)

lemma forall_mem_repeatUpTo {P : α → Prop} (h : ∀ u a v, read? u = some (a, v) → P a) (k : Nat) (u : Unread) :
    ∀ a ∈ (repeatUpTo read? k u).1, P a := by
  induction k generalizing u with
  | zero => simp [repeatUpTo]
  | succ k ih =>
    rw [repeatUpTo]
    rcases hr : read? u with _ | ⟨a, v⟩
    · simp
    · exact List.forall_mem_cons.mpr ⟨h u a v hr, ih v⟩

lemma forall_mem_many {P : α → Prop} (h : ∀ u a v, read? u = some (a, v) → P a) (u : Unread) :
    ∀ a ∈ (many read? u).1, P a :=
  forall_mem_repeatUpTo h u.rest.length u

lemma many_of_none {u : Unread} (hr : read? u = none) : Unread.many read? u = ([], u) := by
  rw [Unread.many]
  cases u.rest.length with
  | zero => rfl
  | succ k => rw [Unread.repeatUpTo, hr]

/-- A bound on the number of readings does not matter if it is large enough. -/
lemma IsReader.repeatUpTo_eq (h : IsReader nodes read?) {k l : Nat} {u : Unread} (hk : u.rest.length ≤ k)
    (hl : u.rest.length ≤ l) : Unread.repeatUpTo read? k u = Unread.repeatUpTo read? l u := by
  have hnone {j : Nat} {u : Unread} (hr : read? u = none) : Unread.repeatUpTo read? j u = ([], u) := by
    cases j with
    | zero => rfl
    | succ j => rw [Unread.repeatUpTo, hr]
  induction k generalizing u l with
  | zero =>
    have hr : read? u = none := h.repeatUpTo_declines hk
    rw [hnone hr, hnone hr]
  | succ k ih =>
    rcases hr : read? u with _ | ⟨a, v⟩
    · rw [hnone hr, hnone hr]
    · have hlt := (h u a v hr).2
      obtain ⟨j, rfl⟩ : ∃ j, l = j + 1 := ⟨l - 1, by omega⟩
      have heq := ih (u := v) (l := j) (by omega) (by omega)
      rw [Unread.repeatUpTo, Unread.repeatUpTo, hr]
      dsimp only
      rw [heq]

lemma IsReader.many_of_some (h : IsReader nodes read?) {u v : Unread} {a : α} (hr : read? u = some (a, v)) :
    Unread.many read? u = (a :: (Unread.many read? v).1, (Unread.many read? v).2) := by
  have hlt := (h u a v hr).2
  obtain ⟨k, hk⟩ : ∃ k, u.rest.length = k + 1 := ⟨u.rest.length - 1, by omega⟩
  rw [Unread.many, hk, Unread.repeatUpTo, hr]
  dsimp only
  rw [Unread.many, h.repeatUpTo_eq (l := v.rest.length) (by omega) (Nat.le_refl _)]

lemma IsReader.optional (h : IsReader nodes read?) (u : Unread) :
    u.Reads ((optional read? u).1.flatMap nodes) (optional read? u).2 := by
  rw [Unread.optional]
  rcases hr : read? u with _ | ⟨a, v⟩
  · exact reads_refl u
  · simpa using (h u a v hr).1

lemma IsNodeReader.many {read? : Unread → Option (Node × Unread)} (h : IsNodeReader read?) (u : Unread) :
    u.Reads (Unread.many read? u).1 (Unread.many read? u).2 := by
  simpa using IsReader.many h u

lemma IsNodeReader.optional {read? : Unread → Option (Node × Unread)} (h : IsNodeReader read?)
    (u : Unread) : u.Reads (Unread.optional read? u).1 (Unread.optional read? u).2 := by
  simpa using IsReader.optional h u

end

section
variable {u v : Unread} {n : Node} {kind : Kind} {length : List Char → Nat} {trim : Char → Bool}

lemma token?_eq_some_iff : u.token? kind length = some (n, v) ↔
    0 < length u.skipBlanks.rest ∧
      n = .leaf kind (.covering u.skipBlanks.pos (u.skipBlanks.rest.take (length u.skipBlanks.rest))) ∧
      v = u.skipBlanks.advance (length u.skipBlanks.rest) := by
  rw [token?]
  rcases hl : length u.skipBlanks.rest with _ | k
  · simp
  · simp [eq_comm]

lemma isNodeReader_token? (kind : Kind) (h0 : length [] = 0) : IsNodeReader (token? kind length) := by
  intro u n v h
  obtain ⟨hpos, rfl, rfl⟩ := token?_eq_some_iff.mp h
  have hne : u.skipBlanks.rest ≠ [] := by
    intro hnil
    rw [hnil, h0] at hpos
    omega
  refine ⟨.of_skipBlanks (reads_advance (fills_leaf _ _ _).laid), ?_⟩
  exact Nat.lt_of_lt_of_le (advance_length_lt hpos hne) u.skipBlanks_length_le

lemma trimmedToken?_eq_some_iff : u.trimmedToken? kind length trim = some (n, v) ↔
    u.tokenText length trim ≠ [] ∧
      n = .leaf kind (.covering u.skipBlanks.pos (u.tokenText length trim)) ∧
      v = u.skipBlanks.advance (length u.skipBlanks.rest) := by
  unfold trimmedToken?
  by_cases ht : u.tokenText length trim = []
  · rw [if_pos (by simpa using ht)]
    simp [ht]
  · rw [if_neg (by simpa using ht), Option.some.injEq, Prod.mk.injEq]
    exact ⟨fun h => ⟨ht, h.1.symm, h.2.symm⟩, fun h => ⟨h.2.1.symm, h.2.2.symm⟩⟩

/-- Nodes that are laid in the text of a token with a trimmed end are laid in all that is passed
over when the token is read. -/
lemma reads_trimmedToken? {ns : List Node} (htrim : ∀ c, trim c = true → isBlank c = true)
    (h : u.trimmedToken? kind length trim = some (n, v))
    (hl : Laid isGap u.skipBlanks.pos (u.tokenText length trim) ns) : u.Reads ns v := by
  obtain ⟨-, -, rfl⟩ := trimmedToken?_eq_some_iff.mp h
  obtain ⟨dropped, hsplit, hdropped⟩ := trimEnd_split trim (u.skipBlanks.rest.take (length u.skipBlanks.rest))
  rw [← tokenText] at hsplit
  apply Reads.of_skipBlanks
  apply reads_advance
  rw [hsplit]
  exact hl.gap_after (hdropped.mono fun c hc => isGap_of_isBlank (htrim c hc))

lemma isNodeReader_trimmedToken? (kind : Kind) (length : List Char → Nat)
    (htrim : ∀ c, trim c = true → isBlank c = true) : IsNodeReader (trimmedToken? kind length trim) := by
  intro u n v h
  obtain ⟨ht, rfl, rfl⟩ := trimmedToken?_eq_some_iff.mp h
  refine ⟨reads_trimmedToken? htrim h (fills_leaf _ _ _).laid, ?_⟩
  have hne : u.skipBlanks.rest.take (length u.skipBlanks.rest) ≠ [] := by
    intro hnil
    rw [tokenText, hnil] at ht
    exact ht rfl
  have hpos : 0 < length u.skipBlanks.rest := by
    by_contra hzero
    exact hne (by simp [Nat.eq_zero_of_not_pos hzero])
  have hrest : u.skipBlanks.rest ≠ [] := by
    intro hnil
    exact hne (by simp [hnil])
  exact Nat.lt_of_lt_of_le (advance_length_lt hpos hrest) u.skipBlanks_length_le

lemma isNodeReader_name? : IsNodeReader name? :=
  isNodeReader_token? .identifier rfl

lemma isNodeReader_dottedName? : IsNodeReader dottedName? :=
  isNodeReader_token? .identifier rfl

lemma isNodeReader_number? : IsNodeReader number? :=
  isNodeReader_token? .number rfl

lemma isNodeReader_char? (c : Char) (kind : Kind) : IsNodeReader (char? c kind) :=
  isNodeReader_token? kind (by simp [charLength])

lemma isNodeReader_keyword? (inClass : Keyword → Bool) : IsNodeReader (keyword? inClass) := by
  intro u n v h
  rw [keyword?] at h
  split at h
  · split at h
    · exact isNodeReader_token? _ rfl u n v h
    · simp at h
  · simp at h

lemma isNodeReader_comment? : IsNodeReader comment? :=
  isNodeReader_trimmedToken? .comment commentLength (fun c hc => by simp_all [isBlank])

lemma isNodeReader_expression? (kind : Kind) : IsNodeReader (expression? kind) :=
  isNodeReader_trimmedToken? kind (expressionLength none) (fun _ hc => hc)

lemma isNodeReader_pythonRun? : IsNodeReader pythonRun? :=
  isNodeReader_trimmedToken? .pythonExpression (pythonRunLength false) (fun _ hc => hc)

lemma laid_of_finish? {comments : List Node} (h : u.finish? = some comments) :
    Laid isGap u.pos u.rest comments := by
  change (if (many comment? u).2.peek? = none then some (many comment? u).1 else none) = _ at h
  split at h
  · next hpeek =>
    obtain rfl : (many comment? u).1 = comments := by simpa using h
    have hreads := isNodeReader_comment?.many u
    have hgap := (peek?_eq_none_iff.mp hpeek).mono fun _ => isGap_of_isBlank
    simpa using hreads.laid (laid_nil.mpr hgap)
  · simp at h

end

end Unread

end RenpyScript
