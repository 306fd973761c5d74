import RenpyScript.Proofs.Line.Form

/-!
# Where a line begins in the tree

Whatever the form of a line is, a line that is not blank has a first token, which begins at the first character
that is not blank. It is a node of the form, or below one.
-/

namespace RenpyScript

open Node

namespace Node

lemma mem_preorderAll {n : Node} {ns : List Node} : n ∈ preorderAll ns ↔ ∃ m ∈ ns, n ∈ m.preorder := by
  rw [preorderAll_eq, List.mem_flatMap]

lemma preorderAll_append (ns ms : List Node) : preorderAll (ns ++ ms) = preorderAll ns ++ preorderAll ms := by
  rw [preorderAll_eq, List.flatMap_append, ← preorderAll_eq, ← preorderAll_eq]

end Node

def Form.nodes : Form → List Node
  | .items nodes => nodes
  | .opens owner => owner.head
  | .opensPython head => head

namespace Unread

/-- The node is a token that begins at the first character after blanks. -/
structure FirstToken (u : Unread) (n : Node) : Prop where
  children : n.children = []
  missing : n.missing = false
  start : n.span.start = u.skipBlanks.pos
  nonempty : n.span.start < n.span.stop
  stop_le : n.span.stop ≤ u.pos + byteLength u.rest

/-- The token that begins at the first character after blanks is one of the nodes, or below one. -/
def BeginsIn (u : Unread) (ns : List Node) : Prop :=
  ∃ n ∈ preorderAll ns, u.FirstToken n

section
variable {u v : Unread} {n : Node} {ns ms : List Node} {kind : Kind} {length : List Char → Nat} {trim : Char → Bool}

lemma FirstToken.under (field : Field) (h : u.FirstToken n) : u.FirstToken (n.under field) :=
  ⟨h.children, h.missing, h.start, h.nonempty, h.stop_le⟩

lemma FirstToken.beginsIn (h : u.FirstToken n) (ns : List Node) : u.BeginsIn (n :: ns) :=
  ⟨n, mem_preorderAll.mpr ⟨n, List.mem_cons_self .., n.self_mem_preorder⟩, h⟩

lemma BeginsIn.append (h : u.BeginsIn ns) (ms : List Node) : u.BeginsIn (ns ++ ms) := by
  obtain ⟨n, hn, htoken⟩ := h
  exact ⟨n, preorderAll_append ns ms ▸ List.mem_append_left _ hn, htoken⟩

lemma BeginsIn.branch (h : u.BeginsIn ns) (kind : Kind) (fallback : Nat) (ms : List Node) :
    u.BeginsIn (.branch kind ns fallback :: ms) := by
  obtain ⟨n, hn, htoken⟩ := h
  refine ⟨n, mem_preorderAll.mpr ⟨_, List.mem_cons_self .., ?_⟩, htoken⟩
  rw [preorderAll_eq] at hn
  exact (Node.branch kind ns fallback).children_subset_preorder hn

lemma firstToken_leaf (kind : Kind) {cs : List Char} (hbegins : cs <+: u.skipBlanks.rest) (h : cs ≠ []) :
    u.FirstToken (.leaf kind (.covering u.skipBlanks.pos cs)) := by
  refine ⟨rfl, rfl, rfl, Nat.lt_add_of_pos_right (byteLength_pos h), ?_⟩
  obtain ⟨blanks, hrest, hpos, -⟩ := u.reads_skipBlanks
  obtain ⟨more, hmore⟩ := hbegins
  change u.skipBlanks.pos + byteLength cs ≤ _
  rw [hrest, hpos, ← hmore, byteLength_append, byteLength_append]
  omega

lemma token?_firstToken (h0 : length [] = 0) (h : u.token? kind length = some (n, v)) : u.FirstToken n := by
  obtain ⟨hpos, rfl, -⟩ := token?_eq_some_iff.mp h
  refine firstToken_leaf kind (List.take_prefix _ _) fun hnil => ?_
  rcases List.take_eq_nil_iff.mp hnil with hzero | hrest
  · omega
  · rw [hrest, h0] at hpos
    omega

lemma trimmedToken?_firstToken (h : u.trimmedToken? kind length trim = some (n, v)) : u.FirstToken n := by
  obtain ⟨htext, rfl, -⟩ := trimmedToken?_eq_some_iff.mp h
  obtain ⟨dropped, hsplit, -⟩ := trimEnd_split trim (u.skipBlanks.rest.take (length u.skipBlanks.rest))
  have hbegins : u.tokenText length trim <+: u.skipBlanks.rest.take (length u.skipBlanks.rest) :=
    ⟨dropped, hsplit.symm⟩
  exact firstToken_leaf kind (hbegins.trans (List.take_prefix _ _)) htext

lemma keyword?_firstToken {inClass : Keyword → Bool} (h : u.keyword? inClass = some (n, v)) : u.FirstToken n := by
  rw [keyword?] at h
  split at h
  · split at h
    · exact token?_firstToken rfl h
    · cases h
  · cases h

lemma char?_firstToken {c : Char} (h : u.char? c kind = some (n, v)) : u.FirstToken n :=
  token?_firstToken (by simp [charLength]) h

lemma string?_beginsIn (h : u.string? = some (n, v)) (ns : List Node) : u.BeginsIn (n :: ns) := by
  obtain ⟨d, hd, rfl, -⟩ := string?_eq_some_iff.mp h
  have hne : u.skipBlanks.rest ≠ [] := by
    intro hnil
    rw [hnil] at hd
    cases hd
  have hdelimiter : u.FirstToken (u.openingDelimiter d) := by
    refine firstToken_leaf d.kind (List.take_prefix d.length u.skipBlanks.rest) ?_
    have hpos := delimiter_length_pos d
    rw [Ne, List.take_eq_nil_iff, not_or]
    exact ⟨by omega, hne⟩
  exact (hdelimiter.beginsIn ((u.stringBody d).escapes ++ [u.closingDelimiter d])).branch .string _ ns

end

/-! ## The readers of lines -/

section
variable {u : Unread}

lemma header?_beginsIn {bodyFollows : Bool} {owner : Owner} (h : u.header? bodyFollows = some owner) :
    u.BeginsIn owner.head := by
  simp only [header?, Option.bind_eq_bind, Option.bind_eq_some_iff, Option.pure_def,
    Option.some.injEq, Prod.exists] at h
  obtain ⟨keyword, u₁, hkeyword, args, u₄, hargs, colon, u₅, hcolon, comments, hfinish, rfl⟩ := h
  exact ((keyword?_firstToken hkeyword).under .keyword).beginsIn _

lemma pythonBlock?_beginsIn {head : List Node} (h : u.pythonBlock? = some head) : u.BeginsIn head := by
  simp only [pythonBlock?, Option.bind_eq_bind, Option.bind_eq_some_iff, Option.pure_def,
    Option.some.injEq, Prod.exists] at h
  obtain ⟨python, u₂, hpython, colon, u₄, hcolon, comments, hfinish, rfl⟩ := h
  rw [pythonModifier] at hpython ⊢
  split at hpython
  · exact (keyword?_firstToken hpython).beginsIn _
  · next keyword v hkeyword => exact ((keyword?_firstToken hkeyword).under .keyword).beginsIn _

lemma statementItems_beginsIn {node : Node} {comments : List Node} (h : u.BeginsIn [node]) :
    u.BeginsIn (statementItems node comments).nodes :=
  h.branch .statement _ comments

lemma controlStatement?_beginsIn {form : Form} (h : u.controlStatement? = some form) : u.BeginsIn form.nodes := by
  simp only [controlStatement?, Option.bind_eq_bind, Option.bind_eq_some_iff, Option.pure_def,
    Prod.exists] at h
  obtain ⟨keyword, u₁, hkeyword, whole, u₂, hwhole, comments, hfinish, h⟩ := h
  have hkeyword := (keyword?_firstToken hkeyword).under .keyword
  split at h
  · split at h
    · cases h
    · obtain rfl := (Option.some.injEq _ _).mp h
      exact hkeyword.beginsIn _
  · obtain rfl := (Option.some.injEq _ _).mp h
    exact statementItems_beginsIn ((hkeyword.beginsIn _).branch _ _ _)

lemma defineStatement?_beginsIn {form : Form} (h : u.defineStatement? = some form) : u.BeginsIn form.nodes := by
  simp only [defineStatement?, Option.bind_eq_bind, Option.bind_eq_some_iff, Option.pure_def,
    Option.some.injEq, Prod.exists] at h
  obtain ⟨keyword, u₁, hkeyword, name, u₂, hname, equals, u₃, hequals, comments, hfinish, rfl⟩ := h
  have hkeyword := (keyword?_firstToken hkeyword).under .keyword
  exact statementItems_beginsIn ((hkeyword.beginsIn _).branch _ _ _)

lemma renpyStatement?_beginsIn {form : Form} (h : u.renpyStatement? = some form) : u.BeginsIn form.nodes := by
  simp only [renpyStatement?, Option.bind_eq_bind, Option.bind_eq_some_iff, Option.pure_def,
    Prod.exists] at h
  obtain ⟨keyword, u₁, hkeyword, h⟩ := h
  have hkeyword := (keyword?_firstToken hkeyword).under .keyword
  split at h
  · simp only [Option.bind_eq_some_iff, Option.some.injEq] at h
    obtain ⟨comments, hfinish, rfl⟩ := h
    exact hkeyword.beginsIn _
  · simp only [Option.bind_eq_some_iff] at h
    obtain ⟨comments, hfinish, h⟩ := h
    split at h
    · cases h
    · obtain rfl := (Option.some.injEq _ _).mp h
      exact statementItems_beginsIn ((hkeyword.beginsIn _).branch _ _ _)

lemma statement?_beginsIn {form : Form} (h : u.statement? = some form) : u.BeginsIn form.nodes := by
  simp only [statement?, Option.orElse_eq_orElse, Option.orElse_eq_or, Option.or_eq_some_iff] at h
  rcases h with h | ⟨-, h | ⟨-, h⟩⟩
  · exact controlStatement?_beginsIn h
  · exact defineStatement?_beginsIn h
  · exact renpyStatement?_beginsIn h

lemma pythonInline?_beginsIn {nodes : List Node} (h : u.pythonInline? = some nodes) : u.BeginsIn nodes := by
  simp only [pythonInline?, Option.bind_eq_bind, Option.bind_eq_some_iff, Option.pure_def,
    Option.some.injEq, Prod.exists] at h
  obtain ⟨dollar, u₁, hdollar, comments, hfinish, rfl⟩ := h
  exact ((char?_firstToken hdollar).beginsIn _).branch _ _ _

lemma strings?_beginsIn {nodes : List Node} (h : u.strings? = some nodes) : u.BeginsIn nodes := by
  simp only [strings?] at h
  split at h
  · cases h
  · next hne =>
    obtain ⟨comments, hfinish, rfl⟩ := Option.map_eq_some_iff.mp h
    rcases hstring : u.string? with _ | ⟨n, v⟩
    · rw [many_of_none hstring] at hne
      exact absurd rfl hne
    · rw [isNodeReader_string?.many_of_some hstring]
      exact (string?_beginsIn hstring _).append comments

lemma expressionPieces_beginsIn {c : Char} (kind : Kind) (h : u.peek? = some c) :
    u.BeginsIn (u.expressionPieces kind) := by
  obtain ⟨⟨n, v⟩, hread⟩ := Option.ne_none_iff_exists'.mp (expressionPiece?_ne_none kind h)
  rw [expressionPieces, (isNodeReader_expressionPiece? kind).many_of_some hread]
  rw [expressionPiece?, Option.orElse_eq_orElse, Option.orElse_eq_or, Option.or_eq_some_iff] at hread
  rcases hread with hread | ⟨-, hread⟩
  · exact (trimmedToken?_firstToken hread).beginsIn _
  · exact (trimmedToken?_firstToken hread).beginsIn _

lemma dialoguePiece?_beginsIn {n : Node} {v : Unread} (h : u.dialoguePiece? = some (n, v)) (ns : List Node) :
    u.BeginsIn (n :: ns) := by
  unfold dialoguePiece? at h
  split at h
  · cases h
  · exact (trimmedToken?_firstToken h).beginsIn ns
  · exact string?_beginsIn h ns
  · exact (char?_firstToken h).beginsIn ns
  · exact (trimmedToken?_firstToken h).beginsIn ns

lemma dialogue_beginsIn {c : Char} (h : u.peek? = some c) : u.BeginsIn u.dialogue := by
  rw [dialogue, Unread.optional]
  rcases hquoted : u.singleQuoted? with _ | ⟨n, v⟩
  · obtain ⟨⟨n, v⟩, hread⟩ := Option.ne_none_iff_exists'.mp (dialoguePiece?_ne_none h)
    dsimp only
    rw [List.nil_append, isNodeReader_dialoguePiece?.many_of_some hread]
    exact dialoguePiece?_beginsIn hread _
  · rw [singleQuoted?] at hquoted
    split at hquoted
    · exact string?_beginsIn hquoted _
    · cases hquoted

end

end Unread

namespace Form
variable {u : Unread} {c : Char}

theorem topLevel_beginsIn (bodyFollows : Bool) (h : u.peek? = some c) : u.BeginsIn (topLevel bodyFollows u).nodes := by
  unfold topLevel
  rcases hread : (u.pythonBlock?.map Form.opensPython) <|> ((u.header? bodyFollows).map Form.opens) <|>
    u.statement? <|> (u.strings?.map Form.items) with _ | form
  · exact Unread.expressionPieces_beginsIn .error h
  · simp only [Option.orElse_eq_orElse, Option.orElse_eq_or, Option.or_eq_some_iff,
      Option.map_eq_some_iff] at hread
    rcases hread with ⟨head, h, rfl⟩ | ⟨-, ⟨owner, h, rfl⟩ | ⟨-, h | ⟨-, nodes, h, rfl⟩⟩⟩
    · exact Unread.pythonBlock?_beginsIn h
    · exact Unread.header?_beginsIn h
    · exact Unread.statement?_beginsIn h
    · exact Unread.strings?_beginsIn h

theorem nested_beginsIn (h : u.peek? = some c) : u.BeginsIn (nested u).nodes := by
  unfold nested
  rcases hread : (u.pythonBlock?.map Form.opensPython) <|> (u.pythonInline?.map Form.items) <|> u.statement? with _ | form
  · exact Unread.dialogue_beginsIn h
  · simp only [Option.orElse_eq_orElse, Option.orElse_eq_or, Option.or_eq_some_iff,
      Option.map_eq_some_iff] at hread
    rcases hread with ⟨head, h, rfl⟩ | ⟨-, ⟨nodes, h, rfl⟩ | ⟨-, h⟩⟩
    · exact Unread.pythonBlock?_beginsIn h
    · exact Unread.pythonInline?_beginsIn h
    · exact Unread.statement?_beginsIn h

end Form

end RenpyScript
