import Mathlib.Data.Prod.Lex
import RenpyScript.Highlight.Session
import RenpyScript.Proofs.Query.Captures
import RenpyScript.Proofs.Text.LineIndex
import RenpyScript.Proofs.Tree.WellFormed
import RenpyScript.Regex.Engine

/-!
# Intervals of highlights

The intervals of a script are those of the nodes that its captures with a style have, each once and in order.
Nodes begin and end between characters, so that nothing is lost when their offsets are converted to characters:
the interval of a node leads back to its text.
-/

namespace RenpyScript

/-! ## Offsets in characters -/

namespace LineIndex

/-- A node of the text covers the characters `covered` behind `before`, and offsets in bytes and in characters
that say so are converted into each other. -/
structure Finds (index : LineIndex) (n : Node) (before covered : List Char) : Prop where
  isPrefix : before ++ covered <+: index.chars
  span_eq : n.span = .covering (byteLength before) covered
  start_eq : index.charOffset n.span.start = before.length
  stop_eq : index.charOffset n.span.stop = before.length + covered.length
  start_back : index.byteOffset before.length = n.span.start
  stop_back : index.byteOffset (before.length + covered.length) = n.span.stop
  snippet_eq : slice index.chars ⟨index.byteOffset before.length, index.byteOffset (before.length + covered.length)⟩ =
    some covered
  chars_eq : (index.chars.drop before.length).take covered.length = covered
  text_eq : n.textIn index.chars = String.ofList covered

lemma finds_covering {n : Node} (before covered after : List Char)
    (h : n.span = .covering (byteLength before) covered) :
    Finds ⟨before ++ covered ++ after⟩ n before covered := by
  have hstop : n.span.stop = byteLength (before ++ covered) := by rw [h, byteLength_append]; rfl
  have hlength : before.length + covered.length = (before ++ covered).length := List.length_append.symm
  have hslice : slice (before ++ covered ++ after) n.span = some covered := by
    rw [h, List.append_assoc, slice_append]
  have hstart_back : byteOffset ⟨before ++ covered ++ after⟩ before.length = n.span.start := by
    rw [h, List.append_assoc]
    exact byteOffset_length before (covered ++ after)
  have hstop_back : byteOffset ⟨before ++ covered ++ after⟩ (before.length + covered.length) = n.span.stop := by
    rw [hstop, hlength]
    exact byteOffset_length (before ++ covered) after
  refine ⟨List.prefix_append _ after, h, ?_, ?_, hstart_back, hstop_back, ?_, ?_, ?_⟩
  · rw [h, List.append_assoc]
    exact charsBefore_append before (covered ++ after)
  · rw [hstop, hlength]
    exact charsBefore_append (before ++ covered) after
  · rw [hstart_back, hstop_back]
    exact hslice
  · rw [List.append_assoc, List.drop_left, List.take_left]
  · rw [Node.textIn, hslice, Option.getD_some]

lemma Finds.nonempty {index : LineIndex} {n : Node} {before covered : List Char}
    (hn : index.Finds n before covered) (hne : n.span.start ≠ n.span.stop) : n.span.start < n.span.stop ∧
      index.charOffset n.span.start < index.charOffset n.span.stop ∧
        index.charOffset n.span.stop ≤ index.chars.length := by
  have hspan := hn.span_eq
  have hcovered : covered ≠ [] := by
    rintro rfl
    rw [hspan] at hne
    exact hne rfl
  have hchars := List.length_pos_of_ne_nil hcovered
  have hbytes := byteLength_pos hcovered
  have hle := hn.isPrefix.length_le
  rw [List.length_append] at hle
  rw [hn.start_eq, hn.stop_eq, hspan, Span.covering]
  exact ⟨Nat.lt_add_of_pos_right hbytes, Nat.lt_add_of_pos_right hchars, hle⟩

end LineIndex

lemma Node.InText.finds {n : Node} {text : List Char} (h : n.InText text) :
    ∃ before covered, LineIndex.Finds ⟨text⟩ n before covered := by
  obtain ⟨before, hbefore, hstart⟩ := h.start_boundary
  obtain ⟨upto, hupto, hstop⟩ := h.stop_boundary
  have hle : before <+: upto := prefix_of_byteLength_le hbefore hupto (by rw [hstart, hstop]; exact h.start_le_stop)
  obtain ⟨covered, rfl⟩ := hle
  obtain ⟨after, rfl⟩ := hupto
  refine ⟨before, covered, LineIndex.finds_covering before covered after ?_⟩
  rw [byteLength_append] at hstop
  rw [Span.covering, hstop, hstart]

/-! ## The order of intervals -/

namespace Interval

def key (i : Interval) : Nat ×ₗ Nat ×ₗ Nat :=
  toLex (i.start, toLex (i.stop, i.style))

lemma key_injective : Function.Injective key := by
  rintro ⟨start, stop, style⟩ ⟨start', stop', style'⟩ h
  obtain ⟨rfl, h⟩ := Prod.mk.inj (toLex.injective h)
  obtain ⟨rfl, rfl⟩ := Prod.mk.inj (toLex.injective h)
  rfl

lemma before_iff (i j : Interval) : i.before j = true ↔ i.key ≤ j.key := by
  simp [before, key, Prod.Lex.toLex_le_toLex]

lemma pairwise_mergeSort_before (is : List Interval) :
    (is.mergeSort before).Pairwise fun i j => i.key ≤ j.key := by
  have htrans (i j k : Interval) : i.before j = true → j.before k = true → i.before k = true := by
    rw [before_iff, before_iff, before_iff]
    exact le_trans
  have htotal (i j : Interval) : (i.before j || j.before i) = true := by
    rw [Bool.or_eq_true, before_iff, before_iff]
    exact le_total _ _
  exact (List.pairwise_mergeSort htrans htotal is).imp fun {i j} => (before_iff i j).mp

end Interval

section
variable {α : Type} [DecidableEq α] {as : List α} {a : α}

lemma mem_collapseRuns : a ∈ collapseRuns as ↔ a ∈ as := by
  induction as with
  | nil => rfl
  | cons b as ih =>
    rw [collapseRuns]
    split
    · next hrun =>
      rw [ih, List.mem_cons, or_iff_right_of_imp]
      rintro rfl
      exact List.mem_of_mem_head? hrun
    · rw [List.mem_cons, List.mem_cons, ih]

/-- The members of a list in order come in strict order, as equal members stand side by side. -/
lemma pairwise_collapseRuns {κ : Type} [PartialOrder κ] {key : α → κ} (hkey : Function.Injective key)
    (h : as.Pairwise fun a b => key a ≤ key b) : (collapseRuns as).Pairwise fun a b => key a < key b := by
  induction as with
  | nil => exact .nil
  | cons a as ih =>
    obtain ⟨hhead, htail⟩ := List.pairwise_cons.mp h
    rw [collapseRuns]
    split
    · exact ih htail
    · next hrun =>
      refine List.pairwise_cons.mpr ⟨fun b hb => ?_, ih htail⟩
      have hb := mem_collapseRuns.mp hb
      refine lt_of_le_of_ne (hhead b hb) fun heq => hrun ?_
      obtain rfl := hkey heq
      cases as with
      | nil => cases hb
      | cons c as =>
        have hca : key c ≤ key a := by
          rcases List.mem_cons.mp hb with rfl | hb
          · exact le_refl _
          · exact (List.pairwise_cons.mp htail).1 a hb
        rw [List.head?_cons, hkey (le_antisymm hca (hhead c (List.mem_cons_self ..)))]

end

/-! ## Styles -/

lemma idxOf?_of_prefix {as bs : List String} {name : String} {i : Nat} (h : as <+: bs) (hi : as.idxOf? name = some i) :
    bs.idxOf? name = some i := by
  obtain ⟨more, rfl⟩ := h
  rw [List.idxOf?, List.findIdx?_append, show as.findIdx? (· == name) = some i from hi, Option.some_or]

lemma StyleTable.allocate_spec (t : StyleTable) (name : String) : t.names <+: (t.allocate name).2.names ∧
    ((t.allocate name).2.names.idxOf? name).map styleAt = some (t.allocate name).1 := by
  rw [allocate]
  split
  · next i hi =>
    rw [hi]
    exact ⟨List.prefix_refl _, rfl⟩
  · next hnone =>
    refine ⟨List.prefix_append _ _, ?_⟩
    rw [List.idxOf?, List.findIdx?_append, show t.names.findIdx? (· == name) = none from hnone]
    simp

namespace Highlighter

/-- The style of a capture with a given name: an explicit one, or else an allocated one if `dynamic`. -/
def styleOf? (explicit : StyleMap) (dynamic : Bool) (t : StyleTable) (name : String) : Option StyleId :=
  (explicit.get? name).or (if dynamic then (t.names.idxOf? name).map StyleTable.styleAt else none)

lemma stylesOf_spec (explicit : StyleMap) (dynamic : Bool) (t : StyleTable) (names : List String) :
    t.names <+: (stylesOf explicit dynamic t names).2.names ∧
      (stylesOf explicit dynamic t names).1 =
        names.map (styleOf? explicit dynamic (stylesOf explicit dynamic t names).2) := by
  induction names generalizing t with
  | nil => exact ⟨List.prefix_refl _, rfl⟩
  | cons name names ih =>
    rw [stylesOf]
    split
    · next s hs =>
      obtain ⟨hbegins, hstyles⟩ := ih t
      refine ⟨hbegins, ?_⟩
      rw [List.map_cons, ← hstyles, styleOf?, hs, Option.some_or]
    · next hs =>
      split
      · next hdynamic =>
        obtain ⟨hallocated, hstyle⟩ := t.allocate_spec name
        obtain ⟨hbegins, hstyles⟩ := ih (t.allocate name).2
        obtain ⟨k, hk, hkstyle⟩ := Option.map_eq_some_iff.mp hstyle
        refine ⟨hallocated.trans hbegins, ?_⟩
        rw [List.map_cons, ← hstyles, styleOf?, hs, Option.none_or, if_pos hdynamic, idxOf?_of_prefix hbegins hk,
          Option.map_some, hkstyle]
      · next hdynamic =>
        obtain ⟨hbegins, hstyles⟩ := ih t
        refine ⟨hbegins, ?_⟩
        rw [List.map_cons, ← hstyles, styleOf?, hs, Option.none_or, if_neg hdynamic]

/-- A configuration that compiles has styles for the captures of its query, allocated from the beginning. -/
lemma ofConfig_stylesOf [RegexEngine] {config : HighlightConfig} {h : Highlighter} (hconfig : ofConfig config = .ok h) :
    h.config = config ∧
      stylesOf config.styles config.dynamicStyles .empty h.highlights.captureNames = (h.styles, h.table) := by
  rw [ofConfig] at hconfig
  cases hquery : Query.ofSource config.highlights with
  | error e =>
    rw [hquery] at hconfig
    cases hconfig
  | ok q =>
    rw [hquery] at hconfig
    cases hfolds : foldsOf? config.folds with
    | error e =>
      change (foldsOf? config.folds >>= _) = _ at hconfig
      rw [hfolds] at hconfig
      cases hconfig
    | ok folds =>
      change (foldsOf? config.folds >>= _) = _ at hconfig
      rw [hfolds] at hconfig
      obtain rfl := Except.ok.inj hconfig
      exact ⟨rfl, rfl⟩

lemma ofConfig_styles [RegexEngine] {config : HighlightConfig} {h : Highlighter}
    (hconfig : ofConfig config = .ok h) :
    h.config = config ∧
      h.styles = h.highlights.captureNames.map (styleOf? config.styles config.dynamicStyles h.table) := by
  obtain ⟨heq, hstyles⟩ := ofConfig_stylesOf hconfig
  have hspec := (stylesOf_spec config.styles config.dynamicStyles .empty h.highlights.captureNames).2
  rw [hstyles] at hspec
  exact ⟨heq, hspec⟩

/-! ## The intervals of a script -/

lemma intervalOf?_eq_some_iff {index : LineIndex} {n : Node} {before covered : List Char} {style : StyleId} {i : Interval}
    (hn : index.Finds n before covered) : intervalOf? index style n = some i ↔
      n.span.start ≠ n.span.stop ∧ i = ⟨index.charOffset n.span.start, index.charOffset n.span.stop, style⟩ := by
  have hwidth : n.span.start < n.span.stop ∧ index.charOffset n.span.start < index.charOffset n.span.stop ↔
      n.span.start ≠ n.span.stop := by
    refine ⟨fun h => Nat.ne_of_lt h.1, fun hne => ?_⟩
    obtain ⟨hbytes, hchars, -⟩ := hn.nonempty hne
    exact ⟨hbytes, hchars⟩
  rw [intervalOf?, eq_comm (a := i), ← hwidth]
  simp

lemma mem_intervals [RegexEngine] {h : Highlighter} {t : Tree} {i : Interval} : i ∈ h.intervals t ↔
    ∃ m ∈ h.highlights.matchesIn t.text.toUTF8 none t.root, ∃ c ∈ m.captures, ∃ style,
      h.styles[c.index]?.join = some style ∧ intervalOf? (.ofText t.text) style c.node = some i := by
  rw [intervals, mem_collapseRuns, List.mem_mergeSort, List.mem_filterMap]
  constructor
  · rintro ⟨c, hc, hi⟩
    obtain ⟨m, hm, hc⟩ := List.mem_flatMap.mp hc
    exact ⟨m, hm, c, hc, Option.bind_eq_some_iff.mp hi⟩
  · rintro ⟨m, hm, c, hc, hi⟩
    exact ⟨c, List.mem_flatMap.mpr ⟨m, hm, hc⟩, Option.bind_eq_some_iff.mpr hi⟩

lemma intervals_pairwise [RegexEngine] (h : Highlighter) (t : Tree) :
    (h.intervals t).Pairwise fun i j => i.key < j.key :=
  pairwise_collapseRuns Interval.key_injective (Interval.pairwise_mergeSort_before _)

end Highlighter

/-! ## Sessions -/

namespace Session

section
variable [RegexEngine]

/-- What a session comes to that begins with a highlighter. -/
inductive Follows (h : Highlighter) : Session → Prop
  | start : Follows h (.start h)
  | process {s : Session} (text : String) (version : Nat) : Follows h s → Follows h (s.process text version).2
  | allocateStyle {s : Session} (name : String) : Follows h s → Follows h (s.allocateStyle name).2

lemma Follows.highlighter_eq {h : Highlighter} {s : Session} (hs : Follows h s) :
    s.highlighter = { h with table := s.highlighter.table } := by
  induction hs with
  | start => rfl
  | process text version _ ih =>
    rw [Session.process]
    split
    · exact ih
    · exact ih
  | allocateStyle name _ ih =>
    rw [Session.allocateStyle]
    dsimp only
    rw [ih]

lemma Follows.edits_eq {h : Highlighter} {s : Session} {version : Nat} (hs : Follows h s) (text : String)
    (hversion : s.version ≠ some version) : (s.process text version).1 = h.edits (.parse text) := by
  rw [Session.process, if_neg hversion]
  dsimp only
  rw [hs.highlighter_eq]
  rfl

/-- The intervals of the highlights are those of the captures with a style whose nodes are not empty, in strict
order, whatever the session processed before. A captured node covers the same stretch of the script in bytes and in
characters, so its interval leads back to its text. -/
theorem process_intervals {config : HighlightConfig} {h : Highlighter} {s : Session} {version : Nat} (text : String)
    (hconfig : Highlighter.ofConfig config = .ok h) (hs : Follows h s) (hversion : s.version ≠ some version) :
    h.styles = h.highlights.captureNames.map
        (Highlighter.styleOf? config.styles config.dynamicStyles h.table) ∧
      (s.process text version).2.lineIndex = .ofText text ∧
      ∃ is others, (s.process text version).1 = .styles config.layer is :: others ∧
        (is.Pairwise fun i j => toLex (i.start, toLex (i.stop, i.style)) < toLex (j.start, toLex (j.stop, j.style))) ∧
        (∀ i ∈ is, i.start < i.stop ∧ i.stop ≤ text.toList.length) ∧
        (∀ i, i ∈ is ↔ ∃ m ∈ h.highlights.matchesIn text.toUTF8 none (Tree.parse text).root, ∃ c ∈ m.captures,
          ∃ style, h.styles[c.index]?.join = some style ∧ c.node.span.start ≠ c.node.span.stop ∧
            i = ⟨(LineIndex.ofText text).charOffset c.node.span.start,
              (LineIndex.ofText text).charOffset c.node.span.stop, style⟩) ∧
        (∀ m ∈ h.highlights.matchesIn text.toUTF8 none (Tree.parse text).root, ∀ c ∈ m.captures,
          ∃ before covered, (LineIndex.ofText text).Finds c.node before covered) := by
  obtain ⟨hlayer, hstyles⟩ := Highlighter.ofConfig_styles hconfig
  have hprocess : s.process text version = (s.highlighter.edits (.parse text),
      ⟨s.highlighter, some (.parse text), some version, if s.tree.isNone then .initial else .fullReparse⟩) := by
    rw [Session.process, if_neg hversion]
  have hfinds : ∀ m ∈ h.highlights.matchesIn text.toUTF8 none (Tree.parse text).root, ∀ c ∈ m.captures,
      ∃ before covered, (LineIndex.ofText text).Finds c.node before covered := by
    intro m hm c hc
    exact (Tree.parse_inText text (Query.matchesIn_among hm c hc)).finds
  have hmem (i : Interval) : i ∈ h.intervals (.parse text) ↔
      ∃ m ∈ h.highlights.matchesIn text.toUTF8 none (Tree.parse text).root, ∃ c ∈ m.captures,
        ∃ style, h.styles[c.index]?.join = some style ∧ c.node.span.start ≠ c.node.span.stop ∧
          i = ⟨(LineIndex.ofText text).charOffset c.node.span.start,
            (LineIndex.ofText text).charOffset c.node.span.stop, style⟩ := by
    rw [Highlighter.mem_intervals]
    refine exists_congr fun m => and_congr_right fun hm => exists_congr fun c => and_congr_right fun hc => ?_
    obtain ⟨before, covered, hfound⟩ := hfinds m hm c hc
    exact exists_congr fun style => and_congr_right fun _ => Highlighter.intervalOf?_eq_some_iff hfound
  refine ⟨hstyles, ?_, h.intervals (.parse text), (s.highlighter.edits (.parse text)).tail, ?_, h.intervals_pairwise _,
    fun i hi => ?_, hmem, hfinds⟩
  · rw [hprocess]
    rfl
  · rw [hprocess, ← hlayer]
    dsimp only
    rw [hs.highlighter_eq]
    rfl
  · obtain ⟨m, hm, c, hc, style, -, hne, rfl⟩ := (hmem i).mp hi
    obtain ⟨before, covered, hfound⟩ := hfinds m hm c hc
    exact (hfound.nonempty hne).2

end

/-- A comment of three characters in four bytes. -/
theorem process_intervals_comment : ∃ h is others,
    Highlighter.ofConfig { HighlightConfig.ofQuery "(comment) @c" with dynamicStyles := true } = .ok h ∧
      ((Session.start h).process "# é\n" 0).1 = .styles 1 is :: others ∧ is = [⟨0, 3, 0x05000001⟩] ∧
      ∀ m ∈ h.highlights.matchesIn "# é\n".toUTF8 none (Tree.parse "# é\n").root, ∀ c ∈ m.captures,
        ∃ before covered, (LineIndex.ofText "# é\n").Finds c.node before covered := by
  have hintervals : (Highlighter.ofConfig { HighlightConfig.ofQuery "(comment) @c" with dynamicStyles := true }).map
      (fun h => h.intervals (.parse "# é\n")) = .ok [⟨0, 3, 0x05000001⟩] := by
    decide +kernel
  cases hconfig : Highlighter.ofConfig { HighlightConfig.ofQuery "(comment) @c" with dynamicStyles := true } with
  | error e =>
    rw [hconfig] at hintervals
    cases hintervals
  | ok h =>
    rw [hconfig] at hintervals
    have hversion : (Session.start h).version ≠ some 0 := by simp [Session.start]
    obtain ⟨-, -, is, others, hedits, -, -, -, hfinds⟩ := process_intervals "# é\n" hconfig .start hversion
    have his : .styles h.config.layer (h.intervals (.parse "# é\n")) = Edit.styles 1 is :=
      (List.cons.inj hedits).1
    refine ⟨h, is, others, rfl, hedits, ?_, hfinds⟩
    rw [← (Edit.styles.inj his).2]
    exact Except.ok.inj hintervals

end Session

end RenpyScript
