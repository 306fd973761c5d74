import Mathlib.Data.Finset.Card
import Mathlib.Data.String.Basic
import RenpyScript.Proofs.Highlight.Intervals
import RenpyScript.Regex.Engine

/-!
# Names of styles

A style leads back to a name by way of two tables, the explicit styles first. `Highlighter.Produces` says which captures an
interval comes from. The explicit styles may collide with each other and with those that are allocated, and then the name
is one that is given the style as well; if they keep apart, it is the name of the captures themselves.
-/

namespace RenpyScript

/-! ## Explicit styles -/

namespace StyleMap

/-- The names are in order and each stands once, as insertion keeps them. -/
def Ordered (m : StyleMap) : Prop :=
  m.entries.Pairwise fun d e => d.1 < e.1

/-- No two names have the same style, and no style looks like one that is allocated. -/
structure Apart (m : StyleMap) : Prop where
  nodup : (m.entries.map Prod.snd).Nodup
  topByte : ∀ e ∈ m.entries, e.2 >>> 24 ≠ 0x05

section
variable {m : StyleMap} {name : String} {s : StyleId} {entries : List (String × StyleId)}

lemma ordered_empty : empty.Ordered :=
  .nil

lemma name_of_mem_insertInto {e : String × StyleId} (he : e ∈ insertInto name s entries) :
    e.1 = name ∨ e ∈ entries := by
  induction entries with
  | nil => exact .inl (by rw [List.mem_singleton.mp he])
  | cons d entries ih =>
    rw [insertInto] at he
    split at he
    · rcases List.mem_cons.mp he with rfl | he
      · exact .inl rfl
      · exact .inr (List.mem_cons_of_mem d he)
    · split at he
      · rcases List.mem_cons.mp he with rfl | he
        · exact .inl rfl
        · exact .inr he
      · rcases List.mem_cons.mp he with rfl | he
        · exact .inr (List.mem_cons_self ..)
        · exact (ih he).imp_right (List.mem_cons_of_mem d)

lemma Ordered.insert (h : m.Ordered) (name : String) (s : StyleId) : (m.insert name s).Ordered := by
  obtain ⟨entries⟩ := m
  change (insertInto name s entries).Pairwise fun d e => d.1 < e.1
  change entries.Pairwise fun d e => d.1 < e.1 at h
  induction entries with
  | nil => exact List.pairwise_singleton _ _
  | cons d entries ih =>
    obtain ⟨hhead, htail⟩ := List.pairwise_cons.mp h
    rw [insertInto]
    split
    · next heq => exact List.pairwise_cons.mpr ⟨fun e he => heq ▸ hhead e he, htail⟩
    · next hne =>
      split
      · next hlt =>
        refine List.pairwise_cons.mpr ⟨fun e he => ?_, h⟩
        rcases List.mem_cons.mp he with rfl | he
        · exact hlt
        · exact hlt.trans (hhead e he)
      · next hnot =>
        refine List.pairwise_cons.mpr ⟨fun e he => ?_, ih htail⟩
        rcases name_of_mem_insertInto he with hname | he
        · exact hname ▸ lt_of_le_of_ne (not_lt.mp hnot) hne
        · exact hhead e he

lemma Ordered.get?_eq_some_iff (h : m.Ordered) : m.get? name = some s ↔ (name, s) ∈ m.entries := by
  obtain ⟨entries⟩ := m
  rw [get?]
  change entries.Pairwise fun d e => d.1 < e.1 at h
  induction entries with
  | nil => simp
  | cons d entries ih =>
    obtain ⟨hhead, htail⟩ := List.pairwise_cons.mp h
    rw [List.lookup_cons, List.mem_cons]
    by_cases hname : name = d.1
    · subst hname
      have hother : (d.1, s) ∉ entries := fun hmem => lt_irrefl d.1 (hhead (d.1, s) hmem)
      rw [BEq.rfl, or_iff_left hother, Prod.ext_iff]
      simp [eq_comm]
    · rw [beq_eq_false_iff_ne.mpr hname, ih htail, or_iff_right]
      exact fun heq => hname (congrArg Prod.fst heq)

lemma mem_of_nameOf? (h : m.nameOf? s = some name) : (name, s) ∈ m.entries := by
  obtain ⟨e, he, rfl⟩ := Option.map_eq_some_iff.mp h
  have hstyle : e.2 = s := by simpa using List.find?_some he
  exact hstyle ▸ List.mem_of_find?_eq_some he

lemma nameOf?_eq_none_iff : m.nameOf? s = none ↔ s ∉ m.entries.map Prod.snd := by
  rw [nameOf?, Option.map_eq_none_iff, List.find?_eq_none, List.mem_map]
  simp only [decide_eq_true_eq, not_exists, not_and]

end

end StyleMap

/-! ## Allocated styles -/

lemma length_le_card {names among : List String} (h : names.Nodup) (hsubset : names ⊆ among) :
    names.length ≤ among.toFinset.card := by
  rw [← List.toFinset_card_of_nodup h]
  exact Finset.card_le_card fun n hn => List.mem_toFinset.mpr (hsubset (List.mem_toFinset.mp hn))

namespace StyleTable

/-- How many names can be told apart: as many as there are numbers of three bytes besides zero. -/
def capacity : Nat := 2 ^ 24 - 1

section
variable {t : StyleTable} {name : String} {names : List String} {s i j : Nat}

lemma styleAt_eq (h : i < capacity) : styleAt i = base + (i + 1) := by
  have hlow : i + 1 < 2 ^ 24 := by
    rw [capacity] at h
    omega
  exact (Nat.two_pow_add_eq_or_of_lt hlow 5).symm

lemma styleAt_inj (hi : i < capacity) (hj : j < capacity) : styleAt i = styleAt j ↔ i = j := by
  rw [styleAt_eq hi, styleAt_eq hj, Nat.add_left_cancel_iff, Nat.add_right_cancel_iff]

lemma styleAt_topByte (h : i < capacity) : styleAt i >>> 24 = 0x05 := by
  rw [capacity] at h
  rw [styleAt_eq h, Nat.shiftRight_eq_div_pow]
  change (0x05000000 + (i + 1)) / 2 ^ 24 = 0x05
  omega

lemma styleAt_lowBytes (h : i < capacity) : styleAt i % 2 ^ 24 = i + 1 := by
  rw [capacity] at h
  rw [styleAt_eq h]
  change (0x05000000 + (i + 1)) % 2 ^ 24 = i + 1
  omega

lemma nameOf?_eq_some_iff : t.nameOf? s = some name ↔ ∃ i < capacity, t.names[i]? = some name ∧ styleAt i = s := by
  have hbase : base >>> 24 = 0x05 := rfl
  have hsplit : 2 ^ 24 * (s >>> 24) + s % 2 ^ 24 = s := by
    rw [Nat.shiftRight_eq_div_pow]
    exact Nat.div_add_mod s (2 ^ 24)
  rw [nameOf?, hbase]
  constructor
  · intro h
    split at h
    · next htop =>
      split at h
      · cases h
      · next i hlow =>
        have hi : i < capacity := by
          have hlt : s % 0x01000000 < 0x01000000 := Nat.mod_lt s (by decide)
          rw [hlow] at hlt
          exact Nat.lt_pred_of_succ_lt hlt
        refine ⟨i, hi, h, ?_⟩
        rw [htop, show s % 2 ^ 24 = i + 1 from hlow] at hsplit
        exact (styleAt_eq hi).trans hsplit
    · cases h
  · rintro ⟨i, hi, hname, rfl⟩
    rw [if_pos (styleAt_topByte hi), show styleAt i % 0x01000000 = i + 1 from styleAt_lowBytes hi]
    exact hname

lemma nameOf?_styleAt (h : i < capacity) : t.nameOf? (styleAt i) = t.names[i]? := by
  refine Option.ext fun name => ?_
  rw [nameOf?_eq_some_iff]
  constructor
  · rintro ⟨j, hj, hname, heq⟩
    rwa [← (styleAt_inj hj h).mp heq]
  · exact fun hname => ⟨i, h, hname, rfl⟩

lemma allocate_names (h : t.names.Nodup) (name : String) : (t.allocate name).2.names.Nodup ∧
    ∀ n, n ∈ (t.allocate name).2.names ↔ n = name ∨ n ∈ t.names := by
  rw [allocate]
  split
  · next i hi =>
    have hmem : name ∈ t.names := List.isSome_idxOf?.mp (by rw [hi]; rfl)
    exact ⟨h, fun n => (or_iff_right_of_imp (by rintro rfl; exact hmem)).symm⟩
  · next hnone =>
    have hnew : name ∉ t.names := List.idxOf?_eq_none_iff.mp hnone
    refine ⟨?_, fun n => ?_⟩
    · rw [← List.concat_eq_append]
      exact h.concat hnew
    · rw [List.mem_append, List.mem_singleton, or_comm]

end

end StyleTable

namespace Highlighter

section
variable {t : StyleTable} {name : String} {s : StyleId}

/-- Styles are allocated to names of captures only, once to each. -/
lemma stylesOf_names (explicit : StyleMap) (dynamic : Bool) (names : List String) (ht : t.names.Nodup) :
    (stylesOf explicit dynamic t names).2.names.Nodup ∧
      (stylesOf explicit dynamic t names).2.names ⊆ names ++ t.names := by
  induction names generalizing t with
  | nil => exact ⟨ht, List.Subset.refl _⟩
  | cons name names ih =>
    rw [stylesOf]
    split
    · obtain ⟨hnodup, hsubset⟩ := ih ht
      exact ⟨hnodup, List.subset_cons_of_subset name hsubset⟩
    · split
      · obtain ⟨hallocated, hmem⟩ := t.allocate_names ht name
        obtain ⟨hnodup, hsubset⟩ := ih hallocated
        refine ⟨hnodup, fun n hn => ?_⟩
        have hn := hsubset hn
        rw [List.mem_append, hmem] at hn
        rw [List.cons_append, List.mem_cons, List.mem_append]
        tauto
      · obtain ⟨hnodup, hsubset⟩ := ih ht
        exact ⟨hnodup, List.subset_cons_of_subset name hsubset⟩

lemma styleOf?_eq_some_iff {explicit : StyleMap} {dynamic : Bool} : styleOf? explicit dynamic t name = some s ↔
    explicit.get? name = some s ∨
      explicit.get? name = none ∧ dynamic = true ∧ ∃ i, t.names.idxOf? name = some i ∧ StyleTable.styleAt i = s := by
  rw [styleOf?, Option.or_eq_some_iff]
  cases dynamic with
  | false => simp
  | true => simp

/-- The tables lead the style of a name back to a name that is configured to have it, which is the same one if the
explicit styles keep apart. -/
lemma exists_nameOf? {explicit : StyleMap} {dynamic : Bool} {t' : StyleTable} (hordered : explicit.Ordered)
    (hbegins : t.names <+: t'.names) (hlength : t.names.length ≤ StyleTable.capacity)
    (hstyle : Highlighter.styleOf? explicit dynamic t name = some s) :
    ∃ found, (explicit.nameOf? s).or (t'.nameOf? s) = some found ∧
      Highlighter.styleOf? explicit dynamic t found = some s ∧ (explicit.Apart → found = name) := by
  cases hlookup : explicit.nameOf? s with
  | some found =>
    have hmem := StyleMap.mem_of_nameOf? hlookup
    refine ⟨found, rfl, styleOf?_eq_some_iff.mpr (.inl (hordered.get?_eq_some_iff.mpr hmem)), fun hapart => ?_⟩
    rcases styleOf?_eq_some_iff.mp hstyle with hexplicit | ⟨-, -, i, hi, rfl⟩
    · have hname := hordered.get?_eq_some_iff.mp hexplicit
      exact congrArg Prod.fst (List.inj_on_of_nodup_map hapart.nodup hmem hname rfl)
    · have hlt := (List.idxOf?_eq_some_iff.mp hi).1
      exact absurd (StyleTable.styleAt_topByte (hlt.trans_le hlength)) (hapart.topByte (found, StyleTable.styleAt i) hmem)
  | none =>
    rcases styleOf?_eq_some_iff.mp hstyle with hexplicit | ⟨-, -, i, hi, rfl⟩
    · have hmem := List.mem_map_of_mem (f := Prod.snd) (hordered.get?_eq_some_iff.mp hexplicit)
      exact absurd hmem (StyleMap.nameOf?_eq_none_iff.mp hlookup)
    · obtain ⟨hlt, rfl, -⟩ := List.idxOf?_eq_some_iff.mp hi
      refine ⟨t.names[i], ?_, hstyle, fun _ => rfl⟩
      rw [Option.none_or, StyleTable.nameOf?_styleAt (hlt.trans_le hlength)]
      exact List.prefix_iff_getElem?.mp hbegins i hlt

end

section
variable [RegexEngine] {config : HighlightConfig} {h : Highlighter} {name : String}

lemma ofConfig_table (hconfig : ofConfig config = .ok h) :
    h.table.names.Nodup ∧ h.table.names ⊆ h.highlights.captureNames := by
  have hnames := stylesOf_names (t := .empty) config.styles config.dynamicStyles h.highlights.captureNames List.nodup_nil
  rw [(ofConfig_stylesOf hconfig).2] at hnames
  simpa [StyleTable.empty] using hnames

/-- A capture of the given name has a style, and the interval is that of its node. -/
def Produces (h : Highlighter) (text : String) (name : String) (i : Interval) : Prop :=
  ∃ m ∈ h.highlights.matchesIn text.toUTF8 none (Tree.parse text).root, ∃ c ∈ m.captures,
    h.highlights.captureNames[c.index]? = some name ∧
      ∃ style, h.styles[c.index]?.join = some style ∧ intervalOf? (.ofText text) style c.node = some i

lemma mem_intervals_iff_produces (hconfig : ofConfig config = .ok h) (text : String) (i : Interval) :
    i ∈ h.intervals (.parse text) ↔ ∃ name, h.Produces text name i := by
  rw [mem_intervals]
  constructor
  · rintro ⟨m, hm, c, hc, style, hstyle, hi⟩
    have hindex : ∃ o, h.styles[c.index]? = some o := by
      cases hget : h.styles[c.index]? with
      | none =>
        rw [hget] at hstyle
        cases hstyle
      | some o => exact ⟨o, rfl⟩
    obtain ⟨o, ho⟩ := hindex
    rw [(ofConfig_styles hconfig).2, List.getElem?_map, Option.map_eq_some_iff] at ho
    obtain ⟨name, hname, -⟩ := ho
    exact ⟨name, m, hm, c, hc, hname, style, hstyle, hi⟩
  · rintro ⟨name, m, hm, c, hc, -, style, hstyle, hi⟩
    exact ⟨m, hm, c, hc, style, hstyle, hi⟩

lemma Produces.styleOf? (hconfig : ofConfig config = .ok h) {text : String} {i : Interval} (hi : h.Produces text name i) :
    Highlighter.styleOf? config.styles config.dynamicStyles h.table name = some i.style := by
  obtain ⟨m, -, c, -, hname, style, hstyle, hi⟩ := hi
  rw [(ofConfig_styles hconfig).2, List.getElem?_map, hname] at hstyle
  rw [intervalOf?] at hi
  split at hi
  · obtain rfl := Option.some.inj hi
    exact hstyle
  · cases hi

end

end Highlighter

namespace Session

section
variable [RegexEngine]

lemma Follows.table_prefix {h : Highlighter} {s : Session} (hs : Follows h s) :
    h.table.names <+: s.highlighter.table.names := by
  induction hs with
  | start => exact List.prefix_refl _
  | process text version _ ih =>
    rw [Session.process]
    split
    · exact ih
    · exact ih
  | allocateStyle name _ ih => exact ih.trans (StyleTable.allocate_spec _ name).1

/-- The name that a session finds for the style of an interval is one that is configured to have this style, as long as
the captures do not run out of styles. If the explicit styles differ from each other and from all that can be allocated,
it is the name of the one capture that the interval comes from. -/
theorem process_names {config : HighlightConfig} {h : Highlighter} {s : Session} {version : Nat} (text : String)
    (hconfig : Highlighter.ofConfig config = .ok h) (hordered : config.styles.Ordered)
    (hcount : h.highlights.captureNames.toFinset.card ≤ 2 ^ 24 - 1) (hs : Follows h s)
    (hversion : s.version ≠ some version) :
    ∃ is others, (s.process text version).1 = .styles config.layer is :: others ∧
      (∀ i, i ∈ is ↔ ∃ name, h.Produces text name i) ∧
      ∀ i ∈ is, ∃ name, (s.process text version).2.highlighter.nameOf? i.style = some name ∧
        Highlighter.styleOf? config.styles config.dynamicStyles h.table name = some i.style ∧
        (config.styles.Apart → h.Produces text name i ∧ ∀ other, h.Produces text other i → other = name) := by
  obtain ⟨hlayer, -⟩ := Highlighter.ofConfig_stylesOf hconfig
  obtain ⟨hnodup, hsubset⟩ := Highlighter.ofConfig_table hconfig
  have hlength : h.table.names.length ≤ StyleTable.capacity := (length_le_card hnodup hsubset).trans hcount
  have hafter := Follows.process text version hs
  have hprocess : (s.process text version).1 = .styles config.layer (h.intervals (.parse text)) ::
      (h.edits (.parse text)).tail := by
    rw [hs.edits_eq text hversion, ← hlayer]
    rfl
  have hmem := Highlighter.mem_intervals_iff_produces hconfig text
  refine ⟨_, _, hprocess, hmem, fun i hi => ?_⟩
  obtain ⟨name, hname⟩ := (hmem i).mp hi
  have hlookup : (s.process text version).2.highlighter.nameOf? i.style = (config.styles.nameOf? i.style).or
      ((s.process text version).2.highlighter.table.nameOf? i.style) := by
    rw [Highlighter.nameOf?, hafter.highlighter_eq, hlayer]
  have hfind {n : String} (hn : h.Produces text n i) :=
    Highlighter.exists_nameOf? hordered hafter.table_prefix hlength (hn.styleOf? hconfig)
  obtain ⟨found, hfound, hstyle, hsame⟩ := hfind hname
  refine ⟨found, hlookup.trans hfound, hstyle, fun hapart => ⟨hsame hapart ▸ hname, fun other hother => ?_⟩⟩
  obtain ⟨found', hfound', -, hsame'⟩ := hfind hother
  rw [← hsame' hapart]
  exact Option.some.inj (hfound'.symm.trans hfound)

end

/-- Comments have the style that is allocated to strings as well: the style of a string leads to the name for comments. -/
theorem process_names_collision : ∃ h is others name, Highlighter.ofConfig { HighlightConfig.ofQuery
      "(comment) @c (string) @s" with styles := StyleMap.empty.insert "c" 0x05000001, dynamicStyles := true } = .ok h ∧
    ((Session.start h).process "\"a\"\n" 0).1 = .styles 1 is :: others ∧ is = [⟨0, 3, 0x05000001⟩] ∧
      ((Session.start h).process "\"a\"\n" 0).2.highlighter.nameOf? 0x05000001 = some name ∧ name = "c" ∧
      Highlighter.styleOf? (StyleMap.empty.insert "c" 0x05000001) true h.table name = some 0x05000001 := by
  have hcompiled : (Highlighter.ofConfig { HighlightConfig.ofQuery "(comment) @c (string) @s" with
      styles := StyleMap.empty.insert "c" 0x05000001, dynamicStyles := true }).map
        (fun h => (h.highlights.captureNames, h.intervals (.parse "\"a\"\n"), h.nameOf? 0x05000001)) =
      .ok (["c", "s"], [⟨0, 3, 0x05000001⟩], some "c") := by
    decide +kernel
  cases hconfig : Highlighter.ofConfig { HighlightConfig.ofQuery "(comment) @c (string) @s" with
      styles := StyleMap.empty.insert "c" 0x05000001, dynamicStyles := true } with
  | error e =>
    rw [hconfig] at hcompiled
    cases hcompiled
  | ok h =>
    rw [hconfig] at hcompiled
    obtain ⟨hnames, hrest⟩ := Prod.mk.inj (Except.ok.inj hcompiled)
    obtain ⟨hintervals, hname⟩ := Prod.mk.inj hrest
    have hcount : h.highlights.captureNames.toFinset.card ≤ 2 ^ 24 - 1 := by
      rw [hnames]
      decide
    have hversion : (Session.start h).version ≠ some 0 := by simp [Session.start]
    obtain ⟨is, others, hedits, -, hfound⟩ := process_names "\"a\"\n" hconfig
      (StyleMap.ordered_empty.insert "c" 0x05000001) hcount .start hversion
    have his : .styles h.config.layer (h.intervals (.parse "\"a\"\n")) = Edit.styles 1 is := (List.cons.inj hedits).1
    rw [hintervals, Edit.styles.injEq] at his
    obtain ⟨name, hlookup, hstyle, -⟩ := hfound ⟨0, 3, 0x05000001⟩ (his.2 ▸ List.mem_singleton_self _)
    exact ⟨h, is, others, name, rfl, hedits, his.2.symm, hlookup, Option.some.inj (hlookup.symm.trans hname), hstyle⟩

end Session

end RenpyScript
