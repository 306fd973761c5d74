import Mathlib.Data.List.Basic
import RenpyScript.Checked.StyleTables
import RenpyScript.Proofs.Highlight.Styles

/-!
# Two tables for the styles of names

The hash table and the list say the same: a name has the style of its place in the list. Calls add to both and change
nothing that is there, so a style stays with its name. As long as the numbers of names fit into three bytes, words are
put together and taken apart as numbers are, and the mapper does what a `StyleTable` does.
-/

namespace RenpyScript

namespace StyleMapper

/-- The style of the name at a place in the list. -/
def styleAt (i : Nat) : UInt32 :=
  base ||| (UInt32.ofNat i + 1)

def table (m : StyleMapper) : StyleTable :=
  ⟨m.names⟩

/-- The two tables say the same. -/
structure InStep (m : StyleMapper) : Prop where
  nodup : m.names.Nodup
  lookup : ∀ name, m.styles[name]? = (m.names.idxOf? name).map styleAt

section
variable {m m' : StyleMapper} {name n : String} {calls : List String} {style s : UInt32} {styles : List UInt32} {i : Nat}

/-! ## Words -/

lemma toNat_styleAt (h : i < StyleTable.capacity) : (styleAt i).toNat = StyleTable.styleAt i := by
  have hnumber : (UInt32.ofNat i + 1).toNat = i + 1 := by
    rw [StyleTable.capacity] at h
    rw [UInt32.toNat_add, UInt32.toNat_ofNat', UInt32.toNat_one]
    omega
  rw [styleAt, UInt32.toNat_or, hnumber]
  rfl

lemma toNat_low (s : UInt32) : (s &&& 0x00FFFFFF).toNat = s.toNat % 2 ^ 24 := by
  rw [UInt32.toNat_and]
  exact Nat.and_two_pow_sub_one_eq_mod s.toNat 24

lemma land_shiftLeft (x mask place : Nat) : x &&& (mask <<< place) = ((x >>> place) &&& mask) <<< place := by
  refine Nat.eq_of_testBit_eq fun k => ?_
  rw [Nat.testBit_and, Nat.testBit_shiftLeft, Nat.testBit_shiftLeft, Nat.testBit_and, Nat.testBit_shiftRight]
  by_cases hk : place ≤ k
  · simp [hk]
  · simp [hk]

lemma toNat_high (s : UInt32) : (s &&& 0xFF000000).toNat = (s.toNat >>> 24) <<< 24 := by
  have hbyte : s.toNat >>> 24 < 2 ^ 8 := by
    have hlt := s.toNat_lt
    rw [Nat.shiftRight_eq_div_pow]
    omega
  have hmask : (0xFF000000 : UInt32).toNat = (2 ^ 8 - 1) <<< 24 := rfl
  rw [UInt32.toNat_and, hmask, land_shiftLeft, Nat.and_two_pow_sub_one_eq_mod, Nat.mod_eq_of_lt hbyte]

lemma high_eq_base_iff (s : UInt32) : s &&& 0xFF000000 = base ↔ s.toNat >>> 24 = 0x05 := by
  rw [← UInt32.toNat_inj, toNat_high, show base.toNat = 0x05 <<< 24 from rfl, Nat.shiftLeft_eq, Nat.shiftLeft_eq]
  omega

lemma nameOf?_eq (m : StyleMapper) (s : UInt32) : m.nameOf? s = m.table.nameOf? s.toNat := by
  rw [nameOf?, StyleTable.nameOf?, show StyleTable.base >>> 24 = 0x05 from rfl]
  by_cases htop : s.toNat >>> 24 = 0x05
  · rw [if_pos ((high_eq_base_iff s).mpr htop), if_pos htop, toNat_low, checkedSub]
    cases hlow : s.toNat % 2 ^ 24 with
    | zero => rfl
    | succ i => rfl
  · rw [if_neg (mt (high_eq_base_iff s).mp htop), if_neg htop]

/-! ## Calls -/

lemma inStep_empty : empty.InStep :=
  ⟨List.nodup_nil, fun _ => Std.HashMap.getElem?_empty⟩

lemma styleFor_of_some (h : m.styles[name]? = some s) : m.styleFor name = some (s, m) := by
  rw [styleFor, h]

lemma InStep.style_iff (hm : m.InStep) : m.styles[name]? = some s ↔ ∃ i, m.names[i]? = some name ∧ styleAt i = s := by
  rw [hm.lookup, Option.map_eq_some_iff]
  refine exists_congr fun i => and_congr_left fun _ => ?_
  rw [List.idxOf?_eq_some_iff]
  constructor
  · rintro ⟨hi, rfl, -⟩
    exact List.getElem?_eq_getElem hi
  · intro hi
    obtain ⟨hlt, rfl⟩ := List.getElem?_eq_some_iff.mp hi
    refine ⟨hlt, rfl, fun j hj heq => ?_⟩
    exact absurd ((List.Nodup.getElem_inj_iff hm.nodup).mp heq) (Nat.ne_of_lt hj)

lemma InStep.styleFor_new (hm : m.InStep) (hname : name ∉ m.names) (hroom : m.names.length < StyleTable.capacity) :
    m.styleFor name = some (styleAt m.names.length,
      ⟨m.styles.insert name (styleAt m.names.length), m.names ++ [name]⟩) := by
  have hlookup : m.styles[name]? = none := by
    rw [hm.lookup, List.idxOf?_eq_none_iff.mpr hname, Option.map_none]
  have hnumber : m.nextNumber? = some (UInt32.ofNat m.names.length + 1) := by
    rw [StyleTable.capacity] at hroom
    refine if_neg fun hfull => ?_
    have htoNat := congrArg UInt32.toNat hfull
    rw [UInt32.toNat_ofNat'] at htoNat
    change m.names.length % 2 ^ 32 = 2 ^ 32 - 1 at htoNat
    omega
  rw [styleFor, hlookup]
  dsimp only
  rw [hnumber]
  rfl

/-- A name that is added gets the style of its place, and the other places stay as they are. -/
lemma InStep.add (hm : m.InStep) (hname : name ∉ m.names) :
    InStep ⟨m.styles.insert name (styleAt m.names.length), m.names ++ [name]⟩ := by
  refine ⟨?_, fun n => ?_⟩
  · rw [← List.concat_eq_append]
    exact hm.nodup.concat hname
  · dsimp only
    have happend : (m.names ++ [name]).idxOf? n =
        (m.names.idxOf? n).or (([name].idxOf? n).map (· + m.names.length)) := List.findIdx?_append
    rw [Std.HashMap.getElem?_insert, happend, hm.lookup]
    by_cases hn : name = n
    · subst hn
      rw [List.idxOf?_eq_none_iff.mpr hname]
      simp
    · have hother : [name].idxOf? n = none := List.idxOf?_eq_none_iff.mpr (by simpa using Ne.symm hn)
      rw [if_neg (by simpa using hn), hother, Option.map_none, Option.or_none]

lemma InStep.styleFor (hm : m.InStep) (hroom : (m.names ++ [name]).toFinset.card ≤ StyleTable.capacity) :
    ∃ s m', m.styleFor name = some (s, m') ∧ m'.InStep ∧ m'.styles[name]? = some s ∧
      m.table.allocate name = (s.toNat, m'.table) := by
  cases hidx : m.names.idxOf? name with
  | some i =>
    have hi : i < m.names.length := (List.idxOf?_eq_some_iff.mp hidx).1
    have hlength := length_le_card hm.nodup (List.subset_append_left m.names [name])
    have hstyle : m.styles[name]? = some (styleAt i) := by rw [hm.lookup, hidx, Option.map_some]
    refine ⟨styleAt i, m, styleFor_of_some hstyle, hm, hstyle, ?_⟩
    rw [StyleTable.allocate, table, hidx, toNat_styleAt (by omega)]
  | none =>
    have hname : name ∉ m.names := List.idxOf?_eq_none_iff.mp hidx
    have hadded := hm.add hname
    have hlength := length_le_card hadded.nodup (List.Subset.refl _)
    dsimp only at hlength
    rw [List.length_append, List.length_singleton] at hlength
    have hlt : m.names.length < StyleTable.capacity := by omega
    refine ⟨styleAt m.names.length, _, hm.styleFor_new hname hlt, hadded, ?_, ?_⟩
    · exact Std.HashMap.getElem?_insert_self
    · rw [StyleTable.allocate, table, hidx, toNat_styleAt hlt]
      rfl

lemma styleFor_keeps (h : m.styleFor name = some (style, m')) (hs : m.styles[n]? = some s) : m'.styles[n]? = some s := by
  rw [StyleMapper.styleFor] at h
  split at h
  · obtain ⟨-, rfl⟩ := Prod.mk.inj (Option.some.inj h)
    exact hs
  · next hnew =>
    obtain ⟨number, -, h⟩ := Option.bind_eq_some_iff.mp h
    obtain ⟨-, rfl⟩ := Prod.mk.inj (Option.some.inj h)
    have hne : name ≠ n := by
      rintro rfl
      rw [hnew] at hs
      cases hs
    dsimp only
    rw [Std.HashMap.getElem?_insert, if_neg (by simpa using hne), hs]

lemma stylesFor_cons_eq_some_iff : m.stylesFor (name :: calls) = some (styles, m') ↔
    ∃ s m₁ rest, m.styleFor name = some (s, m₁) ∧ m₁.stylesFor calls = some (rest, m') ∧ styles = s :: rest := by
  rw [stylesFor, Option.bind_eq_bind, Option.bind_eq_some_iff]
  constructor
  · rintro ⟨⟨s, m₁⟩, hcall, h⟩
    obtain ⟨⟨rest, m₂⟩, hcalls, h⟩ := Option.bind_eq_some_iff.mp h
    obtain ⟨rfl, rfl⟩ := Prod.mk.inj (Option.some.inj h)
    exact ⟨s, m₁, rest, hcall, hcalls, rfl⟩
  · rintro ⟨s, m₁, rest, hcall, hcalls, rfl⟩
    refine ⟨(s, m₁), hcall, ?_⟩
    dsimp only
    rw [hcalls]
    rfl

lemma stylesFor_keeps (h : m.stylesFor calls = some (styles, m')) (hs : m.styles[n]? = some s) :
    m'.styles[n]? = some s := by
  induction calls generalizing m styles with
  | nil =>
    obtain ⟨-, rfl⟩ := Prod.mk.inj (Option.some.inj h)
    exact hs
  | cons name calls ih =>
    obtain ⟨style, m₁, rest, hcall, hcalls, -⟩ := stylesFor_cons_eq_some_iff.mp h
    exact ih hcalls (styleFor_keeps hcall hs)

/-- Calls return the styles that the mapper has behind them, and do what the allocations in a table do. -/
lemma InStep.stylesFor (hm : m.InStep) (hroom : (m.names ++ calls).toFinset.card ≤ StyleTable.capacity) :
    ∃ styles m', m.stylesFor calls = some (styles, m') ∧ m'.InStep ∧
      List.Forall₂ (fun name s => m'.styles[name]? = some s) calls styles ∧
      Highlighter.stylesOf .empty true m.table calls = (styles.map fun s => some s.toNat, m'.table) := by
  induction calls generalizing m with
  | nil => exact ⟨[], m, rfl, hm, .nil, rfl⟩
  | cons name calls ih =>
    have hfirst : (m.names ++ [name]).toFinset ⊆ (m.names ++ name :: calls).toFinset := by
      intro n
      simp only [List.mem_toFinset, List.mem_append, List.mem_cons, List.not_mem_nil, or_false]
      tauto
    obtain ⟨s, m₁, hcall, hm₁, hs, hallocate⟩ := hm.styleFor ((Finset.card_le_card hfirst).trans hroom)
    have hnames := (m.table.allocate_names hm.nodup name).2
    rw [hallocate] at hnames
    have hrest : (m₁.names ++ calls).toFinset ⊆ (m.names ++ name :: calls).toFinset := by
      intro n
      simp only [List.mem_toFinset, List.mem_append, List.mem_cons]
      rw [show n ∈ m₁.names ↔ n = name ∨ n ∈ m.names from hnames n]
      tauto
    obtain ⟨styles, m', hcalls, hm', hstyles, htable⟩ := ih hm₁ ((Finset.card_le_card hrest).trans hroom)
    refine ⟨s :: styles, m', stylesFor_cons_eq_some_iff.mpr ⟨s, m₁, styles, hcall, hcalls, rfl⟩, hm',
      .cons (stylesFor_keeps hcalls hs) hstyles, ?_⟩
    rw [Highlighter.stylesOf, StyleMap.get?, StyleMap.empty, List.lookup_nil]
    dsimp only
    rw [if_pos rfl, hallocate]
    dsimp only
    rw [← StyleMap.empty, htable]
    rfl

/-! ## Names -/

lemma InStep.nameOf?_eq_some_iff (hm : m.InStep) (hlength : m.names.length ≤ StyleTable.capacity) :
    m.nameOf? s = some name ↔ m.styles[name]? = some s := by
  rw [nameOf?_eq, StyleTable.nameOf?_eq_some_iff, hm.style_iff]
  constructor
  · rintro ⟨i, hi, hname, hstyle⟩
    exact ⟨i, hname, UInt32.toNat_inj.mp ((toNat_styleAt hi).trans hstyle)⟩
  · rintro ⟨i, hname, rfl⟩
    have hi : i < m.names.length := (List.getElem?_eq_some_iff.mp hname).1
    exact ⟨i, hi.trans_le hlength, hname, (toNat_styleAt (hi.trans_le hlength)).symm⟩

lemma InStep.style_bytes (hm : m.InStep) (hlength : m.names.length ≤ StyleTable.capacity)
    (hs : m.styles[name]? = some s) : s >>> 24 = 0x05 ∧ s &&& 0x00FFFFFF ≠ 0 := by
  obtain ⟨i, hname, rfl⟩ := hm.style_iff.mp hs
  have hi : i < StyleTable.capacity := (List.getElem?_eq_some_iff.mp hname).1.trans_le hlength
  constructor
  · rw [← UInt32.toNat_inj, UInt32.toNat_shiftRight, toNat_styleAt hi]
    exact StyleTable.styleAt_topByte hi
  · rw [ne_eq, ← UInt32.toNat_inj, toNat_low, toNat_styleAt hi, StyleTable.styleAt_lowBytes hi]
    exact Nat.succ_ne_zero i

lemma mem_zip_iff (h : List.Forall₂ (fun name s => m.styles[name]? = some s) calls styles) :
    (name, s) ∈ calls.zip styles ↔ name ∈ calls ∧ m.styles[name]? = some s := by
  induction h with
  | nil => simp
  | @cons first style calls styles hstyle _ ih =>
    rw [List.zip_cons_cons, List.mem_cons, List.mem_cons, ih, Prod.mk.injEq]
    constructor
    · rintro (⟨rfl, rfl⟩ | ⟨hname, hs⟩)
      · exact ⟨.inl rfl, hstyle⟩
      · exact ⟨.inr hname, hs⟩
    · rintro ⟨rfl | hname, hs⟩
      · exact .inl ⟨rfl, Option.some.inj (hs.symm.trans hstyle)⟩
      · exact .inr ⟨hname, hs⟩

end

/-- A new mapper answers every sequence of calls that names no more captures than there are numbers in three bytes. The
answers are equal exactly for equal names; they have the fixed top byte and something below it; no call after them gets
another answer for one of the names; and a word leads back to a name if and only if it was the answer for that name. A
`StyleTable` comes to the same. -/
theorem stylesFor_reversible {calls : List String} (h : calls.toFinset.card ≤ 2 ^ 24 - 1) :
    ∃ styles m, empty.stylesFor calls = some (styles, m) ∧ styles.length = calls.length ∧
      (∀ c ∈ calls.zip styles, ∀ d ∈ calls.zip styles, c.2 = d.2 ↔ c.1 = d.1) ∧
      (∀ s ∈ styles, s >>> 24 = 0x05 ∧ s &&& 0x00FFFFFF ≠ 0) ∧
      (∀ later more m', m.stylesFor later = some (more, m') →
        ∀ c ∈ calls.zip styles, m'.styleFor c.1 = some (c.2, m')) ∧
      (∀ s name, m.nameOf? s = some name ↔ (name, s) ∈ calls.zip styles) ∧
      Highlighter.stylesOf .empty true .empty calls = (styles.map fun s => some s.toNat, m.table) ∧
      ∀ s, m.table.nameOf? s.toNat = m.nameOf? s := by
  obtain ⟨styles, m, hcalls, hm, hstyles, htable⟩ := inStep_empty.stylesFor h
  have hnames : m.names ⊆ calls := by
    have hsubset := (Highlighter.stylesOf_names (t := .empty) .empty true calls List.nodup_nil).2
    rw [show StyleTable.empty = empty.table from rfl, htable] at hsubset
    simpa [empty, table] using hsubset
  have hlength : m.names.length ≤ StyleTable.capacity := (length_le_card hm.nodup hnames).trans h
  have hname (s : UInt32) (name : String) : m.nameOf? s = some name ↔ (name, s) ∈ calls.zip styles := by
    rw [hm.nameOf?_eq_some_iff hlength, mem_zip_iff hstyles, iff_and_self]
    intro hs
    obtain ⟨i, hi, -⟩ := hm.style_iff.mp hs
    exact hnames (List.mem_of_getElem? hi)
  refine ⟨styles, m, hcalls, hstyles.length_eq.symm, ?_, ?_, ?_, hname, htable, fun s => (m.nameOf?_eq s).symm⟩
  · intro c hc d hd
    constructor
    · intro heq
      have hfirst := (hname c.2 c.1).mpr hc
      rw [heq, (hname d.2 d.1).mpr hd] at hfirst
      exact (Option.some.inj hfirst).symm
    · intro heq
      have hfirst := ((mem_zip_iff hstyles).mp hc).2
      rw [heq, ((mem_zip_iff hstyles).mp hd).2] at hfirst
      exact (Option.some.inj hfirst).symm
  · intro s hs
    rw [← List.map_snd_zip hstyles.length_eq.ge] at hs
    obtain ⟨c, hc, rfl⟩ := List.mem_map.mp hs
    exact hm.style_bytes hlength ((mem_zip_iff hstyles).mp hc).2
  · intro later more m' hlater c hc
    exact styleFor_of_some (stylesFor_keeps hlater ((mem_zip_iff hstyles).mp hc).2)

/-- A name that comes back gets the style it has. -/
theorem stylesFor_reversible_keyword : ["keyword", "string", "keyword"].toFinset.card ≤ 2 ^ 24 - 1 ∧
    ∃ styles m, empty.stylesFor ["keyword", "string", "keyword"] = some (styles, m) ∧
      styles = [0x05000001, 0x05000002, 0x05000001] ∧ m.nameOf? 0x05000002 = some "string" ∧
      m.nameOf? 0x05000003 = none := by
  have hcard : ["keyword", "string", "keyword"].toFinset.card ≤ 2 ^ 24 - 1 := by decide
  obtain ⟨styles, m, hcalls, -, -, -, -, hname, htable, -⟩ := stylesFor_reversible hcard
  have hnumbers : styles.map (fun s => some s.toNat) =
      [0x05000001, 0x05000002, 0x05000001].map (fun s : UInt32 => some s.toNat) :=
    (congrArg Prod.fst htable).symm.trans (by decide)
  have hstyles : styles = [0x05000001, 0x05000002, 0x05000001] :=
    List.map_injective_iff.mpr (fun _ _ heq => UInt32.toNat_inj.mp (Option.some.inj heq)) hnumbers
  subst hstyles
  refine ⟨hcard, _, m, hcalls, rfl, (hname _ _).mpr (by decide), Option.eq_none_iff_forall_ne_some.mpr fun name => ?_⟩
  rw [ne_eq, hname]
  simp

end StyleMapper

end RenpyScript
