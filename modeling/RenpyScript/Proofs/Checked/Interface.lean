import RenpyScript.Checked.Interface
import RenpyScript.Host
import RenpyScript.Proofs.Arena.Places
import RenpyScript.Proofs.Arena.Rendering
import RenpyScript.Proofs.Tree.Controls

/-!
# What C programs are given

A call for a tree refuses what is no UTF-8 and memory that is not there, and nothing else, as the parser does not fail.
Every tree is rendered without a NUL, so the texts that are handed out are found in memory in full, whatever
characters the script has.
-/

namespace RenpyScript

lemma fromUTF8?_eq_some_iff {bytes : ByteArray} {text : String} :
    String.fromUTF8? bytes = some text ↔ text.toUTF8 = bytes := by
  unfold String.fromUTF8?
  constructor
  · intro h
    split at h
    · obtain rfl := Option.some.inj h
      rfl
    · cases h
  · rintro rfl
    exact dif_pos text.isValidUTF8

lemma fromUTF8?_eq_none_iff {bytes : ByteArray} :
    String.fromUTF8? bytes = none ↔ ∀ text : String, text.toUTF8 ≠ bytes := by
  simp only [Option.eq_none_iff_forall_ne_some, ne_eq, fromUTF8?_eq_some_iff]

lemma toByteArray_utf8 (text : String) : (utf8 text.toList).toByteArray = text.toUTF8 := by
  change text.toList.utf8Encode = text.toByteArray
  rw [← String.toByteArray_ofList, String.ofList_toList]

namespace CString

lemma exists_of_freeOfControls {text : String} (h : FreeOfControls text) :
    ∃ s, ofString? text = some s ∧ read? s.memory = some text := by
  refine ⟨⟨utf8 text.toList, h.zero_notMem⟩, dif_neg h.zero_notMem, fromUTF8?_eq_some_iff.mpr ?_⟩
  have hall : ∀ b ∈ utf8 text.toList, decide (b ≠ 0) = true := by
    intro b hb
    exact decide_eq_true fun hzero => h.zero_notMem (hzero ▸ hb)
  rw [memory, List.takeWhile_append_of_pos hall, List.takeWhile_cons_of_neg (by decide), List.append_nil,
    toByteArray_utf8]

end CString

/-! ## Texts that are handed out -/

/-- The entries are those of a tree, which has the same grammar and text. -/
structure StoredTree.Represents (t : StoredTree) (u : Tree) : Prop where
  language : t.language = u.language
  text : t.text = u.text
  arena : t.arena.Represents u
  field : u.root.field = none

namespace Interface

/-- A call gives a pointer that is not null, and a C program finds the text there. -/
def HandsOut (answer : Option (Option CString)) (text : String) : Prop :=
  ∃ s, answer = some (some s) ∧ CString.read? s.memory = some text

section
variable {t : StoredTree} {u : Tree}

lemma sexp?_handsOut (h : t.Represents u) : HandsOut (sexp? (some t)) u.root.sexp := by
  obtain ⟨s, hs, hread⟩ := CString.exists_of_freeOfControls u.root.freeOfControls_sexp
  refine ⟨s, ?_, hread⟩
  rw [sexp?, (h.arena.renders h.field).1, Option.bind_eq_bind, Option.bind_some, hs]
  rfl

lemma json?_handsOut [JsonWriter] {written : String} (h : t.Represents u)
    (hwrite : JsonWriter.write u.toJson = some written) (htext : u.toJson.Written written) :
    HandsOut (json? (some t)) written := by
  obtain ⟨s, hs, hread⟩ := CString.exists_of_freeOfControls htext.freeOfControls
  refine ⟨s, ?_, hread⟩
  rw [json?, (h.arena.renders h.field).2, Option.bind_eq_bind, Option.bind_some, hwrite, Option.bind_some, hs]
  rfl

end

end Interface

namespace Host
variable {text : String} {t : Tree}

lemma handOut?_eq (h : FreeOfControls text) : handOut? text = some text := by
  have hnul : '\x00' ∉ text.toList := h.nul_notMem
  rw [handOut?, if_neg (by simpa using hnul)]

lemma sexp?_eq (t : Tree) : sexp? (some t) = some t.root.sexp :=
  handOut?_eq t.root.freeOfControls_sexp

lemma json?_eq [JsonWriter] {written : String} (hwrite : JsonWriter.write t.toJson = some written)
    (htext : t.toJson.Written written) : json? (some t) = some written := by
  rw [json?, Option.bind_some, hwrite, Option.bind_some, handOut?_eq htext.freeOfControls]

end Host

/-! ## Calls for a tree -/

namespace Host
variable {pointer : Option ByteArray} {length : Nat}

/-- The bytes at a pointer. At a null pointer there are none. -/
def bytesFrom (pointer : Option ByteArray) (length : Nat) : ByteArray :=
  (pointer.getD .empty).extract 0 length

/-- Without bytes a null pointer is as good as any, and no text is refused. -/
lemma parse?_renpy (pointer : Option ByteArray) (length : Nat) : parse? (some .renpy) pointer length =
    if pointer = none ∧ length ≠ 0 then none else (String.fromUTF8? (bytesFrom pointer length)).map Tree.parse := by
  have hread : ∀ b : ByteArray, (String.fromUTF8? b).bind (fun text =>
      (Parser.empty.setLanguage .renpy).toOption.bind fun parser => parser.parse? text) =
      (String.fromUTF8? b).map Tree.parse := by
    intro b
    cases String.fromUTF8? b with
    | none => rfl
    | some text => rfl
  rw [← hread]
  by_cases hlength : length = 0
  · subst hlength
    rw [if_neg (by simp), bytesFrom]
    cases pointer with
    | none => rfl
    | some memory => simp [parse?]
  · simp only [parse?, if_neg hlength]
    cases pointer with
    | none => simp [hlength]
    | some memory => simp [hlength, bytesFrom]

lemma parse?_eq_some_iff : parse? (some .renpy) pointer length = some t ↔ ¬(pointer = none ∧ length ≠ 0) ∧
    ∃ text : String, text.toUTF8 = bytesFrom pointer length ∧ Tree.parse text = t := by
  rw [parse?_renpy, Option.ite_none_left_eq_some]
  simp only [Option.map_eq_some_iff, fromUTF8?_eq_some_iff]

lemma parse?_eq_none_iff : parse? (some .renpy) pointer length = none ↔ pointer = none ∧ length ≠ 0 ∨
    ∀ text : String, text.toUTF8 ≠ bytesFrom pointer length := by
  rw [parse?_renpy, ite_eq_left_iff, Option.map_eq_none_iff, fromUTF8?_eq_none_iff, or_iff_not_imp_left]

end Host

namespace Interface

/-- The parser does not fail, so there is a tree unless the grammar or the bytes are refused. -/
lemma parseBytes?_rel (language : Language) (given : ByteArray) :
    Option.Rel StoredTree.Represents (parseBytes? language given) (do
      let text ← String.fromUTF8? given
      let parser ← (Parser.empty.setLanguage language).toOption
      parser.parse? text) := by
  rw [parseBytes?]
  simp only [Option.bind_eq_bind]
  cases String.fromUTF8? given with
  | none => exact .none
  | some text =>
    rw [Option.bind_some, Option.bind_some]
    cases (Parser.empty.setLanguage language).toOption with
    | none => exact .none
    | some parser =>
      rw [Option.bind_some, Option.bind_some, Parser.parse?]
      cases parser.language with
      | none => exact .none
      | some l =>
        obtain ⟨r, hparse, hr⟩ := Descent.parse_represents text
        rw [Option.bind_some, hparse]
        exact .some ⟨rfl, rfl, ⟨hr.toWhole, hr.denotes⟩, rfl⟩

/-- If the memory is as long as promised, a call comes to the same as reading from bytes that are cut off. -/
lemma parse?_rel (handle : Option Language) {pointer : Option ByteArray} {length : Nat}
    (h : ∀ b, pointer = some b → length ≤ b.size) : ∃ o, parse? handle pointer length = some o ∧
      Option.Rel StoredTree.Represents o (Host.parse? handle pointer length) := by
  have hgiven : given? pointer length =
      some (if length = 0 then some .empty else pointer.map (·.extract 0 length)) := by
    unfold given?
    split
    · rfl
    · cases pointer with
      | none => rfl
      | some memory => exact if_pos (h memory rfl)
  cases handle with
  | none => exact ⟨none, rfl, .none⟩
  | some language =>
    refine ⟨_, by rw [parse?, hgiven]; rfl, ?_⟩
    by_cases hlength : length = 0
    · subst hlength
      exact parseBytes?_rel language .empty
    · simp only [Host.parse?, if_neg hlength]
      cases pointer with
      | none => exact .none
      | some memory => exact parseBytes?_rel language (memory.extract 0 length)

/-- A call for a tree gives a null pointer if and only if it is given one with a length that is not zero, or bytes that
are no UTF-8. Otherwise the S-expression of the tree and what the writer makes of its JSON are handed out in full, whatever
characters are in the script. The caller sees to it that the memory is as long as the length says. -/
theorem parse_renders [JsonWriter] (hsound : JsonWriter.Sound) (pointer : Option ByteArray) (length : Nat)
    (h : ∀ b, pointer = some b → length ≤ b.size) :
    ∃ o, parse? (some .renpy) pointer length = some o ∧
      (o = none ↔ Host.parse? (some .renpy) pointer length = none) ∧
      (o = none ↔ pointer = none ∧ length ≠ 0 ∨
        ∀ text : String, text.toUTF8 ≠ (pointer.getD .empty).extract 0 length) ∧
      (o ≠ none → ∃ text : String, text.toUTF8 = (pointer.getD .empty).extract 0 length ∧
        HandsOut (sexp? o) (Tree.parse text).root.sexp ∧
        Host.sexp? (Host.parse? (some .renpy) pointer length) = some (Tree.parse text).root.sexp ∧
        ∃ written, JsonWriter.write (Tree.parse text).toJson = some written ∧ HandsOut (json? o) written ∧
          Host.json? (Host.parse? (some .renpy) pointer length) = some written) := by
  obtain ⟨o, hcall, hrel⟩ := parse?_rel (some .renpy) h
  have hnull : o = none ↔ Host.parse? (some .renpy) pointer length = none := by
    rcases rel_cases hrel with ⟨rfl, hparse⟩ | ⟨t, u, rfl, hparse, -⟩ <;> simp [hparse]
  refine ⟨o, hcall, hnull, hnull.trans Host.parse?_eq_none_iff, fun hne => ?_⟩
  rcases rel_cases hrel with ⟨rfl, -⟩ | ⟨t, u, rfl, hparse, ht⟩
  · exact absurd rfl hne
  · obtain ⟨-, text, hbytes, rfl⟩ := Host.parse?_eq_some_iff.mp hparse
    obtain ⟨written, hwrite, htext⟩ := hsound (Tree.parse text).toJson
    rw [hparse]
    exact ⟨text, hbytes, sexp?_handsOut ht, Host.sexp?_eq _, written, hwrite, json?_handsOut ht hwrite htext,
      Host.json?_eq hwrite htext⟩

/-- A string with a NUL in it, whose closing quote is missing. -/
theorem parse_renders_nul : JsonWriter.Sound ∧ (∀ b, some "\"\x00\n".toUTF8 = some b → 3 ≤ b.size) ∧
    ∃ o, parse? (some .renpy) (some "\"\x00\n".toUTF8) 3 = some o ∧ o ≠ none ∧
      HandsOut (sexp? o) "(source_file (string (MISSING \"\\\"\")))" ∧
      HandsOut (json? o) (Tree.parse "\"\x00\n").toJson.compact := by
  have hsize : ∀ b, some "\"\x00\n".toUTF8 = some b → 3 ≤ b.size := by
    rintro b ⟨⟩
    decide
  refine ⟨Json.compact_sound, hsize, ?_⟩
  obtain ⟨o, hcall, -, hnull, hrenders⟩ := parse_renders Json.compact_sound (some "\"\x00\n".toUTF8) 3 hsize
  have hbytes : "\"\x00\n".toUTF8 = (Option.getD (some "\"\x00\n".toUTF8) .empty).extract 0 3 := by decide
  have hne : o ≠ none := by
    intro ho
    rcases hnull.mp ho with ⟨hnone, -⟩ | hall
    · cases hnone
    · exact hall _ hbytes
  have htree : (Tree.parse "\"\x00\n").root.sexp = "(source_file (string (MISSING \"\\\"\")))" := by
    decide +kernel
  obtain ⟨text, htext, hsexp, -, written, hwrite, hjson, -⟩ := hrenders hne
  obtain rfl : text = "\"\x00\n" := String.toByteArray_inj.mp (htext.trans hbytes.symm)
  rw [htree] at hsexp
  obtain rfl := Option.some.inj hwrite
  exact ⟨o, hcall, hne, hsexp, hjson⟩

end Interface

end RenpyScript
