import Mathlib.Data.List.Basic
import Mathlib.Data.List.Induction
import RenpyScript.Highlight.Processor
import RenpyScript.Regex.Engine

/-!
# What a processor remembers

The parts of a processor are written in several places, and `Processor.InStep` says how they hang together: the version
is that of the last call, there is a tree as soon as there was a call, and the conversions are those for the text of the
tree. So nothing of an older document gets into the edits for a newer one.
-/

namespace RenpyScript

section
variable [RegexEngine]

/-- The session after a run of calls, each with a text and its version. -/
def Session.after (s : Session) (calls : List (String × Nat)) : Session :=
  calls.foldl (fun s call => (s.process call.1 call.2).2) s

namespace Processor

/-- The parts of a processor as they are after a run of calls. -/
structure InStep (h : Highlighter) (calls : List (String × Nat)) (p : Processor) : Prop where
  highlighter : p.highlighter = h
  parser : p.parser = ⟨some .renpy⟩
  version : p.version = calls.getLast?.map (·.2)
  tree : p.tree.isNone = true ↔ calls = []
  index : p.index = (p.tree.map fun t => LineIndex.ofText t.text).getD .empty

/-- A processor shows the same as a session. -/
structure Shows (p : Processor) (s : Session) : Prop where
  highlighter : p.highlighter = s.highlighter
  tree : p.tree = s.tree
  index : p.index = s.lineIndex
  version : p.version = s.version
  mode : p.mode = s.mode

section
variable {h : Highlighter} {calls : List (String × Nat)} {p : Processor} {s : Session} {text : String} {version : Nat}

lemma edits_eq {t : Tree} (hindex : p.index = .ofText t.text) : p.edits t = p.highlighter.edits t := by
  rw [edits, Highlighter.edits]
  simp only [intervals, errorIntervals, Highlighter.intervals, Highlighter.errorIntervals, hindex]

lemma process_of_version (hversion : p.version = some version) :
    p.process text version = ([], { p with mode := .skipped }) := by
  rw [process, if_pos hversion]

lemma process_of_ne_version (hparser : p.parser = ⟨some .renpy⟩) (hversion : p.version ≠ some version) :
    p.process text version = (p.highlighter.edits (.parse text), { p with
      tree := some (.parse text), index := .ofText text, version := some version,
      mode := if p.tree.isNone then .initial else .fullReparse }) := by
  obtain ⟨highlighter, parser, tree, index, version, mode⟩ := p
  subst hparser
  rw [process, if_neg hversion]
  exact Prod.ext (edits_eq rfl) rfl

lemma process_start (h : Highlighter) (text : String) (version : Nat) :
    ((start h).process text version).1 = h.edits (.parse text) := by
  rw [process_of_ne_version rfl (by simp [start])]
  rfl

lemma InStep.process_eq (hp : p.InStep h calls) (text : String) (hversion : p.version ≠ some version) :
    p.process text version = (h.edits (.parse text), ⟨h, p.parser, some (.parse text), .ofText text, some version,
      if calls = [] then .initial else .fullReparse⟩) := by
  have hfirst : p.tree.isNone = true ↔ calls = [] := hp.tree
  rw [process_of_ne_version hp.parser hversion, hp.highlighter]
  simp only [hfirst]

lemma InStep.process (hp : p.InStep h calls) (text : String) (version : Nat) :
    (p.process text version).2.InStep h (calls ++ [(text, version)]) := by
  have hlast : (calls ++ [(text, version)]).getLast?.map (·.2) = some version := by
    rw [List.getLast?_concat, Option.map_some]
  by_cases hversion : p.version = some version
  · rw [process_of_version hversion]
    have hcalls : calls ≠ [] := by
      rintro rfl
      rw [hp.version] at hversion
      cases hversion
    exact ⟨hp.highlighter, hp.parser, hversion.trans hlast.symm, by simpa [hcalls] using hp.tree, hp.index⟩
  · rw [hp.process_eq text hversion]
    exact ⟨rfl, hp.parser, hlast.symm, by simp, rfl⟩

lemma after_concat (p : Processor) (calls : List (String × Nat)) (text : String) (version : Nat) :
    p.after (calls ++ [(text, version)]) = ((p.after calls).process text version).2 := by
  rw [after, List.foldl_concat, after]

lemma after_inStep (h : Highlighter) (calls : List (String × Nat)) : ((start h).after calls).InStep h calls := by
  -- A run is taken apart at its last call, as that is the one whose version is kept.
  induction calls using List.reverseRecOn with
  | nil => exact ⟨rfl, rfl, rfl, by simp [after, start], rfl⟩
  | append_singleton calls call ih =>
    rw [after_concat]
    exact ih.process call.1 call.2

lemma Shows.process (hs : p.Shows s) (hparser : p.parser = ⟨some .renpy⟩) (text : String) (version : Nat) :
    (p.process text version).1 = (s.process text version).1 ∧
      (p.process text version).2.Shows (s.process text version).2 := by
  by_cases hversion : p.version = some version
  · have hsame : s.version = some version := hs.version.symm.trans hversion
    rw [process_of_version hversion, Session.process, if_pos hsame]
    exact ⟨rfl, hs.highlighter, hs.tree, hs.index, hs.version, rfl⟩
  · have hother : s.version ≠ some version := fun hsame => hversion (hs.version.trans hsame)
    rw [process_of_ne_version hparser hversion, Session.process, if_neg hother, ← hs.highlighter, ← hs.tree]
    exact ⟨rfl, rfl, rfl, rfl, rfl, rfl⟩

lemma after_shows (h : Highlighter) (calls : List (String × Nat)) :
    ((start h).after calls).Shows ((Session.start h).after calls) := by
  induction calls using List.reverseRecOn with
  | nil => exact ⟨rfl, rfl, rfl, rfl, rfl⟩
  | append_singleton calls call ih =>
    rw [after_concat, Session.after, List.foldl_concat]
    exact (ih.process (after_inStep h calls).parser call.1 call.2).2

lemma exists_of_ofConfig {config : HighlightConfig} {new : Processor} (hnew : ofConfig config = .ok new) :
    ∃ h, Highlighter.ofConfig config = .ok h ∧ new = start h := by
  rw [ofConfig] at hnew
  cases hh : Highlighter.ofConfig config with
  | error e =>
    rw [hh] at hnew
    cases hnew
  | ok h =>
    rw [hh] at hnew
    exact ⟨h, rfl, (Except.ok.inj hnew).symm⟩

end

/-- A call in a run is skipped if and only if the call before it had the same version: it gives no edits and changes
neither the tree nor the conversions. Every other call gives the edits that a new processor gives for its text, and leaves
the tree and the conversions of that text. A session comes to the same. -/
theorem process_history_free {config : HighlightConfig} {new : Processor} (hnew : ofConfig config = .ok new)
    (calls : List (String × Nat)) (text : String) (version : Nat) :
    let p := new.after calls
    let r := p.process text version
    (r.2.mode = .skipped ↔ calls.getLast?.map (·.2) = some version) ∧
    (r.2.mode = .skipped → r.1 = [] ∧ r.2.tree = p.tree ∧ r.2.index = p.index) ∧
    (r.2.mode ≠ .skipped → r.1 ≠ [] ∧ (∀ version, (new.process text version).1 = r.1) ∧
      r.2.mode = (if calls = [] then .initial else .fullReparse) ∧
      r.2.tree = some (.parse text) ∧ r.2.index = .ofText text) ∧
    ∃ h, Highlighter.ofConfig config = .ok h ∧
      r.1 = (((Session.start h).after calls).process text version).1 ∧
      r.2.Shows (((Session.start h).after calls).process text version).2 := by
  obtain ⟨h, hh, rfl⟩ := exists_of_ofConfig hnew
  have hp := after_inStep h calls
  have hshows := (after_shows h calls).process hp.parser text version
  intro p r
  by_cases hversion : p.version = some version
  · have hr : r = ([], { p with mode := .skipped }) := process_of_version hversion
    refine ⟨?_, ?_, ?_, h, hh, hshows⟩
    · rw [hr, ← hp.version]
      exact ⟨fun _ => hversion, fun _ => rfl⟩
    · rw [hr]
      exact fun _ => ⟨rfl, rfl, rfl⟩
    · rw [hr]
      exact fun hmode => absurd rfl hmode
  · have hr : r = (h.edits (.parse text), ⟨h, p.parser, some (.parse text), .ofText text, some version,
        if calls = [] then .initial else .fullReparse⟩) := hp.process_eq text hversion
    have hnot : r.2.mode ≠ .skipped := by
      rw [hr]
      dsimp only
      split <;> decide
    refine ⟨?_, fun hskipped => absurd hskipped hnot, fun _ => ?_, h, hh, hshows⟩
    · rw [← hp.version]
      exact ⟨fun hskipped => absurd hskipped hnot, fun hsame => absurd hsame hversion⟩
    · rw [hr]
      exact ⟨List.cons_ne_nil _ _, process_start h text, rfl, rfl, rfl⟩

end Processor

end

namespace Processor

/-- A version comes back after another one, and its text is processed; the version of the call before it is skipped. -/
theorem process_history_free_comment : ∃ new,
    ofConfig { HighlightConfig.ofQuery "(comment) @c" with dynamicStyles := true } = .ok new ∧
      let p := new.after [("# a\n", 1), ("# b\n", 2), ("# c\n", 2)]
      (p.process "# é\n" 1).1 = (new.process "# é\n" 7).1 ∧ (p.process "# é\n" 1).2.mode = .fullReparse ∧
        (p.process "# é\n" 1).2.tree = some (.parse "# é\n") ∧
        (p.process "# é\n" 2).1 = [] ∧ (p.process "# é\n" 2).2.tree = p.tree := by
  have hvalid : (ofConfig { HighlightConfig.ofQuery "(comment) @c" with dynamicStyles := true }).toBool = true := by
    decide +kernel
  cases hnew : ofConfig { HighlightConfig.ofQuery "(comment) @c" with dynamicStyles := true } with
  | error e =>
    rw [hnew] at hvalid
    cases hvalid
  | ok new =>
    refine ⟨new, rfl, ?_⟩
    intro p
    obtain ⟨hskips, -, hworks, -⟩ := process_history_free hnew [("# a\n", 1), ("# b\n", 2), ("# c\n", 2)] "# é\n" 1
    obtain ⟨-, hfresh, hmode, htree, -⟩ := hworks fun hskipped => by
      have hlast := hskips.mp hskipped
      simp at hlast
    obtain ⟨hskips, hkeeps, -⟩ := process_history_free hnew [("# a\n", 1), ("# b\n", 2), ("# c\n", 2)] "# é\n" 2
    obtain ⟨hnone, hsame, -⟩ := hkeeps (hskips.mpr rfl)
    exact ⟨(hfresh 7).symm, hmode, htree, hnone, hsame⟩

end Processor

end RenpyScript
