import RenpyScript.Proofs.Query.Continued
import RenpyScript.Proofs.Query.Region

/-!
# Seams between tokens

Two queries may differ at one place of their code, a seam. Either trivia stand there in both of them, or there is a
predicate in the first, and trivia or another predicate in the second. As long as a reader has not passed the seam, the
unread texts differ there and nowhere else; behind it they are the same. Whatever looks at the text in front of the seam
sees the same on both sides: what is passed over as trivia, names, strings, and whether a parenthesis opens a predicate.

A predicate is read only where child patterns or the patterns of a group are read. Every other reader that comes to it
fails, so nothing is asked of the second query then.
-/

namespace RenpyScript

namespace Query

/-- Only white space. -/
def Blank (cs : List Char) : Prop :=
  ∀ c ∈ cs, isWhiteSpace c = true

instance (cs : List Char) : Decidable (Blank cs) :=
  decidable_of_iff (cs.all isWhiteSpace = true) List.all_eq_true

/-- A text ends with an opening parenthesis in its code, with white space behind it at most. -/
def EndsOpen (cs : List Char) : Prop :=
  ∃ v blanks, cs = v ++ '(' :: blanks ∧ InCode v ∧ Blank blanks

/-- A text ends with an opening parenthesis in its code, with trivia behind it at most. -/
def EndsWithParen (cs : List Char) : Prop :=
  ∃ v gap, cs = v ++ '(' :: gap ∧ InCode v ∧ skipTrivia false gap = []

/-- No quantifier and no capture follows, which would belong to the pattern in front. -/
def Detached (cs : List Char) : Prop :=
  ∀ ch ∈ (skipTrivia false cs).head?, ch ∉ ['?', '*', '+', '@']

/-- The text of a predicate begins with its parenthesis and its hash sign. -/
def BeginsPredicate (cs : List Char) : Prop :=
  ∃ blanks name, cs = '(' :: (blanks ++ '#' :: name) ∧ Blank blanks

lemma skipTrivia_of_blank {cs : List Char} (h : Blank cs) : skipTrivia false cs = [] := by
  induction cs with
  | nil => rfl
  | cons c cs ih =>
    obtain ⟨hc, hcs⟩ := List.forall_mem_cons.mp h
    rw [skipTrivia, if_neg Bool.false_ne_true, if_pos hc, ih hcs]

lemma EndsOpen.endsWithParen {cs : List Char} (h : EndsOpen cs) : EndsWithParen cs := by
  obtain ⟨v, blanks, rfl, hv, hblanks⟩ := h
  exact ⟨v, blanks, rfl, hv, skipTrivia_of_blank hblanks⟩

lemma dropWhile_blank {blanks gap : List Char} (hblanks : Blank blanks) (hgap : Blank gap) (cs : List Char) :
    (blanks ++ (gap ++ cs)).dropWhile isWhiteSpace = cs.dropWhile isWhiteSpace := by
  rw [List.dropWhile_append_of_pos hblanks, List.dropWhile_append_of_pos hgap]

lemma opensPredicate_of_not_blank {blanks gap : List Char} (hblanks : Blank blanks) (hgap : Trivia gap) (hne : ¬Blank gap)
    (cs : List Char) : opensPredicate ('(' :: (blanks ++ (gap ++ cs))) = false := by
  rw [opensPredicate, List.dropWhile_append_of_pos hblanks]
  induction hgap with
  | nil => exact absurd (fun _ hc => absurd hc List.not_mem_nil) hne
  | blank hc _ ih =>
    rw [List.cons_append, List.dropWhile_cons_of_pos hc]
    exact ih fun h => hne (List.forall_mem_cons.mpr ⟨hc, h⟩)
  | comment => rfl

lemma eq_paren_of_opensPredicate {ch : Char} {cs : List Char} (h : opensPredicate (ch :: cs) = true) : ch = '(' := by
  unfold opensPredicate at h
  split at h
  · next heq => exact (List.cons.inj heq).1
  · cases h

lemma begins_nothing {ch : Char} {cs : List Char} (h : ch ∈ ['?', '*', '+', '@']) :
    ch ≠ ')' ∧ opensPredicate (ch :: cs) ≠ true ∧ ch ≠ '!' ∧ ch.isAlpha = false ∧ ¬Read.OpensPattern (ch :: cs) := by
  have hopens : ch ≠ '(' → opensPredicate (ch :: cs) ≠ true := fun hne h => hne (eq_paren_of_opensPredicate h)
  simp only [List.mem_cons, List.not_mem_nil, or_false] at h
  rcases h with rfl | rfl | rfl | rfl
  all_goals exact ⟨by decide, hopens (by decide), by decide, by decide, by simp [Read.OpensPattern]⟩

lemma span_name_append {d : Char} (hd : isNameChar d = false) (cs ds : List Char) :
    (cs ++ d :: ds).takeWhile isNameChar = cs.takeWhile isNameChar ∧
      (cs ++ d :: ds).dropWhile isNameChar = cs.dropWhile isNameChar ++ d :: ds := by
  induction cs with
  | nil => exact ⟨List.takeWhile_cons_of_neg (by simp [hd]), List.dropWhile_cons_of_neg (by simp [hd])⟩
  | cons c cs ih =>
    rw [List.cons_append, List.takeWhile_cons, List.takeWhile_cons, List.dropWhile_cons, List.dropWhile_cons]
    split
    · exact ⟨congrArg _ ih.1, ih.2⟩
    · exact ⟨rfl, rfl⟩

lemma head?_ne_hash {behind : List Char} (h : Read.opensGroup (skipTrivia false behind) = true) :
    (behind.dropWhile isWhiteSpace).head? ≠ some '#' := by
  intro hhash
  obtain ⟨cs, hcs⟩ := List.head?_eq_some_iff.mp hhash
  rw [← skipTrivia_dropWhile, hcs] at h
  cases h

lemma BeginsPredicate.head? {cs : List Char} (h : BeginsPredicate cs) : cs.head? = some '(' := by
  obtain ⟨blanks, name, rfl, -⟩ := h
  rfl

lemma BeginsPredicate.opensPredicate {cs : List Char} (h : BeginsPredicate cs) (behind : List Char) :
    opensPredicate (cs ++ behind) = true := by
  obtain ⟨blanks, name, rfl, hblanks⟩ := h
  rw [List.cons_append, List.append_assoc, Query.opensPredicate, List.dropWhile_append_of_pos hblanks]
  rfl

lemma BeginsPredicate.skipTrivia {cs : List Char} (h : BeginsPredicate cs) (behind : List Char) :
    skipTrivia false (cs ++ behind) = cs ++ behind := by
  obtain ⟨blanks, name, rfl, -⟩ := h
  rfl

lemma BeginsPredicate.exists_cons {cs : List Char} (h : BeginsPredicate cs) (behind : List Char) :
    ∃ ds, cs ++ behind = '(' :: ds ∧ (Query.skipTrivia false ds).head? = some '#' := by
  obtain ⟨blanks, name, rfl, hblanks⟩ := h
  refine ⟨blanks ++ '#' :: (name ++ behind), by simp, ?_⟩
  rw [← skipTrivia_dropWhile, List.dropWhile_append_of_pos hblanks]
  rfl

lemma BeginsPredicate.not_opens {cs blanks : List Char} (h : BeginsPredicate cs) (hblanks : Blank blanks)
    (behind : List Char) : Query.opensPredicate ('(' :: (blanks ++ (cs ++ behind))) = false := by
  obtain ⟨inner, name, rfl, -⟩ := h
  rw [Query.opensPredicate, List.dropWhile_append_of_pos hblanks]
  rfl

variable [RegexEngine]

/-- The text of a predicate that ends where another text begins, if it can be read. `Made` tells what is known of the
predicate. -/
structure Clause (text behind : List Char) (Made : Predicate → Prop) : Prop where
  begins : BeginsPredicate text
  ends : ∀ {s u : Reading}, (Read.predicate (text ++ behind)).run s = .ok ((), u) →
    ∃ p, Made p ∧ u = { s with rest := behind, predicates := s.predicates ++ [(p, text ++ behind)] }

/-- The text of another predicate, which is read wherever the first is: `turn` tells what of a predicate. -/
structure Turned (text text' behind : List Char) (turn : Predicate → Predicate) : Prop where
  begins : BeginsPredicate text'
  captures : ∀ p, (turn p).captures = p.captures
  reads : ∀ {s t : Reading} {p : Predicate}, s.names = t.names →
    (Read.predicate (text ++ behind)).run s =
      .ok ((), { s with rest := behind, predicates := s.predicates ++ [(p, text ++ behind)] }) →
    (Read.predicate (text' ++ behind)).run t =
      .ok ((), { t with rest := behind, predicates := t.predicates ++ [(turn p, text' ++ behind)] })

/-- What may stand at a seam. `kept` is what the second query has for a predicate that the first one has there. -/
inductive Filled (front gap gap' behind : List Char) (Made : Predicate → Prop) (kept : Predicate → List Predicate) : Prop
  /-- Trivia in both queries. In front of the hash sign of a predicate there is a comment in both or in none. -/
  | trivia (left : Trivia gap) (right : Trivia gap') (left_ne : gap ≠ []) (right_ne : gap' ≠ [])
      (opens : EndsOpen front → (behind.dropWhile isWhiteSpace).head? = some '#' → (Blank gap ↔ Blank gap'))
  /-- A predicate in the first query only. If it stands first in parentheses, they group what follows as well. -/
  | without (left : Clause gap behind Made) (right : Trivia gap') (right_ne : gap' ≠ []) (detached : Detached behind)
      (groups : EndsWithParen front → Read.opensGroup (skipTrivia false behind) = true) (keeps : kept = fun _ => [])
  | turned (left : Clause gap behind Made) (turn : Predicate → Predicate) (right : Turned gap gap' behind turn)
      (keeps : kept = fun p => [turn p])

/-- A place in the code of two queries where they differ. -/
structure Seam where
  front : List Char
  gap : List Char
  gap' : List Char
  behind : List Char
  Made : Predicate → Prop
  kept : Predicate → List Predicate
  inCode : InCode front
  filled : Filled front gap gap' behind Made kept

/-- Where reading has come to. -/
inductive Stage where
  | ahead
  | there
  | past

namespace Seam
variable (c : Seam)

/-- The first query has a predicate at the seam. -/
def Slotted : Prop :=
  c.gap.head? = some '('

def Same : Stage → List Char → List Char → Prop
  | .ahead, cs, cs' => ∃ v u, c.front = v ++ u ∧ InCode v ∧ cs = u ++ (c.gap ++ c.behind) ∧ cs' = u ++ (c.gap' ++ c.behind)
  | .there, cs, cs' => c.Slotted ∧ cs = c.gap ++ c.behind ∧ cs' = skipTrivia false (c.gap' ++ c.behind)
  | .past, cs, cs' => cs = cs'

/-- Texts behind a character that begins a token in front of the seam, or behind it. -/
def SameBehind (ch : Char) : Stage → List Char → List Char → Prop
  | .ahead, cs, cs' =>
    ∃ v u, c.front = v ++ ch :: u ∧ InCode v ∧ cs = u ++ (c.gap ++ c.behind) ∧ cs' = u ++ (c.gap' ++ c.behind)
  | .there, _, _ => False
  | .past, cs, cs' => cs = cs'

/-- Texts in which a token begins with the same character; or both are empty, or the predicate at the seam begins. -/
inductive SameHead : Stage → List Char → List Char → Prop
  | nil : SameHead .past [] []
  | cons {stage ch cs cs'} (h : c.SameBehind ch stage cs cs') : SameHead stage (ch :: cs) (ch :: cs')
  | there {cs cs'} (h : c.Same .there cs cs') : SameHead .there cs cs'

/-- The predicates of the pattern that is being read. In front of the seam they are the same and begin there; behind a
predicate at the seam that predicate is among them. -/
def SamePredicates : Stage → List (Predicate × List Char) → List (Predicate × List Char) → Prop
  | .past, ps, ps' =>
    ¬c.Slotted ∧ ps.map (·.1) = ps'.map (·.1) ∨
      c.Slotted ∧ Detached c.behind ∧ ∃ before p after, c.Made p ∧ ps = before ++ (p, c.gap ++ c.behind) :: after ∧
        (∀ q ∈ before, q.2 ≠ c.gap ++ c.behind) ∧ ps'.map (·.1) = before.map (·.1) ++ c.kept p ++ after.map (·.1)
  | _, ps, ps' => ps.map (·.1) = ps'.map (·.1) ∧ ∀ q ∈ ps, (c.gap ++ c.behind).length < q.2.length

/-- One stage may follow another: a predicate at the seam is passed only where it is read. -/
def Leads (stage stage' : Stage) : Prop :=
  stage = .past ∧ stage' = .past ∨ stage ≠ .past ∧ (stage' = .past → ¬c.Slotted)

/-- Reading has gone equally far. -/
structure Alike (stage : Stage) (s t : Reading) : Prop where
  rest : c.Same stage s.rest t.rest
  names : s.names = t.names
  predicates : c.SamePredicates stage s.predicates t.predicates

/-- Two steps both succeed, with results that `V` relates, or fail for the same cause. If there is a predicate at the seam,
the first may also fail by itself. -/
def Agrees {α : Type} (V : α → α → Prop) (x : Read α) (s : Reading) (y : Read α) (t : Reading) : Prop :=
  match x.run s, y.run t with
  | .ok (a, s'), .ok (b, t') => V a b ∧ ∃ stage, c.Alike stage s' t'
  | .error e, .error e' => c.Slotted ∨ e.fault = e'.fault
  | .error _, .ok _ => c.Slotted
  | .ok _, .error _ => False

variable {c} {stage : Stage} {ch : Char} {cs cs' : List Char}

/-! ## What stands at the seam -/

lemma Slotted.not_trivia (h : c.Slotted) : ¬Trivia c.gap := by
  intro htrivia
  obtain ⟨cs, hgap⟩ := List.head?_eq_some_iff.mp h
  rw [hgap] at htrivia
  cases htrivia with
  | blank hc => exact absurd hc (by decide)

lemma clause (h : c.Slotted) : Clause c.gap c.behind c.Made := by
  cases c.filled with
  | trivia left => exact absurd left h.not_trivia
  | without left | turned left => exact left

lemma captures_kept (h : c.Slotted) {p q : Predicate} (hq : q ∈ c.kept p) : q.captures = p.captures := by
  cases c.filled with
  | trivia left => exact absurd left h.not_trivia
  | without _ _ _ _ _ keeps =>
    rw [keeps] at hq
    cases hq
  | turned _ turn right keeps =>
    rw [keeps] at hq
    obtain rfl := List.mem_singleton.mp hq
    exact right.captures p

lemma exists_gap_cons (c : Seam) : ∃ d ds, c.gap = d :: ds ∧ isNameChar d = false := by
  cases c.filled with
  | trivia left _ left_ne =>
    obtain ⟨d, ds, hgap⟩ := List.exists_cons_of_ne_nil left_ne
    exact ⟨d, ds, hgap, Trivia.isNameChar_head (hgap ▸ left)⟩
  | without left | turned left =>
    obtain ⟨blanks, name, hgap, -⟩ := left.begins
    exact ⟨'(', _, hgap, rfl⟩

lemma exists_gap_cons' (c : Seam) : ∃ d ds, c.gap' = d :: ds ∧ isNameChar d = false := by
  cases c.filled with
  | trivia _ right _ right_ne | without _ right right_ne =>
    obtain ⟨d, ds, hgap⟩ := List.exists_cons_of_ne_nil right_ne
    exact ⟨d, ds, hgap, Trivia.isNameChar_head (hgap ▸ right)⟩
  | turned _ _ right =>
    obtain ⟨blanks, name, hgap, -⟩ := right.begins
    exact ⟨'(', _, hgap, rfl⟩

lemma skipTrivia_gap (h : c.Slotted) : skipTrivia false (c.gap ++ c.behind) = c.gap ++ c.behind :=
  c.clause h |>.begins.skipTrivia c.behind

lemma detached (h : c.Slotted) : Detached (c.gap' ++ c.behind) := by
  cases c.filled with
  | trivia left => exact absurd left h.not_trivia
  | without _ right _ detached => rwa [Detached, right.skipTrivia_append]
  | turned _ _ right =>
    intro ch hch
    rw [right.begins.skipTrivia] at hch
    obtain ⟨blanks, name, hgap, -⟩ := right.begins
    rw [hgap] at hch
    cases hch
    decide

/-! ## Texts -/

lemma SameBehind.cons (h : c.SameBehind ch stage cs cs') : c.Same stage (ch :: cs) (ch :: cs') := by
  cases stage with
  | ahead =>
    obtain ⟨v, u, hfront, hv, rfl, rfl⟩ := h
    exact ⟨v, ch :: u, hfront, hv, rfl, rfl⟩
  | there => exact h.elim
  | past => exact congrArg _ h

lemma SameBehind.ne_there (h : c.SameBehind ch stage cs cs') : stage ≠ .there := by
  rintro rfl
  exact h

lemma SameBehind.tail (h : c.SameBehind ch stage cs cs') (hsemicolon : ch ≠ ';') (hquote : ch ≠ '"') :
    c.Same stage cs cs' := by
  cases stage with
  | ahead =>
    obtain ⟨v, u, hfront, hv, rfl, rfl⟩ := h
    refine ⟨v ++ [ch], u, by rw [hfront, List.append_assoc, List.singleton_append], ?_, rfl, rfl⟩
    exact hv.append_iff.mpr ((inCode_cons hsemicolon hquote).mpr inCode_nil)
  | there => exact h.elim
  | past => exact h

lemma Same.length_le (h : c.Same stage cs cs') (hstage : stage ≠ .past) : (c.gap ++ c.behind).length ≤ cs.length := by
  cases stage with
  | ahead =>
    obtain ⟨v, u, -, -, rfl, -⟩ := h
    exact (List.suffix_append u _).length_le
  | there => exact h.2.1 ▸ Nat.le_refl _
  | past => exact absurd rfl hstage

lemma Same.eq_nil_iff (h : c.Same stage cs cs') (hstage : stage ≠ .there) : cs = [] ↔ cs' = [] := by
  cases stage with
  | ahead =>
    obtain ⟨v, u, -, -, rfl, rfl⟩ := h
    obtain ⟨d, ds, hgap, -⟩ := c.exists_gap_cons
    obtain ⟨d', ds', hgap', -⟩ := c.exists_gap_cons'
    simp [hgap, hgap']
  | there => exact absurd rfl hstage
  | past => exact h ▸ Iff.rfl

lemma SameHead.same (h : c.SameHead stage cs cs') : c.Same stage cs cs' := by
  cases h with
  | nil => rfl
  | cons h => exact h.cons
  | there h => exact h

/-- Trivia at the seam are passed over, a predicate is not. -/
lemma Same.skipTrivia (h : c.Same stage cs cs') :
    ∃ stage', c.Leads stage stage' ∧ c.SameHead stage' (skipTrivia false cs) (skipTrivia false cs') := by
  cases stage with
  | ahead =>
    obtain ⟨v, u, hfront, hv, rfl, rfl⟩ := h
    have hu : (Region.trivia false).after u = .code := hv.append_iff.mp (hfront ▸ c.inCode)
    obtain ⟨passed, w, rfl, hpassed, hskip⟩ := skipTrivia_of_inCode hu
    rw [hskip, hskip]
    cases w with
    | nil =>
      rw [if_pos rfl, if_pos rfl]
      by_cases hslot : c.Slotted
      · exact ⟨.there, .inr ⟨nofun, nofun⟩, .there ⟨hslot, skipTrivia_gap hslot, rfl⟩⟩
      · refine ⟨.past, .inr ⟨nofun, fun _ => hslot⟩, ?_⟩
        cases c.filled with
        | trivia left right =>
          rw [left.skipTrivia_append, right.skipTrivia_append]
          cases Query.skipTrivia false c.behind with
          | nil => exact .nil
          | cons ch cs => exact .cons rfl
        | without left | turned left => exact absurd (left.begins.head?) hslot
    | cons ch w =>
      refine ⟨.ahead, .inr ⟨nofun, nofun⟩, .cons ⟨v ++ passed, w, ?_, hv.append_iff.mpr hpassed, rfl, rfl⟩⟩
      rw [hfront, List.append_assoc]
  | there =>
    obtain ⟨hslot, rfl, rfl⟩ := h
    exact ⟨.there, .inr ⟨nofun, nofun⟩, .there ⟨hslot, skipTrivia_gap hslot, skipTrivia_skipTrivia ..⟩⟩
  | past =>
    obtain rfl : cs = cs' := h
    refine ⟨.past, .inl ⟨rfl, rfl⟩, ?_⟩
    cases Query.skipTrivia false cs with
    | nil => exact .nil
    | cons ch cs => exact .cons rfl

lemma Same.name (h : c.Same stage cs cs') (hstage : stage ≠ .there) :
    cs.takeWhile isNameChar = cs'.takeWhile isNameChar ∧
      c.Same stage (cs.dropWhile isNameChar) (cs'.dropWhile isNameChar) := by
  cases stage with
  | ahead =>
    obtain ⟨v, u, hfront, hv, rfl, rfl⟩ := h
    obtain ⟨d, ds, hgap, hd⟩ := c.exists_gap_cons
    obtain ⟨d', ds', hgap', hd'⟩ := c.exists_gap_cons'
    rw [hgap, hgap', List.cons_append, List.cons_append]
    obtain ⟨htake, hdrop⟩ := span_name_append hd u (ds ++ c.behind)
    obtain ⟨htake', hdrop'⟩ := span_name_append hd' u (ds' ++ c.behind)
    rw [htake, htake', hdrop, hdrop', ← List.cons_append, ← List.cons_append, ← hgap, ← hgap']
    refine ⟨rfl, v ++ u.takeWhile isNameChar, u.dropWhile isNameChar, ?_, ?_, rfl, rfl⟩
    · rw [List.append_assoc, List.takeWhile_append_dropWhile, hfront]
    · exact hv.append_iff.mpr (inCode_takeWhile_name u)
  | there => exact absurd rfl hstage
  | past =>
    obtain rfl : cs = cs' := h
    exact ⟨rfl, rfl⟩

lemma SameBehind.splitString (h : c.SameBehind '"' stage cs cs') :
    splitString cs = none ∧ splitString cs' = none ∨
      ∃ value ds ds', splitString cs = some (value, ds) ∧ splitString cs' = some (value, ds') ∧ c.Same stage ds ds' := by
  cases stage with
  | ahead =>
    obtain ⟨v, u, hfront, hv, rfl, rfl⟩ := h
    have hu : Region.string.after u = .code := by
      have hcode : InCode ('"' :: u) := hv.append_iff.mp (hfront ▸ c.inCode)
      exact hcode
    obtain ⟨value, passed, w, rfl, hpassed, hsplit⟩ := splitString_of_inCode hu
    refine .inr ⟨value, _, _, hsplit _, hsplit _, v ++ '"' :: passed, w, ?_, hv.append_iff.mpr hpassed, rfl, rfl⟩
    rw [hfront, List.append_assoc, List.cons_append]
  | there => exact h.elim
  | past =>
    obtain rfl : cs = cs' := h
    cases hsplit : Query.splitString cs with
    | none => exact .inl ⟨rfl, rfl⟩
    | some r => exact .inr ⟨r.1, r.2, r.2, rfl, rfl, rfl⟩

/-- White space in front of the seam is followed by a hash sign on both sides or on none. -/
lemma opensPredicate_ahead {v u : List Char} (hfront : c.front = v ++ '(' :: u) (hv : InCode v) (hu : Blank u) :
    opensPredicate ('(' :: (u ++ (c.gap ++ c.behind))) = opensPredicate ('(' :: (u ++ (c.gap' ++ c.behind))) := by
  have hopen : EndsOpen c.front := ⟨v, u, hfront, hv, hu⟩
  -- With white space only, what stands behind the seam decides.
  have hbehind {gap : List Char} (hgap : Blank gap) (hhash : (c.behind.dropWhile isWhiteSpace).head? ≠ some '#') :
      opensPredicate ('(' :: (u ++ (gap ++ c.behind))) = false := by
    rw [opensPredicate, dropWhile_blank hu hgap, decide_eq_false hhash]
  cases c.filled with
  | trivia left right _ _ opens =>
    by_cases hgap : Blank c.gap
    · by_cases hgap' : Blank c.gap'
      · rw [opensPredicate, opensPredicate, dropWhile_blank hu hgap, dropWhile_blank hu hgap']
      · have hhash : (c.behind.dropWhile isWhiteSpace).head? ≠ some '#' := fun h => hgap' ((opens hopen h).mp hgap)
        rw [opensPredicate_of_not_blank hu right hgap', hbehind hgap hhash]
    · rw [opensPredicate_of_not_blank hu left hgap]
      by_cases hgap' : Blank c.gap'
      · rw [hbehind hgap' fun h => hgap ((opens hopen h).mpr hgap')]
      · rw [opensPredicate_of_not_blank hu right hgap']
  | without left right _ _ groups =>
    rw [left.begins.not_opens hu]
    by_cases hgap' : Blank c.gap'
    · rw [hbehind hgap' (head?_ne_hash (groups hopen.endsWithParen))]
    · rw [opensPredicate_of_not_blank hu right hgap']
  | turned left _ right => rw [left.begins.not_opens hu, right.begins.not_opens hu]

/-- Where a parenthesis opens a predicate, it does so on both sides, and on both its name follows. -/
lemma SameBehind.opensPredicate (h : c.SameBehind '(' stage cs cs') :
    opensPredicate ('(' :: cs) = opensPredicate ('(' :: cs') ∧ (opensPredicate ('(' :: cs) = true →
      ∃ stage', stage' ≠ .there ∧ c.Leads stage stage' ∧
        c.Same stage' ((cs.dropWhile isWhiteSpace).drop 1) ((cs'.dropWhile isWhiteSpace).drop 1)) := by
  cases stage with
  | ahead =>
    obtain ⟨v, u, hfront, hv, rfl, rfl⟩ := h
    by_cases hu : Blank u
    · refine ⟨opensPredicate_ahead hfront hv hu, fun hopens => ⟨.past, by simp, ?_, ?_⟩⟩
      · refine .inr ⟨by simp, fun _ hslot => ?_⟩
        rw [(clause hslot).begins.not_opens hu] at hopens
        cases hopens
      · have hopens' := opensPredicate_ahead hfront hv hu ▸ hopens
        have hblank {gap : List Char} (hgap : Trivia gap)
            (hopens : Query.opensPredicate ('(' :: (u ++ (gap ++ c.behind))) = true) : Blank gap := by
          by_contra hne
          rw [opensPredicate_of_not_blank hu hgap hne] at hopens
          cases hopens
        cases c.filled with
        | trivia left right =>
          change _ = _
          rw [dropWhile_blank hu (hblank left hopens), dropWhile_blank hu (hblank right hopens')]
        | without left | turned left =>
          rw [left.begins.not_opens hu] at hopens
          cases hopens
    · have hne : u.dropWhile isWhiteSpace ≠ [] := by simpa [Blank] using hu
      obtain ⟨ch, w, hw⟩ := List.exists_cons_of_ne_nil hne
      have hdrop (ds : List Char) : (u ++ ds).dropWhile isWhiteSpace = ch :: (w ++ ds) := by
        rw [List.dropWhile_append, if_neg (by simpa using hne), hw, List.cons_append]
      rw [Query.opensPredicate, Query.opensPredicate, hdrop, hdrop]
      refine ⟨rfl, fun hhash => ⟨.ahead, by simp, .inr ⟨by simp, by simp⟩, v ++ '(' :: (u.takeWhile isWhiteSpace ++ [ch]), w,
        ?_, ?_, rfl, rfl⟩⟩
      · rw [hfront, List.append_assoc, List.cons_append, List.append_assoc, List.singleton_append, ← hw,
          List.takeWhile_append_dropWhile]
      · obtain rfl : ch = '#' := by simpa using hhash
        have hblank : InCode (u.takeWhile isWhiteSpace) := inCode_of_blank fun _ hc => List.mem_takeWhile_imp hc
        exact hv.append_iff.mpr ((inCode_cons (by decide) (by decide)).mpr (hblank.append_iff.mpr rfl))
  | there => exact h.elim
  | past =>
    obtain rfl : cs = cs' := h
    exact ⟨rfl, fun _ => ⟨.past, by simp, .inl ⟨rfl, rfl⟩, rfl⟩⟩

lemma SameBehind.opensPredicate_eq (h : c.SameBehind ch stage cs cs') :
    Query.opensPredicate (ch :: cs) = Query.opensPredicate (ch :: cs') := by
  by_cases hch : ch = '('
  · subst hch
    exact h.opensPredicate.1
  · rw [Bool.eq_iff_iff]
    exact ⟨fun hopens => absurd (eq_paren_of_opensPredicate hopens) hch,
      fun hopens => absurd (eq_paren_of_opensPredicate hopens) hch⟩

/-- A parenthesis groups what follows on both sides or on none. -/
lemma SameBehind.opensGroup (h : c.SameBehind '(' stage cs cs') :
    Read.opensGroup (skipTrivia false cs) = Read.opensGroup (skipTrivia false cs') := by
  cases stage with
  | ahead =>
    obtain ⟨v, u, hfront, hv, rfl, rfl⟩ := h
    have hu : (Region.trivia false).after u = .code := by
      have hcode : InCode ('(' :: u) := hv.append_iff.mp (hfront ▸ c.inCode)
      exact hcode
    obtain ⟨passed, w, rfl, -, hskip⟩ := skipTrivia_of_inCode hu
    rw [hskip, hskip]
    cases w with
    | nil =>
      have hparen : EndsWithParen c.front := ⟨v, _, hfront, hv, by simpa [skipTrivia] using hskip []⟩
      have hopens {cs : List Char} (h : BeginsPredicate cs) :
          Read.opensGroup (skipTrivia false (cs ++ c.behind)) = true := by
        rw [h.skipTrivia]
        obtain ⟨blanks, name, rfl, -⟩ := h
        rfl
      rw [if_pos rfl, if_pos rfl]
      cases c.filled with
      | trivia left right => rw [left.skipTrivia_append, right.skipTrivia_append]
      | without left right _ _ groups => rw [hopens left.begins, right.skipTrivia_append, groups hparen]
      | turned left _ right => rw [hopens left.begins, hopens right.begins]
    | cons ch w => rfl
  | there => exact h.elim
  | past => exact congrArg (fun cs => Read.opensGroup (skipTrivia false cs)) h

/-! ## States -/

section
variable {s t : Reading} {stage' : Stage}

lemma SamePredicates.leads {ps ps' : List (Predicate × List Char)} (h : c.SamePredicates stage ps ps')
    (hleads : c.Leads stage stage') : c.SamePredicates stage' ps ps' := by
  rcases hleads with ⟨rfl, rfl⟩ | ⟨hstage, hslot⟩
  · exact h
  · have hsame : ps.map (·.1) = ps'.map (·.1) ∧ ∀ q ∈ ps, (c.gap ++ c.behind).length < q.2.length := by
      cases stage with
      | ahead | there => exact h
      | past => exact absurd rfl hstage
    cases stage' with
    | ahead | there => exact hsame
    | past => exact .inl ⟨hslot rfl, hsame.1⟩

lemma SamePredicates.append {ps ps' : List (Predicate × List Char)} (h : c.SamePredicates stage ps ps') (p : Predicate)
    {start start' : List Char} (hstart : stage ≠ .past → (c.gap ++ c.behind).length < start.length) :
    c.SamePredicates stage (ps ++ [(p, start)]) (ps' ++ [(p, start')]) := by
  have hmap (h : ps.map (·.1) = ps'.map (·.1)) : (ps ++ [(p, start)]).map (·.1) = (ps' ++ [(p, start')]).map (·.1) := by
    rw [List.map_append, List.map_append, h, List.map_singleton, List.map_singleton]
  cases stage with
  | ahead | there => exact ⟨hmap h.1, List.forall_mem_append.mpr ⟨h.2, List.forall_mem_singleton.mpr (hstart nofun)⟩⟩
  | past =>
    rcases h with ⟨hslot, hps⟩ | ⟨hslot, hdetached, before, q, after, hq, rfl, hbefore, hps'⟩
    · exact .inl ⟨hslot, hmap hps⟩
    · refine .inr ⟨hslot, hdetached, before, q, after ++ [(p, start)], hq, by simp, hbefore, ?_⟩
      rw [List.map_append, hps', List.map_append, List.append_assoc _ _ (List.map _ _), List.map_singleton, List.map_singleton]

lemma Alike.move (h : c.Alike stage s t) (hleads : c.Leads stage stage') (hcs : c.Same stage' cs cs') :
    c.Alike stage' (s.withRest cs) (t.withRest cs') :=
  ⟨hcs, h.names, h.predicates.leads hleads⟩

lemma Alike.withRest (h : c.Alike stage s t) (hcs : c.Same stage cs cs') : c.Alike stage (s.withRest cs) (t.withRest cs') :=
  ⟨hcs, h.names, h.predicates⟩

lemma Alike.slotted (h : c.Alike .there s t) : c.Slotted :=
  h.rest.1

end

/-! ## Steps -/

section
variable {s t : Reading} {α β : Type} {V : α → α → Prop} {W : β → β → Prop} {x y : Read α} {f f' : α → Read β}

lemma agrees_pure {a b : α} (hst : c.Alike stage s t) (hab : V a b) : c.Agrees V (pure a) s (pure b) t :=
  ⟨hab, stage, hst⟩

lemma agrees_throw {e e' : Flaw} (h : e.fault = e'.fault) : c.Agrees V (throw e) s (throw e') t :=
  .inr h

lemma agrees_fail (fault : QueryFault) : c.Agrees V (Read.fail fault) s (Read.fail fault) t :=
  .inr rfl

lemma agrees_of_fails (hslot : c.Slotted) (hx : x.Ensures s fun _ _ => False) : c.Agrees V x s y t := by
  rw [Agrees]
  cases hs : x.run s with
  | error e =>
    cases y.run t with
    | error e' => exact .inl hslot
    | ok r => exact hslot
  | ok r => exact (hx r.1 r.2 hs).elim

lemma agrees_of_ok (hslot : c.Slotted) (h : ∀ r, x.run s = .ok r → c.Agrees V x s y t) : c.Agrees V x s y t := by
  cases hs : x.run s with
  | error e =>
    refine agrees_of_fails hslot fun a s' hrun => ?_
    rw [hs] at hrun
    cases hrun
  | ok r => exact h r hs

lemma Agrees.bindRel (hx : c.Agrees V x s y t) (hf : ∀ a b s' t' stage, x.run s = .ok (a, s') → y.run t = .ok (b, t') →
    V a b → c.Alike stage s' t' → c.Agrees W (f a) s' (f' b) t') : c.Agrees W (x >>= f) s (y >>= f') t := by
  rw [Agrees, Read.run_bind, Read.run_bind]
  rw [Agrees] at hx
  cases hs : x.run s with
  | error e =>
    cases ht : y.run t with
    | error e' =>
      rw [hs, ht] at hx
      exact hx
    | ok r =>
      rw [hs, ht] at hx
      dsimp only
      cases (f' r.1).run r.2 with
      | error e' => exact .inl hx
      | ok r' => exact hx
  | ok r =>
    cases ht : y.run t with
    | error e' =>
      rw [hs, ht] at hx
      exact hx.elim
    | ok r' =>
      rw [hs, ht] at hx
      obtain ⟨hab, stage, hst⟩ := hx
      exact hf r.1 r'.1 r.2 r'.2 stage hs ht hab hst

lemma Agrees.bind (hx : c.Agrees (· = ·) x s y t) (hf : ∀ a s' t' stage, x.run s = .ok (a, s') → y.run t = .ok (a, t') →
    c.Alike stage s' t' → c.Agrees W (f a) s' (f' a) t') : c.Agrees W (x >>= f) s (y >>= f') t := by
  refine hx.bindRel fun a b s' t' stage hs ht hab hst => ?_
  subst hab
  exact hf a s' t' stage hs ht hst

lemma agrees_throwing {e e' : Flaw} (h : e.fault = e'.fault) : c.Agrees W (throw e >>= f) s (throw e' >>= f') t :=
  .inr h

lemma agrees_failing (fault : QueryFault) : c.Agrees W (Read.fail fault >>= f) s (Read.fail fault >>= f') t :=
  .inr rfl

lemma Agrees.next {f f' : List Char → Read β} (hst : c.Alike stage s t)
    (hnil : c.Alike .past (s.withRest []) (t.withRest []) → c.Agrees W (f []) (s.withRest []) (f' []) (t.withRest []))
    (hcons : ∀ stage ch cs cs', skipTrivia false s.rest = ch :: cs → skipTrivia false t.rest = ch :: cs' →
      c.SameBehind ch stage cs cs' → c.Alike stage (s.withRest (ch :: cs)) (t.withRest (ch :: cs')) →
      c.Agrees W (f (ch :: cs)) (s.withRest (ch :: cs)) (f' (ch :: cs')) (t.withRest (ch :: cs')))
    (hthere : ∀ cs cs', skipTrivia false s.rest = cs → skipTrivia false t.rest = cs' →
      c.Alike .there (s.withRest cs) (t.withRest cs') → c.Agrees W (f cs) (s.withRest cs) (f' cs') (t.withRest cs')) :
    c.Agrees W (Read.next >>= f) s (Read.next >>= f') t := by
  change c.Agrees W (f (skipTrivia false s.rest)) (s.withRest (skipTrivia false s.rest))
    (f' (skipTrivia false t.rest)) (t.withRest (skipTrivia false t.rest))
  obtain ⟨stage', hleads, hhead⟩ := hst.rest.skipTrivia
  have hst' := hst.move hleads hhead.same
  generalize hcs : skipTrivia false s.rest = cs at hhead hst'
  generalize hcs' : skipTrivia false t.rest = cs' at hhead hst'
  cases hhead with
  | nil => exact hnil hst'
  | cons h => exact hcons _ _ _ _ hcs hcs' h hst'
  | there => exact hthere _ _ hcs hcs' hst'

lemma Agrees.begin {f f' : List Char → Read β} (hst : c.Alike stage s t)
    (hf : ∀ stage cs cs', stage ≠ .there → c.Alike stage (s.withRest cs) (t.withRest cs') →
      c.Agrees W (f cs) (s.withRest cs) (f' cs') (t.withRest cs'))
    (hthere : ∀ cs cs', c.Alike .there (s.withRest cs) (t.withRest cs') →
      c.Agrees W (f cs) (s.withRest cs) (f' cs') (t.withRest cs')) :
    c.Agrees W (Read.next >>= f) s (Read.next >>= f') t :=
  Agrees.next hst (hf _ _ _ nofun) (fun _ _ _ _ _ _ hbehind hst' => hf _ _ _ hbehind.ne_there hst')
    fun _ _ _ _ hst' => hthere _ _ hst'

lemma Agrees.moveTo {f f' : Unit → Read β} (h : c.Agrees W (f ()) (s.withRest cs) (f' ()) (t.withRest cs')) :
    c.Agrees W (Read.moveTo cs >>= f) s (Read.moveTo cs' >>= f') t :=
  h

lemma Agrees.name {f f' : String → Read β} (hst : c.Alike stage s t) (hstage : stage ≠ .there)
    (hf : ∀ n, c.Alike stage (s.withRest (s.rest.dropWhile isNameChar)) (t.withRest (t.rest.dropWhile isNameChar)) →
      c.Agrees W (f n) (s.withRest (s.rest.dropWhile isNameChar)) (f' n) (t.withRest (t.rest.dropWhile isNameChar))) :
    c.Agrees W (Read.name >>= f) s (Read.name >>= f') t := by
  obtain ⟨htake, hdrop⟩ := hst.rest.name hstage
  change c.Agrees W (f (String.ofList (s.rest.takeWhile isNameChar))) _
    (f' (String.ofList (t.rest.takeWhile isNameChar))) _
  rw [htake]
  exact hf _ (hst.withRest hdrop)

lemma Agrees.string {f f' : String → Read β} (hst : c.Alike stage s t) (h : c.SameBehind '"' stage cs cs')
    (hf : ∀ value ds ds', splitString cs = some (value, ds) → splitString cs' = some (value, ds') →
      c.Alike stage (s.withRest ds) (t.withRest ds') →
      c.Agrees W (f (String.ofList value)) (s.withRest ds) (f' (String.ofList value)) (t.withRest ds')) :
    c.Agrees W (Read.string cs >>= f) s (Read.string cs' >>= f') t := by
  rcases h.splitString with ⟨hsplit, hsplit'⟩ | ⟨value, ds, ds', hsplit, hsplit', hds⟩
  · have hthrow {cs : List Char} (hnone : splitString cs = none) :
        Read.string cs = throw ⟨.unterminatedString, '"' :: cs⟩ := by
      rw [Read.string, hnone]
    rw [hthrow hsplit, hthrow hsplit']
    exact agrees_throwing rfl
  · simp only [Read.string, hsplit, hsplit']
    exact hf value ds ds' hsplit hsplit' (hst.withRest hds)

lemma Agrees.get {f f' : Reading → Read β} (h : c.Agrees W (f s) s (f' t) t) :
    c.Agrees W (MonadState.get >>= f) s (MonadState.get >>= f') t :=
  h

lemma Agrees.modify {g g' : Reading → Reading} {f f' : PUnit → Read β} (h : c.Agrees W (f ⟨⟩) (g s) (f' ⟨⟩) (g' t)) :
    c.Agrees W (modify g >>= f) s (modify g' >>= f') t :=
  h

end

end Seam

end Query

end RenpyScript
