import RenpyScript.Command.Run
import RenpyScript.Files.Tree
import RenpyScript.Host
import RenpyScript.Proofs.Checked.Parse
import RenpyScript.Proofs.Outline.Derivation

/-!
# Reports of errors

A node may be found to have an error by its mark in the list of entries, by the search for the first error,
by the S-expression, and from outside by a command or a C program. They all go back to one property of a
single node, that it is an error or stands for something absent.
-/

namespace RenpyScript

namespace Node

/-- The node itself is an error or stands for something absent. -/
def faulty (n : Node) : Bool :=
  n.isError || n.missing

section
variable {n : Node} {ns : List Node}

lemma faulty_iff (n : Node) : n.faulty = true ↔ n.kind = .error ∨ n.missing = true := by
  rw [faulty, isError, Bool.or_eq_true, decide_eq_true_iff]

lemma hasError_iff (n : Node) : n.hasError = true ↔ ∃ m ∈ n.preorder, m.faulty = true := by
  induction n using childInduction with
  | step n ih =>
    have hchildren : n.children.any hasError = true ↔ ∃ m ∈ n.children.flatMap preorder, m.faulty = true := by
      rw [List.any_eq_true]
      constructor
      · rintro ⟨c, hc, herror⟩
        obtain ⟨m, hm, hfaulty⟩ := (ih c hc).mp herror
        exact ⟨m, List.mem_flatMap.mpr ⟨c, hc, hm⟩, hfaulty⟩
      · rintro ⟨m, hm, hfaulty⟩
        obtain ⟨c, hc, hm⟩ := List.mem_flatMap.mp hm
        exact ⟨c, hc, (ih c hc).mpr ⟨m, hm, hfaulty⟩⟩
    rw [hasError_eq, preorder_eq, List.exists_mem_cons_iff, ← hchildren, Bool.or_eq_true]
    rfl

lemma hasError_eq_false_iff (n : Node) : n.hasError = false ↔ ∀ m ∈ n.preorder, m.faulty = false := by
  simpa using not_congr n.hasError_iff

/-! ## The search for the first error -/

lemma firstError?_eq (n : Node) : n.firstError? = if n.faulty then some n else firstErrorAmong n.children := by
  obtain ⟨field, kind, span, missing, children⟩ := n
  rw [firstError?]
  rfl

lemma firstErrorAmong_eq (h : ∀ n ∈ ns, n.firstError? = n.preorder.find? faulty) :
    firstErrorAmong ns = (ns.flatMap preorder).find? faulty := by
  induction ns with
  | nil => rfl
  | cons n ns ih =>
    obtain ⟨hn, hns⟩ := List.forall_mem_cons.mp h
    rw [firstErrorAmong, List.flatMap_cons, List.find?_append, ih hns, hn]
    cases herror : n.hasError with
    | true =>
      rw [if_pos rfl]
      cases n.preorder.find? faulty <;> rfl
    | false =>
      have hnone : n.preorder.find? faulty = none := by
        rw [List.find?_eq_none]
        intro m hm
        rw [n.hasError_eq_false_iff.mp herror m hm]
        exact Bool.false_ne_true
      rw [if_neg Bool.false_ne_true, hnone, Option.none_or]

lemma firstError?_eq_find? (n : Node) : n.firstError? = n.preorder.find? faulty := by
  induction n using childInduction with
  | step n ih =>
    rw [firstError?_eq, preorder_eq, List.find?_cons, firstErrorAmong_eq ih]
    cases n.faulty <;> rfl

lemma firstError?_eq_none_iff (n : Node) : n.firstError? = none ↔ n.hasError = false := by
  rw [firstError?_eq_find?, List.find?_eq_none, hasError_eq_false_iff]
  simp

/-! ## S-expressions -/

/-- The text has an error in it, as S-expressions show it. -/
def ShowsError (sexp : String) : Prop :=
  "(ERROR".toList <:+: sexp.toList ∨ "(MISSING ".toList <:+: sexp.toList

/-- Only the words for errors are in capitals. -/
def Lowercase (text : String) : Prop :=
  'E' ∉ text.toList ∧ 'M' ∉ text.toList

lemma ShowsError.not_lowercase {text : String} (h : ShowsError text) : ¬ Lowercase text := by
  rintro ⟨hE, hM⟩
  rcases h with h | h
  · exact hE (h.subset (by decide))
  · exact hM (h.subset (by decide))

lemma Lowercase.append {s t : String} (hs : Lowercase s) (ht : Lowercase t) : Lowercase (s ++ t) := by
  rw [Lowercase, String.toList_append, List.mem_append, List.mem_append]
  exact ⟨not_or.mpr ⟨hs.1, ht.1⟩, not_or.mpr ⟨hs.2, ht.2⟩⟩

lemma lowercase_kind {k : Kind} (h : k ≠ .error) : Lowercase k.name := by
  cases k with
  | keyword word => cases word <;> exact ⟨by decide, by decide⟩
  | error => exact absurd rfl h
  | _ => exact ⟨by decide, by decide⟩

lemma lowercase_fieldLabel (field : Option Field) : Lowercase (fieldLabel field) := by
  cases field with
  | none => exact ⟨by decide, by decide⟩
  | some f => cases f <;> exact ⟨by decide, by decide⟩

lemma lowercase_childrenSexp (h : ∀ n ∈ ns, Lowercase n.sexp) : Lowercase (childrenSexp ns) := by
  have hempty : Lowercase "" := ⟨by decide, by decide⟩
  induction ns with
  | nil => exact hempty
  | cons n ns ih =>
    obtain ⟨hn, hns⟩ := List.forall_mem_cons.mp h
    rw [childrenSexp]
    refine Lowercase.append ?_ (ih hns)
    split
    · exact (Lowercase.append ⟨by decide, by decide⟩ (lowercase_fieldLabel n.field)).append hn
    · exact hempty

lemma lowercase_sexp (n : Node) (h : n.hasError = false) : Lowercase n.sexp := by
  induction n using childInduction with
  | step n ih =>
    rw [hasError_eq, Bool.or_eq_false_iff, Bool.or_eq_false_iff, decide_eq_false_iff_not, List.any_eq_false] at h
    obtain ⟨⟨hkind, hmissing⟩, hchildren⟩ := h
    have hbelow : Lowercase (childrenSexp n.children) :=
      lowercase_childrenSexp fun c hc => ih c hc (Bool.eq_false_iff.mpr (hchildren c hc))
    rw [sexp_eq, if_neg (by rw [hmissing]; exact Bool.false_ne_true)]
    refine Lowercase.append (.append (.append ?_ (lowercase_kind hkind)) hbelow) ?_ <;> exact ⟨by decide, by decide⟩

lemma ShowsError.mono {s t : String} (h : ShowsError s) (hst : s.toList <:+: t.toList) : ShowsError t :=
  h.imp (·.trans hst) (·.trans hst)

lemma sexp_infix_childrenSexp {c : Node} (hc : c ∈ ns) (hshown : c.named = true ∨ c.missing = true) :
    c.sexp.toList <:+: (childrenSexp ns).toList := by
  induction ns with
  | nil => cases hc
  | cons n ns ih =>
    rw [childrenSexp, String.toList_append]
    rcases List.mem_cons.mp hc with rfl | hc
    · rw [if_pos (Bool.or_eq_true_iff.mpr hshown), String.toList_append]
      exact (List.suffix_append _ _).isInfix.trans (List.prefix_append _ _).isInfix
    · exact (ih hc).trans (List.suffix_append _ _).isInfix

lemma Conforms.not_hasError_of_token (h : n.Conforms) (hnamed : n.named = false) (hmissing : n.missing = false) :
    n.hasError = false := by
  have hkind : n.kind ≠ .error := by
    intro herror
    rw [named, herror] at hnamed
    exact Bool.false_ne_true hnamed.symm
  have htoken : n.kind.isToken = true := by
    rw [named] at hnamed
    generalize n.kind = kind at hnamed
    cases kind <;> first | rfl | exact absurd hnamed.symm Bool.false_ne_true
  rw [hasError_eq, h.token htoken, hmissing, decide_eq_false hkind]
  rfl

/-- Nodes that S-expressions leave out are tokens, and no errors are below them. -/
lemma Grammatical.sexp_showsError (h : n.Grammatical) (herror : n.hasError = true) : ShowsError n.sexp := by
  induction n using childInduction with
  | step n ih =>
    rw [sexp_eq]
    cases hmissing : n.missing with
    | true =>
      rw [if_pos rfl, missingSexp, ShowsError, String.toList_append, String.toList_append]
      exact Or.inr ((List.prefix_append _ _).trans (List.prefix_append _ _)).isInfix
    | false =>
      rw [if_neg Bool.false_ne_true]
      by_cases hkind : n.kind = .error
      · rw [hkind, ShowsError, String.toList_append, String.toList_append]
        exact Or.inl ((List.prefix_append _ _).trans (List.prefix_append _ _)).isInfix
      rw [hasError_eq, hmissing, decide_eq_false hkind, Bool.or_self, Bool.false_or, List.any_eq_true] at herror
      obtain ⟨c, hc, hbelow⟩ := herror
      have hchild := (grammatical_iff.mp h).2 c hc
      have hshown : c.named = true ∨ c.missing = true := by
        by_contra hhidden
        rw [not_or, Bool.not_eq_true, Bool.not_eq_true] at hhidden
        have hclean := (grammatical_iff.mp hchild).1.not_hasError_of_token hhidden.1 hhidden.2
        rw [hclean] at hbelow
        exact Bool.false_ne_true hbelow
      refine (ih c hc hchild hbelow).mono ((sexp_infix_childrenSexp hc hshown).trans ?_)
      rw [String.toList_append, String.toList_append]
      exact (List.suffix_append _ _).isInfix.trans (List.prefix_append _ _).isInfix

lemma Grammatical.showsError_iff (h : n.Grammatical) : ShowsError n.sexp ↔ n.hasError = true := by
  refine ⟨fun hshows => ?_, h.sexp_showsError⟩
  by_contra hclean
  exact hshows.not_lowercase (n.lowercase_sexp (Bool.eq_false_iff.mpr hclean))

end

end Node

/-! ## Marks in the list of entries -/

/-- The entries that are reached from another by going down to children, itself among them. -/
def Entry.Below (nodes : List Entry) : Nat → Nat → Prop :=
  Relation.ReflTransGen fun i j => ∃ e, nodes[i]? = some e ∧ j ∈ e.children

/-- Below an entry the marks say which entries have an error or something missing below them. -/
def Entry.Marked (nodes : List Entry) (root : Nat) : Prop :=
  ∀ i e, Below nodes root i → nodes[i]? = some e →
    (e.hasError = true ↔ ∃ j d, Below nodes i j ∧ nodes[j]? = some d ∧ (d.kind = .error ∨ d.missing = true))

section
variable {table : LineTable} {nodes : List Entry} {parent : Option Nat} {field : Option Field} {i j : Nat} {n m : Node}

lemma Denotes.node_of_below (h : Denotes table nodes parent field i n) (hbelow : Entry.Below nodes i j) :
    ∃ m ∈ n.preorder, ∃ parent' field', Denotes table nodes parent' field' j m := by
  induction hbelow with
  | refl => exact ⟨n, n.self_mem_preorder, parent, field, h⟩
  | tail _ hchild ih =>
    obtain ⟨m, hm, parent', field', hentry, hlength, hchildren⟩ := ih
    obtain ⟨e, he, hj⟩ := hchild
    rw [hentry, Option.some.injEq] at he
    subst he
    obtain ⟨k, hk, rfl⟩ := List.getElem_of_mem hj
    change k < List.length _ at hk
    have hk' := hlength ▸ hk
    have hchild := Node.mem_preorder_of_mem_children (List.getElem_mem hk')
    exact ⟨m.children[k], Node.mem_preorder_trans hm hchild, _, _,
      hchildren k _ _ (List.getElem?_eq_getElem hk) (List.getElem?_eq_getElem hk')⟩

lemma Denotes.below_of_node (h : Denotes table nodes parent field i n) (hm : m ∈ n.preorder) :
    ∃ j, Entry.Below nodes i j ∧ ∃ parent' field', Denotes table nodes parent' field' j m := by
  induction n using Node.childInduction generalizing parent field i with
  | step n ih =>
    rw [Node.preorder_eq, List.mem_cons] at hm
    rcases hm with rfl | hm
    · exact ⟨i, .refl, parent, field, h⟩
    · obtain ⟨c, hc, hm⟩ := List.mem_flatMap.mp hm
      obtain ⟨k, hk, rfl⟩ := List.getElem_of_mem hc
      obtain ⟨hentry, hlength, hchildren⟩ := h
      rename_i is
      have hk' : k < is.length := hlength ▸ hk
      have hchild := hchildren k is[k] _ (List.getElem?_eq_getElem hk') (List.getElem?_eq_getElem hk)
      obtain ⟨j, hbelow, hj⟩ := ih _ (List.getElem_mem hk) hchild hm
      exact ⟨j, .head ⟨_, hentry, List.getElem_mem hk'⟩ hbelow, hj⟩

lemma Denotes.marked (h : Denotes table nodes parent field i n) : Entry.Marked nodes i := by
  intro j e hj he
  obtain ⟨m, -, parent', field', hm⟩ := h.node_of_below hj
  obtain ⟨is, hentry⟩ := hm.get
  rw [he, Option.some.injEq] at hentry
  subst hentry
  change m.hasError = true ↔ _
  rw [Node.hasError_iff]
  constructor
  · rintro ⟨k, hk, hfaulty⟩
    obtain ⟨l, hl, _, _, hdenotes⟩ := hm.below_of_node hk
    obtain ⟨_, hget⟩ := hdenotes.get
    exact ⟨l, _, hl, hget, k.faulty_iff.mp hfaulty⟩
  · rintro ⟨l, d, hl, hd, hfaulty⟩
    obtain ⟨k, hk, _, _, hdenotes⟩ := hm.node_of_below hl
    obtain ⟨_, hget⟩ := hdenotes.get
    rw [hd, Option.some.injEq] at hget
    subst hget
    exact ⟨k, hk, k.faulty_iff.mpr hfaulty⟩

end

/-! ## Reports to the outside -/

lemma Host.parse?_toUTF8 (text : String) :
    parse? (some .renpy) (some text.toUTF8) text.utf8ByteSize = some (Tree.parse text) := by
  have hbytes : text.toUTF8.extract 0 text.utf8ByteSize = text.toUTF8 := ByteArray.extract_zero_size
  have htext : String.fromUTF8? text.toUTF8 = some text := dif_pos text.isValidUTF8
  unfold parse?
  by_cases hzero : text.utf8ByteSize = 0
  · obtain rfl : text = "" := by simpa using hzero
    rfl
  · simp only [if_neg hzero, Option.bind_eq_bind, Option.bind_some, hbytes, htext]
    rfl

namespace Job
variable {m : Type → Type} [Monad m] [LawfulMonad m] {files : FileAccess m} {path : String} {text : String}

lemma errorLine?_eq_none_iff (path : String) (t : Tree) : errorLine? path t = none ↔ t.root.hasError = false := by
  rw [errorLine?, Option.map_eq_none_iff, Node.firstError?_eq_none_iff]

lemma run_bind {α β : Type} {job : Job m α} {a : α} {printed printed' : String} (next : α → Job m β)
    (h : job.run.run printed = pure (.ok a, printed')) : (job >>= next).run.run printed = (next a).run.run printed' := by
  rw [ExceptT.run_bind, StateT.run_bind, h, pure_bind]

lemma printLine_run (line printed : String) :
    (printLine line : Job m Unit).run.run printed = pure (.ok (), printed ++ line ++ "\n") := by
  rw [printLine]
  change (Except.ok <$> (modify fun printed => printed ++ line ++ "\n" : StateT String m Unit)).run printed = _
  rw [StateT.run_map, StateT.run_modify, map_pure]

lemma read_run (printed : String) (h : files.readText path = pure (.ok text)) :
    (read files path).run.run printed = pure (.ok text, printed) := by
  rw [read, attempt]
  simp [h]

/-- What is printed of a tree, with an error or not. -/
def shown (json quiet : Bool) (t : Tree) : String :=
  if quiet then "" else (if json then t.toJson.pretty else t.root.sexp) ++ "\n"

lemma parseFile_run (json quiet : Bool) (printed : String) (h : files.readText path = pure (.ok text)) :
    (parseFile files json quiet path).run.run printed =
      pure (.ok (errorLine? path (.parse text)).isNone, printed ++ shown json quiet (.parse text) ++
        ((errorLine? path (.parse text)).map (· ++ "\n")).getD "") := by
  rw [parseFile, run_bind _ (read_run printed h)]
  have hshow : ∀ next : Job m Bool, (do
      if !quiet then printLine (if json then (Tree.parse text).toJson.pretty else (Tree.parse text).root.sexp)
      next).run.run printed = next.run.run (printed ++ shown json quiet (.parse text)) := by
    intro next
    cases quiet with
    | true => simp [shown]
    | false =>
      refine (run_bind _ (printLine_run _ _)).trans ?_
      rw [shown, if_neg Bool.false_ne_true, String.append_assoc]
  refine (hshow _).trans ?_
  cases errorLine? path (Tree.parse text) with
  | none => simp
  | some line =>
    refine (run_bind _ (printLine_run _ _)).trans ?_
    simp [String.append_assoc]

end Job

namespace Tree

/-- All reports of errors agree, for any script in a file. The marks in the list of entries, from which trees
are read, tell where there is an error or something missing below; the search finds the first such node in document
order; and S-expressions, the command that parses the file and C programs say whether there is one. -/
theorem parse_reports_errors {m : Type → Type} [Monad m] [LawfulMonad m] {files : FileAccess m} {path text : String}
    (json quiet : Bool) (printed : String) (h : files.readText path = pure (.ok text)) :
    (∃ r, Descent.parse text.toList = some r ∧
      Denotes (.ofText text.toList) r.final.builder.nodes none none r.root (parse text).root ∧
      Entry.Marked r.final.builder.nodes r.root) ∧
    (∀ n ∈ (parse text).root.preorder,
      n.hasError = true ↔ ∃ m ∈ n.preorder, m.kind = .error ∨ m.missing = true) ∧
    (parse text).root.firstError? = (parse text).root.preorder.find? (fun n => n.isError || n.missing) ∧
    ((parse text).root.firstError? = none ↔ (parse text).root.hasError = false) ∧
    (Job.parseFile files json quiet path).run.run printed =
      pure (.ok (!Host.hasError (Host.parse? (some .renpy) (some text.toUTF8) text.utf8ByteSize)),
        printed ++ Job.shown json quiet (parse text) ++
          ((Job.errorLine? path (parse text)).map (· ++ "\n")).getD "") ∧
    (Job.errorLine? path (parse text) = none ↔
      Host.hasError (Host.parse? (some .renpy) (some text.toUTF8) text.utf8ByteSize) = false) ∧
    (("(ERROR".toList <:+: (parse text).root.sexp.toList ∨ "(MISSING ".toList <:+: (parse text).root.sexp.toList) ↔
      (parse text).root.hasError = true) := by
  have hgrammatical : (parse text).root.Grammatical :=
    (Outline.empty_grammatical.run (LogicalLine.scan text.toList)).root _
  have hhost : Host.hasError (Host.parse? (some .renpy) (some text.toUTF8) text.utf8ByteSize) =
      (parse text).root.hasError := by
    rw [Host.parse?_toUTF8]
    rfl
  have hline := Job.errorLine?_eq_none_iff path (parse text)
  obtain ⟨r, -, hparse, hdenotes, -⟩ := Descent.parse_ends text.toList
  refine ⟨⟨r, hparse, hdenotes, hdenotes.marked⟩, fun n _ => ?_, Node.firstError?_eq_find? _,
    Node.firstError?_eq_none_iff _, ?_, ?_, hgrammatical.showsError_iff⟩
  · simp only [Node.hasError_iff, Node.faulty_iff]
  · have hclean : (Job.errorLine? path (parse text)).isNone = !(parse text).root.hasError := by
      rw [Bool.eq_iff_iff, Option.isNone_iff_eq_none, hline, Bool.not_eq_true']
    rw [Job.parseFile_run json quiet printed h, hhost, hclean]
  · rw [hhost, hline]

/-- A label without its colon. -/
theorem parse_reports_errors_label :
    (∃ out, (Job.parseFile (FileTree.ofEntries [("a.rpy", "label a\n".toUTF8)]).access false true "a.rpy").run.run "" =
        (pure (.ok false, out) : Id _)) ∧
      (parse "label a\n").root.hasError = true := by
  have hhost : Host.hasError (Host.parse? (some .renpy) (some "label a\n".toUTF8) "label a\n".utf8ByteSize) = true := by
    decide +kernel
  have hread : (FileTree.ofEntries [("a.rpy", "label a\n".toUTF8)]).access.readText "a.rpy" =
      (pure (.ok "label a\n") : Id _) := by
    rfl
  obtain ⟨-, -, -, -, hrun, -⟩ := parse_reports_errors false true "" hread
  rw [hhost] at hrun
  exact ⟨⟨_, hrun⟩, by decide +kernel⟩

end Tree

end RenpyScript
