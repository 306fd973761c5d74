import RenpyScript.Yaml.Token

/-!
# Documents

A document is a value built from scalars, lists and mappings. An alias stands for the value with its
anchor, which may be the very value that the alias lies in; so aliases stay in the tree, and
`Document.resolve` looks them up.
-/

namespace RenpyScript.Yaml

/-- A YAML value. -/
inductive Value where
  | scalar (text : String) (plain : Bool) (tag : Option String)
  | list (items : List Value)
  | mapping (entries : List (Value × Value))
  | alias (anchor : Nat)
deriving Repr

def Value.absent (tag : Option String) : Value :=
  .scalar "" true tag

/-- A value and the values with anchors inside of it. -/
structure Document where
  root : Value
  anchored : List (Nat × Value)
deriving Repr

/-- The value that an alias stands for; any other value is itself. -/
def Document.resolve (d : Document) : Value → Value
  | .alias n => (d.anchored.lookup n).getD (.absent none)
  | v => v

/-- How far a document has been built. -/
structure Building where
  rest : List Token
  /-- The names of anchors with their numbers, the latest first. -/
  names : List (String × Nat)
  anchored : List (Nat × Value)
  /-- The handles of tags with their expansions. -/
  handles : List (String × String)

abbrev Build := StateT Building Option

namespace Build

def peek : Build (Option Token) := do
  return (← get).rest.head?

/-- Passes over a token. -/
def skip : Build Unit :=
  modify fun s => { s with rest := s.rest.drop 1 }

/-- Passes over a token if it is `t`; tells whether it was. -/
def skipIf (t : Token) : Build Bool := do
  if (← peek) = some t then
    skip
    return true
  else return false

/-- Reads an anchor, if there is one: its number. -/
def anchor : Build (Option Nat) := do
  match (← peek) with
  | some (.anchor name) =>
    skip
    let s ← get
    let n := s.names.length
    set { s with names := (name, n) :: s.names }
    return some n
  | _ => return none

/-- Reads a tag, if there is one: its expansion. -/
def tag : Build (Option String) := do
  match (← peek) with
  | some (.tag handle suffix) =>
    skip
    if handle.isEmpty then return some suffix
    else
      match (← get).handles.lookup handle with
      | some expansion => return some (expansion ++ suffix)
      | none => failure
  | _ => return none

/-- Keeps a value under the number of its anchor. -/
def keep (n : Option Nat) (v : Value) : Build Value := do
  match n with
  | some n => modify fun s => { s with anchored := (n, v) :: s.anchored }
  | none => pure ()
  return v

/-- Whether the token in front ends an entry, so that the value of the entry is left out. -/
def atEnd (ends : Token → Bool) : Build Bool := do
  return (← peek).all ends

/-- Tokens behind which a dash or a key has nothing. -/
def endsEntry (t : Token) : Bool :=
  t = .key || t = .value || t = .close

mutual
/-- Reads a value. With `block` it may be a block collection; with `dashes` dashes at the column of the
enclosing mapping make a list. Every call uses up fuel; a few calls in a row read one token at least. -/
def value (block dashes : Bool) : Nat → Build Value
  | 0 => failure
  | fuel + 1 => do
    match (← peek) with
    | some (.alias name) =>
      skip
      match (← get).names.lookup name with
      | some n => return .alias n
      | none => failure
    | _ =>
      let (n, t) ← do
        match (← anchor) with
        | some n => pure (some n, ← tag)
        | none =>
          let t ← tag
          pure (← anchor, t)
      match (← peek) with
      | some (.scalar text plain) =>
        skip
        keep n (.scalar text plain t)
      | some .openFlowList =>
        skip
        keep n (.list (← flowItems true fuel))
      | some .openFlowMapping =>
        skip
        keep n (.mapping (← flowEntries true fuel))
      | some .openList =>
        if !block then failure
        skip
        keep n (.list (← items fuel))
      | some .openMapping =>
        if !block then failure
        skip
        keep n (.mapping (← entries fuel))
      | some .item =>
        if dashes then keep n (.list (← dashedItems fuel))
        else if n.isSome || t.isSome then keep n (.absent t)
        else failure
      | _ => if n.isSome || t.isSome then keep n (.absent t) else failure

/-- Reads the items of a block list up to its end. -/
def items : Nat → Build (List Value)
  | 0 => failure
  | fuel + 1 => do
    if (← skipIf .close) then return []
    if !(← skipIf .item) then failure
    let v ← if (← atEnd fun t => t = .item || t = .close) then pure (.absent none)
      else value true false fuel
    return v :: (← items fuel)

/-- Reads the items of a list at the column of the enclosing mapping. -/
def dashedItems : Nat → Build (List Value)
  | 0 => failure
  | fuel + 1 => do
    if !(← skipIf .item) then return []
    let v ← if (← atEnd fun t => t = .item || endsEntry t) then pure (.absent none)
      else value true false fuel
    return v :: (← dashedItems fuel)

/-- Reads the entries of a block mapping up to its end. -/
def entries : Nat → Build (List (Value × Value))
  | 0 => failure
  | fuel + 1 => do
    if (← skipIf .close) then return []
    if !(← skipIf .key) then failure
    let k ← if (← atEnd endsEntry) then pure (.absent none) else value true true fuel
    let v ← if (← skipIf .value) then
        if (← atEnd endsEntry) then pure (.absent none) else value true true fuel
      else pure (.absent none)
    return (k, v) :: (← entries fuel)

/-- Reads the items of a list between brackets up to the bracket. -/
def flowItems (first : Bool) : Nat → Build (List Value)
  | 0 => failure
  | fuel + 1 => do
    if (← skipIf .closeFlowList) then return []
    if !first then
      if !(← skipIf .comma) then failure
    if (← skipIf .closeFlowList) then return []
    if (← skipIf .key) then
      let e ← singleEntry fuel
      return .mapping [e] :: (← flowItems false fuel)
    else
      let v ← value false false fuel
      return v :: (← flowItems false fuel)

/-- Reads a key and its value as an item of a list between brackets. -/
def singleEntry : Nat → Build (Value × Value)
  | 0 => failure
  | fuel + 1 => do
    let ends (t : Token) : Bool := t = .comma || t = .closeFlowList
    if (← atEnd fun t => t = .value || ends t) then
      skip
      if (← skipIf .value) && !(← atEnd ends) then return (.absent none, ← value false false fuel)
      else return (.absent none, .absent none)
    let k ← value false false fuel
    if (← skipIf .value) then
      if (← atEnd ends) then return (k, .absent none) else return (k, ← value false false fuel)
    else return (k, .absent none)

/-- Reads the entries of a mapping between braces up to the brace. -/
def flowEntries (first : Bool) : Nat → Build (List (Value × Value))
  | 0 => failure
  | fuel + 1 => do
    if (← skipIf .closeFlowMapping) then return []
    if !first then
      if !(← skipIf .comma) then failure
    if (← skipIf .closeFlowMapping) then return []
    let ends (t : Token) : Bool := t = .comma || t = .closeFlowMapping
    if (← skipIf .key) then
      let k ← if (← atEnd fun t => t = .value || ends t) then pure (.absent none)
        else value false false fuel
      let v ← if (← skipIf .value) then
          if (← atEnd ends) then pure (.absent none) else value false false fuel
        else pure (.absent none)
      return (k, v) :: (← flowEntries false fuel)
    else
      let k ← value false false fuel
      return (k, .absent none) :: (← flowEntries false fuel)
end

/-- Reads the directives in front of a document. The version must be one that is known, and given
once. -/
def directives : (version : Bool) → List Token → Option (List (String × String) × List Token)
  | version, .version major minor :: ts =>
    if version || major ≠ 1 || (minor ≠ 1 && minor ≠ 2) then none else directives true ts
  | version, .handle name expansion :: ts =>
    (directives version ts).bind fun r =>
      if (r.1.lookup name).isSome then none else some ((name, expansion) :: r.1, r.2)
  | _, ts => some ([], ts)

/-- The handles of tags that need no directive. -/
def defaultHandles : List (String × String) :=
  [("!", "!"), ("!!", "tag:yaml.org,2002:")]

end Build

namespace Document

/-- Whether a value is left out at the beginning of a document. -/
def isEmptyAt (ts : List Token) : Bool :=
  match ts.head? with
  | none | some .documentStart | some .documentEnd | some (.version _ _) | some (.handle _ _) => true
  | _ => false

def ofTokens? (ts : List Token) : Option Document :=
  if ts.isEmpty then some ⟨.absent none, []⟩
  else do
    let explicit := isEmptyAt ts && ts.head? != some .documentEnd
    let (handles, ts) ← if explicit then Build.directives false ts else some ([], ts)
    let ts ← if explicit then
        match ts with
        | .documentStart :: ts => some ts
        | _ => none
      else some ts
    let fuel := 4 * ts.length + 4
    let (root, s) ← if explicit && isEmptyAt ts then
        some (Value.absent none, ⟨ts, [], [], []⟩)
      else (Build.value true false fuel).run ⟨ts, [], [], handles ++ Build.defaultHandles⟩
    if (s.rest.dropWhile (· = .documentEnd)).isEmpty then some ⟨root, s.anchored⟩ else none

def ofText? (text : String) : Option Document :=
  (Token.ofText? text.toList).bind ofTokens?

end Document

end RenpyScript.Yaml
