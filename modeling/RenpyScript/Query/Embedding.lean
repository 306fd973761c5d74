import RenpyScript.Query.Match

/-!
# Embeddings

What it is for a pattern to match a node, apart from the way in which a match is looked for. The child patterns
of a pattern take groups of the children: the groups have no child in common and come in the order of the patterns,
the quantifier of a pattern says how many children it may take, and it matches each of them. `Pattern.Matches` relates
a pattern and a node to the captures of such a choice.
-/

namespace RenpyScript

/-- Whether a child pattern may take a number of children. -/
def Quantifier.admits : Quantifier → Nat → Bool
  | one, k => k = 1
  | optional, k => k ≤ 1
  | zeroOrMore, _ => true
  | oneOrMore, k => 1 ≤ k

namespace Pattern

mutual
/-- A pattern matches a node, with what is captured on the way: the node itself first. -/
inductive Matches : Pattern → Node → List Capture → Prop
  /-- The test accepts the node, and the child patterns take groups of its children. -/
  | node {test : NodeTest} {children : List Pattern} {role : Role} {n : Node} {groups : List (List Node)}
      {captures : List Capture} (accepted : test.accepts n = true) (inOrder : groups.flatten.Sublist n.children)
      (assigned : Assigned children groups captures) :
      Matches (.node test children role) n (role.capturesOf n ++ captures)
  | choice {alternatives : List Pattern} {role : Role} {p : Pattern} {n : Node} {captures : List Capture}
      (among : p ∈ alternatives) (fits : p.role.fits n = true) (matched : Matches p n captures) :
      Matches (.choice alternatives role) n (role.capturesOf n ++ captures)

/-- Each child pattern matches the children in its group, which are as many as its quantifier admits. -/
inductive Assigned : List Pattern → List (List Node) → List Capture → Prop
  | nil : Assigned [] [] []
  | cons {p : Pattern} {ps : List Pattern} {group : List Node} {groups : List (List Node)} {s s' : List Capture}
      (admitted : p.role.quantifier.admits group.length = true) (each : MatchesEach p group s)
      (rest : Assigned ps groups s') : Assigned (p :: ps) (group :: groups) (s ++ s')

/-- A child pattern matches each of the children, which are stored under the field that it asks for. -/
inductive MatchesEach : Pattern → List Node → List Capture → Prop
  | nil {p : Pattern} : MatchesEach p [] []
  | cons {p : Pattern} {n : Node} {ns : List Node} {s s' : List Capture} (fits : p.role.fits n = true)
      (matched : Matches p n s) (rest : MatchesEach p ns s') : MatchesEach p (n :: ns) (s ++ s')
end

/-- Child patterns can take groups of the nodes. -/
def Embeds (ps : List Pattern) (ns : List Node) : Prop :=
  ∃ groups s, groups.flatten.Sublist ns ∧ Assigned ps groups s

def Takes (p : Pattern) (n : Node) : Prop :=
  p.role.fits n = true ∧ ∃ s, p.Matches n s

/-- No child pattern is repeated, however deep in the pattern. The quantifiers of alternatives say nothing. -/
inductive Unrepeated : Pattern → Prop
  | node {test : NodeTest} {children : List Pattern} {role : Role}
      (once : ∀ p ∈ children, p.role.quantifier = .one ∨ p.role.quantifier = .optional)
      (inner : ∀ p ∈ children, p.Unrepeated) : Unrepeated (.node test children role)
  | choice {alternatives : List Pattern} {role : Role} (inner : ∀ p ∈ alternatives, p.Unrepeated) :
      Unrepeated (.choice alternatives role)

/-- Child patterns take the nodes at the given indices, the first of them the first node from index `k` on that it can
take, and each of the others the first one behind the node of the pattern before it. -/
inductive Earliest (ns : List Node) : List Pattern → Nat → List Nat → List Capture → Prop
  | nil {k : Nat} : Earliest ns [] k [] []
  | cons {p : Pattern} {ps : List Pattern} {k i : Nat} {is : List Nat} {n : Node} {s s' : List Capture}
      (found : ns[i]? = some n) (behind : k ≤ i) (fits : p.role.fits n = true) (matched : p.Matches n s)
      (least : ∀ j m, k ≤ j → j < i → ns[j]? = some m → ¬p.Takes m) (rest : Earliest ns ps (i + 1) is s') :
      Earliest ns (p :: ps) k (i :: is) (s ++ s')

end Pattern

end RenpyScript
