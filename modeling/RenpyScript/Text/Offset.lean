/-!
# Offsets into a text

A text is a list of characters. Offsets count the bytes of its UTF-8 form, and a `Span` is a
half-open stretch between two of them. `slice` reads a span back; it declines when an end of the
span falls inside a character.
-/

namespace RenpyScript

/-- Number of bytes the characters take in UTF-8. -/
def byteLength (cs : List Char) : Nat :=
  cs.foldr (fun c n => c.utf8Size + n) 0

@[simp] theorem byteLength_nil : byteLength [] = 0 := rfl

@[simp] theorem byteLength_cons (c : Char) (cs : List Char) :
    byteLength (c :: cs) = c.utf8Size + byteLength cs := rfl

@[simp] theorem byteLength_append (as bs : List Char) :
    byteLength (as ++ bs) = byteLength as + byteLength bs := by
  induction as with
  | nil => exact (Nat.zero_add _).symm
  | cons c as ih => rw [List.cons_append, byteLength_cons, byteLength_cons, ih, Nat.add_assoc]

/-- A half-open stretch of a text, in bytes. -/
structure Span where
  start : Nat
  /-- Offset just past the last byte. -/
  stop : Nat
deriving DecidableEq, Repr, Inhabited

namespace Span

/-- The span of `cs` when it begins at `start`. -/
def covering (start : Nat) (cs : List Char) : Span :=
  ⟨start, start + byteLength cs⟩

/-- Whether the span holds no byte. -/
def isEmpty (s : Span) : Bool :=
  s.stop ≤ s.start

end Span

/-- What follows the first `n` bytes, if these end between two characters. -/
def dropBytes : Nat → List Char → Option (List Char)
  | 0, cs => some cs
  | _ + 1, [] => none
  | n + 1, c :: cs => if c.utf8Size ≤ n + 1 then dropBytes (n + 1 - c.utf8Size) cs else none

/-- The first `n` bytes, if these end between two characters. -/
def takeBytes : Nat → List Char → Option (List Char)
  | 0, _ => some []
  | _ + 1, [] => none
  | n + 1, c :: cs =>
    if c.utf8Size ≤ n + 1 then (takeBytes (n + 1 - c.utf8Size) cs).map (c :: ·) else none

/-- The characters of a span, if both its ends fall between two characters. -/
def slice (cs : List Char) (s : Span) : Option (List Char) :=
  if s.start ≤ s.stop then (dropBytes s.start cs).bind (takeBytes (s.stop - s.start)) else none

theorem dropBytes_append (as bs : List Char) :
    dropBytes (byteLength as) (as ++ bs) = some bs := by
  induction as with
  | nil => cases bs <;> rfl
  | cons c as ih =>
    have h : 0 < c.utf8Size := Char.utf8Size_pos c
    obtain ⟨n, hn⟩ : ∃ n, byteLength (c :: as) = n + 1 := ⟨c.utf8Size + byteLength as - 1, by simp; omega⟩
    have hle : c.utf8Size ≤ n + 1 := by rw [← hn]; simp
    have hsub : n + 1 - c.utf8Size = byteLength as := by rw [← hn]; simp
    rw [hn, List.cons_append, dropBytes, if_pos hle, hsub, ih]

theorem takeBytes_append (as bs : List Char) :
    takeBytes (byteLength as) (as ++ bs) = some as := by
  induction as with
  | nil => cases bs <;> rfl
  | cons c as ih =>
    have h : 0 < c.utf8Size := Char.utf8Size_pos c
    obtain ⟨n, hn⟩ : ∃ n, byteLength (c :: as) = n + 1 := ⟨c.utf8Size + byteLength as - 1, by simp; omega⟩
    have hle : c.utf8Size ≤ n + 1 := by rw [← hn]; simp
    have hsub : n + 1 - c.utf8Size = byteLength as := by rw [← hn]; simp
    rw [hn, List.cons_append, takeBytes, if_pos hle, hsub, ih, Option.map_some]

/-- Slicing a middle part out of a text gives that part. -/
theorem slice_append (as bs cs : List Char) :
    slice (as ++ (bs ++ cs)) (Span.covering (byteLength as) bs) = some bs := by
  simp [slice, Span.covering, dropBytes_append, takeBytes_append]

end RenpyScript
