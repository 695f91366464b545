/-!
# Widths in UTF-8 bytes

Positions in a source count the bytes of its UTF-8 form, while scanning goes character by character.
`width` measures a piece of text in bytes, and `skipBytes` and `charsWithin?` say where a count of
bytes falls among the characters.
-/

namespace Precedence.Text

/-- The number of bytes that the characters take in UTF-8. -/
def width (text : List Char) : Nat :=
  text.foldl (fun total c => total + c.utf8Size) 0

theorem foldl_utf8Size (text : List Char) (start : Nat) :
    text.foldl (fun total c => total + c.utf8Size) start = start + width text := by
  induction text generalizing start with
  | nil => rfl
  | cons c rest ih =>
    simp only [width, List.foldl_cons]
    rw [ih, ih (0 + c.utf8Size)]
    omega

@[simp]
theorem width_nil : width [] = 0 := rfl

@[simp]
theorem width_cons (c : Char) (rest : List Char) : width (c :: rest) = c.utf8Size + width rest := by
  rw [width, List.foldl_cons, foldl_utf8Size]
  omega

@[simp]
theorem width_append (left right : List Char) : width (left ++ right) = width left + width right := by
  induction left with
  | nil => simp
  | cons c rest ih => simp [ih, Nat.add_assoc]

/-- Drops the characters that lie within the first `bytes` bytes.  The number beside the remaining
text tells how many bytes of its first character are passed as well. -/
def skipBytes : Nat → List Char → List Char × Nat
  | _, [] => ([], 0)
  | bytes, c :: rest =>
    if c.utf8Size ≤ bytes then skipBytes (bytes - c.utf8Size) rest else (c :: rest, bytes)

/-- How many characters fill the first `bytes` bytes exactly.  There is no such number when the text
is shorter or the count ends inside a character. -/
def charsWithin? (text : List Char) (bytes : Nat) : Option Nat :=
  loop text bytes 0
where
  /-- Counts on from `seen` characters. -/
  loop : List Char → Nat → Nat → Option Nat
    | _, 0, seen => some seen
    | [], _, _ => none
    | c :: rest, bytes, seen =>
      if c.utf8Size ≤ bytes then loop rest (bytes - c.utf8Size) (seen + 1) else none

end Precedence.Text
