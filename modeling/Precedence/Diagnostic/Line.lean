import Precedence.Text.Classes
import Precedence.Text.Width

/-!
# Source lines

A line feed ends a line and belongs to it, so every offset of a source lies on exactly one line; the
offset at the end of the source lies after its last line feed.
-/

namespace Precedence.Diagnostic

open Text

/-- A source line with a place on it. -/
structure Line where
  /-- The place of the line among the lines of its source, from one on. -/
  number : Nat
  /-- The characters of the line without what ends it. -/
  text : List Char
  /-- The byte offset of the place from the beginning of the line. -/
  column : Nat
  deriving DecidableEq

/-- Puts a character before lines: a line feed ends an empty line before them, any other character
comes to stand on the first of them. -/
def putBefore (c : Char) (lines : List (List Char)) : List (List Char) :=
  if c = '\n' then [] :: lines else (c :: lines.headD []) :: lines.tail

/-- The lines of a text without the line feeds that end all of them but the last. -/
def cutLines (text : List Char) : List (List Char) := text.foldr putBefore [[]]

/-- Drops the carriage returns at the end. -/
def dropReturns (text : List Char) : List Char := dropTrailing (· = '\r') text

/-- The line that holds a byte offset from the beginning of the lines, of which the first has the
given number.  Carriage returns at the end of a line are dropped unless the offset is the end of the
last line. -/
def lineAmong (number offset : Nat) : List (List Char) → Option Line
  | [] => none
  | [last] =>
    if offset < width last then some ⟨number, dropReturns last, offset⟩
    else if offset = width last then some ⟨number, last, offset⟩
    else none
  | line :: next :: rest =>
    if offset ≤ width line then some ⟨number, dropReturns line, offset⟩
    else lineAmong (number + 1) (offset - (width line + 1)) (next :: rest)

/-- The line that holds a byte offset of the source.  There is none beyond the end. -/
def lineAt? (source : String) (offset : Nat) : Option Line :=
  lineAmong 1 offset (cutLines source.toList)

end Precedence.Diagnostic
