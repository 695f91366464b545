import Precedence.Error
import Precedence.Lexeme
import Precedence.Text.Width

/-!
# The lexer

A lexer walks over one source and yields its tokens on demand: the opening token, each lexeme with
its span, and the closing token.  A character that begins no lexeme is reported once and ends the
walk.

The scan offset can also be moved on by a count of bytes.  It may then pass the end of the source,
where the lexer sees no more text, or fall inside a character, where nothing can be read until it is
moved on.
-/

namespace Precedence

open Text

namespace Lexer

/-- How far a walk has come. -/
inductive Phase where
  /-- The opening token is still due. -/
  | start
  | scanning
  /-- The closing token or an error has been yielded. -/
  | finished
  deriving DecidableEq

/-- What a walk yields: a token, or the error that ends it. -/
abbrev Item := Except Error Token

/-- The outcome of asking for the next item. -/
inductive Pull where
  | item (item : Item)
  /-- The walk is over. -/
  | done
  /-- The scan offset lies inside a character. -/
  | astray

end Lexer

/-- A walk over one source. -/
structure Lexer where
  /-- The name of the source. -/
  file : String
  /-- The length of the source in bytes. -/
  length : Nat
  /-- The number of bytes passed, which may exceed the length. -/
  offset : Nat
  /-- The text from the first character that is not passed as a whole. -/
  ahead : List Char
  /-- How many bytes of the first character ahead are passed. -/
  inside : Nat
  phase : Lexer.Phase

namespace Lexer

/-- The name of a source that was given none. -/
def defaultFile : String := "shell"

/-- A lexer at the beginning of a source. -/
def ofSource (source : String) (file : Option String) : Lexer where
  file := file.getD defaultFile
  length := source.utf8ByteSize
  offset := 0
  ahead := source.toList
  inside := 0
  phase := .start

/-- Whether all text is passed. -/
def atEnd (lexer : Lexer) : Bool := lexer.ahead.isEmpty

/-- Moves the scan offset on by a count of bytes. -/
def moveOn (lexer : Lexer) (bytes : Nat) : Lexer :=
  let (ahead, inside) := skipBytes (lexer.inside + bytes) lexer.ahead
  { lexer with offset := lexer.offset + bytes, ahead, inside }

/-- Moves the scan offset over the gap ahead. -/
def skipGap (lexer : Lexer) : Lexer :=
  { lexer with
    offset := lexer.offset + width (lexer.ahead.takeWhile Lexeme.isGap)
    ahead := lexer.ahead.dropWhile Lexeme.isGap }

/-- Yields what stands at the scan offset, where no gap is ahead. -/
def scan (lexer : Lexer) : Item × Lexer :=
  match lexer.ahead with
  | [] => (.ok (.closing lexer.length lexer.file), { lexer with phase := .finished })
  | character :: _ =>
    match Lexeme.classify? lexer.ahead with
    | none =>
      (.error ⟨.unexpectedCharacter character, ⟨lexer.offset, lexer.file⟩⟩,
        { lexer with phase := .finished })
    | some (kind, lexeme) =>
      let stop := lexer.offset + width lexeme
      (.ok ⟨kind, String.ofList lexeme, ⟨lexer.offset, stop, lexer.file⟩⟩,
        { lexer with offset := stop, ahead := lexer.ahead.drop lexeme.length })

/-- Yields the next item. -/
def next (lexer : Lexer) : Pull × Lexer :=
  match lexer.phase with
  | .start => (.item (.ok (.opening lexer.file)), { lexer with phase := .scanning })
  | .finished => (.done, lexer)
  | .scanning =>
    if lexer.inside = 0 then
      let (item, lexer) := lexer.skipGap.scan
      (.item item, lexer)
    else (.astray, lexer)

/-- Yields items until no more can be had, at most `count` of them, and puts them before those
found already, the latest first. -/
def collect : Nat → Lexer → List Item → List Item × Lexer
  | 0, lexer, found => (found, lexer)
  | count + 1, lexer, found =>
    match lexer.next with
    | (.item item, lexer) => collect count lexer (item :: found)
    | (.done, lexer) | (.astray, lexer) => (found, lexer)

/-- Yields all items that can still be had.  Each item but the first and the last takes at least one
character, so two more than the characters ahead are enough. -/
def drain (lexer : Lexer) : List Item × Lexer :=
  let (found, lexer) := lexer.collect (lexer.ahead.length + 2) []
  (found.reverse, lexer)

/-- The items that the lexer still yields. -/
def items (lexer : Lexer) : List Item := lexer.drain.1

end Lexer

/-- The tokens of a source, the opening and the closing one included, or the error that ends the
walk. -/
def tokenize (source : String) (file : Option String) : Except Error (List Token) :=
  (Lexer.ofSource source file).items.mapM id

end Precedence
