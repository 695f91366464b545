import Precedence.Command.Report
import Precedence.Text.Classes

/-!
# The console

The console answers its input line by line.  Each line is a source of its own: a line that cannot be
read as an expression is reported, and the next line is answered as if it had not been there.  Only
a report that cannot be written breaks the session off.  Two lines are commands, `exit` and `clear`,
which may have blanks around them.
-/

namespace Precedence.Command.Console

/-- The text of bytes that are given backwards, if they are UTF-8. -/
def decodeReversed? (bytes : List UInt8) : Option String :=
  String.fromUTF8? bytes.reverse.toByteArray

/-- Drops the carriage return that comes last in a line, of which the bytes are given backwards. -/
def dropReturn : List UInt8 → List UInt8
  | 13 :: rest => rest
  | line => line

/-- Cuts bytes into lines.  A line feed ends a line together with a carriage return before it; bytes
after the last line feed are a line as well.  The bytes of the current line and the lines before it
are kept backwards. -/
def linesFrom (line : List UInt8) (lines : List (Option String)) :
    List UInt8 → List (Option String)
  | [] => (if line.isEmpty then lines else decodeReversed? line :: lines).reverse
  | byte :: rest =>
    if byte = 10 then linesFrom [] (decodeReversed? (dropReturn line) :: lines) rest
    else linesFrom (byte :: line) lines rest

/-- The lines of an input; one that is not UTF-8 cannot be read. -/
def inputLines (input : ByteArray) : List (Option String) := linesFrom [] [] input.data.toList

/-- The lines that open a session. -/
def banner (tree : Bool) : String :=
  "Squanchy PL " ++ (if tree then "Parser" else "Lexer") ++ " Test\nv0.1.0\n\n"

/-- What asks for a line. -/
def prompt : String := ">> "

/-- The control sequence that empties the screen. -/
def clearScreen : String := "\x1b[2J\x1b[1;1H"

/-- The report on a line that is not UTF-8. -/
def unreadable : String := "Failed to read input: stream did not contain valid UTF-8\n"

/-- The reply to a line.  There is none to the line that ends the session. -/
def reply? (tree : Bool) (line : String) : Option Report :=
  let command := Text.trim line.toList
  if command = ['e', 'x', 'i', 't'] then none
  else if command = ['c', 'l', 'e', 'a', 'r'] then some ⟨0, clearScreen, ""⟩
  else some (respond tree line "shell")

/-- Carries a session on from what was written before. -/
def converse (tree : Bool) : List (Option String) → (output errors : String) → Report
  | [], output, errors => ⟨0, output ++ prompt, errors⟩
  | none :: _, output, errors => ⟨1, output ++ prompt, errors ++ unreadable⟩
  | some line :: rest, output, errors =>
    match reply? tree line with
    | none => ⟨0, output ++ prompt, errors⟩
    | some reply =>
      let output := output ++ prompt ++ reply.output
      let errors := errors ++ reply.errors
      if reply.breaksOff then ⟨reply.exitCode, output, errors⟩
      else converse tree rest output errors

/-- A whole session. -/
def session (tree : Bool) (input : ByteArray) : Report :=
  converse tree (inputLines input) (banner tree) ""

end Precedence.Command.Console
