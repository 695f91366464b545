import Precedence.Diagnostic
import Precedence.Expr.Render
import Precedence.Parser.Expression

/-!
# Reports

What a command leaves behind: an exit code and two texts, one for the result and one for problems.
Most commands read one source and report the tree or the tokens that it holds.
-/

namespace Precedence.Command

/-- The outcome of a command. -/
structure Report where
  exitCode : Nat
  output : String
  errors : String
  deriving DecidableEq

/-- What is left of a command that breaks off: the message on why it did.  The lines around the
message, which name the place in the program and tell how to trace the calls, are left out. -/
def Report.brokenOff (message : String) : Report := ⟨101, "", message⟩

/-- Whether the command broke off.  Nothing follows then. -/
def Report.breaksOff (report : Report) : Bool := report.exitCode = 101

/-- The message on a diagnostic that cannot be written. -/
def tooWide : String := "Formatting argument out of range\n"

/-- A listing of tokens. -/
def listing (tokens : List Token) : String :=
  "[" ++ ", ".intercalate (tokens.map Token.text) ++ "]"

/-- The tree or the tokens of a source, in written form. -/
def answer (tree : Bool) (source file : String) : Except Failure String :=
  if tree then (parse source (some file)).map Expr.render
  else ((tokenize source (some file)).map listing).mapError Failure.error

/-- The diagnostic of a failure, if it can be written.  An endless run leaves nothing to point at;
it does not occur with the arithmetic grammar, where the closing token joins no operands. -/
def diagnostic? (source : String) : Failure → Option String
  | .error error => error.diagnostic? source
  | .endless => some ""

/-- Reports why there is no answer.  The command breaks off if that cannot be written. -/
def Report.ofFailure (source : String) (failure : Failure) : Report :=
  match diagnostic? source failure with
  | some text => ⟨1, "", text⟩
  | none => .brokenOff tooWide

/-- Reports an answer with an empty line after it, or why there is none. -/
def Report.ofAnswer (source : String) : Except Failure String → Report
  | .ok text => ⟨0, text ++ "\n\n", ""⟩
  | .error failure => .ofFailure source failure

/-- Reads one source and reports the outcome. -/
def respond (tree : Bool) (source file : String) : Report :=
  .ofAnswer source (answer tree source file)

end Precedence.Command
