import Precedence.Command.Benchmark
import Precedence.Command.Console
import Precedence.Command.Settings

/-!
# Commands

Of all that the arguments ask for, one mode is carried out: the console before a file, a file before
the samples, the samples before the benchmark, the benchmark before an expression.  Without any of
them the console is opened.
-/

namespace Precedence

namespace Command

/-- What the program does. -/
inductive Mode where
  | console (tree : Bool)
  | file (name : String) (tree : Bool)
  | samples
  | benchmark (runs sizes : Nat)
  | expression (text : String)
  deriving DecidableEq

/-- The mode that the settings call for. -/
def Settings.mode (settings : Settings) : Mode :=
  let tree := settings.has .tree
  if settings.has .console then .console tree
  else
    match settings.input with
    | some name => .file name tree
    | none =>
      if settings.has .samples then .samples
      else if settings.has .benchmark then
        .benchmark (settings.runs.getD 1000) (settings.sizes.getD 1)
      else
        match settings.expression with
        | some text => .expression text
        | none => .console tree

/-- What a command can learn from outside. -/
structure World where
  /-- The bytes of the standard input. -/
  input : ByteArray
  /-- The bytes of a file, if it can be read. -/
  contents : String → Option ByteArray
  /-- The nanoseconds that all runs of the benchmark on the program of an index take. -/
  elapsed : Nat → Nat

/-- Answers the text of a file, after showing it. -/
def onFile (name : String) (tree : Bool) (contents : Option ByteArray) : Report :=
  match contents.bind String.fromUTF8? with
  | none => ⟨1, "", "Failed to read " ++ name ++ "\n"⟩
  | some text =>
    let response := respond tree text name
    { response with output := text ++ "\n" ++ response.output }

/-- The programs that are shown as examples. -/
def sampleTexts : List String := ["suma (a,b |c) :: c:a+b", "lista <- [1,2,3,4,5,6]"]

/-- Adds the tokens of a sample to a report.  One failing sample makes the whole report fail, and
none is added to a report that broke off. -/
def addSample (report : Report) (sample : String) : Report :=
  let response := respond false sample "example"
  if report.breaksOff then report
  else
    { exitCode := max report.exitCode response.exitCode
      output := report.output ++ Console.prompt ++ sample ++ "\n" ++ response.output
      errors := report.errors ++ response.errors }

/-- Lists the tokens of the samples. -/
def onSamples : Report := sampleTexts.foldl addSample ⟨0, "", ""⟩

/-- Shows the tree of an expression beside the expression. -/
def onExpression (text : String) : Report :=
  match parse text none with
  | .ok tree => ⟨0, text ++ " -> Expression " ++ tree.render ++ "\n", ""⟩
  | .error failure => .ofFailure text failure

/-- Carries out a mode. -/
def Mode.run (world : World) : Mode → Report
  | .console tree => Console.session tree world.input
  | .file name tree => onFile name tree (world.contents name)
  | .samples => onSamples
  | .benchmark runs sizes => Benchmark.measure runs sizes world.elapsed
  | .expression text => onExpression text

/-- Carries out what the arguments ask for, unless they are refused. -/
def run (world : World) (arguments : List String) : Except UsageError Report :=
  (Settings.read arguments).map fun settings => settings.mode.run world

end Command

end Precedence
