import Precedence.Command

/-!
# The program

Connects the commands with the standard streams, the files and the clock.
-/

namespace Precedence.Command

/-- Writes a report and returns its exit code. -/
def emit (report : Report) : IO UInt32 := do
  let output ← IO.getStdout
  let errors ← IO.getStderr
  output.putStr report.output
  output.flush
  errors.putStr report.errors
  return report.exitCode.toUInt32

/-- Reads bytes up to a line feed, which is kept, or to the end of the stream. -/
partial def readLine (input : IO.FS.Stream) (line : ByteArray) : IO ByteArray := do
  let bytes ← input.read 1
  if bytes.isEmpty then return line
  else if bytes.data.contains 10 then return line ++ bytes
  else readLine input (line ++ bytes)

/-- Answers the lines of the standard input one by one as they come in. -/
partial def converseLive (tree : Bool) : IO UInt32 := do
  let _ ← emit ⟨0, Console.prompt, ""⟩
  match Console.inputLines (← readLine (← IO.getStdin) .empty) with
  | [] => return 0
  | none :: _ => emit ⟨1, "", Console.unreadable⟩
  | some line :: _ =>
    match Console.reply? tree line with
    | none => return 0
    | some reply =>
      let exitCode ← emit reply
      if reply.breaksOff then return exitCode else converseLive tree

/-- Adds the nanoseconds that so many runs on a program take to a total.  A rejected program is not
run again. -/
def timeRuns (program : String) : (runs total : Nat) → IO Nat
  | 0, total => return total
  | runs + 1, total => do
    let start ← IO.monoNanosNow
    match tokenize program none with
    | .error _ => return total
    | .ok _ =>
      let stop ← IO.monoNanosNow
      timeRuns program runs (total + (stop - start))

/-- Times the programs from `index` on and prints a line for each. -/
def measureLive (runs : Nat) : (sizes index : Nat) → IO UInt32
  | 0, _ => return 0
  | sizes + 1, index => do
    match Benchmark.measured runs index (← timeRuns (Benchmark.program index) runs 0) with
    | .ok line =>
      let _ ← emit ⟨0, line, ""⟩
      measureLive runs sizes (index + 1)
    | .error (exitCode, problem) => emit ⟨exitCode, "", problem⟩

/-- The bytes of a file, if it can be read. -/
def fileContents (name : String) : IO (Option ByteArray) :=
  try some <$> IO.FS.readBinFile name catch _ => pure none

/-- Carries out a mode. -/
def Mode.perform : Mode → IO UInt32
  | .console tree => do
    let _ ← emit ⟨0, Console.banner tree, ""⟩
    converseLive tree
  | .file name tree => do emit (onFile name tree (← fileContents name))
  | .samples => emit onSamples
  | .benchmark runs sizes => measureLive runs sizes 0
  | .expression text => emit (onExpression text)

end Precedence.Command

open Precedence.Command in
/-- Carries out what the arguments ask for.  Refused arguments end the program with exit code 2. -/
def main (arguments : List String) : IO UInt32 := do
  match Settings.read arguments with
  | .ok settings => settings.mode.perform
  | .error problem => emit ⟨2, "", problem.message ++ "\n"⟩
