import Precedence.Command.Report
import Precedence.Text.Classes

/-!
# The benchmark

The benchmark times the lexer on programs of growing size, each ten times the one before, and prints
one line with the mean time for each.
-/

namespace Precedence.Command.Benchmark

/-- The smallest program. -/
def seed : String := "1+1+1+1+1+1+1+1+1+1+"

/-- The program of a given index: ten to that power times the seed. -/
def program (index : Nat) : String := String.join (List.replicate (Nat.pow 10 index) seed)

/-- The number of bytes of a program. -/
def programSize (index : Nat) : Nat := seed.utf8ByteSize * Nat.pow 10 index

/-- A fraction with a fixed number of places, written without the zeros at its end. -/
def fixedPoint (value places : Nat) : String :=
  let digits := Nat.toDigits 10 (value % Nat.pow 10 places)
  let padded := List.replicate (places - digits.length) '0' ++ digits
  match Text.dropTrailing (· = '0') padded with
  | [] => toString (value / Nat.pow 10 places)
  | shown => toString (value / Nat.pow 10 places) ++ "." ++ String.ofList shown

/-- A time in the largest unit that leaves a whole part. -/
def duration (nanoseconds : Nat) : String :=
  if 1000000000 ≤ nanoseconds then fixedPoint nanoseconds 9 ++ "s"
  else if 1000000 ≤ nanoseconds then fixedPoint nanoseconds 6 ++ "ms"
  else if 1000 ≤ nanoseconds then fixedPoint nanoseconds 3 ++ "µs"
  else fixedPoint nanoseconds 0 ++ "ns"

/-- The number that the total time is divided by: the number of runs, or one if there are none, in
32 bits. -/
def divisor (runs : Nat) : UInt32 := UInt32.ofNat (max runs 1)

/-- The mean time of a run.  There is none if the divisor is zero. -/
def mean? (runs total : Nat) : Option Nat :=
  if divisor runs = 0 then none else some (total / (divisor runs).toNat)

/-- The line for a program: its size and the mean time. -/
def line (index mean : Nat) : String :=
  "sqy time >> " ++ toString (programSize index) ++ " bytes: " ++ duration mean ++ "\n"

/-- The message on a mean that cannot be taken.  As in `Report.brokenOff`, the lines around it are
left out. -/
def noMean : String := "divide by zero error when dividing duration by scalar\n"

/-- The error that ends the benchmark at a program.  Without runs the program is never read. -/
def rejected? (runs index : Nat) : Option Error :=
  if runs = 0 then none
  else
    match tokenize (program index) none with
    | .ok _ => none
    | .error error => some error

/-- The line for a program whose runs took the given time in all, or the exit code and the problem
that end the benchmark. -/
def measured (runs index total : Nat) : Except (Nat × String) String :=
  match rejected? runs index, mean? runs total with
  | some error, _ =>
    match error.diagnostic? (program index) with
    | some text => .error (0, text)
    | none => .error (101, tooWide)
  | none, none => .error (101, noMean)
  | none, some mean => .ok (line index mean)

/-- Goes on with the programs from `index` on, after the lines in `output`. -/
def measureFrom (runs : Nat) (elapsed : Nat → Nat) : (sizes index : Nat) → (output : String) → Report
  | 0, _, output => ⟨0, output, ""⟩
  | sizes + 1, index, output =>
    match measured runs index (elapsed index) with
    | .ok line => measureFrom runs elapsed sizes (index + 1) (output ++ line)
    | .error (exitCode, problem) => ⟨exitCode, output, problem⟩

/-- Times `runs` runs on each of so many programs, where the runs on the program of an index take
the given time in all. -/
def measure (runs sizes : Nat) (elapsed : Nat → Nat) : Report :=
  measureFrom runs elapsed sizes 0 ""

end Precedence.Command.Benchmark
