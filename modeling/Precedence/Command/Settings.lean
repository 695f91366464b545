/-!
# Settings

The arguments of the program are flags, options with a value, and at most one expression.  An option
takes its value from the same argument, after an equals sign, or from the next one.  After the
argument `--` every argument is an expression.  Each flag and each option may be given once, and all
arguments are checked, whatever they ask for.
-/

namespace Precedence.Command

/-- Why a row of arguments is refused. -/
inductive UsageError where
  | unknownArgument (argument : String)
  | repeatedArgument (argument : String)
  | unexpectedValue (argument : String)
  | missingValue (argument : String)
  | invalidNumber (text : String)
  | tooManyExpressions (argument : String)
  deriving DecidableEq

/-- The report on refused arguments. -/
def UsageError.message : UsageError → String
  | .unknownArgument argument => "unexpected argument " ++ argument
  | .repeatedArgument argument => argument ++ " is given more than once"
  | .unexpectedValue argument => argument ++ " takes no value"
  | .missingValue argument => argument ++ " needs a value"
  | .invalidNumber text => text ++ " is not a number in range"
  | .tooManyExpressions argument => "a second expression " ++ argument

/-- An argument that stands alone. -/
inductive Flag where
  | console
  | samples
  | benchmark
  /-- Trees are shown instead of tokens. -/
  | tree
  deriving DecidableEq

/-- What the arguments ask for. -/
structure Settings where
  expression : Option String := none
  /-- The flags that are given, the latest first. -/
  flags : List Flag := []
  /-- The name of a file. -/
  input : Option String := none
  /-- The number of runs on each program of the benchmark. -/
  runs : Option Nat := none
  /-- The number of programs of the benchmark. -/
  sizes : Option Nat := none
  deriving DecidableEq

/-- An argument that takes a value. -/
inductive Valued where
  | input
  | runs
  | sizes
  deriving DecidableEq

/-- The flag with a given name. -/
def flag? : String → Option Flag
  | "--console" => some .console
  | "--example" => some .samples
  | "--bench" => some .benchmark
  | "--ast" => some .tree
  | _ => none

/-- The option with a given name. -/
def valued? : String → Option Valued
  | "--input" => some .input
  | "--repeat" => some .runs
  | "--factor" => some .sizes
  | _ => none

/-- Reads decimal digits, of which there is at least one. -/
def readDigits? (text : List Char) : Option Nat :=
  if text.isEmpty || !text.all Char.isDigit then none
  else some (text.foldl (fun value digit => 10 * value + (digit.toNat - '0'.toNat)) 0)

/-- Drops a plus sign at the front. -/
def dropPlus : List Char → List Char
  | '+' :: rest => rest
  | text => text

/-- A number that is below the bound. -/
def below (bound : Nat) (number : Option Nat) : Option Nat :=
  number.filter (· < bound)

/-- Reads a number of runs, which has 64 bits. -/
def readRuns? (text : List Char) : Option Nat := below 18446744073709551616 (readDigits? (dropPlus text))

/-- Reads a number of programs, which has 32 bits.  A minus sign may stand before zero. -/
def readSizes? : List Char → Option Nat
  | '-' :: digits => below 1 (readDigits? digits)
  | text => below 4294967296 (readDigits? (dropPlus text))

namespace Settings

/-- Whether a flag is given. -/
def has (settings : Settings) (flag : Flag) : Bool := flag ∈ settings.flags

/-- Takes in a flag. -/
def raise (settings : Settings) (argument : String) (flag : Flag) : Except UsageError Settings :=
  if settings.has flag then .error (.repeatedArgument argument)
  else .ok { settings with flags := flag :: settings.flags }

/-- Takes in an option with its value, which must not be empty. -/
def assign (settings : Settings) (argument : String) (value : List Char) :
    Valued → Except UsageError Settings
  | .input =>
    if settings.input.isSome then .error (.repeatedArgument argument)
    else if value.isEmpty then .error (.missingValue argument)
    else .ok { settings with input := some (String.ofList value) }
  | .runs =>
    if settings.runs.isSome then .error (.repeatedArgument argument)
    else
      match readRuns? value with
      | none => .error (.invalidNumber (String.ofList value))
      | some runs => .ok { settings with runs := some runs }
  | .sizes =>
    if settings.sizes.isSome then .error (.repeatedArgument argument)
    else
      match readSizes? value with
      | none => .error (.invalidNumber (String.ofList value))
      | some sizes => .ok { settings with sizes := some sizes }

/-- Takes in the expression. -/
def express (settings : Settings) (argument : String) : Except UsageError Settings :=
  if settings.expression.isSome then .error (.tooManyExpressions argument)
  else .ok { settings with expression := some argument }

/-- Whether an argument is a flag or an option.  A lone hyphen is not. -/
def isOption (argument : String) : Bool :=
  match argument.toList with
  | '-' :: _ :: _ => true
  | _ => false

/-- The value within an argument, after the first equals sign. -/
def attached? (argument : String) : Option (List Char) :=
  match argument.toList.dropWhile (· ≠ '=') with
  | [] => none
  | _ :: value => some value

/-- The name within an argument, before the first equals sign. -/
def optionName (argument : String) : String := String.ofList (argument.toList.takeWhile (· ≠ '='))

/-- Takes in the arguments that are left. -/
def readFrom (settings : Settings) : List String → Except UsageError Settings
  | [] => .ok settings
  | argument :: rest =>
    if argument = "--" then rest.foldlM express settings
    else if !isOption argument then do readFrom (← settings.express argument) rest
    else
      match flag? (optionName argument) with
      | some flag =>
        if (attached? argument).isSome then .error (.unexpectedValue argument)
        else do readFrom (← settings.raise argument flag) rest
      | none =>
        match valued? (optionName argument) with
        | none => .error (.unknownArgument argument)
        | some option =>
          match attached? argument, rest with
          | some value, rest => do readFrom (← settings.assign argument value option) rest
          | none, [] => .error (.missingValue argument)
          | none, value :: rest =>
            if isOption value then .error (.missingValue argument)
            else do readFrom (← settings.assign argument value.toList option) rest

/-- Reads the arguments of the program. -/
def read (arguments : List String) : Except UsageError Settings := readFrom {} arguments

end Settings

end Precedence.Command
