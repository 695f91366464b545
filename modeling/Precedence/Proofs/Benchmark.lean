import Precedence.Proofs.Caret
import Precedence.Proofs.Seam
import Precedence.Proofs.Session
import Precedence.Proofs.Splitting

/-!
# The benchmark

The benchmark writes one line for each of its programs.  The programs consist of characters that are
lexemes by themselves, so the lexer reads them at any length and none is ever reported.  What can
stop the benchmark is the mean.  The number of runs has 64 bits and is cut to 32 before it divides:
where those are all zero there is no mean, and the benchmark ends before its first line.
-/

namespace Precedence.Command

open Diagnostic Lexeme Text

namespace Benchmark

/-! ## The programs -/

/-- Characters that stand alone make up a source that is read, however many there are. -/
theorem exists_tokenize_of_single {source : String} (file : Option String)
    (hsource : ∀ c ∈ source.toList, isSingle c = true) :
    ∃ row, tokenize source file = .ok row := by
  obtain ⟨tokens, stop, left, hscan, hend⟩ :=
    Scan.exists_scan (Lexer.fileName file) 0 source.toList
  have hdivided : Divided source.toList := by
    simpa using Divided.singles hsource .nil
  obtain rfl : left = [] := (hscan.divided hdivided).eq_nil hscan.stops hend
  exact ⟨_, tokenize_of_scan hscan hend⟩

/-- The seed is read as often as it is repeated. -/
theorem exists_tokenize_repeated (count : Nat) (file : Option String) :
    ∃ row, tokenize (String.join (List.replicate count seed)) file = .ok row := by
  have hseed : ∀ c ∈ seed.toList, isSingle c = true :=
    List.all_eq_true.mp (by decide +kernel)
  apply exists_tokenize_of_single
  intro c hc
  rw [String.toList_join, List.mem_flatMap] at hc
  obtain ⟨word, hword, hc⟩ := hc
  rw [List.eq_of_mem_replicate hword] at hc
  exact hseed c hc

theorem rejected?_eq_none (runs index : Nat) : rejected? runs index = none := by
  obtain ⟨row, hrow⟩ := exists_tokenize_repeated (Nat.pow 10 index) none
  rw [rejected?, program, hrow, ite_self]

theorem utf8ByteSize_repeated (text : String) (count : Nat) :
    (String.join (List.replicate count text)).utf8ByteSize = text.utf8ByteSize * count := by
  induction count with
  | zero => rfl
  | succ count ih =>
      rw [List.replicate_succ, String.join_cons, String.utf8ByteSize_append, ih, Nat.mul_succ,
        Nat.add_comm]

theorem programSize_eq (index : Nat) : programSize index = 20 * 10 ^ index := rfl

theorem utf8ByteSize_program (index : Nat) : (program index).utf8ByteSize = 20 * 10 ^ index :=
  utf8ByteSize_repeated seed (Nat.pow 10 index)

/-! ## The mean -/

theorem toNat_divisor (runs : Nat) : (divisor runs).toNat = max runs 1 % 2 ^ 32 :=
  UInt32.toNat_ofNat'

theorem divisor_eq_zero_iff {runs : Nat} : divisor runs = 0 ↔ 2 ^ 32 ∣ max runs 1 := by
  rw [← UInt32.toNat_inj, toNat_divisor, Nat.dvd_iff_mod_eq_zero]
  rfl

/-- The mean is that of all runs exactly if their number fits into 32 bits. -/
theorem toNat_divisor_eq_iff {runs : Nat} : (divisor runs).toNat = max runs 1 ↔ runs < 2 ^ 32 := by
  rw [toNat_divisor, Nat.mod_eq_iff_lt (by decide)]
  omega

/-! ## The lines -/

/-- The line for the program of an index, without its end. -/
def row (index mean : Nat) : List Char :=
  ("sqy time >> " ++ toString (20 * 10 ^ index) ++ " bytes: " ++ duration mean).toList

theorem toList_line (index mean : Nat) : (line index mean).toList = row index mean ++ ['\n'] := by
  rw [line, programSize_eq, String.toList_append]
  rfl

theorem not_mem_fixedPoint (value places : Nat) : '\n' ∉ (fixedPoint value places).toList := by
  have hwhole := not_mem_digits (c := '\n') (by decide) (value / Nat.pow 10 places)
  have hpadded : '\n' ∉ List.replicate (places - (Nat.toDigits 10 (value % Nat.pow 10 places)).length)
      '0' ++ Nat.toDigits 10 (value % Nat.pow 10 places) := by
    rw [List.mem_append]
    rintro (hzero | hdigit)
    · exact absurd (List.eq_of_mem_replicate hzero) (by decide)
    · exact absurd (Nat.isDigit_of_mem_toDigits (by decide) (by decide) hdigit) (by decide)
  rw [fixedPoint]
  split
  · exact hwhole
  · have hpoint : '\n' ∉ ".".toList := by decide
    rw [String.toList_append, String.toList_append, List.mem_append, List.mem_append]
    rintro ((hmem | hmem) | hmem)
    · exact hwhole hmem
    · exact hpoint hmem
    · rw [String.toList_ofList] at hmem
      exact hpadded (mem_of_mem_dropTrailing hmem)

theorem not_mem_duration (nanoseconds : Nat) : '\n' ∉ (duration nanoseconds).toList := by
  have hunits : ∀ unit ∈ ["s", "ms", "µs", "ns"], '\n' ∉ unit.toList := by decide
  have hwritten {value places : Nat} {unit : String} (hunit : unit ∈ ["s", "ms", "µs", "ns"]) :
      '\n' ∉ (fixedPoint value places ++ unit).toList := by
    rw [String.toList_append, List.mem_append, not_or]
    exact ⟨not_mem_fixedPoint value places, hunits unit hunit⟩
  rw [duration]
  split_ifs <;> exact hwritten (by simp)

theorem not_mem_row (index mean : Nat) : '\n' ∉ row index mean := by
  have hfront : '\n' ∉ "sqy time >> ".toList := by decide
  have hmiddle : '\n' ∉ " bytes: ".toList := by decide
  have hsize := not_mem_digits (c := '\n') (by decide) (20 * 10 ^ index)
  simp only [row, String.toList_append, List.mem_append, not_or]
  exact ⟨⟨⟨hfront, hsize⟩, hmiddle⟩, not_mem_duration mean⟩

/-! ## Runs of the benchmark -/

variable {runs : Nat} {elapsed : Nat → Nat}

/-- A program gets its line unless the mean cannot be taken. -/
theorem measured_eq (runs index total : Nat) : measured runs index total =
    if divisor runs = 0 then .error (101, noMean)
    else .ok (line index (total / (divisor runs).toNat)) := by
  rw [measured, rejected?_eq_none, mean?]
  split_ifs <;> rfl

/-- The lines from a program on are those of its index and the indices behind it. -/
theorem measureFrom_eq (hdivisor : divisor runs ≠ 0) (sizes index : Nat) (output : String) :
    measureFrom runs elapsed sizes index output =
      ⟨0, output ++ String.ofList (ended ((List.range' index sizes).map fun index =>
        row index (elapsed index / (divisor runs).toNat))), ""⟩ := by
  induction sizes generalizing index output with
  | zero => simp [measureFrom, ended]
  | succ sizes ih =>
      have hline (mean : Nat) : line index mean = String.ofList (row index mean ++ ['\n']) := by
        rw [← toList_line, String.ofList_toList]
      rw [measureFrom, measured_eq, if_neg hdivisor]
      dsimp only
      rw [ih, hline, List.range'_succ, List.map_cons, String.append_assoc, ← String.ofList_append]
      rfl

theorem measureFrom_of_divisor_eq_zero (hdivisor : divisor runs = 0) (sizes index : Nat)
    (output : String) :
    measureFrom runs elapsed (sizes + 1) index output = ⟨101, output, noMean⟩ := by
  rw [measureFrom, measured_eq, if_pos hdivisor]

end Benchmark

/-! ## Settings of the benchmark -/

/-- A written number does not begin with a sign, and reading its digits gives the number back. -/
theorem exists_digits (number : Nat) : ∃ first rest, (toString number).toList = first :: rest ∧
    first ≠ '+' ∧ first ≠ '-' ∧ readDigits? (first :: rest) = some number := by
  have hdigits : (toString number).toList = Nat.toDigits 10 number := by
    rw [Nat.toString_eq_repr, Nat.toList_repr]
  have hall : ∀ c ∈ Nat.toDigits 10 number, c.isDigit = true :=
    fun c => Nat.isDigit_of_mem_toDigits (by decide) (by decide)
  have hvalue := Nat.ofDigitChars_ten_toDigits (n := number)
  cases htext : Nat.toDigits 10 number with
  | nil => exact absurd htext Nat.toDigits_ne_nil
  | cons first rest =>
      rw [htext] at hdigits hall hvalue
      have hfirst := hall first List.mem_cons_self
      refine ⟨first, rest, hdigits, ?_, ?_, ?_⟩
      · rintro rfl
        contradiction
      · rintro rfl
        contradiction
      · rw [readDigits?, List.all_eq_true.mpr hall]
        exact congrArg some hvalue

theorem dropPlus_of_ne {c : Char} {rest : List Char} (hc : c ≠ '+') :
    dropPlus (c :: rest) = c :: rest := by
  unfold dropPlus
  split
  · next heq => exact absurd (List.cons.inj heq).1 hc
  · rfl

theorem readRuns?_toString {runs : Nat} (hruns : runs < 2 ^ 64) :
    readRuns? (toString runs).toList = some runs := by
  obtain ⟨first, rest, htext, hplus, -, hread⟩ := exists_digits runs
  rw [htext, readRuns?, dropPlus_of_ne hplus, hread]
  exact Option.filter_some_pos (decide_eq_true hruns)

theorem readSizes?_toString {sizes : Nat} (hsizes : sizes < 2 ^ 32) :
    readSizes? (toString sizes).toList = some sizes := by
  obtain ⟨first, rest, htext, hplus, hminus, hread⟩ := exists_digits sizes
  rw [htext]
  unfold readSizes?
  split
  · next heq => exact absurd (List.cons.inj heq).1 hminus
  · rw [dropPlus_of_ne hplus, hread]
    exact Option.filter_some_pos (decide_eq_true hsizes)

theorem isOption_toString (number : Nat) : Settings.isOption (toString number) = false := by
  obtain ⟨first, rest, htext, -, hminus, -⟩ := exists_digits number
  unfold Settings.isOption
  split
  · next heq =>
      rw [htext] at heq
      exact absurd (List.cons.inj heq).1 hminus
  · rfl

theorem readFrom_flag {settings next : Settings} {argument : String} {flag : Flag}
    (hoption : Settings.isOption argument = true)
    (hflag : flag? (Settings.optionName argument) = some flag)
    (hattached : Settings.attached? argument = none)
    (hraise : settings.raise argument flag = .ok next) (rest : List String) :
    settings.readFrom (argument :: rest) = next.readFrom rest := by
  have hdashes : argument ≠ "--" := by
    rintro rfl
    contradiction
  rw [Settings.readFrom, if_neg hdashes, hoption, hflag, hattached]
  dsimp only
  rw [hraise]
  rfl

/-- The value of an option may be a number in the argument behind it. -/
theorem readFrom_number {settings next : Settings} {argument : String} {option : Valued}
    {number : Nat} (hoption : Settings.isOption argument = true)
    (hflag : flag? (Settings.optionName argument) = none)
    (hvalued : valued? (Settings.optionName argument) = some option)
    (hattached : Settings.attached? argument = none)
    (hassign : settings.assign argument (toString number).toList option = .ok next)
    (rest : List String) :
    settings.readFrom (argument :: toString number :: rest) = next.readFrom rest := by
  have hdashes : argument ≠ "--" := by
    rintro rfl
    contradiction
  rw [Settings.readFrom, if_neg hdashes, hoption, hflag, hvalued, hattached]
  dsimp only
  rw [isOption_toString, hassign]
  rfl

/-- Every number of runs in 64 bits and every number of programs in 32 bits can be asked for. -/
theorem callFor_benchmark {runs sizes : Nat} (hruns : runs < 2 ^ 64) (hsizes : sizes < 2 ^ 32) :
    CallFor ["--bench", "--repeat", toString runs, "--factor", toString sizes]
      (.benchmark runs sizes) := by
  have hbench := @readFrom_flag {} { flags := [.benchmark] } "--bench" .benchmark (by decide)
    (by decide) (by decide) rfl
  have hrepeat : Settings.assign { flags := [.benchmark] } "--repeat" (toString runs).toList .runs =
      .ok { flags := [.benchmark], runs := some runs } := by
    rw [Settings.assign, readRuns?_toString hruns]
    rfl
  have hfactor : Settings.assign { flags := [.benchmark], runs := some runs } "--factor"
        (toString sizes).toList .sizes =
      .ok { flags := [.benchmark], runs := some runs, sizes := some sizes } := by
    rw [Settings.assign, readSizes?_toString hsizes]
    rfl
  rw [CallFor, Settings.read, hbench,
    readFrom_number (by decide) (by decide) (by decide) (by decide) hrepeat,
    readFrom_number (by decide) (by decide) (by decide) (by decide) hfactor, Settings.readFrom]
  rfl

section Run

open Benchmark

/-- The lexer reads the seed however often it is repeated.  The mean is taken by the number of runs
as long as that has 32 bits.  With more bits the lowest 32 are left to divide by: if they are zeros
and there is a program to measure, the benchmark fails before its first line.  In all other cases it
writes one line for each program, with the size of the program and the mean. -/
theorem run_benchmark {world : World} {arguments : List String} {runs sizes : Nat}
    (hcall : CallFor arguments (.benchmark runs sizes)) :
    (∀ count file, ∃ tokens,
      tokenize (String.join (List.replicate count seed)) file = .ok tokens) ∧
    (∀ index, (program index).utf8ByteSize = 20 * 10 ^ index) ∧
    ((divisor runs).toNat = max runs 1 ↔ runs < 2 ^ 32) ∧
    (divisor runs = 0 ↔ 2 ^ 32 ∣ max runs 1) ∧
    (sizes = 0 ∨ divisor runs ≠ 0 →
      ∃ rows : List (List Char), rows.length = sizes ∧ (∀ row ∈ rows, '\n' ∉ row) ∧
        (∀ index (hindex : index < rows.length), rows[index] =
          ("sqy time >> " ++ toString (20 * 10 ^ index) ++ " bytes: " ++
            duration (world.elapsed index / (divisor runs).toNat)).toList) ∧
        run world arguments = .ok ⟨0, String.ofList (ended rows), ""⟩) ∧
    (sizes ≠ 0 → divisor runs = 0 → run world arguments = .ok ⟨101, "", noMean⟩) := by
  refine ⟨exists_tokenize_repeated, utf8ByteSize_program, toNat_divisor_eq_iff,
    divisor_eq_zero_iff, ?_, ?_⟩
  · intro hmean
    refine ⟨(List.range' 0 sizes).map fun index =>
      row index (world.elapsed index / (divisor runs).toNat), by simp, ?_, ?_, ?_⟩
    · intro line hline
      obtain ⟨index, -, rfl⟩ := List.mem_map.mp hline
      exact not_mem_row _ _
    · intro index hindex
      simp [row]
    · rw [run_of_callFor hcall, Mode.run, Benchmark.measure]
      rcases hmean with rfl | hdivisor
      · rfl
      · rw [measureFrom_eq hdivisor, String.empty_append]
  · intro hsizes hdivisor
    obtain ⟨sizes, rfl⟩ := Nat.exists_eq_succ_of_ne_zero hsizes
    rw [run_of_callFor hcall, Mode.run, Benchmark.measure, measureFrom_of_divisor_eq_zero hdivisor]

/-- Four runs on each of three programs. -/
theorem run_benchmark_three :
    let world : World :=
      { input := ByteArray.empty
        contents := fun _ => none
        elapsed := fun index => 4000 * 625 ^ index }
    let arguments := ["--bench", "--repeat", toString 4, "--factor", toString 3]
    CallFor arguments (.benchmark 4 3) ∧
      run world arguments = .ok ⟨0, "sqy time >> 20 bytes: 1µs\nsqy time >> 200 bytes: 625µs\n" ++
        "sqy time >> 2000 bytes: 390.625ms\n", ""⟩ := by
  intro world arguments
  have hcall : CallFor arguments (.benchmark 4 3) := callFor_benchmark (by decide) (by decide)
  obtain ⟨-, -, -, -, hlines, -⟩ := @run_benchmark world arguments 4 3 hcall
  obtain ⟨rows, hlength, -, hrows, hrun⟩ := hlines (.inr (by decide))
  obtain ⟨first, second, third, rfl⟩ := List.length_eq_three.mp hlength
  have hdivisor : (divisor 4).toNat = 4 := by decide
  have hmean (index : Nat) : world.elapsed index / (divisor 4).toNat = 1000 * 625 ^ index := by
    have htotal : world.elapsed index = 4 * (1000 * 625 ^ index) := Nat.mul_assoc 4 1000 _
    rw [hdivisor, htotal, Nat.mul_div_cancel_left _ (by decide)]
  simp only [hmean] at hrows
  have hfirst : first = row 0 1000 := hrows 0 (by simp)
  have hsecond : second = row 1 625000 := hrows 1 (by simp)
  have hthird : third = row 2 390625000 := hrows 2 (by simp)
  refine ⟨hcall, ?_⟩
  rw [hrun, hfirst, hsecond, hthird]
  decide +kernel

/-- A number of runs of 33 bits, the lowest 32 of which are zeros, leaves no mean for the only
program, and the benchmark fails. -/
theorem run_benchmark_narrowed :
    let world : World :=
      { input := ByteArray.empty
        contents := fun _ => none
        elapsed := fun _ => 4294967296000 }
    let arguments := ["--bench", "--repeat", "4294967296"]
    CallFor arguments (.benchmark 4294967296 1) ∧ (divisor 4294967296).toNat = 0 ∧
      run world arguments = .ok ⟨101, "", noMean⟩ ∧
      ¬ ∃ output, run world arguments = .ok ⟨0, output, ""⟩ := by
  intro world arguments
  have hcall : CallFor arguments (.benchmark 4294967296 1) := by decide
  have hdivisor : divisor 4294967296 = 0 := by decide
  have hrun : run world arguments = .ok ⟨101, "", noMean⟩ := by
    rw [run_of_callFor hcall, Mode.run, Benchmark.measure, measureFrom_of_divisor_eq_zero hdivisor]
  refine ⟨hcall, by rw [hdivisor]; rfl, hrun, ?_⟩
  rintro ⟨output, hzero⟩
  have hcode : 101 = 0 := congrArg Report.exitCode (Except.ok.inj (hrun.symm.trans hzero))
  contradiction

end Run

end Precedence.Command
