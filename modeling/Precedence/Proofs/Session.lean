import Precedence.Command
import Precedence.Proofs.Caret
import Precedence.Proofs.Extension

/-!
# Sessions on the console

A session answers its input line by line.  No line has a say in what becomes of another: each gets
its reply, one that is refused no less than one that is read, until a line ends the session.  The
replies are those that the program gives to the same texts as expressions.  A line that is refused
so far to the right that its diagnostic cannot be written has no reply, and the session breaks off
there; such a line has no fewer bytes than a field is wide.

The input comes as bytes.  The bytes of a line feed and of a carriage return occur in no other
character, so cutting the bytes into lines comes to the same as cutting the text.
-/

namespace Precedence.Command

open Diagnostic

namespace Console

/-! ## The bytes of characters -/

/-- The bytes of a text in UTF-8. -/
def bytes (text : List Char) : List UInt8 := text.flatMap String.utf8EncodeChar

theorem bytes_concat (front : List Char) (c : Char) :
    bytes (front ++ [c]) = bytes front ++ String.utf8EncodeChar c := by
  simp [bytes]

theorem bytes_cons (c : Char) (rest : List Char) :
    bytes (c :: rest) = String.utf8EncodeChar c ++ bytes rest := rfl

theorem bytes_eq_nil_iff {text : List Char} : bytes text = [] ↔ text = [] := by
  cases text with
  | nil => simp [bytes]
  | cons c text => simp [bytes_cons, String.utf8EncodeChar_ne_nil]

theorem bytes_of_fromUTF8? {input : ByteArray} {text : String}
    (htext : String.fromUTF8? input = some text) : input.data.toList = bytes text.toList := by
  rw [String.fromUTF8?] at htext
  split at htext
  · next hvalid =>
      calc
        input.data.toList = text.toByteArray.data.toList := by rw [← Option.some.inj htext]; rfl
        _ = text.toList.utf8Encode.data.toList := by rw [String.utf8Encode_toList]
        _ = bytes text.toList := List.toList_data_toByteArray
  · contradiction

theorem fromUTF8?_bytes (text : List Char) :
    String.fromUTF8? (bytes text).toByteArray = some (String.ofList text) := by
  have hvalid : (bytes text).toByteArray.IsValidUTF8 := ⟨text, rfl⟩
  rw [String.fromUTF8?, dif_pos hvalid]
  rfl

/-- A byte below 128 is a character by itself. -/
theorem utf8EncodeChar_of_mem {c : Char} {byte : UInt8} (hbyte : byte ∈ String.utf8EncodeChar c)
    (hlow : byte.toNat < 128) : byte.toNat = c.toNat := by
  have hcode : c.val.toNat = c.toNat := rfl
  by_cases hsmall : c.toNat ≤ 127
  · have hsingle : String.utf8EncodeChar c = [UInt8.ofNat c.toNat] := by
      simp only [String.utf8EncodeChar, hcode, if_pos hsmall]
    rw [hsingle, List.mem_singleton] at hbyte
    rw [hbyte, UInt8.toNat_ofNat']
    omega
  · exfalso
    -- all bytes of a longer form have their highest bit set
    have hlarge {value : Nat} (hbyte : byte = UInt8.ofNat value) (hvalue : 128 ≤ value)
        (hbound : value < 256) : False := by
      rw [hbyte, UInt8.toNat_ofNat', Nat.mod_eq_of_lt hbound] at hlow
      omega
    simp only [String.utf8EncodeChar, hcode, if_neg hsmall] at hbyte
    split at hbyte
    · simp only [List.mem_cons, List.not_mem_nil, or_false] at hbyte
      rcases hbyte with hbyte | hbyte <;> exact hlarge hbyte (by omega) (by omega)
    · split at hbyte <;> simp only [List.mem_cons, List.not_mem_nil, or_false] at hbyte
      · rcases hbyte with hbyte | hbyte | hbyte <;> exact hlarge hbyte (by omega) (by omega)
      · rcases hbyte with hbyte | hbyte | hbyte | hbyte <;>
          exact hlarge hbyte (by omega) (by omega)

theorem eq_of_mem_utf8EncodeChar {c d : Char} {byte : UInt8}
    (hbyte : byte ∈ String.utf8EncodeChar c) (hcode : byte.toNat = d.toNat)
    (hlow : d.toNat < 128) : c = d := by
  have hvalue := utf8EncodeChar_of_mem hbyte (by omega)
  exact Char.toNat_inj.mp (hvalue.symm.trans hcode)

/-! ## Lines of a text -/

/-- The line without the carriage return that comes last in it, if one does. -/
def withoutReturn (line : List Char) : List Char :=
  if line.getLast? = some '\r' then line.dropLast else line

/-- The lines of an input that is cut at its line feeds.  A carriage return in front of a line feed
belongs to the end of the line.  What is behind the last line feed is a line if it is not empty, and
nothing ends it. -/
def linesAmong : List (List Char) → List String
  | [] => []
  | [last] => if last.isEmpty then [] else [String.ofList last]
  | line :: next :: rest => String.ofList (withoutReturn line) :: linesAmong (next :: rest)

/-- The lines of an input. -/
def linesOf (text : String) : List String := linesAmong (cutLines text.toList)

section Lines

variable {line rest : List UInt8} {lines : List (Option String)}

/-- Bytes before a line feed are put into the current line. -/
theorem linesFrom_append {front : List UInt8} (hfront : 10 ∉ front) :
    linesFrom line lines (front ++ rest) = linesFrom (front.reverse ++ line) lines rest := by
  induction front generalizing line with
  | nil => rfl
  | cons byte front ih =>
      rw [List.mem_cons, not_or] at hfront
      obtain ⟨hbyte, hfront⟩ := hfront
      rw [List.cons_append, linesFrom, if_neg (Ne.symm hbyte), ih hfront]
      simp

theorem decodeReversed?_bytes (text : List Char) :
    decodeReversed? (bytes text).reverse = some (String.ofList text) := by
  rw [decodeReversed?, List.reverse_reverse, fromUTF8?_bytes]

theorem dropReturn_of_ne (hline : line.head? ≠ some 13) : dropReturn line = line := by
  unfold dropReturn
  split
  · simp at hline
  · rfl

theorem dropReturn_bytes (text : List Char) :
    dropReturn (bytes text).reverse = (bytes (withoutReturn text)).reverse := by
  rcases List.eq_nil_or_concat' text with rfl | ⟨front, c, rfl⟩
  · rfl
  · by_cases hreturn : c = '\r'
    · subst hreturn
      have hbytes : String.utf8EncodeChar '\r' = [13] := by decide
      simp [withoutReturn, bytes_concat, hbytes, dropReturn]
    · rw [withoutReturn, if_neg (by simpa using hreturn)]
      apply dropReturn_of_ne
      intro hhead
      rw [bytes_concat, List.head?_reverse,
        List.getLast?_append_of_ne_nil _ (String.utf8EncodeChar_ne_nil)] at hhead
      exact hreturn (eq_of_mem_utf8EncodeChar (List.mem_of_getLast? hhead) rfl (by decide))

/-- Lines are cut from the bytes of a text as from the text itself; some characters of the current
line may have been passed before. -/
theorem linesFrom_bytes (text : List Char) {done : List Char} (hdone : '\n' ∉ done) :
    linesFrom (bytes done).reverse lines (bytes text) =
      lines.reverse ++ (linesAmong (cutLines (done ++ text))).map some := by
  induction text generalizing done lines with
  | nil =>
      have hend : bytes [] = [] := rfl
      rw [List.append_nil, cutLines_of_not_mem hdone, hend, linesFrom, linesAmong,
        decodeReversed?_bytes]
      cases done with
      | nil => simp [bytes]
      | cons c done => simp [bytes_eq_nil_iff]
  | cons c text ih =>
      by_cases hfeed : c = '\n'
      · subst hfeed
        have hbytes : bytes ('\n' :: text) = 10 :: bytes text := by
          rw [bytes_cons]
          rfl
        obtain ⟨next, more, hcut⟩ := List.exists_cons_of_ne_nil (cutLines_ne_nil text)
        have hrest := @ih (some (String.ofList (withoutReturn done)) :: lines) [] (by simp)
        have hempty : (bytes []).reverse = [] := rfl
        rw [hempty, List.nil_append, hcut] at hrest
        rw [hbytes, linesFrom, if_pos rfl, dropReturn_bytes, decodeReversed?_bytes, hrest,
          cutLines_append_cons hdone, hcut, linesAmong]
        simp
      · have hfree : 10 ∉ String.utf8EncodeChar c := by
          intro hmem
          exact hfeed (eq_of_mem_utf8EncodeChar hmem rfl (by decide))
        have hmore : '\n' ∉ done ++ [c] := by
          simp [hdone, Ne.symm hfeed]
        rw [bytes_cons, linesFrom_append hfree, ← List.reverse_append, ← bytes_concat, ih hmore]
        simp

theorem inputLines_eq {input : ByteArray} {text : String}
    (htext : String.fromUTF8? input = some text) :
    inputLines input = (linesOf text).map some := by
  have hlines := @linesFrom_bytes [] text.toList [] (by simp)
  rw [inputLines, bytes_of_fromUTF8? htext]
  exact hlines

end Lines

/-! ## Replies -/

/-- Whether a line ends the session. -/
def isExit (line : String) : Bool := Text.trim line.toList = ['e', 'x', 'i', 't']

/-- Whether a line empties the screen. -/
def isClear (line : String) : Bool := Text.trim line.toList = ['c', 'l', 'e', 'a', 'r']

/-- What a line gets for a reply: a text on the output and a text on the errors, one of which is
empty.  There is no reply if the line is refused and the diagnostic cannot be written. -/
inductive Replies (tree : Bool) (line : String) : String × String → Prop
  | clear (hclear : isClear line = true) : Replies tree line (clearScreen, "")
  | accepted {text : String} (hclear : isClear line = false)
      (hanswer : answer tree line "shell" = .ok text) : Replies tree line (text ++ "\n\n", "")
  | refused {error : Error} {text : String} (hclear : isClear line = false)
      (hanswer : answer tree line "shell" = .error (.error error))
      (hwritten : error.diagnostic? line = some text) : Replies tree line ("", text)

/-- If the line is refused, the column of the caret does not exceed the width of a field. -/
def CaretFits (tree : Bool) (line : String) : Prop :=
  isClear line = false → ∀ error, answer tree line "shell" = .error (.error error) →
    ∀ column ∈ error.caretColumn? line, column ≤ fieldLimit

variable {tree : Bool}

/-- Every source is answered or refused with an error. -/
theorem answer_cases (tree : Bool) (source file : String) :
    (∃ text, answer tree source file = .ok text) ∨
      ∃ error, answer tree source file = .error (.error error) := by
  cases tree with
  | false =>
      simp only [answer, Bool.false_eq_true, if_false]
      cases tokenize source (some file) with
      | ok tokens => exact .inl ⟨_, rfl⟩
      | error error => exact .inr ⟨error, rfl⟩
  | true =>
      have hfinish : ∀ rule ∈ Grammar.arithmetic.rule? .finish, rule.infixRule = none := by decide
      have hends := @parseWith_ne_endless _ source (some file) hfinish
      simp only [answer, if_true, parse]
      cases hparse : parseWith .arithmetic source (some file) with
      | ok tree => exact .inl ⟨_, rfl⟩
      | error failure =>
          cases failure with
          | error error => exact .inr ⟨error, rfl⟩
          | endless => exact absurd hparse hends

theorem reply?_exit {line : String} (hexit : isExit line = true) : reply? tree line = none := by
  rw [reply?, if_pos (of_decide_eq_true hexit)]

theorem exists_reply {line : String} (hexit : isExit line = false) (hfits : CaretFits tree line) :
    ∃ reply, reply? tree line = some reply ∧ reply.breaksOff = false ∧
      Replies tree line (reply.output, reply.errors) := by
  rw [isExit, decide_eq_false_iff_not] at hexit
  simp only [reply?, if_neg hexit]
  by_cases hclear : Text.trim line.toList = ['c', 'l', 'e', 'a', 'r']
  · rw [if_pos hclear]
    exact ⟨_, rfl, rfl, .clear (decide_eq_true hclear)⟩
  · rw [if_neg hclear]
    have hclear : isClear line = false := decide_eq_false hclear
    refine ⟨_, rfl, ?_⟩
    rcases answer_cases tree line "shell" with ⟨text, hanswer⟩ | ⟨error, hanswer⟩
    · rw [respond, hanswer]
      exact ⟨rfl, .accepted hclear hanswer⟩
    · have hwritten := Error.diagnostic?_eq_some_iff.mpr (hfits hclear error hanswer)
      rw [respond, hanswer, Report.ofAnswer, Report.ofFailure, diagnostic?, hwritten]
      exact ⟨rfl, .refused hclear hanswer hwritten⟩

theorem reply?_brokenOff {line : String} (hexit : isExit line = false)
    (hwide : ¬ CaretFits tree line) : reply? tree line = some (.brokenOff tooWide) := by
  simp only [CaretFits, not_forall, Nat.not_le] at hwide
  obtain ⟨hclear, error, hanswer, column, hcolumn, hlimit⟩ := hwide
  rw [isExit, decide_eq_false_iff_not] at hexit
  rw [isClear, decide_eq_false_iff_not] at hclear
  have hnone := Error.diagnostic?_eq_none_iff.mpr ⟨column, hcolumn, hlimit⟩
  simp only [reply?, if_neg hexit, if_neg hclear]
  rw [respond, hanswer, Report.ofAnswer, Report.ofFailure, diagnostic?, hnone]

/-- A line with fewer bytes than a field is wide has a reply. -/
theorem caretFits_of_size {line : String} (hsize : line.utf8ByteSize < fieldLimit) :
    CaretFits tree line := by
  intro hclear error hanswer column hcolumn
  have hcaret := Error.caretColumn?_le hcolumn
  rw [← Text.utf8ByteSize_eq_width] at hcaret
  omega

/-- A character that begins no lexeme, behind tabulators, can be reported as long as there are fewer
of them than a field is wide. -/
theorem caretFits_tabs_iff (count : Nat) :
    CaretFits false (String.ofList (List.replicate count '\t' ++ ['@'])) ↔ count < fieldLimit := by
  let tabs := List.replicate count '\t'
  let line := String.ofList (tabs ++ ['@'])
  let error : Error := ⟨.unexpectedCharacter '@', ⟨Text.width tabs, "shell"⟩⟩
  have hline : line.toList = tabs ++ ['@'] := String.toList_ofList
  have htabs {property : Char → Bool} (htab : property '\t' = true) :
      ∀ c ∈ tabs, property c = true := by
    intro c hc
    rwa [List.eq_of_mem_replicate hc]
  have hclear : isClear line = false := by
    rw [isClear, hline, Text.trim, List.dropWhile_append_of_pos (htabs (by decide))]
    decide
  have hanswer : answer false line "shell" = .error (.error error) := by
    rw [answer, if_neg Bool.false_ne_true,
      tokenize_foreign hline (htabs (by decide)) (by decide) (by decide)]
    rfl
  have hcolumn : error.caretColumn? line = some (count + 1) := by
    have hbefore : lineBefore tabs = tabs :=
      List.rtakeWhile_eq_self_iff.mpr (htabs (by decide))
    rw [Error.caretColumn?_eq hline rfl (Text.stops_cons (by decide)), hbefore]
    simp [tabs, isIndent]
  constructor
  · intro hfits
    exact hfits hclear error hanswer _ hcolumn
  · intro hcount _ other hother column hmem
    rw [hanswer, Except.error.injEq, Failure.error.injEq] at hother
    rw [← hother, hcolumn, Option.mem_some_iff] at hmem
    omega

/-! ## Sessions -/

/-- The lines in front of the first one that ends the session. -/
def answered (lines : List String) : List String := lines.takeWhile fun line => !isExit line

/-- A prompt in front of each reply. -/
def shown (replies : List (String × String)) : String :=
  String.join (replies.map fun reply => prompt ++ reply.1)

/-- All that is reported on the errors. -/
def reported (replies : List (String × String)) : String := String.join (replies.map Prod.snd)

theorem not_isExit_of_answered {lines : List String} {line : String}
    (hline : line ∈ answered lines) : isExit line = false := by
  simpa using List.mem_takeWhile_imp hline

/-- Behind the answered lines there is nothing, or a line that ends the session. -/
theorem exists_behind (lines : List String) : ∃ behind, lines = answered lines ++ behind ∧
    ∀ line ∈ behind.head?, isExit line = true := by
  refine ⟨lines.dropWhile fun line => !isExit line, List.takeWhile_append_dropWhile.symm, ?_⟩
  intro line hline
  have hstops := List.head?_dropWhile_not (fun line => !isExit line) lines
  rw [Option.mem_def.mp hline] at hstops
  simpa using hstops

/-- Lines that have replies are answered one after the other.  What comes behind them only finds
more written. -/
theorem exists_replies {lines : List String} (hexit : ∀ line ∈ lines, isExit line = false)
    (hfits : ∀ line ∈ lines, CaretFits tree line) :
    ∃ replies, List.Forall₂ (Replies tree) lines replies ∧ ∀ rest output errors,
      converse tree (lines.map some ++ rest) output errors =
        converse tree rest (output ++ shown replies) (errors ++ reported replies) := by
  induction lines with
  | nil => exact ⟨[], .nil, by simp [shown, reported]⟩
  | cons line lines ih =>
      obtain ⟨hline, hexit⟩ := List.forall_mem_cons.mp hexit
      obtain ⟨hfit, hfits⟩ := List.forall_mem_cons.mp hfits
      obtain ⟨reply, hreply, hgoes, hreplies⟩ := exists_reply hline hfit
      obtain ⟨replies, hrest, hsession⟩ := ih hexit hfits
      refine ⟨(reply.output, reply.errors) :: replies, .cons hreplies hrest, ?_⟩
      intro rest output errors
      rw [List.map_cons, List.cons_append, converse, hreply]
      dsimp only
      rw [hgoes, if_neg Bool.false_ne_true, hsession]
      simp [shown, reported, String.append_assoc]

/-- A session is over at the end of its lines and at a line that ends it. -/
theorem converse_over {lines : List String} (hlines : ∀ line ∈ lines.head?, isExit line = true)
    (output errors : String) :
    converse tree (lines.map some) output errors = ⟨0, output ++ prompt, errors⟩ := by
  cases lines with
  | nil => rfl
  | cons line lines => rw [List.map_cons, converse, reply?_exit (hlines line rfl)]

/-- A session is over, and fails, at a line that has no reply. -/
theorem converse_brokenOff {line : String} (hexit : isExit line = false)
    (hwide : ¬ CaretFits tree line) (rest : List (Option String)) (output errors : String) :
    converse tree (some line :: rest) output errors =
      ⟨101, output ++ prompt, errors ++ tooWide⟩ := by
  rw [converse, reply?_brokenOff hexit hwide]
  simp [Report.brokenOff, Report.breaksOff]

/-- The report on an expression shows what the reply to a line shows, or complains of the same. -/
def SameAnswer (line : String) (reply : String × String) (report : Report) : Prop :=
  (∃ rendered, reply = (rendered ++ "\n\n", "") ∧
      report = ⟨0, line ++ " -> Expression " ++ rendered ++ "\n", ""⟩) ∨
    ∃ problem, reply = ("", problem) ∧ report = ⟨1, "", problem⟩

theorem sameAnswer_onExpression {line : String} {reply : String × String}
    (hreply : Replies true line reply) (hclear : isClear line = false) :
    SameAnswer line reply (onExpression line) := by
  -- a source without a name is named as the lines of the console are
  have hname : parse line none = parse line (some "shell") := rfl
  rw [onExpression, hname]
  cases hreply with
  | clear hclear' => simp [hclear] at hclear'
  | accepted _ hanswer =>
      rw [answer, if_pos rfl] at hanswer
      cases hparse : parse line (some "shell") with
      | error failure => simp [hparse, Except.map] at hanswer
      | ok expression =>
          rw [hparse] at hanswer
          rw [← Except.ok.inj hanswer]
          exact .inl ⟨_, rfl, rfl⟩
  | refused _ hanswer hwritten =>
      rw [answer, if_pos rfl] at hanswer
      cases hparse : parse line (some "shell") with
      | ok expression => simp [hparse, Except.map] at hanswer
      | error failure =>
          rw [hparse] at hanswer
          rw [Except.error.inj hanswer]
          dsimp only
          rw [Report.ofFailure, diagnostic?, hwritten]
          exact .inr ⟨_, rfl, rfl⟩

end Console

/-- The arguments call for the mode. -/
def CallFor (arguments : List String) (mode : Mode) : Prop :=
  (Settings.read arguments).map Settings.mode = .ok mode

instance (arguments : List String) (mode : Mode) : Decidable (CallFor arguments mode) :=
  inferInstanceAs (Decidable (_ = _))

/-- Every text can be given as an expression. -/
theorem callFor_expression (text : String) : CallFor ["--", text] (.expression text) := rfl

theorem run_of_callFor {world : World} {arguments : List String} {mode : Mode}
    (hcall : CallFor arguments mode) : run world arguments = .ok (mode.run world) := by
  rw [CallFor] at hcall
  rw [run]
  cases hread : Settings.read arguments with
  | error problem => simp [hread, Except.map] at hcall
  | ok settings =>
      rw [hread] at hcall
      rw [← Except.ok.inj hcall]
      rfl

section Session

open Console

/-- A session in which no diagnostic is too wide shows the replies to its lines, up to the first
that ends it, with a prompt in front of each and one more behind the last, and does not fail.  A
line gets the reply that it would get as an expression by itself. -/
theorem run_console {world : World} {arguments : List String} {tree : Bool} {text : String}
    (hcall : CallFor arguments (.console tree))
    (htext : String.fromUTF8? world.input = some text) :
    ((∀ line ∈ answered (linesOf text), CaretFits tree line) →
      ∃ replies, List.Forall₂ (Replies tree) (answered (linesOf text)) replies ∧
        run world arguments = .ok ⟨0, banner tree ++ shown replies ++ prompt, reported replies⟩) ∧
    ∀ line reply, Replies true line reply → isClear line = false →
      ∀ others, CallFor others (.expression line) → ∀ elsewhere,
        ∃ report, run elsewhere others = .ok report ∧ SameAnswer line reply report := by
  constructor
  · intro hfits
    obtain ⟨replies, hreplies, hsession⟩ :=
      exists_replies (fun line => not_isExit_of_answered) hfits
    obtain ⟨behind, hsplit, hover⟩ := exists_behind (linesOf text)
    refine ⟨replies, hreplies, ?_⟩
    rw [run_of_callFor hcall, Mode.run, session, inputLines_eq htext, hsplit, List.map_append,
      hsession, converse_over hover, String.empty_append]
  · intro line reply hreply hclear others hothers elsewhere
    exact ⟨_, run_of_callFor hothers, sameAnswer_onExpression hreply hclear⟩

/-- The first line has no closing parenthesis, the second empties the screen, the fourth ends the
session.  The third gives the same tree as an expression by itself. -/
theorem run_console_trees :
    let world : World :=
      { input := (bytes "(1\r\n clear\n2*x\nexit \n@".toList).toByteArray
        contents := fun _ => none
        elapsed := fun _ => 0 }
    (∃ replies, List.Forall₂ (Replies true) ["(1", " clear", "2*x"] replies ∧
      run world ["--ast"] = .ok ⟨0, banner true ++ shown replies ++ prompt, reported replies⟩) ∧
    ∀ reply, Replies true "2*x" reply →
      ∃ report, run world ["--", "2*x"] = .ok report ∧ SameAnswer "2*x" reply report := by
  intro world
  have htext : String.fromUTF8? world.input = some "(1\r\n clear\n2*x\nexit \n@" := by
    rw [fromUTF8?_bytes, String.ofList_toList]
  have hlines : answered (linesOf "(1\r\n clear\n2*x\nexit \n@") = ["(1", " clear", "2*x"] := by
    decide +kernel
  have hcall : CallFor ["--ast"] (.console true) := by decide
  obtain ⟨hsession, hsame⟩ := run_console hcall htext
  rw [hlines] at hsession
  have hsizes : ∀ line ∈ ["(1", " clear", "2*x"], line.utf8ByteSize < fieldLimit := by decide
  refine ⟨hsession fun line hline => caretFits_of_size (hsizes line hline), ?_⟩
  intro reply hreply
  exact hsame "2*x" reply hreply (by decide +kernel) _ (callFor_expression "2*x") world

/-- At the first line whose diagnostic is too wide a session breaks off.  The lines in front of it
have their replies, and those behind it get none. -/
theorem run_console_brokenOff {world : World} {arguments : List String} {tree : Bool}
    {text line : String} {front rest : List String} (hcall : CallFor arguments (.console tree))
    (htext : String.fromUTF8? world.input = some text)
    (hlines : answered (linesOf text) = front ++ line :: rest)
    (hfits : ∀ other ∈ front, CaretFits tree other) (hwide : ¬ CaretFits tree line) :
    ∃ replies, List.Forall₂ (Replies tree) front replies ∧
      run world arguments =
        .ok ⟨101, banner tree ++ shown replies ++ prompt, reported replies ++ tooWide⟩ := by
  have hexit : ∀ other ∈ front ++ line :: rest, isExit other = false :=
    fun other hother => not_isExit_of_answered (hlines ▸ hother)
  obtain ⟨replies, hreplies, hsession⟩ :=
    exists_replies (fun other hother => hexit other (List.mem_append_left _ hother)) hfits
  obtain ⟨behind, hsplit, -⟩ := exists_behind (linesOf text)
  rw [hlines, List.append_assoc, List.cons_append] at hsplit
  have hline : isExit line = false := hexit line (by simp)
  refine ⟨replies, hreplies, ?_⟩
  rw [run_of_callFor hcall, Mode.run, session, inputLines_eq htext, hsplit, List.map_append,
    List.map_cons, hsession, converse_brokenOff hline hwide, String.empty_append]

/-- A carriage return that comes last in an input without a line feed is not dropped.  The session is
then not that of the line without it: the caret stands one place further on. -/
theorem run_console_last_return :
    let world : World :=
      { input := (bytes "(1\r".toList).toByteArray
        contents := fun _ => none
        elapsed := fun _ => 0 }
    let lines := (cutLines "(1\r".toList).map fun line => String.ofList (withoutReturn line)
    CallFor ["--ast"] (.console true) ∧ String.fromUTF8? world.input = some "(1\r" ∧
      ¬ ∃ replies, List.Forall₂ (Replies true) (answered lines) replies ∧
        run world ["--ast"] =
          .ok ⟨0, banner true ++ shown replies ++ prompt, reported replies⟩ := by
  intro world lines
  have hcall : CallFor ["--ast"] (.console true) := by decide
  have htext : String.fromUTF8? world.input = some "(1\r" := by
    rw [fromUTF8?_bytes, String.ofList_toList]
  refine ⟨hcall, htext, ?_⟩
  rintro ⟨replies, hreplies, hrun⟩
  have hlines : answered lines = ["(1"] := by decide +kernel
  have hrefused : answer true "(1" "shell" =
      .error (.error ⟨.unclosedGroup "(end)", ⟨2, "shell"⟩⟩) := by
    decide +kernel
  have hsession : (run world ["--ast"]).map Report.errors = .ok
      "Error: UnclosedGroup (Expected `)` but found `(end)`)\n-> shell\n  |\n1 | (1\n  | ---^\n" := by
    decide +kernel
  rw [hlines] at hreplies
  obtain ⟨reply, _, hreply, hnone, rfl⟩ := List.forall₂_cons_left_iff.mp hreplies
  obtain rfl := List.forall₂_nil_left_iff.mp hnone
  rw [hrun, Except.map, Except.ok.injEq] at hsession
  cases hreply with
  | clear hclear => exact absurd hclear (by decide +kernel)
  | accepted _ hanswer => simp [hrefused] at hanswer
  | refused _ hanswer hwritten =>
      rw [hrefused, Except.error.injEq, Failure.error.injEq] at hanswer
      have hshort : Error.diagnostic? ⟨.unclosedGroup "(end)", ⟨2, "shell"⟩⟩ "(1" = some
          ("Error: UnclosedGroup (Expected `)` but found `(end)`)\n" ++
            "-> shell\n  |\n1 | (1\n  | --^\n") := by
        decide +kernel
      rw [← hanswer, hshort, Option.some.injEq] at hwritten
      subst hwritten
      exact absurd hsession (by decide +kernel)

end Session

end Precedence.Command
