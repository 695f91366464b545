import Precedence.Proofs.Caret
import Precedence.Proofs.LineLookup
import Precedence.Proofs.Respell

/-!
# The lines of a diagnostic

A diagnostic of a source is five lines: a heading, the name of the source, a bar, the source line
and the caret.  Only the heading can spoil that, because it quotes text of the source as it stands.
A character that begins no lexeme is not a line feed, and of all lexemes only text literals hold
any.  A text literal may stand wherever an operand may, so it is quoted only behind an expression
that is over, where the end of the source or of a group is due.
-/

namespace Precedence

open Lexer Text

/-! ## Line feeds in lexemes -/

namespace Lexeme

variable {text lexeme : List Char} {kind : TokenKind}

/-- Of all lexemes only text literals go on with gaps and parentheses. -/
theorem kind_eq_string_of_isBreak {c : Char} (hfound : classify? text = some (kind, lexeme))
    (hc : c ∈ lexeme.tail) (hbreak : isBreak c = true) : kind = .string := by
  obtain ⟨earlier, recognise, later, hclasses, hlexeme, -⟩ := classify?_eq_some_iff.mp hfound
  have hmem : (kind, recognise) ∈ classes.dropLast ++ [(.string, string?)] := by
    have hsplit : classes.dropLast ++ [(.string, string?)] = classes := rfl
    rw [hsplit, hclasses]
    exact List.mem_append_right _ List.mem_cons_self
  rcases List.mem_append.mp hmem with hcompact | hstring
  · rw [compact_of_mem_dropLast hcompact hlexeme c hc] at hbreak
    contradiction
  · exact (Prod.mk.inj (List.mem_singleton.mp hstring)).1

end Lexeme

/-- A lexeme with a line feed is that of a text literal. -/
theorem Token.StandsAlone.kind_eq_string {token : Token} (halone : token.StandsAlone)
    (hfeed : '\n' ∈ token.lexeme.toList) : token.kind = .string := by
  have hgap : Lexeme.isGap '\n' = true := by decide
  have hbreak : Lexeme.isBreak '\n' = true := by decide
  cases hlexeme : token.lexeme.toList with
  | nil =>
      rw [hlexeme] at hfeed
      contradiction
  | cons first rest =>
      rw [hlexeme] at hfeed
      rcases List.mem_cons.mp hfeed with rfl | hrest
      · have hstops := halone.stops '\n' (by rw [hlexeme]; rfl)
        rw [hgap] at hstops
        contradiction
      · apply Lexeme.kind_eq_string_of_isBreak halone.found _ hbreak
        rwa [hlexeme]

/-! ## What the parser finds at an item -/

/-- The error is the item, or it is found at the token which is the item. -/
inductive Grammar.Finds (grammar : Grammar) (limit : Nat) : Item → Error → Prop
  | item {error : Error} : Finds grammar limit (.error error) error
  | refused {token : Token} {fault : Fault} (hrefuses : grammar.Refuses limit token fault) :
      Finds grammar limit (.ok token) ⟨fault, token.position⟩
  | unknown {token : Token} (hkind : token.kind = .operator) :
      Finds grammar limit (.ok token) ⟨.unknownOperator token.lexeme, token.position⟩
  | trailing {token : Token} :
      Finds grammar limit (.ok token) ⟨.trailingInput token.lexeme, token.position⟩

section Finds

variable {grammar : Grammar}

theorem Grammar.kind_of_checkOperator {token : Token} {error : Error}
    (hcheck : grammar.checkOperator token = .error error) : token.kind = .operator := by
  rw [checkOperator] at hcheck
  split at hcheck
  · next hunknown =>
      rw [Bool.and_eq_true, decide_eq_true_iff] at hunknown
      exact hunknown.1
  · contradiction

/-- A run that fails with an error finds it at one of the items. -/
theorem Grammar.suffers_finds (grammar : Grammar) (limit : Nat) (items : List Item) :
    grammar.Suffers limit items fun failure _ =>
      ∀ error, failure = .error error → ∃ item ∈ items, grammar.Finds limit item error where
  refuse := by
    intro cursor fault hcursor hrefuses error herror
    rw [← Failure.error.inj herror]
    exact ⟨_, hcursor.subset List.mem_cons_self, .refused hrefuses⟩
  shift := by
    intro cursor next failure hcursor hshift error herror
    obtain ⟨-, item, cause, hpending, rfl, hitem⟩ := Cursor.shift_error hshift
    have hmem : item ∈ items := by
      apply hcursor.subset
      rw [Cursor.items, hpending]
      exact List.mem_cons_of_mem _ List.mem_cons_self
    rw [← Failure.error.inj herror]
    refine ⟨item, hmem, ?_⟩
    rcases hitem with rfl | ⟨bad, rfl, hcheck⟩
    · exact .item
    · rw [Grammar.eq_of_checkOperator hcheck]
      exact .unknown (Grammar.kind_of_checkOperator hcheck)
  endless := by
    intro cursor hcursor hpending hrule error herror
    contradiction

/-- A parse that fails with an error has found it at one of the items of the lexer. -/
theorem exists_found_of_parseWith {source : String} {file : Option String} {name : String}
    {rest : List Item} {error : Error}
    (hitems : (ofSource source file).items = .ok (.opening name) :: rest)
    (hparse : parseWith grammar source file = .error (.error error)) :
    ∃ item ∈ .ok (.opening name) :: rest, grammar.Finds Parser.standardLimit item error := by
  obtain ⟨outcome, hreads⟩ := Cursor.exists_reads grammar ⟨.opening name, rest⟩
  have hwhole := hreads.whole_eq_error hitems hparse
  have hamong := (grammar.suffers_finds Parser.standardLimit _).among hreads (List.suffix_refl _)
  cases outcome with
  | error failure next => exact hamong error (Except.error.inj hwhole)
  | ok tree next =>
      rw [Outcome.whole] at hwhole
      split at hwhole
      · contradiction
      · rw [← Failure.error.inj (Except.error.inj hwhole)]
        exact ⟨_, hamong.subset List.mem_cons_self, .trailing⟩

end Finds

/-! ## What an error quotes -/

/-- The text of the source that a fault quotes. -/
def Fault.quoted : Fault → List Char
  | .unexpectedCharacter character => [character]
  | .unexpectedToken lexeme | .unknownOperator lexeme | .trailingInput lexeme
  | .unclosedGroup lexeme => lexeme.toList
  | .nestingTooDeep _ => []

/-- The error quotes a text literal with a line feed, which stands where the source or a group
should have ended. -/
def Error.QuotesFeed (source : String) (file : Option String) (error : Error) : Prop :=
  ∃ before token, Yields source file before (.ok token) ∧ error.position = token.position ∧
    token.kind = .string ∧ '\n' ∈ token.lexeme.toList ∧
    (error.fault = .trailingInput token.lexeme ∨ error.fault = .unclosedGroup token.lexeme)

theorem Error.QuotesFeed.mem_quoted {source : String} {file : Option String} {error : Error}
    (hquotes : error.QuotesFeed source file) : '\n' ∈ error.fault.quoted := by
  obtain ⟨before, token, -, -, -, hfeed, hfault | hfault⟩ := hquotes <;> rwa [hfault]

theorem Grammar.Finds.mem_lexeme {grammar : Grammar} {limit : Nat} {token : Token} {error : Error}
    {c : Char} (hfinds : grammar.Finds limit (.ok token) error) (hc : c ∈ error.fault.quoted) :
    c ∈ token.lexeme.toList := by
  cases hfinds with
  | refused hrefuses =>
      cases hrefuses with
      | tooDeep => exact absurd hc List.not_mem_nil
      | noPrefix | noInfix | unclosed => exact hc
  | unknown | trailing => exact hc

/-- An operand is not refused where an operand may stand. -/
theorem Grammar.Refuses.of_string {limit : Nat} {token : Token} {fault : Fault}
    (hrefuses : arithmetic.Refuses limit token fault) (hkind : token.kind = .string)
    (hquoted : fault.quoted ≠ []) : fault = .unclosedGroup token.lexeme := by
  cases hrefuses with
  | tooDeep => exact absurd rfl hquoted
  | noPrefix hrule =>
      have hatom := arithmetic_prefixOf?_iff.mpr (.inl ⟨.inr (.inl hkind), rfl⟩)
      rw [hrule] at hatom
      contradiction
  | noInfix hpower hrule =>
      have hloose : arithmetic.powerOf token = 0 := by
        rw [powerOf]
        rcases ruleOf?_atom (.inr (.inl hkind)) with hatom | hatom <;> rw [hatom] <;> decide
      rw [hloose] at hpower
      contradiction
  | unclosed => rfl

section Source

variable {source : String} {file : Option String} {error : Error}

/-- A line feed is quoted from no other errors. -/
theorem Error.quotesFeed_of_finds {before : List Token} {token : Token}
    (hyields : Yields source file before (.ok token)) (hkind : token.kind = .string)
    (hfinds : Grammar.arithmetic.Finds Parser.standardLimit (.ok token) error)
    (hquoted : '\n' ∈ error.fault.quoted) : error.QuotesFeed source file := by
  cases hfinds with
  | refused hrefuses =>
      obtain rfl := hrefuses.of_string hkind (List.ne_nil_of_mem hquoted)
      exact ⟨before, token, hyields, rfl, hkind, hquoted, .inr rfl⟩
  | unknown hoperator =>
      rw [hkind] at hoperator
      contradiction
  | trailing => exact ⟨before, token, hyields, rfl, hkind, hquoted, .inl rfl⟩

theorem Error.mem_quoted_iff (herror : tokenize source file = .error error ∨
      parse source file = .error (.error error)) :
    '\n' ∈ error.fault.quoted ↔ error.QuotesFeed source file := by
  refine ⟨fun hquoted => ?_, Error.QuotesFeed.mem_quoted⟩
  obtain ⟨tokens, stop, left, hscan, hend⟩ := Scan.exists_scan (fileName file) 0 source.toList
  have hitems := items_of_scan hscan hend
  have hmarkers : '\n' ∉ Token.openingLexeme.toList ∧ '\n' ∉ Token.closingLexeme.toList := by
    decide
  -- an error of the lexer is about a character that begins no gap
  have hlast : lastItem source.utf8ByteSize (fileName file) stop left ≠ .error error := by
    intro hitem
    cases left with
    | nil => contradiction
    | cons c rest =>
        rw [← Except.error.inj hitem, Fault.quoted, List.mem_singleton] at hquoted
        subst hquoted
        exact absurd (hscan.stops '\n' rfl) (by decide)
  rcases herror with htokenize | hparse
  · exact absurd ((tokenize_eq_error_iff hitems).mp htokenize) hlast
  · obtain ⟨item, hmem, hfinds⟩ := exists_found_of_parseWith hitems hparse
    cases item with
    | error cause =>
        cases hfinds
        rcases List.mem_cons.mp hmem with hopening | hrow
        · contradiction
        · exact absurd (error_mem_row.mp hrow) hlast
    | ok token =>
        have hfeed := hfinds.mem_lexeme hquoted
        rcases List.mem_cons.mp hmem with hopening | hrow
        · rw [Except.ok.inj hopening] at hfeed
          exact absurd hfeed hmarkers.1
        · rcases ok_mem_row.mp hrow with htoken | hclosing
          · obtain ⟨before, hyields⟩ := exists_yields hitems hrow
            have hkind := (hscan.standsAlone token htoken).kind_eq_string hfeed
            exact Error.quotesFeed_of_finds hyields hkind hfinds hquoted
          · rw [(eq_closing_of_lastItem hclosing).2] at hfeed
            exact absurd hfeed hmarkers.2

/-- Every error points at a place in its source. -/
theorem Error.exists_frontOf (herror : tokenize source file = .error error ∨
      parse source file = .error (.error error)) :
    ∃ text, error.position.FrontOf source file text := by
  obtain ⟨before, item, hyields, hnames⟩ := exists_named herror
  cases item with
  | error cause =>
      obtain ⟨c, text, -, -, hfront⟩ := hyields.exists_character
      rw [hnames.eq_of_error]
      exact ⟨c :: text, hfront⟩
  | ok token =>
      obtain ⟨text, hfront, -⟩ := hyields.exists_frontOf
      rw [hnames.position_eq]
      exact ⟨text, hfront⟩

end Source

/-! ## Five lines -/

namespace Diagnostic

/-- The line that names an error, without its end. -/
def heading (error : Error) : List Char :=
  ("Error: " ++ error.fault.name ++ " (" ++ error.fault.remark ++ ")").toList

/-- The source line with its number, without its end. -/
def numberedLine (line : Line) : List Char :=
  (toString line.number ++ " | " ++ shownText line).toList

/-- The lines of a diagnostic that shows a source line, without their ends. -/
def rows (error : Error) (line : Line) : List (List Char) :=
  [heading error, ("-> " ++ error.position.file).toList, (margin line.number).toList,
    numberedLine line, pointerLine line.number (caretOffset line)]

theorem toList_diagnostic {source : String} {error : Error} {line : Line}
    (hline : lineAt? source error.position.offset.toNat = some line) :
    (error.diagnostic source).toList = ended (rows error line) := by
  rw [Error.diagnostic, hline]
  simp [toList_excerpt, header, Error.tip, origin, ended, rows, heading, numberedLine]

theorem count_ended {lines : List (List Char)} (hlines : ∀ line ∈ lines, '\n' ∉ line) :
    (ended lines).count '\n' = lines.length := by
  induction lines with
  | nil => rfl
  | cons line lines ih =>
      obtain ⟨hline, hlines⟩ := List.forall_mem_cons.mp hlines
      have hrow : ended (line :: lines) = line ++ '\n' :: ended lines := by simp [ended]
      rw [hrow, List.count_append, List.count_eq_zero.mpr hline, List.count_cons_self, ih hlines,
        List.length_cons, Nat.zero_add]

theorem not_mem_text {source : String} {offset : Nat} {line : Line}
    (hline : lineAt? source offset = some line) : '\n' ∉ line.text := by
  have hwithin : offset ≤ width source.toList := by
    by_contra hbeyond
    rw [lineAt?_eq_none (Nat.lt_of_not_le hbeyond)] at hline
    contradiction
  obtain ⟨lines, rest, ahead, hplace⟩ := exists_place hwithin
  have hfound := lineAt?_eq hplace.line_feeds hplace.text_eq hplace.ahead_le
  rw [← hplace.offset_eq, hline] at hfound
  obtain ⟨count, hreturns⟩ := hplace.exists_returns
  rw [Option.some.inj hfound]
  intro hmem
  have hstays : '\n' ∈ rest.takeWhile staysOnLine := by
    rw [← hreturns]
    exact List.mem_append_left _ hmem
  exact absurd (List.mem_takeWhile_imp hstays) (by decide)

theorem not_mem_numberedLine {line : Line} (htext : '\n' ∉ line.text) :
    '\n' ∉ numberedLine line := by
  have hbar : '\n' ∉ " | ".toList := by decide
  have hshown : '\n' ∉ (shownText line).toList := by
    rw [shownText, String.toList_ofList]
    intro hmem
    exact htext ((List.dropWhile_suffix isIndent).subset (mem_of_mem_dropTrailing hmem))
  rw [numberedLine, String.toList_append, String.toList_append, List.mem_append, List.mem_append]
  rintro ((hnumber | hmem) | hmem)
  · exact not_mem_digits (by decide) line.number hnumber
  · exact hbar hmem
  · exact hshown hmem

/-- Below the heading all lines are lines, if the name of the source is one. -/
theorem forall_tail_rows {error : Error} {line : Line} (htext : '\n' ∉ line.text)
    (hfile : '\n' ∉ error.position.file.toList) : ∀ row ∈ (rows error line).tail, '\n' ∉ row := by
  have harrow : '\n' ∉ "-> ".toList := by decide
  have horigin : '\n' ∉ ("-> " ++ error.position.file).toList := by
    rw [String.toList_append, List.mem_append, not_or]
    exact ⟨harrow, hfile⟩
  have hmargin : '\n' ∉ (margin line.number).toList := by simp [toList_margin]
  have hpointer := not_mem_pointerLine line.number (caretOffset line)
  simp only [rows, List.tail_cons, List.forall_mem_cons]
  exact ⟨horigin, hmargin, not_mem_numberedLine htext, hpointer, List.forall_mem_nil _⟩

theorem not_mem_name (fault : Fault) : '\n' ∉ fault.name.toList := by
  have hnames : ∀ name ∈ ["UnexpectedCharacter", "UnexpectedToken", "UnknownOperator",
      "TrailingInput", "UnclosedGroup", "NestingTooDeep"], '\n' ∉ name.toList := by decide
  apply hnames
  cases fault <;> simp [Fault.name]

/-- A remark shows what is quoted as it stands, between texts without a line feed. -/
theorem exists_remark (fault : Fault) : ∃ front back : String, '\n' ∉ front.toList ∧
    '\n' ∉ back.toList ∧ fault.remark.toList = front.toList ++ fault.quoted ++ back.toList := by
  have haround (front middle back : String) :
      (front ++ middle ++ back).toList = front.toList ++ middle.toList ++ back.toList := by
    rw [String.toList_append, String.toList_append]
  cases fault with
  | unexpectedCharacter c =>
      have hquoted : c.toString.toList = [c] := by simp
      refine ⟨"Unexpected character `", "`", by decide, by decide, ?_⟩
      rw [Fault.quoted, ← hquoted]
      exact haround _ _ _
  | unexpectedToken lexeme =>
      exact ⟨"Unexpected token: `", "`, expected a value or a prefix operator", by decide,
        by decide, haround _ _ _⟩
  | unknownOperator symbol =>
      exact ⟨"Operator `", "` is not defined by the grammar", by decide, by decide, haround _ _ _⟩
  | trailingInput lexeme =>
      exact ⟨"Unexpected `", "` after the end of the expression", by decide, by decide,
        haround _ _ _⟩
  | unclosedGroup lexeme =>
      exact ⟨"Expected `)` but found `", "`", by decide, by decide, haround _ _ _⟩
  | nestingTooDeep limit =>
      refine ⟨"Expression nests deeper than " ++ toString limit, " levels", ?_, by decide, ?_⟩
      · have hfront : '\n' ∉ "Expression nests deeper than ".toList := by decide
        rw [String.toList_append, List.mem_append, not_or]
        exact ⟨hfront, not_mem_digits (by decide) limit⟩
      · rw [Fault.quoted, List.append_nil, ← String.toList_append]
        rfl

theorem mem_heading_iff {error : Error} : '\n' ∈ heading error ↔ '\n' ∈ error.fault.quoted := by
  obtain ⟨front, back, hfront, hback, hremark⟩ := exists_remark error.fault
  have hname := not_mem_name error.fault
  have hfixed : '\n' ∉ "Error: ".toList ∧ '\n' ∉ " (".toList ∧ '\n' ∉ ")".toList := by decide
  simp only [heading, String.toList_append, List.mem_append, hremark, hfront, hback, hname, hfixed,
    false_or, or_false]

end Diagnostic

open Diagnostic

/-- The diagnostic of a source that is refused shows a source line and is five lines: the heading,
the name of the source, a bar, the numbered source line and the line with the caret.  All but the
heading are always lines, and the heading is one unless it quotes a text literal with a line feed.
The diagnostic can be written exactly if the column of the caret does not exceed the width of a
field. -/
theorem Error.diagnostic_rows {source : String} {file : Option String} {error : Error}
    (hfile : '\n' ∉ (fileName file).toList)
    (herror : tokenize source file = .error error ∨ parse source file = .error (.error error)) :
    ∃ line, lineAt? source error.position.offset.toNat = some line ∧
      (error.diagnostic source).toList = ended (rows error line) ∧
      (∀ row ∈ (rows error line).tail, '\n' ∉ row) ∧
      ((∀ row ∈ rows error line, '\n' ∉ row) ↔ ¬ error.QuotesFeed source file) ∧
      (error.diagnostic? source = some (error.diagnostic source) ↔
        caretOffset line + 1 ≤ fieldLimit) := by
  obtain ⟨text, hname, before, hsource, hoffset⟩ := Error.exists_frontOf herror
  have hwithin : error.position.offset.toNat ≤ width source.toList := by
    rw [hoffset, Int.toNat_natCast, hsource, width_append]
    exact Nat.le_add_right _ _
  obtain ⟨lines, rest, ahead, hplace⟩ := exists_place hwithin
  obtain ⟨line, hline, -⟩ := hplace.exists_locates
  have htail : ∀ row ∈ (rows error line).tail, '\n' ∉ row :=
    forall_tail_rows (not_mem_text hline) (by rwa [hname])
  have hcolumn : error.caretColumn? source = some (caretOffset line + 1) := by
    rw [Error.caretColumn?, hline, Option.map_some]
  refine ⟨line, hline, toList_diagnostic hline, htail, ?_, by
    rw [Error.diagnostic?_eq_some_iff, hcolumn]
    simp⟩
  have hrows : rows error line = heading error :: (rows error line).tail := rfl
  rw [hrows, List.forall_mem_cons, mem_heading_iff, Error.mem_quoted_iff herror]
  exact and_iff_left htail

/-- The source has a text literal with a line feed, but the error quotes the end of the source. -/
theorem Error.diagnostic_rows_operand :
    let source := "2 *\n (\"a\nb\" +"
    let error : Error := ⟨.unexpectedToken "(end)", ⟨13, "input"⟩⟩
    '\n' ∉ (fileName (some "input")).toList ∧
      parse source (some "input") = .error (.error error) ∧
      ∃ line, lineAt? source 13 = some line ∧
        (error.diagnostic source).toList = ended (rows error line) ∧
        ∀ row ∈ rows error line, '\n' ∉ row := by
  intro source error
  have hfile : '\n' ∉ (fileName (some "input")).toList := by decide
  have hparse : parse source (some "input") = .error (.error error) := by decide +kernel
  obtain ⟨line, hline, htext, -, hrows, -⟩ := Error.diagnostic_rows hfile (.inr hparse)
  refine ⟨hfile, hparse, line, hline, htext, hrows.mpr ?_⟩
  rintro ⟨before, token, -, -, -, -, hfault | hfault⟩ <;> contradiction

/-- Behind a whole expression a text literal with a line feed is quoted as it stands, and the
diagnostic is six lines. -/
theorem Error.diagnostic_rows_quoted :
    let source := "1 \"a\nb\""
    let error : Error := ⟨.trailingInput "\"a\nb\"", ⟨2, "shell"⟩⟩
    parse source none = .error (.error error) ∧
      error.diagnostic? source = some (error.diagnostic source) ∧
      ¬ ∃ rows : List (List Char), rows.length = 5 ∧ (∀ row ∈ rows, '\n' ∉ row) ∧
        (error.diagnostic source).toList = ended rows := by
  intro source error
  refine ⟨by decide +kernel, by decide +kernel, ?_⟩
  rintro ⟨rows, hlength, hrows, htext⟩
  have hsix : (error.diagnostic source).toList.count '\n' = 6 := by decide +kernel
  rw [htext, count_ended hrows, hlength] at hsix
  contradiction

end Precedence
