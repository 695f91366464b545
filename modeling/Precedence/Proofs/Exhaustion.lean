import Precedence.Proofs.Limit
import Precedence.Proofs.Operation

/-!
# Behind an error of the lexer

The items of a source end with the closing token or with an error.  A parser that has taken the
closing token stands on it and stays there.  A parser that has taken the error reports it, but it
keeps no note of it: it stands on the token before, with nothing pending, and from then on moving on
gives that token again and again.
-/

namespace Precedence

open Lexer

/-! ## Rows of items -/

namespace Lexer

/-- Items that come to an end: tokens, and behind them the closing token or an error. -/
inductive Row : List Item → Prop
  | closing {token : Token} (hkind : token.kind = .finish) : Row [.ok token]
  | error {error : Error} (hlexical : error.isLexical = true) : Row [.error error]
  | token {token : Token} {items : List Item} (hkind : token.kind ≠ .finish) (hrest : Row items) :
      Row (.ok token :: items)

namespace Row

variable {items rest : List Item} {token : Token} {error : Error}

theorem ne_nil (hrow : Row items) : items ≠ [] := by
  cases hrow <;> exact List.cons_ne_nil _ _

/-- A token is the last item if it ends the source, and only then. -/
theorem of_ok (hrow : Row (.ok token :: items)) :
    token.kind = .finish ∧ items = [] ∨ token.kind ≠ .finish ∧ Row items := by
  cases hrow with
  | closing hkind => exact .inl ⟨hkind, rfl⟩
  | token hkind hrest => exact .inr ⟨hkind, hrest⟩

theorem of_error (hrow : Row (.error error :: items)) : error.isLexical = true ∧ items = [] := by
  cases hrow with
  | error hlexical => exact ⟨hlexical, rfl⟩

theorem of_suffix (hrow : Row items) (hsuffix : rest <:+ items) (hne : rest ≠ []) : Row rest := by
  induction hrow with
  | closing hkind =>
      rcases List.suffix_cons_iff.mp hsuffix with rfl | hnil
      · exact .closing hkind
      · exact absurd (List.suffix_nil.mp hnil) hne
  | error hlexical =>
      rcases List.suffix_cons_iff.mp hsuffix with rfl | hnil
      · exact .error hlexical
      · exact absurd (List.suffix_nil.mp hnil) hne
  | token hkind hrest ih =>
      rcases List.suffix_cons_iff.mp hsuffix with rfl | hshorter
      · exact .token hkind hrest
      · exact ih hshorter

theorem of_tokens {tokens : List Token} {last : Item}
    (hkinds : ∀ token ∈ tokens, token.kind ≠ .finish) (hlast : Row [last]) :
    Row (tokens.map .ok ++ [last]) := by
  induction tokens with
  | nil => exact hlast
  | cons token tokens ih =>
      obtain ⟨hkind, hkinds⟩ := List.forall_mem_cons.mp hkinds
      exact .token hkind (ih hkinds)

end Row

theorem row_lastItem (length stop : Nat) (file : String) (left : List Char) :
    Row [lastItem length file stop left] := by
  cases left with
  | nil => exact .closing rfl
  | cons c left => exact .error rfl

variable {lexer : Lexer}

/-- A lexer on its way through a source yields a row of items. -/
theorem row_items (hphase : lexer.phase = .scanning) (hinside : lexer.inside = 0) :
    Row lexer.items := by
  obtain ⟨tokens, stop, left, hscan, hend⟩ :=
    Scan.exists_scan lexer.file lexer.offset lexer.ahead
  have hlexer : lexer = ⟨lexer.file, lexer.length, lexer.offset, lexer.ahead, 0, .scanning⟩ := by
    rw [← hphase, ← hinside]
  have hcollect := @collect_of_scan _ lexer.length _ _ _ _ _ hscan hend (lexer.ahead.length + 2) []
    (by omega)
  rw [← hlexer] at hcollect
  have hitems : lexer.items =
      tokens.map .ok ++ [lastItem lexer.length lexer.file stop left] := by
    rw [items, drain]
    dsimp only
    rw [hcollect]
    simp
  rw [hitems]
  exact .of_tokens (fun token htoken => (hscan.kind_ne token htoken).2) (row_lastItem _ _ _ _)

theorem inside_scan (lexer : Lexer) : lexer.scan.2.inside = lexer.inside := by
  rw [scan]
  split
  · rfl
  · split <;> rfl

theorem inside_next (lexer : Lexer) : lexer.next.2.inside = lexer.inside := by
  rw [next]
  split
  · rfl
  · rfl
  · split
    · exact inside_scan lexer.skipGap
    · rfl

theorem inside_pull (lexer : Lexer) (count : Nat) : (lexer.pull count).inside = lexer.inside := by
  induction count generalizing lexer with
  | zero => rfl
  | succ count ih => rw [pull, ih, inside_next]

end Lexer

/-! ## What a run leaves -/

/-- The failure is an error of the lexer. -/
def Failure.isLexical : Failure → Bool
  | .error cause => cause.isLexical
  | .endless => false

/-- Nothing is pending, but the cursor does not stand on the end. -/
def Cursor.Stranded (cursor : Cursor) : Prop :=
  cursor.pending = [] ∧ cursor.current.kind ≠ .finish

/-- The failure explains where the cursor is left: an error of the lexer was the last item, and
behind any other failure there is still a row of items. -/
def Failure.Explains (failure : Failure) (cursor : Cursor) : Prop :=
  if failure.isLexical then cursor.Stranded else Row cursor.items

section Explains

variable {grammar : Grammar} {cursor next : Cursor} {failure : Failure}

/-- Moving on takes an item off the row.  An operator without a rule is taken as well, but it is not
the last item. -/
theorem Cursor.explains_shift (hrow : Row cursor.items)
    (hshift : cursor.shift grammar = .error failure next) : failure.Explains next := by
  obtain ⟨hcurrent, item, error, hpending, rfl, hitem⟩ := Cursor.shift_error hshift
  rw [Cursor.items, hpending] at hrow
  obtain ⟨-, hnil⟩ | ⟨hkind, hrest⟩ := hrow.of_ok
  · contradiction
  rw [← hcurrent] at hkind
  rcases hitem with rfl | ⟨bad, rfl, hcheck⟩
  · obtain ⟨hlexical, hnil⟩ := hrest.of_error
    rw [Failure.Explains, Failure.isLexical, if_pos hlexical]
    exact ⟨hnil, hkind⟩
  · have hoperator : bad.kind = .operator := by
      by_contra hother
      simp [Grammar.checkOperator, hother] at hcheck
    obtain ⟨hfinish, -⟩ | ⟨-, hbehind⟩ := hrest.of_ok
    · rw [hoperator] at hfinish
      contradiction
    · rw [Grammar.eq_of_checkOperator hcheck]
      exact .token hkind hbehind

theorem Cursor.explains_refuse {limit : Nat} {fault : Fault} (hrow : Row cursor.items)
    (hnames : Error.Names limit ⟨fault, cursor.current.position⟩ (.ok cursor.current)) :
    Failure.Explains (.error ⟨fault, cursor.current.position⟩) cursor := by
  have hsyntactic := hnames.isSyntactic
  rw [Error.isSyntactic, Bool.not_eq_true'] at hsyntactic
  rw [Failure.Explains, Failure.isLexical, hsyntactic]
  exact hrow

theorem Grammar.suffers_explains (grammar : Grammar) (limit : Nat) {items : List Item}
    (hrow : Row items) : grammar.Suffers limit items Failure.Explains where
  refuse hcursor hrefuses :=
    Cursor.explains_refuse (hrow.of_suffix hcursor (List.cons_ne_nil _ _)) hrefuses.names
  shift hcursor hshift :=
    Cursor.explains_shift (hrow.of_suffix hcursor (List.cons_ne_nil _ _)) hshift
  endless hcursor _ _ := hrow.of_suffix hcursor (List.cons_ne_nil _ _)

end Explains

namespace Parser

variable {α : Type} {parser : Parser}

/-- What a step comes to explains where it leaves the parser. -/
def Explained : EStateM.Result Failure Parser α → Prop
  | .ok _ parser => Row parser.cursor.items
  | .error failure parser => failure.Explains parser.cursor

theorem explained_onto {items : List Item} {outcome : Outcome α} (hrow : Row items)
    (houtcome : outcome.Among items Failure.Explains) (parser : Parser) :
    Explained (outcome.onto parser) := by
  cases outcome with
  | ok value next => exact hrow.of_suffix houtcome (List.cons_ne_nil _ _)
  | error failure next => exact houtcome

/-- Reading an expression is a run, wherever the parser is moved to. -/
theorem expression_moveTo {cursor : Cursor} {floor : Nat} {result : Outcome Expr}
    (hrun : Run parser.grammar parser.limit (.read (parser.limit - parser.depth) floor cursor)
      result) : expression floor (parser.moveTo cursor) = result.onto parser := by
  have hmoved : expression floor (parser.moveTo cursor) = result.onto (parser.moveTo cursor) :=
    expression_eq rfl hrun
  rw [hmoved]
  cases result <;> rfl

/-- A prefix form is read as in a run. -/
theorem prefixed_moveTo {cursor : Cursor} {form : PrefixForm} {power : Nat} {result : Outcome Expr}
    (hrun : Run parser.grammar parser.limit
      (.begin (parser.limit - parser.depth) ⟨form, power⟩ cursor) result) :
    prefixed expression form power (parser.moveTo cursor) = result.onto parser := by
  cases hrun with
  | stuckPrefix hshift => exact @prefixed_error parser cursor expression ⟨form, power⟩ _ _ hshift
  | atom hshift => rw [prefixed, atom_moveTo, hshift, Outcome.map_ok]
  | sign hshift hoperand => exact signed_moveTo hshift (expression_moveTo hoperand)
  | group hshift hinner => exact grouped_moveTo hshift (expression_moveTo hinner)

section Explained

variable (hknows : parser.KnowsRule) (hrow : Row parser.cursor.items)

include hknows hrow

theorem explained_shift : Explained (shift parser) := by
  have hshift := shift_moveTo parser parser.cursor
  rw [hknows.moveTo_cursor] at hshift
  rw [hshift]
  exact explained_onto hrow ((parser.grammar.suffers_explains parser.limit hrow).among_shift rfl
    (List.suffix_refl _)) parser

theorem explained_expression (floor : Nat) : Explained (expression floor parser) := by
  obtain ⟨result, hrun⟩ := Run.exists_read parser.grammar parser.limit
    (parser.limit - parser.depth) floor parser.cursor
  rw [expression_eq hknows hrun]
  exact explained_onto hrow ((parser.grammar.suffers_explains parser.limit hrow).among hrun
    (List.suffix_refl _)) parser

theorem explained_prefixed (form : PrefixForm) (power : Nat) :
    Explained (prefixed expression form power parser) := by
  obtain ⟨result, hrun⟩ := Run.exists_begin
    (Run.exists_read parser.grammar parser.limit (parser.limit - parser.depth)) ⟨form, power⟩
    parser.cursor
  have hprefixed := prefixed_moveTo hrun
  rw [hknows.moveTo_cursor] at hprefixed
  rw [hprefixed]
  exact explained_onto hrow ((parser.grammar.suffers_explains parser.limit hrow).among hrun
    (List.suffix_refl _)) parser

theorem explained_joined (left : Expr) (power : Nat) :
    Explained (joined expression left power parser) := by
  have hsuffers := parser.grammar.suffers_explains parser.limit hrow
  have hamong : (parser.cursor.shift parser.grammar).Among parser.cursor.items Failure.Explains :=
    hsuffers.among_shift rfl (List.suffix_refl _)
  cases hshift : parser.cursor.shift parser.grammar with
  | error failure next =>
      rw [hshift] at hamong
      have hmoved := shift_moveTo parser parser.cursor
      rw [hknows.moveTo_cursor, hshift] at hmoved
      rw [joined, bind_error hmoved]
      exact hamong
  | ok token next =>
      rw [hshift] at hamong
      obtain ⟨right, hright⟩ := Run.exists_read parser.grammar parser.limit
        (parser.limit - parser.depth) power next
      have hjoined : joined expression left power (parser.moveTo parser.cursor) =
          (right.map (.binary token.lexeme left)).onto parser :=
        joined_moveTo hshift (expression_moveTo hright)
      rw [hknows.moveTo_cursor] at hjoined
      rw [hjoined]
      exact explained_onto hrow (Outcome.among_map.mpr (hsuffers.among hright hamong)) parser

omit hknows in
theorem explained_openLevel : Explained (openLevel parser) := by
  rw [openLevel]
  split
  · exact hrow
  · exact Cursor.explains_refuse hrow (Error.names_tooDeep parser.limit _)

end Explained

/-! ## Parsers in use -/

/-- The failure that a step comes to. -/
def failureOf? : EStateM.Result Failure Parser α → Option Failure
  | .ok _ _ => none
  | .error failure _ => some failure

/-- The failure that an operation comes to. -/
def failure? (parser : Parser) : Operation → Option Failure
  | .shift => failureOf? (shift parser)
  | .openLevel => failureOf? (openLevel parser)
  | .closeLevel | .withLimit _ => none
  | .expression floor => failureOf? (expression floor parser)
  | .prefixed form power => failureOf? (prefixed expression form power parser)
  | .joined left power => failureOf? (joined expression left power parser)

/-- Whether one of the operations, done in a row, fails with an error of the lexer. -/
def reports : Parser → List Operation → Bool
  | _, [] => false
  | parser, operation :: operations =>
    (parser.failure? operation).any Failure.isLexical || (parser.operate operation).reports operations

/-- The cursor stands in front of a row of items, or it is stranded, depending on whether an error
of the lexer was reported. -/
def StandsAfter (reported : Bool) (cursor : Cursor) : Prop :=
  if reported then cursor.Stranded else Row cursor.items

theorem Explained.standsAfter {result : EStateM.Result Failure Parser α}
    (hexplained : Explained result) :
    StandsAfter ((failureOf? result).any Failure.isLexical) (remaining result).cursor := by
  cases result with
  | ok value parser => exact hexplained
  | error failure parser => exact hexplained

theorem standsAfter_operate (hknows : parser.KnowsRule) (hrow : Row parser.cursor.items)
    (operation : Operation) :
    StandsAfter ((parser.failure? operation).any Failure.isLexical)
      (parser.operate operation).cursor := by
  cases operation with
  | shift => exact (explained_shift hknows hrow).standsAfter
  | openLevel => exact (explained_openLevel hrow).standsAfter
  | closeLevel | withLimit => exact hrow
  | expression floor => exact (explained_expression hknows hrow floor).standsAfter
  | prefixed form power => exact (explained_prefixed hknows hrow form power).standsAfter
  | joined left power => exact (explained_joined hknows hrow left power).standsAfter

/-- With nothing pending, no operation moves the cursor. -/
theorem invariant_cursor {cursor : Cursor} (hpending : cursor.pending = []) :
    Invariant fun parser => parser.cursor = cursor where
  shift := by
    rintro parser rfl
    rw [shift, show parser.pending = [] from hpending]
    rfl
  levels _ _ _ hcursor := hcursor

/-- Until an error of the lexer is reported the cursor stands in front of a row of items, and from
then on it is stranded. -/
theorem standsAfter_foldl {grammar : Grammar} (hsettled : parser.Settled grammar)
    (hrow : Row parser.cursor.items) (operations : List Operation) :
    StandsAfter (parser.reports operations) (operations.foldl operate parser).cursor := by
  induction operations generalizing parser with
  | nil => exact hrow
  | cons operation operations ih =>
      have hknows : parser.KnowsRule := by
        rw [KnowsRule, hsettled.grammar_eq]
        exact (Grammar.resolve_eq_ok_iff.mp hsettled.resolve_eq).2
      have hstands := standsAfter_operate hknows hrow operation
      rw [List.foldl_cons, reports]
      cases hreported : (parser.failure? operation).any Failure.isLexical with
      | false =>
          rw [hreported] at hstands
          exact ih ((invariant_settled grammar).operate hsettled operation) hstands
      | true =>
          rw [hreported] at hstands
          have hcursor := (invariant_cursor hstands.1).foldl_operate rfl operations
          rw [Bool.true_or, hcursor]
          exact hstands

/-- What becomes of a parser that is used on, depending on whether an error of the lexer was
reported. -/
structure RunsOut (reported : Bool) (parser : Parser) : Prop where
  /-- As long as none was, moving on takes an item, unless the cursor stands on the end. -/
  takes : reported = false → parser.current.kind ≠ .finish → ∀ token after,
    shift parser = .ok token after → parser.pending = .ok after.current :: after.pending
  /-- Behind an error the cursor stands on another token than the end, and whatever is done with the
  parser, moving on and reading an atom succeed without moving it. -/
  stays : reported = true → parser.current.kind ≠ .finish ∧ ∀ operations : List Operation,
    let later := operations.foldl operate parser
    shift later = .ok parser.current later ∧
      ∀ power, prefixed expression .atom power later = .ok parser.current.leaf later

theorem StandsAfter.runsOut {reported : Bool} (hstands : StandsAfter reported parser.cursor) :
    parser.RunsOut reported where
  takes := by
    rintro rfl hkind token after hshift
    have hshifted := shifted_shift parser
    rw [hshift] at hshifted
    cases hshifted with
    | moves hpending hresolve => exact hpending
    | stays hpending =>
        obtain ⟨hfinish, -⟩ | ⟨-, hrest⟩ := Row.of_ok hstands
        · exact absurd hfinish hkind
        · exact absurd hpending hrest.ne_nil
  stays := by
    rintro rfl
    refine ⟨hstands.2, fun operations => ?_⟩
    intro later
    have hcursor : later.cursor = parser.cursor :=
      (invariant_cursor hstands.1).foldl_operate rfl operations
    have hcurrent : later.current = parser.current := congrArg Cursor.current hcursor
    have hpending : later.pending = [] := (congrArg Cursor.pending hcursor).trans hstands.1
    have hshift : shift later = .ok parser.current later := by
      rw [shift, hpending, ← hcurrent]
    refine ⟨hshift, fun power => ?_⟩
    rw [prefixed, atom, bind_ok hshift]
    rfl

section Source

variable {grammar : Grammar} {source : String} {file : Option String} {count : Nat}

theorem row_of_resolve {lexer : Lexer} (hphase : lexer.phase ≠ .start) (hinside : lexer.inside = 0)
    (hover : lexer.Over source (fileName file)) (hparser : ofLexer lexer grammar = .ok parser) :
    Row parser.cursor.items := by
  have hlexical := lexical_items hover hphase
  cases hscanning : lexer.phase with
  | start => exact absurd hscanning hphase
  | finished =>
      have hitems : lexer.items = [] := by
        rw [items, drain]
        dsimp only
        rw [collect_finished hscanning, List.reverse_nil]
      rw [ofLexer, hitems] at hparser
      contradiction
  | scanning =>
      have hrow := row_items hscanning hinside
      rw [ofLexer] at hparser
      split at hparser
      · contradiction
      · contradiction
      · next first rest hitems =>
        rw [hitems] at hlexical hrow
        simp only [if_neg (show ¬ first.kind = .start from hlexical _ List.mem_cons_self)] at hparser
        split at hparser
        · cases hparser
          exact hrow
        · contradiction

theorem row_ofLexer (hparser : ofLexer ((ofSource source file).pull count) grammar = .ok parser) :
    Row parser.cursor.items := by
  have hover := over_ofSource source file
  cases count with
  | succ count =>
      exact row_of_resolve (hover.phase_pull_succ count) (inside_pull _ _) (hover.pull _) hparser
  | zero =>
      obtain ⟨tokens, done, left, -, hspans, -, hitems⟩ := exists_row source file
      obtain ⟨-, -, hcursor⟩ := of_ofLexer hitems (by simp) hparser
      rw [hcursor]
      exact .of_tokens (fun token htoken => (hspans.kinds token htoken).2) (row_lastItem _ _ _ _)

/-- A parser over what is left of a source, once some items were taken from the lexer, takes item
after item up to the end or to an error.  An error is reported once only. -/
theorem runsOut_of_operations
    (hparser : ofLexer ((ofSource source file).pull count) grammar = .ok parser)
    (operations : List Operation) :
    (operations.foldl operate parser).RunsOut (parser.reports operations) :=
  (standsAfter_foldl (settled_ofLexer hparser) (row_ofLexer hparser) operations).runsOut

/-- A character that begins no lexeme is reported in place of the end, and the number before it
stays under the cursor. -/
theorem runsOut_of_operations_foreign :
    let parser : Parser :=
      { grammar := .arithmetic
        current := ⟨.number, "1", ⟨0, 1, "shell"⟩⟩
        pending := [.error ⟨.unexpectedCharacter '@', ⟨1, "shell"⟩⟩]
        depth := 0
        limit := standardLimit }
    ofLexer (.ofSource "1@" none) .arithmetic = .ok parser ∧
      parser.reports [.expression 0] = true ∧
      (parser.operate (.expression 0)).RunsOut true := by
  intro parser
  have hparser : ofLexer (.ofSource "1@" none) .arithmetic = .ok parser := by decide +kernel
  have hreports : parser.reports [.expression 0] = true := by decide +kernel
  refine ⟨hparser, hreports, ?_⟩
  rw [← hreports]
  exact @runsOut_of_operations _ _ _ _ 0 hparser [.expression 0]

/-- An error of the lexer is not fatal to the parser: behind it the token that is left under the
cursor is read as an expression. -/
theorem expression_behind_unexpectedCharacter :
    let parser : Parser :=
      { grammar := .arithmetic
        current := ⟨.number, "1", ⟨0, 1, "shell"⟩⟩
        pending := [.error ⟨.unexpectedCharacter '@', ⟨1, "shell"⟩⟩]
        depth := 0
        limit := standardLimit }
    let after := parser.moveTo ⟨parser.current, []⟩
    ofLexer (.ofSource "1@" none) .arithmetic = .ok parser ∧
      expression 0 parser = .error (.error ⟨.unexpectedCharacter '@', ⟨1, "shell"⟩⟩) after ∧
      after.current.kind ≠ .finish ∧ shift after = .ok after.current after ∧
      expression 0 after = .ok (.literal "1") after := by
  intro parser after
  exact ⟨by decide +kernel, by decide +kernel, by decide, rfl, by decide +kernel⟩

end Source

end Parser

end Precedence
