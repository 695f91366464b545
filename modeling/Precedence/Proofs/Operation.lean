import Precedence.Proofs.Triple
import Precedence.Proofs.Walk

/-!
# A parser in use

A parser can be used on after any operation, whether the operation failed or not, and failures come
up out of any depth of nesting.  The token under the cursor and its rule are kept apart, but both
change in one place only, where the cursor moves on.  So a property that moving on keeps and that
does not depend on the levels is kept by every operation.
-/

namespace Precedence

namespace Parser

/-- The parser that a step leaves, whether the step fails or not. -/
def remaining {α : Type} : EStateM.Result Failure Parser α → Parser
  | .ok _ parser | .error _ parser => parser

/-- What can be done with a parser. -/
inductive Operation where
  | shift
  | openLevel
  | closeLevel
  | withLimit (limit : Nat)
  | expression (floor : Nat)
  /-- A prefix form is read from the current token on, whatever the rule of the token says. -/
  | prefixed (form : PrefixForm) (power : Nat)
  /-- The current token is taken as an operator after `left`, whatever its rule says. -/
  | joined (left : Expr) (power : Nat)

/-- The parser that an operation leaves, whether it fails or not. -/
def operate (parser : Parser) : Operation → Parser
  | .shift => remaining (shift parser)
  | .openLevel => remaining (openLevel parser)
  | .closeLevel => parser.closeLevel
  | .withLimit limit => parser.withLimit limit
  | .expression floor => remaining (expression floor parser)
  | .prefixed form power => remaining (prefixed expression form power parser)
  | .joined left power => remaining (joined expression left power parser)

/-! ## What every operation keeps -/

/-- The step keeps a property of parsers, whether it fails or not. -/
def Keeps (property : Parser → Prop) {α : Type} (step : Parse α) : Prop :=
  ∀ parser, property parser → property (remaining (step parser))

section Keeps

variable {property : Parser → Prop} {α : Type} {step : Parse α}

theorem keeps_iff_leads : Keeps property step ↔ Leads property property property step := by
  have hleaves (result : EStateM.Result Failure Parser α) :
      property (remaining result) ↔ Leaves property property result := by
    cases result <;> exact Iff.rfl
  constructor
  · intro hkeeps parser hparser
    exact (hleaves _).mp (hkeeps parser hparser)
  · intro hleads parser hparser
    exact (hleaves _).mpr (hleads parser hparser)

/-- A property of parsers that moving on keeps and that does not depend on the levels. -/
structure Invariant (property : Parser → Prop) : Prop where
  shift : Keeps property shift
  levels : ∀ parser depth limit, property parser → property { parser with depth, limit }

namespace Invariant

variable (hinvariant : Invariant property)

include hinvariant

theorem openLevel : Keeps property openLevel := by
  intro parser hparser
  rw [Parser.openLevel]
  split
  · exact hinvariant.levels parser _ _ hparser
  · exact hparser

theorem leads_expression (floor : Nat) : Leads property property property (expression floor) := by
  have hshift := keeps_iff_leads.mp hinvariant.shift
  have hfree : LevelFree property := hinvariant.levels
  exact hshift.expression hshift hfree hfree hfree (fun _ hparser => hparser)
    (fun _ hparser => hparser) floor

theorem prefixed (form : PrefixForm) (power : Nat) :
    Keeps property (prefixed expression form power) :=
  keeps_iff_leads.mpr ((keeps_iff_leads.mp hinvariant.shift).prefixed
    (keeps_iff_leads.mp hinvariant.shift) hinvariant.leads_expression (fun _ hparser => hparser)
    form power)

theorem joined (left : Expr) (power : Nat) : Keeps property (joined expression left power) :=
  keeps_iff_leads.mpr ((keeps_iff_leads.mp hinvariant.shift).joined hinvariant.leads_expression
    left power)

/-- One operation keeps the property. -/
theorem operate {parser : Parser} (hparser : property parser) (operation : Operation) :
    property (parser.operate operation) := by
  cases operation with
  | shift => exact hinvariant.shift parser hparser
  | openLevel => exact hinvariant.openLevel parser hparser
  | closeLevel => exact hinvariant.levels parser _ _ hparser
  | withLimit limit => exact hinvariant.levels parser _ limit hparser
  | expression floor =>
      exact keeps_iff_leads.mpr (hinvariant.leads_expression floor) parser hparser
  | prefixed form power => exact hinvariant.prefixed form power parser hparser
  | joined left power => exact hinvariant.joined left power parser hparser

/-- Any operations in a row keep the property. -/
theorem foldl_operate {parser : Parser} (hparser : property parser) (operations : List Operation) :
    property (operations.foldl Parser.operate parser) := by
  induction operations generalizing parser with
  | nil => exact hparser
  | cons operation operations ih => exact ih (hinvariant.operate hparser operation)

end Invariant

end Keeps

end Parser

/-! ## Items behind the opening token -/

/-- An item that can stand behind the opening token: a token that is not of its kind, or a character
that begins no lexeme. -/
def Lexer.Lexical : Lexer.Item → Prop
  | .ok token => token.kind ≠ .start
  | .error error => ∃ c position, error = ⟨.unexpectedCharacter c, position⟩

namespace Lexer

/-- The lexer after so many items were asked for. -/
def pull : Nat → Lexer → Lexer
  | 0, lexer => lexer
  | count + 1, lexer => pull count lexer.next.2

variable {source file : String} {phase next : Phase} {event : Event} {lexer : Lexer}

theorem Step.next_ne (hstep : Step source file phase event next) : next ≠ .start := by
  cases hstep with
  | opening | done => simp
  | scanned hscanned => split <;> simp

theorem Step.lexical (hstep : Step source file phase event next) (hphase : phase ≠ .start)
    {item : Item} (hitem : event.pull = .item item) : Lexical item := by
  cases hstep with
  | opening | done => contradiction
  | scanned hscanned =>
      cases hscanned with
      | token hkind =>
          cases hitem
          exact hkind.1
      | closing =>
          cases hitem
          simp [Lexical, Token.closing]
      | error =>
          cases hitem
          exact ⟨_, _, rfl⟩
      | astray => contradiction

theorem lexical_collect (hover : lexer.Over source file) (hphase : lexer.phase ≠ .start)
    (count : Nat) {found : List Item} (hfound : ∀ item ∈ found, Lexical item) :
    ∀ item ∈ (lexer.collect count found).1, Lexical item := by
  induction count generalizing lexer found with
  | zero => exact hfound
  | succ count ih =>
      obtain ⟨hstep, hafter⟩ := hover.next
      rw [collect]
      cases hnext : lexer.next with
      | mk answer after =>
          rw [hnext] at hstep hafter
          cases answer with
          | item item =>
              have hitem := hstep.lexical hphase rfl
              exact ih hafter hstep.next_ne (List.forall_mem_cons.mpr ⟨hitem, hfound⟩)
          | done => exact hfound
          | astray => exact hfound

theorem lexical_items (hover : lexer.Over source file) (hphase : lexer.phase ≠ .start) :
    ∀ item ∈ lexer.items, Lexical item := by
  intro item hitem
  rw [items, drain] at hitem
  exact lexical_collect hover hphase _ (by simp) item (List.mem_reverse.mp hitem)

theorem exists_lexical (source : String) (file : Option String) :
    ∃ rest, (ofSource source file).items = .ok (.opening (fileName file)) :: rest ∧ rest ≠ [] ∧
      ∀ item ∈ rest, Lexical item := by
  obtain ⟨tokens, last, hitems, hkinds, hlast⟩ := items_ofSource source file
  refine ⟨_, hitems, by simp, ?_⟩
  intro item hitem
  rcases List.mem_append.mp hitem with hitem | hitem
  · obtain ⟨token, htoken, rfl⟩ := List.mem_map.mp hitem
    exact (hkinds token htoken).1
  · rw [List.mem_singleton.mp hitem]
    rcases hlast with rfl | ⟨c, position, rfl⟩
    · simp [Lexical, Token.closing]
    · exact ⟨c, position, rfl⟩

theorem Over.pull (hover : lexer.Over source file) (count : Nat) :
    (lexer.pull count).Over source file := by
  induction count generalizing lexer with
  | zero => exact hover
  | succ count ih => exact ih hover.next.2

theorem Over.phase_pull_succ (hover : lexer.Over source file) (count : Nat) :
    (lexer.pull (count + 1)).phase ≠ .start := by
  induction count generalizing lexer with
  | zero => exact hover.next.1.next_ne
  | succ count ih => exact ih hover.next.2

end Lexer

/-! ## Moving on -/

section Shift

variable {grammar : Grammar} {token : Token} {rule? : Option Rule} {error : Error}

theorem Grammar.resolve_eq_ok_iff : grammar.resolve token = .ok rule? ↔
    (token.kind = .operator → (grammar.rule? (.operator token.lexeme)).isSome) ∧
      rule? = token.symbol?.bind grammar.rule? := by
  rw [resolve, checkOperator, contains]
  by_cases hkind : token.kind = .operator
  · cases hrule : grammar.rule? (.operator token.lexeme) with
    | none => simp [hkind, Except.map]
    | some rule => simpa [hkind, Except.map] using eq_comm
  · simpa [hkind, Except.map] using eq_comm

theorem Grammar.of_resolve_eq_error (hresolve : grammar.resolve token = .error error) :
    grammar.rule? (.operator token.lexeme) = none ∧
      error = ⟨.unknownOperator token.lexeme, token.position⟩ := by
  rw [resolve, checkOperator, contains] at hresolve
  split at hresolve
  · next hunknown =>
    cases hresolve
    simp only [Bool.and_eq_true, Bool.not_eq_true', Option.isSome_eq_false_iff,
      Option.isNone_iff_eq_none] at hunknown
    exact ⟨hunknown.2, rfl⟩
  · contradiction

namespace Parser

/-- What moving on comes to. -/
inductive Shifted (parser : Parser) : EStateM.Result Failure Parser Token → Prop
  | stays (hpending : parser.pending = []) : Shifted parser (.ok parser.current parser)
  | moves {next : Token} {rest : List Lexer.Item} {rule? : Option Rule}
      (hpending : parser.pending = .ok next :: rest)
      (hresolve : parser.grammar.resolve next = .ok rule?) :
      Shifted parser
        (.ok parser.current { parser with pending := rest, current := next, rule? })
  | refuses {item : Lexer.Item} {rest : List Lexer.Item} {error : Error}
      (hpending : parser.pending = item :: rest)
      (hrefused : item.bind parser.grammar.resolve = .error error) :
      Shifted parser (.error (.error error) { parser with pending := rest })

theorem shifted_shift (parser : Parser) : Shifted parser (shift parser) := by
  rw [shift]
  cases hpending : parser.pending with
  | nil => exact .stays hpending
  | cons item rest =>
      cases item with
      | error error => exact .refuses hpending rfl
      | ok next =>
          cases hresolve : parser.grammar.resolve next with
          | ok rule? => simpa only [hresolve] using .moves hpending hresolve
          | error error => simpa only [hresolve] using .refuses hpending hresolve

/-- The parser works by a grammar, and it stands behind the opening token, on a token that the
grammar resolves. -/
structure Settled (grammar : Grammar) (parser : Parser) : Prop where
  grammar_eq : parser.grammar = grammar
  kind_ne : parser.current.kind ≠ .start
  resolve_eq : grammar.resolve parser.current = .ok parser.rule?
  lexical : ∀ item ∈ parser.pending, Lexer.Lexical item

theorem Settled.lexical_cons {parser : Parser} (hparser : parser.Settled grammar)
    {item : Lexer.Item} {rest : List Lexer.Item} (hpending : parser.pending = item :: rest) :
    Lexer.Lexical item ∧ ∀ item ∈ rest, Lexer.Lexical item := by
  have hlexical := hparser.lexical
  rw [hpending] at hlexical
  exact List.forall_mem_cons.mp hlexical

theorem settled_of_shift {parser after : Parser} {token : Token}
    (hgrammar : parser.grammar = grammar) (hne : parser.pending ≠ [])
    (hlexical : ∀ item ∈ parser.pending, Lexer.Lexical item)
    (hshift : shift parser = .ok token after) : after.Settled grammar := by
  have hshifted := shifted_shift parser
  rw [hshift] at hshifted
  cases hshifted with
  | stays hpending => exact absurd hpending hne
  | moves hpending hresolve =>
      rw [hpending] at hlexical
      obtain ⟨hnext, hrest⟩ := List.forall_mem_cons.mp hlexical
      rw [hgrammar] at hresolve
      exact ⟨hgrammar, hnext, hresolve, hrest⟩

theorem invariant_settled (grammar : Grammar) : Invariant (Settled grammar) where
  shift := by
    intro parser hparser
    have hshifted := shifted_shift parser
    generalize hresult : shift parser = result at hshifted
    cases hshifted with
    | stays hpending => exact hparser
    | moves hpending hresolve =>
        have hne : parser.pending ≠ [] := by
          rw [hpending]
          exact List.cons_ne_nil _ _
        exact settled_of_shift hparser.grammar_eq hne hparser.lexical hresult
    | refuses hpending hrefused =>
        -- The item is gone, but nothing that was read off the cursor has changed.
        exact ⟨hparser.grammar_eq, hparser.kind_ne, hparser.resolve_eq,
          (hparser.lexical_cons hpending).2⟩
  levels := fun parser depth limit hparser =>
    ⟨hparser.grammar_eq, hparser.kind_ne, hparser.resolve_eq, hparser.lexical⟩

theorem settled_of_resolve {parser : Parser} {lexer : Lexer} {source file : String}
    (hover : lexer.Over source file) (hphase : lexer.phase ≠ .start)
    (hparser : ofLexer lexer grammar = .ok parser) : parser.Settled grammar := by
  have hlexical := Lexer.lexical_items hover hphase
  rw [ofLexer] at hparser
  split at hparser
  · contradiction
  · contradiction
  · next first rest hitems =>
    rw [hitems] at hlexical
    obtain ⟨hfirst, hrest⟩ := List.forall_mem_cons.mp hlexical
    simp only [if_neg (show ¬ first.kind = .start from hfirst)] at hparser
    split at hparser
    · next hresolve =>
      cases hparser
      exact ⟨rfl, hfirst, hresolve, hrest⟩
    · contradiction

theorem settled_ofLexer {parser : Parser} {source : String} {file : Option String} {count : Nat}
    (hparser : ofLexer ((Lexer.ofSource source file).pull count) grammar = .ok parser) :
    parser.Settled grammar := by
  have hover := Lexer.over_ofSource source file
  -- Only a lexer that was never asked still has the opening token, which the parser passes over.
  cases count with
  | succ count => exact settled_of_resolve (hover.pull _) (hover.phase_pull_succ count) hparser
  | zero =>
      obtain ⟨rest, hitems, hne, hlexical⟩ := Lexer.exists_lexical source file
      rw [Lexer.pull, ofLexer, hitems] at hparser
      simp only [if_pos (show (Token.opening (Lexer.fileName file)).kind = .start from rfl)]
        at hparser
      split at hparser
      · next token after hshift =>
        cases hparser
        exact settled_of_shift rfl hne hlexical hshift
      · contradiction

/-- Why the cursor does not move: a character begins no lexeme, or an operator has no rule. -/
def Refusal (grammar : Grammar) (failure : Failure) : Prop :=
  (∃ c position, failure = .error ⟨.unexpectedCharacter c, position⟩) ∨
    ∃ operator position, failure = .error ⟨.unknownOperator operator, position⟩ ∧
      grammar.rule? (.operator operator) = none

theorem refusal_of_lexical {item : Lexer.Item} (hlexical : Lexer.Lexical item)
    (hrefused : item.bind grammar.resolve = .error error) : Refusal grammar (.error error) := by
  cases item with
  | error cause =>
      obtain ⟨c, position, rfl⟩ := hlexical
      cases hrefused
      exact .inl ⟨c, position, rfl⟩
  | ok next =>
      obtain ⟨hnone, rfl⟩ := Grammar.of_resolve_eq_error hrefused
      exact .inr ⟨next.lexeme, next.position, rfl, hnone⟩

/-- What a parser in use shows of the place where it stands. -/
structure Consistent (grammar : Grammar) (parser : Parser) : Prop where
  kind_ne : parser.current.kind ≠ .start
  /-- An operator under the cursor has a rule. -/
  known : parser.current.kind = .operator →
    (grammar.rule? (.operator parser.current.lexeme)).isSome
  /-- The rule that is kept is the one that the grammar gives to the token under the cursor. -/
  rule_eq : parser.rule? =
    match parser.current.kind with
    | .number | .string => grammar.rule? .constant
    | .name => grammar.rule? .name
    | .finish => grammar.rule? .finish
    | .operator => grammar.rule? (.operator parser.current.lexeme)
    | .start | .statement => none
  power_eq : parser.power =
    match parser.rule? with
    | some rule => rule.power
    | none => 0
  /-- A cursor that cannot be moved stays where it is. -/
  refused : ∀ failure after, shift parser = .error failure after →
    Refusal grammar failure ∧ after.current = parser.current ∧ after.rule? = parser.rule? ∧
      after.position = parser.position ∧ after.depth = parser.depth

theorem Settled.consistent {parser : Parser} (hparser : parser.Settled grammar) :
    parser.Consistent grammar := by
  obtain ⟨hknown, hrule⟩ := Grammar.resolve_eq_ok_iff.mp hparser.resolve_eq
  refine ⟨hparser.kind_ne, hknown, ?_, ?_, ?_⟩
  · rw [hrule, Token.symbol?]
    cases parser.current.kind <;> rfl
  · rw [power]
    cases parser.rule? <;> rfl
  · intro failure after hshift
    have hshifted := shifted_shift parser
    rw [hshift] at hshifted
    cases hshifted with
    | refuses hpending hrefused =>
        rw [hparser.grammar_eq] at hrefused
        exact ⟨refusal_of_lexical (hparser.lexical_cons hpending).1 hrefused, rfl, rfl, rfl, rfl⟩

/-- A parser over what is left of a source, once some items were taken from the lexer, stays
consistent whatever is done with it. -/
theorem consistent_of_operations {parser : Parser} {source : String} {file : Option String}
    {count : Nat}
    (hparser : ofLexer ((Lexer.ofSource source file).pull count) grammar = .ok parser)
    (operations : List Operation) :
    (operations.foldl operate parser).Consistent grammar :=
  ((invariant_settled grammar).foldl_operate (settled_ofLexer hparser) operations).consistent

/-- An operator without a rule breaks off the reading of an expression, and the parser can be used
on. -/
theorem consistent_of_operations_unknown : ∃ parser : Parser,
    ofLexer ((Lexer.ofSource "(1 & 2" none).pull 1) .arithmetic = .ok parser ∧
      (parser.operate (.expression 0)).current.lexeme = "1" ∧
      ([.expression 0, .shift].foldl operate parser).current.lexeme = "2" ∧
      ([.expression 0, .shift].foldl operate parser).Consistent .arithmetic := by
  have hlexemes : (ofLexer ((Lexer.ofSource "(1 & 2" none).pull 1) .arithmetic).toOption.map
      (fun parser => ((parser.operate (.expression 0)).current.lexeme,
        ([.expression 0, .shift].foldl operate parser).current.lexeme)) = some ("1", "2") := by
    decide +kernel
  cases hparser : ofLexer ((Lexer.ofSource "(1 & 2" none).pull 1) .arithmetic with
  | error failure =>
      rw [hparser] at hlexemes
      contradiction
  | ok parser =>
      rw [hparser] at hlexemes
      obtain ⟨hfirst, hsecond⟩ := Prod.mk.inj (Option.some.inj hlexemes)
      exact ⟨parser, rfl, hfirst, hsecond, consistent_of_operations hparser [.expression 0, .shift]⟩

end Parser

end Shift

end Precedence
