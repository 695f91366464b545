import Mathlib.Data.Finset.Card
import Precedence.Proofs.Levels
import Precedence.Proofs.OperatorTable
import Precedence.Proofs.Registry

/-!
# Chains that are grouped from the left

Where all operators are grouped from the left and all other symbols are expressions by themselves,
only a right operand opens another level, and it is read above the power of its operator.  So the
floors of the expressions that are open are powers of the grammar, each above the one further out,
and there are no more levels than that, whatever the length of the source.
-/

namespace Precedence

/-! ## Grammars of chains -/

/-- The symbol begins an expression only by itself, and as an operator it is grouped from the
left. -/
structure Rule.ChainsLeft (rule : Rule) : Prop where
  atom : ∀ begins ∈ rule.prefixRule, begins.form = .atom
  left : ∀ joins ∈ rule.infixRule, joins.rightPower = Associativity.left.rightPower rule.power

namespace Grammar

/-- All symbols of the grammar are expressions by themselves or are grouped from the left. -/
def ChainsLeft (grammar : Grammar) : Prop := ∀ rule ∈ grammar.rules, rule.ChainsLeft

/-- The powers, other than 0, at which operators join operands. -/
def infixPowers (grammar : Grammar) : Finset Nat :=
  ((grammar.rules.filter fun rule => rule.infixRule.isSome).map Rule.power).toFinset.erase 0

section Chains

variable {grammar : Grammar} {token : Token}

/-- A call that attaches no other prefix form and no other grouping. -/
def Call.ChainsLeft (call : Call) : Prop :=
  (∀ begins ∈ call.prefixRule?, begins.form = .atom) ∧ ∀ side ∈ call.side?, side = .left

theorem ChainsLeft.make (hchains : grammar.ChainsLeft) {call : Call} (hcall : call.ChainsLeft) :
    (call.make grammar).ChainsLeft := by
  have hbare (symbol : Symbol) (power : Nat) : Rule.ChainsLeft ⟨symbol, power, none, none⟩ :=
    ⟨by simp, by simp⟩
  cases call with
  | introduce symbol power => exact forall_introduce hchains symbol power (hbare symbol power)
  | addPrefix symbol power form =>
      apply forall_amend (forall_introduce hchains symbol 0 (hbare symbol 0))
      intro rule hrule
      refine ⟨?_, hrule.left⟩
      intro begins hbegins
      exact hcall.1 begins hbegins
  | addInfix symbol power side =>
      apply forall_amend (forall_introduce hchains symbol power (hbare symbol power))
      intro rule hrule
      refine ⟨hrule.atom, ?_⟩
      intro joins hjoins
      rw [← Option.mem_some_iff.mp hjoins, hcall.2 side rfl]
  | addAtom symbol =>
      apply forall_amend (forall_introduce hchains symbol 0 (hbare symbol 0))
      intro rule hrule
      refine ⟨?_, hrule.left⟩
      intro begins hbegins
      exact hcall.1 begins hbegins

/-- Such calls make a grammar of chains. -/
theorem ChainsLeft.extend (hchains : grammar.ChainsLeft) {calls : List Call}
    (hcalls : ∀ call ∈ calls, call.ChainsLeft) : (grammar.extend calls).ChainsLeft := by
  induction calls generalizing grammar with
  | nil => exact hchains
  | cons call calls ih =>
      obtain ⟨hcall, hcalls⟩ := List.forall_mem_cons.mp hcalls
      exact ih (hchains.make hcall) hcalls

theorem mem_rules_of_ruleOf? {rule : Rule} (hrule : grammar.ruleOf? token = some rule) :
    rule ∈ grammar.rules := by
  obtain ⟨symbol, -, hfound⟩ := Option.bind_eq_some_iff.mp hrule
  exact List.mem_of_find?_eq_some hfound

theorem ChainsLeft.form_eq (hchains : grammar.ChainsLeft) {rule : PrefixRule}
    (hrule : (grammar.ruleOf? token).bind Rule.prefixRule = some rule) : rule.form = .atom := by
  obtain ⟨whole, hwhole, hbegins⟩ := Option.bind_eq_some_iff.mp hrule
  exact (hchains whole (mem_rules_of_ruleOf? hwhole)).atom rule hbegins

theorem ChainsLeft.rightPower_eq (hchains : grammar.ChainsLeft) {rule : InfixRule}
    (hrule : (grammar.ruleOf? token).bind Rule.infixRule = some rule) :
    rule.rightPower = grammar.powerOf token := by
  obtain ⟨whole, hwhole, hjoins⟩ := Option.bind_eq_some_iff.mp hrule
  rw [powerOf, hwhole]
  exact (hchains whole (mem_rules_of_ruleOf? hwhole)).left rule hjoins

theorem powerOf_mem_infixPowers {rule : InfixRule}
    (hrule : (grammar.ruleOf? token).bind Rule.infixRule = some rule)
    (hpower : 0 < grammar.powerOf token) : grammar.powerOf token ∈ grammar.infixPowers := by
  obtain ⟨whole, hwhole, hjoins⟩ := Option.bind_eq_some_iff.mp hrule
  refine Finset.mem_erase.mpr ⟨Nat.ne_of_gt hpower, ?_⟩
  rw [List.mem_toFinset, List.mem_map]
  refine ⟨whole, List.mem_filter.mpr ⟨mem_rules_of_ruleOf? hwhole, ?_⟩, ?_⟩
  · rw [hjoins]
    rfl
  · rw [powerOf, hwhole]
    rfl

end Chains

end Grammar

namespace Parser.Machine

/-! ## Floors of open expressions -/

/-- What waits where an expression is about to be read above the floor, with so many levels open:
around each right operand, the climb that its operator belongs to. -/
inductive Waiting (powers : Finset Nat) : Nat → Nat → List Frame → Prop
  | outermost : Waiting powers Grammar.loosestPower 0 []
  | operand {floor power depth : Nat} {frames : List Frame}
      (houter : Waiting powers floor depth frames) (hpower : floor < power)
      (hmem : power ∈ powers) (operator : Token) (left : Expr) :
      Waiting powers power (depth + 1) (.join operator left :: .fold floor :: .level :: frames)

variable {powers : Finset Nat} {floor depth : Nat} {frames : List Frame}

/-- The open levels have different floors, which are not above the innermost one. -/
theorem Waiting.depth_le (hwaiting : Waiting powers floor depth frames) :
    depth ≤ (powers.filter (· ≤ floor)).card := by
  induction hwaiting with
  | outermost => exact Nat.zero_le _
  | @operand floor power depth frames houter hpower hmem operator left ih =>
      have hfewer : powers.filter (· ≤ floor) ⊂ powers.filter (· ≤ power) := by
        rw [Finset.ssubset_iff_of_subset]
        · exact ⟨power, by simp [hmem], by simp [hmem, hpower]⟩
        · intro other hother
          rw [Finset.mem_filter] at hother ⊢
          exact ⟨hother.1, by omega⟩
      exact Nat.lt_of_le_of_lt ih (Finset.card_lt_card hfewer)

theorem Waiting.depth_le_card (hwaiting : Waiting powers floor depth frames) :
    depth ≤ powers.card :=
  Nat.le_trans hwaiting.depth_le (Finset.card_filter_le _ _)

/-- An outcome that may be there: if the limit leaves room for a level above each power, the parser
did not give up for it. -/
def Allowed (powers : Finset Nat) (limit : Nat) (outcome : Except Failure Expr) : Prop :=
  1 + powers.card ≤ limit → ∀ cause other, outcome = .error (.error cause) →
    cause.fault ≠ .nestingTooDeep other

theorem allowed_ok {limit : Nat} (tree : Expr) : Allowed powers limit (.ok tree) := by
  intro _ cause other htree
  contradiction

theorem allowed_unexpected {limit : Nat} (lexeme : String) (position : Position) :
    Allowed powers limit (.error (.error ⟨.unexpectedToken lexeme, position⟩)) := by
  rintro _ cause other ⟨⟩
  simp

theorem allowed_of_refusal {grammar : Grammar} {limit : Nat} {failure : Failure}
    (hrefusal : Refusal grammar failure) : Allowed powers limit (.error failure) := by
  rcases hrefusal with ⟨c, position, rfl⟩ | ⟨operator, position, rfl, -⟩
  · rintro _ cause other ⟨⟩
    simp
  · rintro _ cause other ⟨⟩
    simp

/-- The states that a chain leads through, by what is done next and what waits for it. -/
inductive Chaining (powers : Finset Nat) (limit : Nat) : Machine → Prop
  | expression {parser : Parser} {floor : Nat} {frames : List Frame}
      (houter : Waiting powers floor parser.depth frames) :
      Chaining powers limit ⟨parser, .call (.expression floor), frames⟩
  | chain {parser : Parser} {floor depth : Nat} {frames : List Frame}
      (hdepth : parser.depth = depth + 1) (houter : Waiting powers floor depth frames) :
      Chaining powers limit ⟨parser, .chain floor, .level :: frames⟩
  | atom {parser : Parser} {floor power depth : Nat} {frames : List Frame}
      (hdepth : parser.depth = depth + 1) (houter : Waiting powers floor depth frames) :
      Chaining powers limit
        ⟨parser, .call (.prefixed .atom power), .fold floor :: .level :: frames⟩
  | joined {parser : Parser} {left : Expr} {floor power depth : Nat} {frames : List Frame}
      (hdepth : parser.depth = depth + 1) (houter : Waiting powers floor depth frames)
      (hpower : floor < power) (hmem : power ∈ powers) :
      Chaining powers limit
        ⟨parser, .call (.joined left power), .fold floor :: .level :: frames⟩
  | fold {parser : Parser} {floor depth : Nat} {frames : List Frame}
      {outcome : Except Failure Expr} (hdepth : parser.depth = depth + 1)
      (houter : Waiting powers floor depth frames) (hallowed : Allowed powers limit outcome) :
      Chaining powers limit ⟨parser, .answer outcome, .fold floor :: .level :: frames⟩
  | level {parser : Parser} {floor depth : Nat} {frames : List Frame}
      {outcome : Except Failure Expr} (hdepth : parser.depth = depth + 1)
      (houter : Waiting powers floor depth frames) (hallowed : Allowed powers limit outcome) :
      Chaining powers limit ⟨parser, .answer outcome, .level :: frames⟩
  | answer {parser : Parser} {floor : Nat} {frames : List Frame} {outcome : Except Failure Expr}
      (houter : Waiting powers floor parser.depth frames)
      (hallowed : Allowed powers limit outcome) :
      Chaining powers limit ⟨parser, .answer outcome, frames⟩

section Step

variable {grammar : Grammar} {limit : Nat} {state next : Machine}

theorem Chaining.depth_le (hchaining : Chaining powers limit state) :
    state.parser.depth ≤ 1 + powers.card := by
  cases hchaining with
  | expression houter | answer houter => exact Nat.le_add_left_of_le houter.depth_le_card
  | chain hdepth houter | atom hdepth houter | joined hdepth houter | fold hdepth houter
  | level hdepth houter =>
      have hfew := houter.depth_le_card
      simp only
      omega

/-- A move in a chain leads on in the chain. -/
theorem Chaining.step (hchains : grammar.ChainsLeft) (hsettled : state.parser.Settled grammar)
    (hlimit : state.parser.limit = limit) (hchaining : Chaining grammar.infixPowers limit state)
    (hstep : state.step = some next) : Chaining grammar.infixPowers limit next := by
  have hrule : state.parser.rule? = grammar.ruleOf? state.parser.current :=
    (Grammar.resolve_eq_ok_iff.mp hsettled.resolve_eq).2
  have hrefused (failure : Failure) (after : Parser)
      (hshift : shift state.parser = .error failure after) : Refusal grammar failure :=
    (hsettled.consistent.refused failure after hshift).1
  have hlevel := atLevel_shift state.parser ⟨rfl, rfl⟩
  cases hchaining with
  | @expression parser floor frames houter =>
      cases hstep
      by_cases hroom : parser.depth < parser.limit
      · rw [enter, attempt_ok (if_pos hroom)]
        exact .chain rfl houter
      · rw [enter, attempt_error (if_neg hroom)]
        refine .answer houter ?_
        intro hbound
        have hfew := houter.depth_le_card
        simp only at hlimit
        omega
  | @chain parser floor depth frames hdepth houter =>
      cases hstep
      rw [enterChain]
      cases hbegins : parser.rule?.bind Rule.prefixRule with
      | none => exact .level hdepth houter (allowed_unexpected _ _)
      | some rule =>
          have hform : rule.form = .atom := by
            rw [hrule] at hbegins
            exact hchains.form_eq hbegins
          simp only [hform]
          exact .atom hdepth houter
  | @atom parser floor power depth frames hdepth houter =>
      cases hstep
      rw [enter]
      cases hshift : shift parser with
      | ok token after =>
          rw [hshift] at hlevel
          rw [attempt_ok hshift]
          exact .fold (hlevel.1.trans hdepth) houter (allowed_ok _)
      | error failure after =>
          rw [hshift] at hlevel
          rw [attempt_error hshift]
          exact .fold (hlevel.1.trans hdepth) houter (allowed_of_refusal (hrefused _ _ hshift))
  | @joined parser left floor power depth frames hdepth houter hpower hmem =>
      cases hstep
      rw [enter]
      cases hshift : shift parser with
      | ok token after =>
          rw [hshift] at hlevel
          rw [attempt_ok hshift]
          apply Chaining.expression
          rw [hlevel.1.trans hdepth]
          exact .operand houter hpower hmem token left
      | error failure after =>
          rw [hshift] at hlevel
          rw [attempt_error hshift]
          exact .fold (hlevel.1.trans hdepth) houter (allowed_of_refusal (hrefused _ _ hshift))
  | @fold parser floor depth frames outcome hdepth houter hallowed =>
      cases outcome with
      | error failure =>
          cases hstep
          exact .level hdepth houter hallowed
      | ok tree =>
          cases hstep
          rw [resume]
          split
          · next hpower =>
            cases hjoins : parser.rule?.bind Rule.infixRule with
            | none => exact .level hdepth houter (allowed_unexpected _ _)
            | some rule =>
                rw [hrule] at hjoins
                rw [power, hrule] at hpower
                have hmem := Grammar.powerOf_mem_infixPowers hjoins (Nat.zero_lt_of_lt hpower)
                have hright := hchains.rightPower_eq hjoins
                exact .joined hdepth houter (hright ▸ hpower) (hright ▸ hmem)
          · exact .level hdepth houter hallowed
  | @level parser floor depth frames outcome hdepth houter hallowed =>
      have hclosed : parser.closeLevel.depth = depth := by
        rw [closeLevel, hdepth]
        rfl
      cases outcome <;> cases hstep <;> exact .answer (hclosed ▸ houter) hallowed
  | @answer parser floor frames outcome houter hallowed =>
      generalize hdepth : parser.depth = depth at houter
      cases houter with
      | outermost => contradiction
      | operand houter hpower hmem operator left =>
          cases outcome with
          | error failure =>
              cases hstep
              exact .fold hdepth houter hallowed
          | ok tree =>
              cases hstep
              exact .fold hdepth houter (allowed_ok _)

/-- An outcome on the way is one that may be there. -/
theorem Chaining.allowed {parser : Parser} {outcome : Except Failure Expr}
    (hchaining : Chaining powers limit ⟨parser, .answer outcome, frames⟩) :
    Allowed powers limit outcome := by
  cases hchaining <;> assumption

/-- From a settled parser without open levels, every way leads through the states of a chain. -/
theorem chaining_of_reaches {parser : Parser} (hchains : grammar.ChainsLeft)
    (hsettled : parser.Settled grammar) (hdepth : parser.depth = 0)
    (hreaches : (start parser (.expression Grammar.loosestPower)).Reaches state) :
    Chaining grammar.infixPowers parser.limit state := by
  have hkeeps (state next : Machine)
      (hstate : state.parser.Settled grammar ∧ Counts 0 parser.limit state ∧
        Chaining grammar.infixPowers parser.limit state) (hstep : state.step = some next) :
      next.parser.Settled grammar ∧ Counts 0 parser.limit next ∧
        Chaining grammar.infixPowers parser.limit next := by
    obtain ⟨hsettled, hcounts, hchaining⟩ := hstate
    exact ⟨property_of_step (invariant_settled grammar) hsettled hstep, hcounts.step hstep,
      hchaining.step hchains hsettled hcounts.limit_eq hstep⟩
  have hstart : Chaining grammar.infixPowers parser.limit
      (start parser (.expression Grammar.loosestPower)) := by
    apply Chaining.expression
    rw [hdepth]
    exact .outermost
  have hcounts := counts_start parser (.expression Grammar.loosestPower)
  rw [hdepth] at hcounts
  exact (hreaches.invariant hkeeps ⟨hsettled, hcounts, hstart⟩).2.2

end Step

end Machine

/-! ## Sources -/

section Source

variable {grammar : Grammar} {source : String} {file : Option String} {parser : Parser}

/-- A new parser has no level open and may open the standard number of them. -/
theorem atLevel_ofLexer {lexer : Lexer} (hparser : ofLexer lexer grammar = .ok parser) :
    parser.AtLevel 0 standardLimit := by
  rw [ofLexer] at hparser
  split at hparser
  · contradiction
  · contradiction
  · next first rest _ =>
    simp only at hparser
    split at hparser
    · have hlevel := atLevel_shift ⟨grammar, rest, first, 0, standardLimit, none⟩ ⟨rfl, rfl⟩
      split at hparser
      · next hshift =>
        cases hparser
        rw [hshift] at hlevel
        exact hlevel
      · contradiction
    · split at hparser
      · cases hparser
        exact ⟨rfl, rfl⟩
      · contradiction

/-- A source that no parser is made for begins with an item that the grammar refuses. -/
theorem refusal_of_ofLexer {failure : Failure}
    (hparser : ofLexer (.ofSource source file) grammar = .error failure) :
    Refusal grammar failure := by
  obtain ⟨rest, hitems, -, hlexical⟩ := Lexer.exists_lexical source file
  rw [ofLexer, hitems] at hparser
  simp only [if_pos (show (Token.opening (Lexer.fileName file)).kind = .start from rfl)]
    at hparser
  split at hparser
  · contradiction
  · next after hshift =>
    cases hparser
    have hshifted := shifted_shift ⟨grammar, rest, .opening (Lexer.fileName file), 0,
      standardLimit, none⟩
    rw [hshift] at hshifted
    cases hshifted with
    | refuses hpending hrefused =>
        simp only at hpending
        subst hpending
        exact refusal_of_lexical (hlexical _ List.mem_cons_self) hrefused

/-- Reading a chain does not end for the limit, if that leaves room for a level above each power. -/
theorem allowed_wholeExpression {failure : Failure} {after : Parser}
    (hchains : grammar.ChainsLeft) (hsettled : parser.Settled grammar) (hdepth : parser.depth = 0)
    (hresult : wholeExpression parser = .error failure after) :
    Machine.Allowed grammar.infixPowers parser.limit (.error failure) := by
  rw [wholeExpression] at hresult
  cases hexpression : expression Grammar.loosestPower parser with
  | ok tree next =>
      rw [bind_ok hexpression] at hresult
      simp only [bind, EStateM.bind, get_apply] at hresult
      split at hresult
      · contradiction
      · cases hresult
        rintro _ cause other ⟨⟩
        simp
  | error failure' next =>
      rw [bind_error hexpression] at hresult
      cases hresult
      intro hroom cause other hcause
      cases hcause
      have hends : Reading.Ends ((Call.expression Grammar.loosestPower).run parser) := by
        rw [Call.run, hexpression]
        simp [Reading.Ends]
      have hreaches := Machine.reaches_answered _ parser [] hends
      rw [Call.run, hexpression] at hreaches
      have hchaining := Machine.chaining_of_reaches hchains hsettled hdepth hreaches
      exact hchaining.allowed hroom cause other rfl

/-- Reading the source opens no more levels at a time than the bound says.  If the limit allows that
many, the source is not refused for its nesting. -/
structure Shallow (bound : Nat) (grammar : Grammar) (source : String) (file : Option String) :
    Prop where
  bounded : ∀ parser, ofLexer (.ofSource source file) grammar = .ok parser → ∀ state,
    (Machine.start parser (.expression Grammar.loosestPower)).Reaches state →
      state.parser.depth ≤ bound
  allowed : bound ≤ standardLimit → ∀ cause limit,
    parseWith grammar source file = .error (.error cause) → cause.fault ≠ .nestingTooDeep limit

/-- Where all operators are grouped from the left, no source opens more than one level for each of
their powers, and one more. -/
theorem shallow_of_chainsLeft (hchains : grammar.ChainsLeft) (source : String)
    (file : Option String) : Shallow (1 + grammar.infixPowers.card) grammar source file := by
  have hsettled (parser : Parser) (hparser : ofLexer (.ofSource source file) grammar = .ok parser) :
      parser.Settled grammar := @settled_ofLexer grammar parser source file 0 hparser
  constructor
  · intro parser hparser state hreaches
    have hdepth := (atLevel_ofLexer hparser).1
    exact (Machine.chaining_of_reaches hchains (hsettled parser hparser) hdepth hreaches).depth_le
  · intro hroom cause limit hcause
    rw [parseWith] at hcause
    split at hcause
    · next failure hparser =>
      cases hcause
      exact Machine.allowed_of_refusal (refusal_of_ofLexer hparser) hroom cause limit rfl
    · next parser hparser =>
      obtain ⟨hdepth, hlimit⟩ := atLevel_ofLexer hparser
      split at hcause
      · contradiction
      · next failure after hresult =>
        cases hcause
        have hallowed := allowed_wholeExpression hchains (hsettled parser hparser) hdepth hresult
        exact hallowed (hlimit ▸ hroom) cause limit rfl

/-- Two of three operators bind equally, so three levels are enough, whatever the source. -/
theorem shallow_of_chainsLeft_two_powers :
    let grammar := Grammar.empty.extend [.addAtom .constant, .addInfix (.operator "+") 10 .left,
      .addInfix (.operator "-") 10 .left, .addInfix (.operator "*") 20 .left, .introduce .finish 0]
    grammar.ChainsLeft ∧ grammar.infixPowers.card = 2 ∧
      (parseWith grammar "1+2*3-4" none).isOk = true ∧ Shallow 3 grammar "1+2*3-4" none := by
  intro grammar
  have hchains : grammar.ChainsLeft := by
    apply Grammar.ChainsLeft.extend
    · exact List.forall_mem_nil _
    · simp [Grammar.Call.ChainsLeft, Grammar.Call.prefixRule?, Grammar.Call.side?]
  have hpowers : grammar.infixPowers.card = 2 := by decide
  have hshallow := shallow_of_chainsLeft hchains "1+2*3-4" none
  rw [hpowers] at hshallow
  exact ⟨hchains, hpowers, by decide +kernel, hshallow⟩

end Source

end Parser

end Precedence
