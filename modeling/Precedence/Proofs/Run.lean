import Precedence.Parser.Expression

/-!
# Runs of the parser

The parser as a big-step relation.  A run says what reading an expression comes to, without the
number of turns that the recursion is given and without the count of open levels: `room` is the
number of levels that may still be opened.  Every task has exactly one result, and it is the one
that the parser computes, so a statement about parsing is proved by induction on a run.
-/

namespace Precedence

/-- Where a parser stands: on one token, in front of the items that follow it. -/
structure Cursor where
  current : Token
  pending : List Lexer.Item

/-- What a step of the parser comes to, and where it leaves the parser. -/
abbrev Outcome (α : Type) := EStateM.Result Failure Cursor α

namespace Grammar

/-- The rule of the symbol that a token stands for. -/
def ruleOf? (grammar : Grammar) (token : Token) : Option Rule := token.symbol?.bind grammar.rule?

theorem ruleOf?_operator {grammar : Grammar} {token : Token} (hkind : token.kind = .operator) :
    grammar.ruleOf? token = grammar.rule? (.operator token.lexeme) := by
  rw [ruleOf?, Token.symbol?, hkind, Option.bind_some]

theorem ruleOf?_finish {grammar : Grammar} {token : Token} (hkind : token.kind = .finish) :
    grammar.ruleOf? token = grammar.rule? .finish := by
  rw [ruleOf?, Token.symbol?, hkind, Option.bind_some]

theorem ruleOf?_atom {grammar : Grammar} {token : Token}
    (hkind : token.kind = .number ∨ token.kind = .string ∨ token.kind = .name) :
    grammar.ruleOf? token = grammar.rule? .constant ∨
      grammar.ruleOf? token = grammar.rule? .name := by
  rcases hkind with hkind | hkind | hkind <;> simp [ruleOf?, Token.symbol?, hkind]

/-- What a token does where an expression begins. -/
def prefixOf? (grammar : Grammar) (token : Token) : Option PrefixRule :=
  (grammar.ruleOf? token).bind Rule.prefixRule

/-- What a token does after a left operand. -/
def infixOf? (grammar : Grammar) (token : Token) : Option InfixRule :=
  (grammar.ruleOf? token).bind Rule.infixRule

/-- How strongly a token binds to an operand on its left. -/
def powerOf (grammar : Grammar) (token : Token) : Nat :=
  ((grammar.ruleOf? token).map Rule.power).getD 0

end Grammar

/-- The leaf that a token becomes. -/
def Token.leaf (token : Token) : Expr :=
  if token.kind = .name then .identifier token.lexeme else .literal token.lexeme

namespace Outcome

variable {α β : Type}

def map (f : α → β) : Outcome α → Outcome β
  | .ok value cursor => .ok (f value) cursor
  | .error failure cursor => .error failure cursor

/-- Where the parser is left. -/
def cursor : Outcome α → Cursor
  | .ok _ cursor => cursor
  | .error _ cursor => cursor

@[simp]
theorem map_ok (f : α → β) (value : α) (cursor : Cursor) :
    map f (.ok value cursor) = .ok (f value) cursor := rfl

@[simp]
theorem map_error (f : α → β) (failure : Failure) (cursor : Cursor) :
    map f (.error failure cursor) = .error failure cursor := rfl

@[simp]
theorem cursor_map (f : α → β) (outcome : Outcome α) : (outcome.map f).cursor = outcome.cursor := by
  cases outcome <;> rfl

theorem map_eq_ok {f : α → β} {outcome : Outcome α} {value : β} {cursor : Cursor}
    (heq : outcome.map f = .ok value cursor) :
    ∃ input, outcome = .ok input cursor ∧ f input = value := by
  cases outcome with
  | ok input next =>
      rw [map_ok] at heq
      injection heq with hvalue hcursor
      exact ⟨input, by rw [hcursor], hvalue⟩
  | error failure next => contradiction

theorem map_eq_error {f : α → β} {outcome : Outcome α} {failure : Failure} {cursor : Cursor}
    (heq : outcome.map f = .error failure cursor) : outcome = .error failure cursor := by
  cases outcome with
  | ok input next => contradiction
  | error failure' next =>
      rw [map_error] at heq
      injection heq with hfailure hcursor
      rw [hfailure, hcursor]

end Outcome

namespace Cursor

variable {α : Type}

/-- All items from the current token on. -/
def items (cursor : Cursor) : List Lexer.Item := .ok cursor.current :: cursor.pending

/-- Fails with a fault at the current token. -/
def refuse (cursor : Cursor) (fault : Fault) : Outcome α :=
  .error (.error ⟨fault, cursor.current.position⟩) cursor

/-- Moves on to the next item and returns the token left behind. -/
def shift (grammar : Grammar) (cursor : Cursor) : Outcome Token :=
  match cursor.pending with
  | [] => .ok cursor.current cursor
  | .error error :: rest => .error (.error error) { cursor with pending := rest }
  | .ok next :: rest =>
    match grammar.checkOperator next with
    | .error error => .error (.error error) { cursor with pending := rest }
    | .ok () => .ok cursor.current ⟨next, rest⟩

/-- Takes the closing of a group behind its inner expression. -/
def close (grammar : Grammar) : Outcome Expr → Outcome Expr
  | .error failure cursor => .error failure cursor
  | .ok inner cursor =>
    if Parser.closesGroup cursor.current then (cursor.shift grammar).map fun _ => inner
    else cursor.refuse (.unclosedGroup cursor.current.lexeme)

end Cursor

/-- What the parser sets about. -/
inductive Task where
  /-- Reads an expression above a floor. -/
  | read (room floor : Nat) (cursor : Cursor)
  /-- Reads a prefix form. -/
  | begin (room : Nat) (rule : PrefixRule) (cursor : Cursor)
  /-- Folds operators into what was read so far. -/
  | fold (room floor : Nat) (left : Outcome Expr)

/-- What a task comes to. -/
inductive Run (grammar : Grammar) (limit : Nat) : Task → Outcome Expr → Prop
  | tooDeep {floor cursor} :
      Run grammar limit (.read 0 floor cursor) (cursor.refuse (.nestingTooDeep limit))
  | noPrefix {room floor cursor} (hrule : grammar.prefixOf? cursor.current = none) :
      Run grammar limit (.read (room + 1) floor cursor)
        (cursor.refuse (.unexpectedToken cursor.current.lexeme))
  | read {room floor cursor rule left result}
      (hrule : grammar.prefixOf? cursor.current = some rule)
      (hleft : Run grammar limit (.begin room rule cursor) left)
      (hfold : Run grammar limit (.fold room floor left) result) :
      Run grammar limit (.read (room + 1) floor cursor) result
  | stuckPrefix {room rule cursor failure next}
      (hshift : cursor.shift grammar = .error failure next) :
      Run grammar limit (.begin room rule cursor) (.error failure next)
  | atom {room power cursor token next} (hshift : cursor.shift grammar = .ok token next) :
      Run grammar limit (.begin room ⟨.atom, power⟩ cursor) (.ok token.leaf next)
  | sign {room power cursor token next operand} (hshift : cursor.shift grammar = .ok token next)
      (hoperand : Run grammar limit (.read room power next) operand) :
      Run grammar limit (.begin room ⟨.sign, power⟩ cursor) (operand.map (.unary token.lexeme))
  | group {room power cursor token next inner} (hshift : cursor.shift grammar = .ok token next)
      (hinner : Run grammar limit (.read room Grammar.loosestPower next) inner) :
      Run grammar limit (.begin room ⟨.group, power⟩ cursor) (Cursor.close grammar inner)
  | failed {room floor failure cursor} :
      Run grammar limit (.fold room floor (.error failure cursor)) (.error failure cursor)
  | stop {room floor left cursor} (hpower : grammar.powerOf cursor.current ≤ floor) :
      Run grammar limit (.fold room floor (.ok left cursor)) (.ok left cursor)
  | noInfix {room floor left cursor} (hpower : floor < grammar.powerOf cursor.current)
      (hrule : grammar.infixOf? cursor.current = none) :
      Run grammar limit (.fold room floor (.ok left cursor))
        (cursor.refuse (.unexpectedToken cursor.current.lexeme))
  | stuckInfix {room floor left cursor rule failure next}
      (hpower : floor < grammar.powerOf cursor.current)
      (hrule : grammar.infixOf? cursor.current = some rule)
      (hshift : cursor.shift grammar = .error failure next) :
      Run grammar limit (.fold room floor (.ok left cursor)) (.error failure next)
  | join {room floor left cursor rule token next right result}
      (hpower : floor < grammar.powerOf cursor.current)
      (hrule : grammar.infixOf? cursor.current = some rule)
      (hshift : cursor.shift grammar = .ok token next)
      (hright : Run grammar limit (.read room rule.rightPower next) right)
      (hpending : ∀ tree after, right = .ok tree after → cursor.pending ≠ [])
      (hfold : Run grammar limit (.fold room floor (right.map (.binary token.lexeme left)))
        result) :
      Run grammar limit (.fold room floor (.ok left cursor)) result
  /-- Without a pending item the operator is its own operand's end, and is folded in again. -/
  | endless {room floor left cursor rule right after}
      (hpower : floor < grammar.powerOf cursor.current)
      (hrule : grammar.infixOf? cursor.current = some rule) (hpending : cursor.pending = [])
      (hright : Run grammar limit (.read room rule.rightPower cursor) (.ok right after)) :
      Run grammar limit (.fold room floor (.ok left cursor)) (.error .endless cursor)

/-! ## The cursor only moves forward -/

namespace Cursor

variable {grammar : Grammar} {cursor next : Cursor} {token : Token}

theorem shift_nil (hpending : cursor.pending = []) :
    cursor.shift grammar = .ok cursor.current cursor := by
  simp [shift, hpending]

theorem shift_ok (hshift : cursor.shift grammar = .ok token next) :
    token = cursor.current ∧
      (cursor.pending = [] ∧ next = cursor ∨
        cursor.pending = .ok next.current :: next.pending ∧
          grammar.checkOperator next.current = .ok ()) := by
  rw [shift] at hshift
  split at hshift
  · next hpending =>
      injection hshift with htoken hnext
      exact ⟨htoken.symm, .inl ⟨hpending, hnext.symm⟩⟩
  · contradiction
  · next item rest hpending =>
      split at hshift
      · contradiction
      · next hcheck =>
          injection hshift with htoken hnext
          subst hnext
          exact ⟨htoken.symm, .inr ⟨hpending, hcheck⟩⟩

/-- A failed step passes over the item that made it fail: an error, or an operator without a
rule. -/
theorem shift_error {failure : Failure} (hshift : cursor.shift grammar = .error failure next) :
    next.current = cursor.current ∧ ∃ item error, cursor.pending = item :: next.pending ∧
      failure = .error error ∧
      (item = .error error ∨ ∃ bad, item = .ok bad ∧ grammar.checkOperator bad = .error error) := by
  rw [shift] at hshift
  split at hshift
  · contradiction
  · next error rest hpending =>
      injection hshift with hfailure hnext
      subst hnext
      exact ⟨rfl, _, error, hpending, hfailure.symm, .inl rfl⟩
  · next item rest hpending =>
      split at hshift
      · next error hcheck =>
          injection hshift with hfailure hnext
          subst hnext
          exact ⟨rfl, _, error, hpending, hfailure.symm, .inr ⟨item, rfl, hcheck⟩⟩
      · contradiction

theorem pending_shift_suffix (grammar : Grammar) (cursor : Cursor) :
    (cursor.shift grammar).cursor.pending <:+ cursor.pending := by
  cases hshift : cursor.shift grammar with
  | ok token next =>
      rcases (shift_ok hshift).2 with ⟨-, rfl⟩ | ⟨hpending, -⟩
      · exact List.suffix_refl _
      · rw [hpending]
        exact List.suffix_cons _ _
  | error failure next =>
      obtain ⟨-, item, error, hpending, -⟩ := shift_error hshift
      rw [hpending]
      exact List.suffix_cons _ _

theorem pending_close_suffix (grammar : Grammar) (inner : Outcome Expr) :
    (close grammar inner).cursor.pending <:+ inner.cursor.pending := by
  cases inner with
  | error failure cursor => exact List.suffix_refl _
  | ok tree cursor =>
      rw [close]
      split
      · rw [Outcome.cursor_map]
        exact pending_shift_suffix grammar cursor
      · exact List.suffix_refl _

end Cursor

/-- Where a task starts. -/
def Task.cursor : Task → Cursor
  | .read _ _ cursor => cursor
  | .begin _ _ cursor => cursor
  | .fold _ _ left => left.cursor

namespace Run

variable {grammar : Grammar} {limit : Nat} {task : Task} {result : Outcome Expr}

theorem pending_suffix (hrun : Run grammar limit task result) :
    result.cursor.pending <:+ task.cursor.pending := by
  induction hrun with
  | tooDeep | noPrefix | failed | stop | noInfix | endless => exact List.suffix_refl _
  | read hrule hleft hfold ihleft ihfold => exact ihfold.trans ihleft
  | @stuckPrefix room rule cursor failure next hshift
  | @stuckInfix room floor left cursor rule failure next hpower hrule hshift =>
      have hsuffix := Cursor.pending_shift_suffix grammar cursor
      rwa [hshift] at hsuffix
  | @atom room power cursor token next hshift =>
      have hsuffix := Cursor.pending_shift_suffix grammar cursor
      rwa [hshift] at hsuffix
  | @sign room power cursor token next operand hshift hoperand ih =>
      have hsuffix := Cursor.pending_shift_suffix grammar cursor
      rw [hshift] at hsuffix
      rw [Outcome.cursor_map]
      exact ih.trans hsuffix
  | @group room power cursor token next inner hshift hinner ih =>
      have hsuffix := Cursor.pending_shift_suffix grammar cursor
      rw [hshift] at hsuffix
      exact (Cursor.pending_close_suffix grammar inner).trans (ih.trans hsuffix)
  | @join room floor left cursor rule token next right result hpower hrule hshift hright hpending
      hfold ihright ihfold =>
      have hsuffix := Cursor.pending_shift_suffix grammar cursor
      rw [hshift] at hsuffix
      rw [Task.cursor, Outcome.cursor_map] at ihfold
      exact ihfold.trans (ihright.trans hsuffix)

/-- With no item pending the parser stays where it is. -/
theorem cursor_eq (hrun : Run grammar limit task result) (hpending : task.cursor.pending = []) :
    result.cursor = task.cursor := by
  have hshift {cursor next : Cursor} {token : Token} (hnil : cursor.pending = [])
      (hnext : cursor.shift grammar = .ok token next) : next = cursor := by
    rw [Cursor.shift_nil hnil] at hnext
    injection hnext with htoken hcursor
    exact hcursor.symm
  have hstuck {cursor next : Cursor} {failure : Failure} (hnil : cursor.pending = [])
      (hnext : cursor.shift grammar = .error failure next) : False := by
    rw [Cursor.shift_nil hnil] at hnext
    contradiction
  induction hrun with
  | tooDeep | noPrefix | failed | stop | noInfix | endless => rfl
  | @read room floor cursor rule left result hrule hleft hfold ihleft ihfold =>
      have hcursor : left.cursor = cursor := ihleft hpending
      have hleft : (Task.fold room floor left).cursor.pending = [] := by
        rw [← hcursor] at hpending
        exact hpending
      exact (ihfold hleft).trans hcursor
  | stuckPrefix hnext | stuckInfix _ _ hnext => exact absurd hnext (hstuck hpending)
  | atom hnext => exact hshift hpending hnext
  | sign hnext hoperand ih =>
      obtain rfl := hshift hpending hnext
      rw [Outcome.cursor_map]
      exact ih hpending
  | @group room power cursor token next inner hnext hinner ih =>
      obtain rfl := hshift hpending hnext
      have hcursor := ih hpending
      cases inner with
      | error failure after => exact hcursor
      | ok tree after =>
          obtain rfl : after = next := hcursor
          have hnil : after.pending = [] := hpending
          rw [Cursor.close]
          split
          · rw [Cursor.shift_nil hnil]
            rfl
          · rfl
  | join hpower hrule hnext hright hgoes hfold ihright ihfold =>
      obtain rfl := hshift hpending hnext
      have hcursor := ihright hpending
      simp only [Task.cursor, Outcome.cursor_map] at ihfold hcursor
      rw [ihfold (by rw [hcursor]; exact hpending)]
      exact hcursor

/-- What is left pending behind a step onto another item is less than before. -/
theorem length_pending_lt {cursor next : Cursor} {token : Token} {floor room : Nat}
    (hshift : cursor.shift grammar = .ok token next) (hpending : cursor.pending ≠ [])
    (hrun : Run grammar limit (.read room floor next) result) :
    result.cursor.pending.length < cursor.pending.length := by
  have hlength := hrun.pending_suffix.length_le
  rcases (Cursor.shift_ok hshift).2 with ⟨hnil, -⟩ | ⟨hcons, -⟩
  · exact absurd hnil hpending
  · rw [hcons, List.length_cons]
    exact Nat.lt_succ_of_le hlength

/-! ## Every task has a result -/

section Existence

variable {room : Nat}

theorem exists_begin
    (hread : ∀ floor cursor, ∃ result, Run grammar limit (.read room floor cursor) result)
    (rule : PrefixRule) (cursor : Cursor) :
    ∃ result, Run grammar limit (.begin room rule cursor) result := by
  obtain ⟨form, power⟩ := rule
  cases hshift : cursor.shift grammar with
  | error failure next => exact ⟨_, .stuckPrefix hshift⟩
  | ok token next =>
      cases form with
      | atom => exact ⟨_, .atom hshift⟩
      | sign =>
          obtain ⟨operand, hoperand⟩ := hread power next
          exact ⟨_, .sign hshift hoperand⟩
      | group =>
          obtain ⟨inner, hinner⟩ := hread Grammar.loosestPower next
          exact ⟨_, .group hshift hinner⟩

theorem exists_fold
    (hread : ∀ floor cursor, ∃ result, Run grammar limit (.read room floor cursor) result)
    (floor : Nat) (left : Outcome Expr) :
    ∃ result, Run grammar limit (.fold room floor left) result := by
  -- Each fold onto another item leaves fewer items pending.
  induction hlength : left.cursor.pending.length using Nat.strongRecOn generalizing left with
  | ind length ih =>
      cases left with
      | error failure cursor => exact ⟨_, .failed⟩
      | ok tree cursor =>
          by_cases hpower : grammar.powerOf cursor.current ≤ floor
          · exact ⟨_, .stop hpower⟩
          have hpower := Nat.lt_of_not_le hpower
          cases hrule : grammar.infixOf? cursor.current with
          | none => exact ⟨_, .noInfix hpower hrule⟩
          | some rule =>
              cases hshift : cursor.shift grammar with
              | error failure next => exact ⟨_, .stuckInfix hpower hrule hshift⟩
              | ok token next =>
                  obtain ⟨right, hright⟩ := hread rule.rightPower next
                  by_cases hpending : cursor.pending = []
                  · rw [Cursor.shift_nil hpending] at hshift
                    injection hshift with htoken hnext
                    subst hnext
                    cases right with
                    | ok right after => exact ⟨_, .endless hpower hrule hpending hright⟩
                    | error failure after =>
                        exact ⟨_, .join hpower hrule (Cursor.shift_nil hpending) hright
                          (by simp) .failed⟩
                  · have hshorter := hright.length_pending_lt hshift hpending
                    obtain ⟨result, hfold⟩ := ih _ (by rw [← hlength]; exact hshorter)
                      (right.map (.binary token.lexeme tree)) (by rw [Outcome.cursor_map])
                    exact ⟨result, .join hpower hrule hshift hright (fun _ _ _ => hpending) hfold⟩

theorem exists_read (grammar : Grammar) (limit room : Nat) :
    ∀ floor cursor, ∃ result, Run grammar limit (.read room floor cursor) result := by
  induction room with
  | zero => exact fun floor cursor => ⟨_, .tooDeep⟩
  | succ room ih =>
      intro floor cursor
      cases hrule : grammar.prefixOf? cursor.current with
      | none => exact ⟨_, .noPrefix hrule⟩
      | some rule =>
          obtain ⟨left, hleft⟩ := exists_begin ih rule cursor
          obtain ⟨result, hfold⟩ := exists_fold ih floor left
          exact ⟨result, .read hrule hleft hfold⟩

end Existence

end Run

/-! ## Runs are what the parser does -/

namespace Parser

/-- Where the parser stands. -/
def cursor (parser : Parser) : Cursor := ⟨parser.current, parser.pending⟩

/-- The parser moved to another place, with the rule of the token there. -/
def moveTo (parser : Parser) (cursor : Cursor) : Parser :=
  { parser with
    current := cursor.current
    pending := cursor.pending
    rule? := parser.grammar.ruleOf? cursor.current }

end Parser

/-- The outcome as a result of the parser that started out. -/
def Outcome.onto {α : Type} (parser : Parser) : Outcome α → EStateM.Result Failure Parser α
  | .ok value cursor => .ok value (parser.moveTo cursor)
  | .error failure cursor => .error failure (parser.moveTo cursor)

namespace Parser

variable {α : Type} (parser : Parser) (cursor : Cursor)

@[simp]
theorem cursor_moveTo : (parser.moveTo cursor).cursor = cursor := rfl

theorem moveTo_injective : Function.Injective parser.moveTo := by
  intro left right hmoved
  have hcursor := congrArg Parser.cursor hmoved
  rwa [cursor_moveTo, cursor_moveTo] at hcursor

theorem onto_injective : Function.Injective (@Outcome.onto α parser) := by
  intro left right honto
  cases left with
  | ok value after =>
      cases right with
      | ok value' after' =>
          injection honto with hvalue hafter
          rw [hvalue, moveTo_injective parser hafter]
      | error failure after' => contradiction
  | error failure after =>
      cases right with
      | ok value after' => contradiction
      | error failure' after' =>
          injection honto with hfailure hafter
          rw [hfailure, moveTo_injective parser hafter]

theorem shift_moveTo :
    shift (parser.moveTo cursor) = (cursor.shift parser.grammar).onto parser := by
  obtain ⟨current, pending⟩ := cursor
  cases pending with
  | nil => rfl
  | cons item rest =>
      cases item with
      | error error => rfl
      | ok next =>
          simp only [shift, Cursor.shift, Parser.moveTo, Grammar.resolve]
          cases hcheck : parser.grammar.checkOperator next <;> rfl

variable {parser cursor} {expression : Nat → Parse Expr}

theorem atom_moveTo (parser : Parser) (cursor : Cursor) :
    atom (parser.moveTo cursor) = ((cursor.shift parser.grammar).map Token.leaf).onto parser := by
  simp only [atom, bind, EStateM.bind, shift_moveTo]
  cases cursor.shift parser.grammar <;> rfl

theorem signed_moveTo {power : Nat} {token : Token} {next : Cursor} {operand : Outcome Expr}
    (hshift : cursor.shift parser.grammar = .ok token next)
    (hoperand : expression power (parser.moveTo next) = operand.onto parser) :
    signed expression power (parser.moveTo cursor) =
      (operand.map (.unary token.lexeme)).onto parser := by
  simp only [signed, bind, EStateM.bind, shift_moveTo, hshift, Outcome.onto, hoperand]
  cases operand <;> rfl

theorem joined_moveTo {left : Expr} {power : Nat} {token : Token} {next : Cursor}
    {right : Outcome Expr} (hshift : cursor.shift parser.grammar = .ok token next)
    (hright : expression power (parser.moveTo next) = right.onto parser) :
    joined expression left power (parser.moveTo cursor) =
      (right.map (.binary token.lexeme left)).onto parser := by
  simp only [joined, bind, EStateM.bind, shift_moveTo, hshift, Outcome.onto, hright]
  cases right <;> rfl

theorem get_apply (parser : Parser) : (get : Parse Parser) parser = .ok parser parser := rfl

theorem grouped_moveTo {token : Token} {next : Cursor} {inner : Outcome Expr}
    (hshift : cursor.shift parser.grammar = .ok token next)
    (hinner : expression Grammar.loosestPower (parser.moveTo next) = inner.onto parser) :
    grouped expression (parser.moveTo cursor) =
      (Cursor.close parser.grammar inner).onto parser := by
  simp only [grouped, bind, EStateM.bind, shift_moveTo, hshift, Outcome.onto, hinner]
  cases inner with
  | error failure after => rfl
  | ok tree after =>
      simp only [get_apply, Cursor.close]
      by_cases hclosing : closesGroup after.current = true
      · have hcurrent : closesGroup (parser.moveTo after).current = true := hclosing
        simp only [hcurrent, hclosing, if_true, EStateM.bind, shift_moveTo]
        cases after.shift parser.grammar <;> rfl
      · have hcurrent : ¬ closesGroup (parser.moveTo after).current = true := hclosing
        simp only [hcurrent, hclosing]
        rfl

theorem prefixed_error {rule : PrefixRule} {failure : Failure} {next : Cursor}
    (hshift : cursor.shift parser.grammar = .error failure next) :
    prefixed expression rule.form rule.power (parser.moveTo cursor) =
      .error failure (parser.moveTo next) := by
  cases hform : rule.form <;>
    simp only [prefixed, atom, signed, grouped, bind, EStateM.bind, shift_moveTo, hshift,
      Outcome.onto]

/-- The parser with one more level open. -/
def deeper (parser : Parser) : Parser := { parser with depth := parser.depth + 1 }

theorem nested_moveTo {step : Parse α} {result : Outcome α} (hdepth : parser.depth < parser.limit)
    (hstep : step (parser.deeper.moveTo cursor) = result.onto parser.deeper) :
    nested step (parser.moveTo cursor) = result.onto parser := by
  have hopen : openLevel (parser.moveTo cursor) = .ok () (parser.deeper.moveTo cursor) := by
    rw [openLevel]
    exact if_pos hdepth
  rw [nested, hopen]
  simp only [hstep]
  cases result <;> rfl

/-- The parser works by the grammar and the limit of a run and has the room that the run has. -/
structure Hosts (grammar : Grammar) (limit room : Nat) (parser : Parser) : Prop where
  grammar_eq : parser.grammar = grammar
  limit_eq : parser.limit = limit
  room_eq : room = limit - parser.depth

theorem exists_hosts (grammar : Grammar) {limit room : Nat} (hroom : room ≤ limit) :
    ∃ parser : Parser, parser.Hosts grammar limit room := by
  refine ⟨⟨grammar, [], .opening "", limit - room, limit, none⟩, rfl, rfl, ?_⟩
  simp only
  omega

theorem Hosts.depth_lt {grammar : Grammar} {limit room : Nat}
    (hhosts : parser.Hosts grammar limit (room + 1)) : parser.depth < parser.limit := by
  have hroom := hhosts.room_eq
  have hlimit := hhosts.limit_eq
  omega

theorem Hosts.deeper {grammar : Grammar} {limit room : Nat}
    (hhosts : parser.Hosts grammar limit (room + 1)) :
    parser.deeper.Hosts grammar limit room where
  grammar_eq := hhosts.grammar_eq
  limit_eq := hhosts.limit_eq
  room_eq := by
    have hroom := hhosts.room_eq
    simp only [Parser.deeper]
    omega

end Parser

/-- The parser computes the result of a task, if it is given more turns than items are pending. -/
def Task.Computes (grammar : Grammar) (limit : Nat) : Task → Outcome Expr → Prop
  | .read room floor cursor, result => ∀ (turns : Nat) (parser : Parser),
      cursor.pending.length < turns → parser.Hosts grammar limit room →
      Parser.expressionWithin turns room floor (parser.moveTo cursor) = result.onto parser
  | .begin room rule cursor, result => ∀ (turns : Nat) (parser : Parser),
      cursor.pending.length < turns → parser.Hosts grammar limit room →
      Parser.prefixed (Parser.expressionWithin turns room) rule.form rule.power
        (parser.moveTo cursor) = result.onto parser
  | .fold _ _ (.error failure cursor), result => result = .error failure cursor
  | .fold room floor (.ok left cursor), result => ∀ (turns steps : Nat) (parser : Parser),
      cursor.pending.length < turns → cursor.pending.length < steps →
      parser.Hosts grammar limit room →
      Parser.fold (Parser.expressionWithin turns room) floor steps left (parser.moveTo cursor) =
        result.onto parser

namespace Parser

variable {parser : Parser} {cursor : Cursor} {expression : Nat → Parse Expr} {floor : Nat}

theorem fold_of_le {steps : Nat} {left : Expr}
    (hpower : parser.grammar.powerOf cursor.current ≤ floor) :
    fold expression floor steps left (parser.moveTo cursor) = .ok left (parser.moveTo cursor) := by
  have hnot : ¬ floor < (parser.moveTo cursor).power := Nat.not_lt.mpr hpower
  cases steps <;> rw [fold, if_neg hnot]

theorem fold_of_none {steps : Nat} {left : Expr}
    (hpower : floor < parser.grammar.powerOf cursor.current)
    (hrule : parser.grammar.infixOf? cursor.current = none) :
    fold expression floor steps left (parser.moveTo cursor) =
      (cursor.refuse (.unexpectedToken cursor.current.lexeme)).onto parser := by
  have hlt : floor < (parser.moveTo cursor).power := hpower
  have hnone : (parser.moveTo cursor).rule?.bind Rule.infixRule = none := hrule
  cases steps with
  | zero =>
      rw [fold, if_pos hlt, hnone]
      rfl
  | succ steps =>
      rw [fold, if_pos hlt, hnone]
      rfl

theorem fold_succ {steps : Nat} {left : Expr} {rule : InfixRule}
    (hpower : floor < parser.grammar.powerOf cursor.current)
    (hrule : parser.grammar.infixOf? cursor.current = some rule) :
    fold expression floor (steps + 1) left (parser.moveTo cursor) =
      match joined expression left rule.rightPower (parser.moveTo cursor) with
      | .error failure parser => .error failure parser
      | .ok left parser => fold expression floor steps left parser := by
  have hlt : floor < (parser.moveTo cursor).power := hpower
  have hsome : (parser.moveTo cursor).rule?.bind Rule.infixRule = some rule := hrule
  rw [fold, if_pos hlt]
  split
  · next hnone =>
      rw [hsome] at hnone
      contradiction
  · next found hfound =>
      obtain rfl : rule = found := Option.some.inj (hsome.symm.trans hfound)
      rfl

/-- An operator that stays under the cursor is folded in until the turns are used up. -/
theorem fold_endless {left right : Expr} {rule : InfixRule}
    (hpower : floor < parser.grammar.powerOf cursor.current)
    (hrule : parser.grammar.infixOf? cursor.current = some rule)
    (hshift : cursor.shift parser.grammar = .ok cursor.current cursor)
    (hright : expression rule.rightPower (parser.moveTo cursor) =
      Outcome.onto parser (.ok right cursor)) :
    ∀ steps, fold expression floor steps left (parser.moveTo cursor) =
      .error .endless (parser.moveTo cursor) := by
  intro steps
  induction steps generalizing left with
  | zero =>
      have hlt : floor < (parser.moveTo cursor).power := hpower
      have hsome : ((parser.moveTo cursor).rule?.bind Rule.infixRule).isSome = true := by
        have hrule : (parser.moveTo cursor).rule?.bind Rule.infixRule = some rule := hrule
        rw [hrule]
        rfl
      rw [fold, if_pos hlt, if_pos hsome]
  | succ steps ih =>
      rw [fold_succ hpower hrule, joined_moveTo hshift hright]
      exact ih

end Parser

namespace Run

open Precedence.Parser

variable {grammar : Grammar} {limit : Nat} {task : Task} {result : Outcome Expr}

/-- The parser computes what its runs say. -/
theorem computes (hrun : Run grammar limit task result) : task.Computes grammar limit result := by
  induction hrun with
  | tooDeep =>
      intro turns parser hturns hhosts
      obtain rfl := hhosts.limit_eq
      rfl
  | @noPrefix room floor cursor hrule =>
      intro turns parser hturns hhosts
      refine nested_moveTo hhosts.depth_lt ?_
      have hnone : (parser.deeper.moveTo cursor).rule?.bind Rule.prefixRule = none := by
        rw [← hhosts.grammar_eq] at hrule
        exact hrule
      rw [chain, hnone]
      rfl
  | @read room floor cursor rule left result hrule hleft hfold ihleft ihfold =>
      intro turns parser hturns hhosts
      refine nested_moveTo hhosts.depth_lt ?_
      have hsome : (parser.deeper.moveTo cursor).rule?.bind Rule.prefixRule = some rule := by
        rw [← hhosts.grammar_eq] at hrule
        exact hrule
      rw [chain, hsome]
      have hbegin := ihleft turns parser.deeper hturns hhosts.deeper
      simp only [bind, EStateM.bind, hbegin]
      cases left with
      | error failure after =>
          rw [Task.Computes] at ihfold
          subst ihfold
          rfl
      | ok tree after =>
          have hlength : after.pending.length ≤ cursor.pending.length :=
            hleft.pending_suffix.length_le
          exact ihfold turns turns parser.deeper (by omega) (by omega) hhosts.deeper
  | stuckPrefix hshift =>
      intro turns parser hturns hhosts
      rw [← hhosts.grammar_eq] at hshift
      exact prefixed_error hshift
  | atom hshift =>
      intro turns parser hturns hhosts
      rw [← hhosts.grammar_eq] at hshift
      rw [prefixed, atom_moveTo, hshift]
      rfl
  | @sign room power cursor token next operand hshift hoperand ih =>
      intro turns parser hturns hhosts
      have hsuffix := Cursor.pending_shift_suffix grammar cursor
      rw [hshift] at hsuffix
      have hlength : next.pending.length ≤ cursor.pending.length := hsuffix.length_le
      rw [← hhosts.grammar_eq] at hshift
      exact signed_moveTo hshift (ih turns parser (by omega) hhosts)
  | @group room power cursor token next inner hshift hinner ih =>
      intro turns parser hturns hhosts
      have hsuffix := Cursor.pending_shift_suffix grammar cursor
      rw [hshift] at hsuffix
      have hlength : next.pending.length ≤ cursor.pending.length := hsuffix.length_le
      rw [← hhosts.grammar_eq] at hshift
      rw [prefixed, grouped_moveTo hshift (ih turns parser (by omega) hhosts), hhosts.grammar_eq]
  | failed => rfl
  | stop hpower =>
      intro turns steps parser hturns hsteps hhosts
      rw [← hhosts.grammar_eq] at hpower
      exact fold_of_le hpower
  | noInfix hpower hrule =>
      intro turns steps parser hturns hsteps hhosts
      rw [← hhosts.grammar_eq] at hpower hrule
      exact fold_of_none hpower hrule
  | stuckInfix hpower hrule hshift =>
      intro turns steps parser hturns hsteps hhosts
      obtain ⟨steps, rfl⟩ := Nat.exists_eq_succ_of_ne_zero (Nat.ne_zero_of_lt hsteps)
      rw [← hhosts.grammar_eq] at hpower hrule hshift
      rw [fold_succ hpower hrule]
      simp only [joined, bind, EStateM.bind, shift_moveTo, hshift, Outcome.onto]
  | @join room floor left cursor rule token next right result hpower hrule hshift hright hpending
      hfold ihright ihfold =>
      intro turns steps parser hturns hsteps hhosts
      obtain ⟨steps, rfl⟩ := Nat.exists_eq_succ_of_ne_zero (Nat.ne_zero_of_lt hsteps)
      have hsuffix := Cursor.pending_shift_suffix grammar cursor
      rw [hshift] at hsuffix
      have hlength : next.pending.length ≤ cursor.pending.length := hsuffix.length_le
      have hjoined : joined (expressionWithin turns room) left rule.rightPower
          (parser.moveTo cursor) = (right.map (.binary token.lexeme left)).onto parser :=
        joined_moveTo (by rw [hhosts.grammar_eq]; exact hshift)
          (ihright turns parser (by omega) hhosts)
      rw [fold_succ (by rw [hhosts.grammar_eq]; exact hpower)
        (by rw [hhosts.grammar_eq]; exact hrule), hjoined]
      cases right with
      | error failure after =>
          rw [Outcome.map_error, Task.Computes] at ihfold
          subst ihfold
          rfl
      | ok tree after =>
          have hshorter : after.pending.length < cursor.pending.length :=
            hright.length_pending_lt hshift (hpending tree after rfl)
          exact ihfold turns steps parser (by omega) (by omega) hhosts
  | @endless room floor left cursor rule right after hpower hrule hpending hright ihright =>
      intro turns steps parser hturns hsteps hhosts
      obtain rfl : after = cursor := hright.cursor_eq hpending
      rw [← hhosts.grammar_eq] at hpower hrule
      exact fold_endless hpower hrule (Cursor.shift_nil hpending)
        (ihright turns parser hturns hhosts) steps

/-- A reading has one result only. -/
theorem read_unique {room floor : Nat} {cursor : Cursor} {other : Outcome Expr}
    (hroom : room ≤ limit) (hrun : Run grammar limit (.read room floor cursor) result)
    (hother : Run grammar limit (.read room floor cursor) other) : result = other := by
  obtain ⟨parser, hhosts⟩ := exists_hosts grammar hroom
  apply onto_injective parser
  rw [← hrun.computes _ parser (Nat.lt_succ_self _) hhosts]
  exact hother.computes _ parser (Nat.lt_succ_self _) hhosts

theorem begin_unique {room : Nat} {rule : PrefixRule} {cursor : Cursor} {other : Outcome Expr}
    (hroom : room ≤ limit) (hrun : Run grammar limit (.begin room rule cursor) result)
    (hother : Run grammar limit (.begin room rule cursor) other) : result = other := by
  obtain ⟨parser, hhosts⟩ := exists_hosts grammar hroom
  apply onto_injective parser
  rw [← hrun.computes _ parser (Nat.lt_succ_self _) hhosts]
  exact hother.computes _ parser (Nat.lt_succ_self _) hhosts

end Run

/-- The parser has looked up the rule of its current token. -/
def Parser.KnowsRule (parser : Parser) : Prop :=
  parser.rule? = parser.grammar.ruleOf? parser.current

theorem Parser.KnowsRule.moveTo_cursor {parser : Parser} (hrule : parser.KnowsRule) :
    parser.moveTo parser.cursor = parser := by
  rw [moveTo, cursor, ← hrule]

/-- Reading an expression is a run on the levels that are left. -/
theorem Parser.expression_eq {parser : Parser} {floor : Nat} {result : Outcome Expr}
    (hrule : parser.KnowsRule)
    (hrun : Run parser.grammar parser.limit
      (.read (parser.limit - parser.depth) floor parser.cursor) result) :
    expression floor parser = result.onto parser := by
  have hcomputes := hrun.computes _ parser (Nat.lt_succ_self _) ⟨rfl, rfl, rfl⟩
  rwa [hrule.moveTo_cursor] at hcomputes

/-- A parser with no level open. -/
def Parser.fresh (grammar : Grammar) (cursor : Cursor) : Parser where
  grammar := grammar
  pending := cursor.pending
  current := cursor.current
  depth := 0
  limit := standardLimit

/-- What a whole source comes to, once the first expression of it is read. -/
def Outcome.whole : Outcome Expr → Except Failure Expr
  | .error failure _ => .error failure
  | .ok tree cursor =>
    if cursor.current.kind = .finish then .ok tree
    else .error (.error ⟨.trailingInput cursor.current.lexeme, cursor.current.position⟩)

section Source

variable {grammar : Grammar} {source : String} {file : Option String} {name : String}
variable {rest : List Lexer.Item} {next : Cursor}

theorem ofLexer_eq (hitems : (Lexer.ofSource source file).items = .ok (.opening name) :: rest) :
    Parser.ofLexer (.ofSource source file) grammar =
      match Cursor.shift grammar ⟨.opening name, rest⟩ with
      | .ok _ next => .ok (.fresh grammar next)
      | .error failure _ => .error failure := by
  -- the opening token has no rule, so the parser stands on it as if it had been moved there
  have hopening : Parser.moveTo ⟨grammar, rest, .opening name, 0, Parser.standardLimit, none⟩
      ⟨.opening name, rest⟩ = ⟨grammar, rest, .opening name, 0, Parser.standardLimit, none⟩ := rfl
  have hshift := Parser.shift_moveTo
    ⟨grammar, rest, .opening name, 0, Parser.standardLimit, none⟩ ⟨.opening name, rest⟩
  rw [hopening] at hshift
  have hstart : (Token.opening name).kind = .start := rfl
  simp only [Parser.ofLexer, hitems, hstart, if_true, hshift]
  cases Cursor.shift grammar ⟨.opening name, rest⟩ <;> rfl

theorem parseWith_of_shift_error {failure : Failure}
    (hitems : (Lexer.ofSource source file).items = .ok (.opening name) :: rest)
    (hshift : Cursor.shift grammar ⟨.opening name, rest⟩ = .error failure next) :
    parseWith grammar source file = .error failure := by
  rw [parseWith, ofLexer_eq hitems, hshift]

theorem parseWith_of_run {token : Token} {result : Outcome Expr}
    (hitems : (Lexer.ofSource source file).items = .ok (.opening name) :: rest)
    (hshift : Cursor.shift grammar ⟨.opening name, rest⟩ = .ok token next)
    (hrun : Run grammar Parser.standardLimit
      (.read Parser.standardLimit Grammar.loosestPower next) result) :
    parseWith grammar source file = result.whole := by
  have hexpression := @Parser.expression_eq (.fresh grammar next) _ _ rfl hrun
  rw [parseWith, ofLexer_eq hitems, hshift]
  simp only [Parser.wholeExpression, bind, EStateM.bind, hexpression]
  cases result with
  | error failure after => rfl
  | ok tree after =>
      simp only [Outcome.onto, Outcome.whole, Parser.get_apply, Parser.moveTo]
      by_cases hfinish : after.current.kind = .finish
      · simp only [hfinish, if_true]
        rfl
      · simp only [hfinish, if_false]
        rfl

end Source

end Precedence
