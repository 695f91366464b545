import Precedence.Proofs.Limit
import Precedence.Proofs.Registry
import Precedence.Proofs.Replay

/-!
# Grammars that are extended

New operators may be added to a grammar at any time.  A parse only ever looks up the rules of
tokens that it did not refuse, and an operator without a rule is refused before it is looked at.  So
what a parse came to under the smaller grammar it comes to under the larger one, unless it was
refused for the want of a rule.
-/

namespace Precedence

open Lexer

/-- The other grammar gives the same rules, but for operators that this grammar has no rule for. -/
def Grammar.Conserves (other grammar : Grammar) : Prop :=
  ∀ symbol, (∀ operator, symbol = .operator operator → grammar.contains symbol = true) →
    other.rule? symbol = grammar.rule? symbol

/-- Calls on new operators leave all else as it is. -/
theorem Grammar.conserves_extend {grammar : Grammar} {calls : List Call}
    (hnew : ∀ call ∈ calls, ∃ operator, call.symbol = .operator operator ∧
      grammar.contains (.operator operator) = false) :
    (grammar.extend calls).Conserves grammar := by
  intro symbol hknown
  apply rule?_extend_of_ne
  rintro call hcall rfl
  obtain ⟨operator, hsymbol, hnone⟩ := hnew call hcall
  have hsome := hknown operator hsymbol
  rw [hsymbol, hnone] at hsome
  contradiction

/-! ## Tokens that are not refused -/

section Conserves

variable {grammar other : Grammar} {token : Token}

theorem Grammar.contains_of_checkOperator (hcheck : grammar.checkOperator token = .ok ())
    (hkind : token.kind = .operator) : grammar.contains (.operator token.lexeme) = true := by
  by_contra hnone
  simp [checkOperator, hkind, hnone] at hcheck

namespace Grammar.Conserves

variable (hconserves : other.Conserves grammar) (hcheck : grammar.checkOperator token = .ok ())

include hconserves hcheck

theorem ruleOf?_eq : other.ruleOf? token = grammar.ruleOf? token := by
  rw [ruleOf?, ruleOf?]
  cases hsymbol : token.symbol? with
  | none => rfl
  | some symbol =>
      apply hconserves
      rintro operator rfl
      have hkind : token.kind = .operator ∧ token.lexeme = operator := by
        unfold Token.symbol? at hsymbol
        split at hsymbol <;> simp_all
      rw [← hkind.2]
      exact contains_of_checkOperator hcheck hkind.1

theorem checkOperator_eq : other.checkOperator token = .ok () := by
  rw [checkOperator]
  by_cases hkind : token.kind = .operator
  · have hcontains := contains_of_checkOperator hcheck hkind
    have hrule := hconserves.ruleOf?_eq hcheck
    rw [ruleOf?_operator hkind, ruleOf?_operator hkind] at hrule
    rw [contains, ← hrule] at hcontains
    simp [contains, hcontains]
  · simp [hkind]

theorem prefixOf?_eq : other.prefixOf? token = grammar.prefixOf? token := by
  rw [prefixOf?, prefixOf?, hconserves.ruleOf?_eq hcheck]

theorem infixOf?_eq : other.infixOf? token = grammar.infixOf? token := by
  rw [infixOf?, infixOf?, hconserves.ruleOf?_eq hcheck]

theorem powerOf_eq : other.powerOf token = grammar.powerOf token := by
  rw [powerOf, powerOf, hconserves.ruleOf?_eq hcheck]

end Grammar.Conserves

end Conserves

/-! ## The current token of a run is never one that was refused -/

section Checked

variable {grammar : Grammar} {limit : Nat}

/-- The current token was not refused. -/
def Cursor.Checked (grammar : Grammar) (cursor : Cursor) : Prop :=
  grammar.checkOperator cursor.current = .ok ()

theorem Cursor.Checked.shift {cursor : Cursor} (hchecked : cursor.Checked grammar)
    {outcome : Outcome Token} (hshift : cursor.shift grammar = outcome) :
    outcome.cursor.Checked grammar := by
  cases outcome with
  | ok token next =>
      rcases (Cursor.shift_ok hshift).2 with ⟨-, rfl⟩ | ⟨-, hcheck⟩
      · exact hchecked
      · exact hcheck
  | error failure next =>
      rw [Checked, Outcome.cursor, (Cursor.shift_error hshift).1]
      exact hchecked

theorem Cursor.Checked.close {inner : Outcome Expr} (hchecked : inner.cursor.Checked grammar) :
    (Cursor.close grammar inner).cursor.Checked grammar := by
  cases inner with
  | error failure cursor => exact hchecked
  | ok tree cursor =>
      rw [Cursor.close]
      split
      · rw [Outcome.cursor_map]
        exact hchecked.shift rfl
      · exact hchecked

theorem Run.checked {task : Task} {result : Outcome Expr} (hrun : Run grammar limit task result)
    (htask : task.cursor.Checked grammar) : result.cursor.Checked grammar := by
  induction hrun with
  | tooDeep | noPrefix | failed | stop | noInfix | endless => exact htask
  | read hrule hleft hfold ihleft ihfold => exact ihfold (ihleft htask)
  | stuckPrefix hshift | stuckInfix _ _ hshift => exact htask.shift hshift
  | atom hshift => exact htask.shift hshift
  | sign hshift hoperand ih =>
      rw [Outcome.cursor_map]
      exact ih (htask.shift hshift)
  | group hshift hinner ih => exact (ih (htask.shift hshift)).close
  | join hpower hrule hshift hright hpending hfold ihright ihfold =>
      rw [Task.cursor, Outcome.cursor_map] at ihfold
      exact ihfold (ihright (htask.shift hshift))

end Checked

/-! ## Runs under the larger grammar -/

/-- The failure is that the grammar has no rule for an operator. -/
def Failure.Unruled : Failure → Prop
  | .error cause => ∃ operator, cause.fault = .unknownOperator operator
  | .endless => False

/-- The parser failed because the grammar has no rule for an operator. -/
def Outcome.Unruled {α : Type} : Outcome α → Prop
  | .ok _ _ => False
  | .error failure _ => failure.Unruled

section Conserved

variable {grammar other : Grammar} {limit : Nat} {cursor : Cursor}

theorem Outcome.Unruled.map {α β : Type} {f : α → β} {outcome : Outcome α}
    (hunruled : outcome.Unruled) : (outcome.map f).Unruled := by
  cases outcome with
  | ok value next => exact hunruled
  | error failure next => exact hunruled

theorem Outcome.Unruled.fold {room floor : Nat} {left result : Outcome Expr}
    (hunruled : left.Unruled) (hfold : Run grammar limit (.fold room floor left) result) :
    result.Unruled := by
  cases left with
  | ok tree next => exact hunruled.elim
  | error failure next =>
      cases hfold
      exact hunruled

theorem Outcome.Unruled.close {inner : Outcome Expr} (hunruled : inner.Unruled) :
    (Cursor.close grammar inner).Unruled := by
  cases inner with
  | ok tree next => exact hunruled.elim
  | error failure next => exact hunruled

theorem Grammar.Conserves.shift (hconserves : other.Conserves grammar) {outcome : Outcome Token}
    (hshift : cursor.shift grammar = outcome) :
    cursor.shift other = outcome ∨ outcome.Unruled := by
  rw [← hshift, Cursor.shift, Cursor.shift]
  cases cursor.pending with
  | nil => exact .inl rfl
  | cons item rest =>
      cases item with
      | error error => exact .inl rfl
      | ok next =>
          cases hcheck : grammar.checkOperator next with
          | ok =>
              simp only [hconserves.checkOperator_eq hcheck, hcheck]
              exact .inl trivial
          | error error =>
              simp only [hcheck]
              rw [eq_of_checkOperator hcheck]
              exact .inr ⟨next.lexeme, rfl⟩

theorem Grammar.Conserves.close (hconserves : other.Conserves grammar) (inner : Outcome Expr) :
    Cursor.close other inner = Cursor.close grammar inner ∨
      (Cursor.close grammar inner).Unruled := by
  cases inner with
  | error failure next => exact .inl rfl
  | ok tree next =>
      rw [Cursor.close, Cursor.close]
      split
      · have hshift : next.shift other = next.shift grammar ∨ (next.shift grammar).Unruled :=
          hconserves.shift rfl
        rcases hshift with hsame | hunruled
        · exact .inl (by rw [hsame])
        · exact .inr hunruled.map
      · exact .inl rfl

/-- Under the larger grammar a run comes to the same, unless it failed for the want of a rule. -/
theorem Run.conserved (hconserves : other.Conserves grammar) {task : Task} {result : Outcome Expr}
    (hrun : Run grammar limit task result) (htask : task.cursor.Checked grammar) :
    Run other limit task result ∨ result.Unruled := by
  -- Where a part of the run failed for the want of a rule, the failure is handed on to the end.
  induction hrun with
  | tooDeep => exact .inl .tooDeep
  | noPrefix hrule => exact .inl (.noPrefix ((hconserves.prefixOf?_eq htask).trans hrule))
  | read hrule hleft hfold ihleft ihfold =>
      have hrule' := (hconserves.prefixOf?_eq htask).trans hrule
      rcases ihleft htask with hleft' | hunruled
      · exact (ihfold (hleft.checked htask)).imp_left (.read hrule' hleft')
      · exact .inr (hunruled.fold hfold)
  | stuckPrefix hshift =>
      rcases hconserves.shift hshift with hshift' | hunruled
      · exact .inl (.stuckPrefix hshift')
      · exact .inr hunruled
  | atom hshift =>
      rcases hconserves.shift hshift with hshift' | hunruled
      · exact .inl (.atom hshift')
      · exact hunruled.elim
  | sign hshift hoperand ih =>
      rcases hconserves.shift hshift with hshift' | hunruled
      · exact (ih (htask.shift hshift)).imp (.sign hshift') Outcome.Unruled.map
      · exact hunruled.elim
  | @group room power cursor token next inner hshift hinner ih =>
      rcases hconserves.shift hshift with hshift' | hunruled
      · rcases ih (htask.shift hshift) with hinner' | hunruled
        · rcases hconserves.close inner with hsame | hunruled
          · rw [← hsame]
            exact .inl (.group hshift' hinner')
          · exact .inr hunruled
        · exact .inr hunruled.close
      · exact hunruled.elim
  | failed => exact .inl .failed
  | stop hpower => exact .inl (.stop ((hconserves.powerOf_eq htask).le.trans hpower))
  | noInfix hpower hrule =>
      have hpower' := hpower.trans_eq (hconserves.powerOf_eq htask).symm
      have hrule' := (hconserves.infixOf?_eq htask).trans hrule
      exact .inl (.noInfix hpower' hrule')
  | stuckInfix hpower hrule hshift =>
      have hpower' := hpower.trans_eq (hconserves.powerOf_eq htask).symm
      have hrule' := (hconserves.infixOf?_eq htask).trans hrule
      rcases hconserves.shift hshift with hshift' | hunruled
      · exact .inl (.stuckInfix hpower' hrule' hshift')
      · exact .inr hunruled
  | join hpower hrule hshift hright hpending hfold ihright ihfold =>
      have hpower' := hpower.trans_eq (hconserves.powerOf_eq htask).symm
      have hrule' := (hconserves.infixOf?_eq htask).trans hrule
      have hnext := htask.shift hshift
      rcases hconserves.shift hshift with hshift' | hunruled
      · rcases ihright hnext with hright' | hunruled
        · rw [Task.cursor, Outcome.cursor_map] at ihfold
          exact (ihfold (hright.checked hnext)).imp_left
            (.join hpower' hrule' hshift' hright' hpending)
        · exact .inr (hunruled.map.fold hfold)
      · exact hunruled.elim
  | endless hpower hrule hpending hright ihright =>
      have hpower' := hpower.trans_eq (hconserves.powerOf_eq htask).symm
      have hrule' := (hconserves.infixOf?_eq htask).trans hrule
      rcases ihright htask with hright' | hunruled
      · exact .inl (.endless hpower' hrule' hpending hright')
      · exact hunruled.elim

end Conserved

/-! ## Whole sources -/

section Source

variable {grammar other : Grammar} {source : String} {file : Option String}

theorem Outcome.Unruled.whole {outcome : Outcome Expr} (hunruled : outcome.Unruled) :
    ∃ operator position, outcome.whole = .error (.error ⟨.unknownOperator operator, position⟩) := by
  cases outcome with
  | ok tree next => exact hunruled.elim
  | error failure next =>
      cases failure with
      | endless => exact hunruled.elim
      | error cause =>
          obtain ⟨operator, hfault⟩ := hunruled
          refine ⟨operator, cause.position, ?_⟩
          rw [Outcome.whole, ← hfault]

theorem eq_of_map_unary {result result' : Except Failure Expr} {operator : String}
    (hmap : result.map (Expr.unary operator) = result'.map (Expr.unary operator)) :
    result = result' := by
  cases result <;> cases result' <;> simp_all [Except.map]

/-- A parse comes to the same under the larger grammar, unless it failed for the want of a rule. -/
theorem parseWith_conserved (hconserves : other.Conserves grammar) (source : String)
    (file : Option String) : parseWith other source file = parseWith grammar source file ∨
      ∃ operator position,
        parseWith grammar source file = .error (.error ⟨.unknownOperator operator, position⟩) := by
  obtain ⟨tokens, last, hitems, -⟩ := items_ofSource source file
  obtain ⟨outcome, hreads⟩ := Cursor.exists_reads grammar
    ⟨.opening (fileName file), tokens.map .ok ++ [last]⟩
  have hparse := hreads.parseWith_map hitems
  have hopening : Cursor.Checked grammar ⟨.opening (fileName file), tokens.map .ok ++ [last]⟩ := rfl
  rcases Run.conserved hconserves hreads hopening with hreads' | hunruled
  · have hother : Cursor.Reads other _ outcome := hreads'
    have hparse' := hother.parseWith_map hitems
    exact .inl (eq_of_map_unary (hparse'.trans hparse.symm))
  · obtain ⟨operator, position, hwhole⟩ := hunruled.whole
    rw [hwhole] at hparse
    exact .inr ⟨operator, position, by
      cases hresult : parseWith grammar source file with
      | ok tree => simp [hresult, Except.map] at hparse
      | error failure => simpa [hresult, Except.map] using hparse⟩

theorem parseWith_ne_endless
    (hfinish : ∀ rule ∈ grammar.rule? .finish, rule.infixRule = none) :
    parseWith grammar source file ≠ .error .endless := by
  intro hendless
  obtain ⟨tokens, done, left, -, -, -, hitems⟩ := exists_row source file
  have hcomes := @parseWith_comesFrom grammar source file _ _ hitems (by simp)
  rw [hendless] at hcomes
  exact Failure.ComesFrom.ne_endless hcomes hfinish rfl

/-- New operators change neither a tree nor an error, unless the error was that an operator had no
rule. -/
theorem parseWith_extend (hfinish : ∀ rule ∈ grammar.rule? .finish, rule.infixRule = none)
    {calls : List Grammar.Call}
    (hnew : ∀ call ∈ calls, ∃ operator, call.symbol = .operator operator ∧
      grammar.contains (.operator operator) = false) (source : String) (file : Option String) :
    parseWith grammar source file ≠ .error .endless ∧
      (∀ tree, parseWith grammar source file = .ok tree →
        parseWith (grammar.extend calls) source file = .ok tree) ∧
      ∀ error, parseWith grammar source file = .error (.error error) →
        (∀ operator, error.fault ≠ .unknownOperator operator) →
        parseWith (grammar.extend calls) source file = .error (.error error) := by
  have hsame := parseWith_conserved (Grammar.conserves_extend hnew) source file
  refine ⟨parseWith_ne_endless hfinish, ?_, ?_⟩
  · intro tree hparse
    rw [hparse] at hsame
    exact hsame.resolve_right (by simp)
  · intro error hparse hruled
    rw [hparse] at hsame
    apply hsame.resolve_right
    rintro ⟨operator, position, hunruled⟩
    rw [Failure.error.inj (Except.error.inj hunruled)] at hruled
    exact hruled operator rfl

/-- With two more operators, a source without them, and a source that is refused in front of one. -/
theorem parseWith_extend_powers :
    let grammar : Grammar := Grammar.arithmetic.extend
      [.addInfix (.operator "**") 40 .right, .addPrefix (.operator "!") 100 .sign]
    parseWith grammar "1 - 2 ^ x" none =
        .ok (.binary "-" (.literal "1") (.binary "^" (.literal "2") (.identifier "x"))) ∧
      parseWith grammar "(1 2) ** 3" none =
        .error (.error ⟨.unclosedGroup "2", ⟨3, "shell"⟩⟩) := by
  have hnew : ∀ call ∈ ([.addInfix (.operator "**") 40 .right,
      .addPrefix (.operator "!") 100 .sign] : List Grammar.Call),
      ∃ operator, call.symbol = .operator operator ∧
        Grammar.arithmetic.contains (.operator operator) = false := by
    simp only [List.forall_mem_cons]
    exact ⟨⟨"**", rfl, by decide⟩, ⟨"!", rfl, by decide⟩, by simp⟩
  constructor
  · exact (parseWith_extend (by decide) hnew "1 - 2 ^ x" none).2.1 _ (by decide +kernel)
  · exact (parseWith_extend (by decide) hnew "(1 2) ** 3" none).2.2
      ⟨.unclosedGroup "2", ⟨3, "shell"⟩⟩ (by decide +kernel) (by simp)

end Source

end Precedence
