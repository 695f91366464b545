import Precedence.Parser.Expression

/-!
# What a step leads to

A step of the parser has a result or fails, and it leaves a parser in either case.  Two properties
say what is known of that parser, one for each case.  What moving on and reading an operand lead to
tells what every other step leads to, as far as the levels do not matter.
-/

namespace Precedence.Parser

variable {α β : Type} {before between after failed : Parser → Prop}

section Bind

variable {step : Parse α} {next : α → Parse β} {parser left : Parser}

theorem bind_ok {value : α} (hstep : step parser = .ok value left) :
    (step >>= next) parser = next value left := by
  simp only [bind, EStateM.bind, hstep]

theorem bind_error {failure : Failure} (hstep : step parser = .error failure left) :
    (step >>= next) parser = .error failure left := by
  simp only [bind, EStateM.bind, hstep]

/-- A turn of folding joins the tree read so far to a right operand and goes on. -/
theorem fold_eq_bind {expression : Nat → Parse Expr} {floor turns : Nat} {tree : Expr}
    {rule : InfixRule} (hpower : floor < parser.power)
    (hrule : parser.rule?.bind Rule.infixRule = some rule) :
    fold expression floor (turns + 1) tree parser =
      (joined expression tree rule.rightPower >>= fold expression floor turns) parser := by
  rw [fold, if_pos hpower, hrule]
  cases hjoined : joined expression tree rule.rightPower parser with
  | error failure next => simp only [hjoined, bind_error hjoined]
  | ok tree next => simp only [hjoined, bind_ok hjoined]

end Bind

/-- The parser that is left has the first property, or the second one where the step failed. -/
def Leaves (after failed : Parser → Prop) : EStateM.Result Failure Parser α → Prop
  | .ok _ parser => after parser
  | .error _ parser => failed parser

/-- Started on a parser with the first property, the step leaves one with the second property, or it
fails and leaves one with the third. -/
def Leads (before after failed : Parser → Prop) (step : Parse α) : Prop :=
  ∀ parser, before parser → Leaves after failed (step parser)

namespace Leads

theorem pure (value : α) : Leads after after failed (Pure.pure value : Parse α) :=
  fun _ hparser => hparser

/-- Nothing needs to be known of a step that fails. -/
theorem of_ok {step : Parse α}
    (hstep : ∀ parser value left, before parser → step parser = .ok value left → after left) :
    Leads before after (fun _ => True) step := by
  intro parser hparser
  cases hresult : step parser with
  | error failure left => trivial
  | ok value left => exact hstep parser value left hparser hresult

theorem get : Leads after after failed (MonadState.get : Parse Parser) :=
  fun _ hparser => hparser

theorem refuse (hfailed : ∀ parser, before parser → failed parser) (fault : Fault) :
    Leads before after failed (refuse fault : Parse α) := by
  intro parser hparser
  exact hfailed parser hparser

theorem bind {step : Parse α} {next : α → Parse β} (hstep : Leads before between failed step)
    (hnext : ∀ value, Leads between after failed (next value)) :
    Leads before after failed (step >>= next) := by
  intro parser hparser
  have hbetween := hstep parser hparser
  cases hresult : step parser with
  | error failure left =>
      rw [hresult] at hbetween
      rw [bind_error hresult]
      exact hbetween
  | ok value left =>
      rw [hresult] at hbetween
      rw [bind_ok hresult]
      exact hnext value left hbetween

/-- A level of its own changes nothing but the levels. -/
theorem nested {inside inside' within : Parser → Prop} {step : Parse α}
    (hstep : Leads inside inside' within step)
    (hopen : ∀ parser, before parser → parser.depth < parser.limit →
      inside { parser with depth := parser.depth + 1 })
    (htooDeep : ∀ parser, before parser → failed parser)
    (hclose : ∀ parser, inside' parser → after parser.closeLevel)
    (hfailed : ∀ parser, within parser → failed parser.closeLevel) :
    Leads before after failed (nested step) := by
  intro parser hparser
  rw [Parser.nested, openLevel]
  by_cases hdepth : parser.depth < parser.limit
  · rw [if_pos hdepth]
    have hleft := hstep _ (hopen parser hparser hdepth)
    simp only
    cases hresult : step { parser with depth := parser.depth + 1 } with
    | error failure left =>
        rw [hresult] at hleft
        exact hfailed left hleft
    | ok value left =>
        rw [hresult] at hleft
        exact hclose left hleft
  · rw [if_neg hdepth]
    exact htooDeep parser hparser

section Expression

variable {expression : Nat → Parse Expr}

theorem joined (hshift : Leads before after failed shift)
    (hexpression : ∀ floor, Leads after after failed (expression floor)) (left : Expr)
    (power : Nat) : Leads before after failed (joined expression left power) :=
  hshift.bind fun _ => (hexpression power).bind fun _ => .pure _

variable (hfirst : Leads before after failed shift) (hshift : Leads after after failed shift)
variable (hexpression : ∀ floor, Leads after after failed (expression floor))
variable (hfailed : ∀ parser, after parser → failed parser)

include hfirst hshift hexpression hfailed

/-- The first move of a prefix form may lead from one property to another, which the other moves
keep. -/
theorem prefixed (form : PrefixForm) (power : Nat) :
    Leads before after failed (prefixed expression form power) := by
  cases form with
  | atom => exact hfirst.bind fun _ => .pure _
  | sign => exact hfirst.bind fun _ => (hexpression power).bind fun _ => .pure _
  | group =>
      refine hfirst.bind fun _ => (hexpression _).bind fun inner => .bind .get ?_
      intro parser
      dsimp only
      split
      · exact hshift.bind fun _ => .pure inner
      · exact .refuse hfailed _

omit hfirst in
theorem fold (floor turns : Nat) (left : Expr) :
    Leads after after failed (fold expression floor turns left) := by
  induction turns generalizing left with
  | zero =>
      intro parser hparser
      rw [Parser.fold]
      split
      · split
        · exact hfailed parser hparser
        · exact hfailed parser hparser
      · exact hparser
  | succ turns ih =>
      intro parser hparser
      rw [Parser.fold]
      split
      · split
        · exact hfailed parser hparser
        · next rule _ =>
          have hjoined := hshift.joined hexpression left rule.rightPower parser hparser
          cases hresult : Parser.joined expression left rule.rightPower parser with
          | error failure next =>
              rw [hresult] at hjoined
              exact hjoined
          | ok tree next =>
              rw [hresult] at hjoined
              exact ih tree next hjoined
      · exact hparser

theorem chain (hrefused : ∀ parser, before parser → failed parser) (turns floor : Nat) :
    Leads before after failed (chain expression turns floor) := by
  intro parser hparser
  rw [Parser.chain]
  split
  · exact hrefused parser hparser
  · next rule _ =>
    exact ((hfirst.prefixed hshift hexpression hfailed rule.form rule.power).bind
      (hshift.fold hexpression hfailed floor turns)) parser hparser

end Expression

end Leads

/-- The property does not depend on the levels. -/
def LevelFree (property : Parser → Prop) : Prop :=
  ∀ parser depth limit, property parser → property { parser with depth, limit }

namespace Leads

variable (hfirst : Leads before after failed shift) (hshift : Leads after after failed shift)
variable (hbefore : LevelFree before) (hafter : LevelFree after) (hfree : LevelFree failed)
variable (hrefused : ∀ parser, before parser → failed parser)
variable (hfailed : ∀ parser, after parser → failed parser)

include hfirst hshift hbefore hafter hfree hrefused hfailed

/-- Reading an expression leads where its first move leads, if the other moves keep to that. -/
theorem expressionWithin (turns room floor : Nat) :
    Leads before after failed (expressionWithin turns room floor) := by
  induction room generalizing before floor with
  | zero => exact hrefused
  | succ room ih =>
      have hoperand := ih hshift hafter hfailed
      exact (hfirst.chain hshift hoperand hfailed hrefused turns floor).nested
        (fun parser hparser _ => hbefore parser _ _ hparser) hrefused
        (fun parser hparser => hafter parser _ _ hparser)
        (fun parser hparser => hfree parser _ _ hparser)

theorem expression (floor : Nat) : Leads before after failed (expression floor) :=
  fun parser hparser =>
    hfirst.expressionWithin hshift hbefore hafter hfree hrefused hfailed _ _ floor parser hparser

end Leads

end Precedence.Parser
