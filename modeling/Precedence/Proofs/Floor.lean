import Precedence.Proofs.Operation
import Precedence.Proofs.Run

/-!
# The floor of an expression

Above a higher floor less is read.  A reading stops in front of a token that binds no more strongly
than its floor, and two readings from the same place take the same turns of folding until the one
with the higher floor stops.  So that one comes to a left operand of what the other comes to, and
the operators in between are those that the lower floor lets through.
-/

namespace Precedence

namespace Expr

/-- The part is the tree itself or is reached from it through left operands of binary nodes, whose
operators have the property. -/
inductive LeftPart (passed : String → Prop) (part : Expr) : Expr → Prop
  | refl : LeftPart passed part part
  | left {operator : String} {left right : Expr} (hpart : LeftPart passed part left)
      (hpassed : passed operator) : LeftPart passed part (.binary operator left right)

variable {passed : String → Prop} {part tree : Expr}

theorem LeftPart.of_left {operator : String} {left right : Expr}
    (hpart : LeftPart passed (.binary operator left right) tree) (hpassed : passed operator) :
    LeftPart passed left tree := by
  induction hpart with
  | refl => exact .left .refl hpassed
  | left hpart hpassed' ih => exact .left ih hpassed'

theorem LeftPart.mono {other : String → Prop} (hpart : LeftPart passed part tree)
    (hother : ∀ operator, passed operator → other operator) : LeftPart other part tree := by
  induction hpart with
  | refl => exact .refl
  | left hpart hpassed ih => exact .left ih (hother _ hpassed)

end Expr

namespace Parser

/-! ## Tokens that are passed -/

/-- The tokens stand between the place of the parser and a later one. -/
def Takes (parser : Parser) (taken : List Token) (after : Parser) : Prop :=
  parser.cursor.items = taken.map .ok ++ after.cursor.items

section Takes

variable {parser between after : Parser} {taken more : List Token}

theorem Takes.refl (parser : Parser) : parser.Takes [] parser := rfl

theorem Takes.trans (htaken : parser.Takes taken between) (hmore : between.Takes more after) :
    parser.Takes (taken ++ more) after := by
  rw [Takes, htaken, hmore, List.map_append, List.append_assoc]

theorem takes_of_shift {token : Token} (hshift : shift parser = .ok token after) :
    token = parser.current ∧
      (parser.pending = [] ∧ after = parser ∨ parser.Takes [parser.current] after) := by
  have hshifted := shifted_shift parser
  rw [hshift] at hshifted
  cases hshifted with
  | stays hpending => exact ⟨rfl, .inl ⟨hpending, rfl⟩⟩
  | moves hpending hresolve =>
      refine ⟨rfl, .inr ?_⟩
      rw [Takes, cursor, Cursor.items, hpending]
      rfl

theorem exists_takes {turns room floor : Nat} {tree : Expr}
    (hread : expressionWithin turns room floor parser = .ok tree after) :
    ∃ taken, parser.Takes taken after := by
  have hfree : LevelFree fun after => ∃ taken, parser.Takes taken after :=
    fun _ _ _ htaken => htaken
  have hshift : Leads (fun after => ∃ taken, parser.Takes taken after)
      (fun after => ∃ taken, parser.Takes taken after) (fun _ => True) shift := by
    apply Leads.of_ok
    rintro between token after ⟨taken, htaken⟩ hshift
    rcases (takes_of_shift hshift).2 with ⟨-, rfl⟩ | hmore
    · exact ⟨taken, htaken⟩
    · exact ⟨_, htaken.trans hmore⟩
  have hleaves := hshift.expressionWithin hshift hfree hfree (fun _ _ _ _ => trivial)
    (fun _ _ => trivial) (fun _ _ => trivial) turns room floor parser ⟨[], .refl parser⟩
  rw [hread] at hleaves
  exact hleaves

end Takes

/-! ## Rules that are looked up -/

/-- The parser works by the grammar, and it has looked up the rule of its token, unless it cannot
leave that token any more. -/
def LooksUp (grammar : Grammar) (parser : Parser) : Prop :=
  parser.grammar = grammar ∧ (parser.pending = [] ∨ parser.KnowsRule)

section LooksUp

variable {grammar : Grammar}

/-- Moving on looks up a rule, whatever rule the parser had before. -/
theorem leads_shift_looksUp :
    Leads (fun parser => parser.grammar = grammar) (LooksUp grammar) (fun _ => True) shift := by
  apply Leads.of_ok
  intro parser token after hgrammar hshift
  have hshifted := shifted_shift parser
  rw [hshift] at hshifted
  cases hshifted with
  | stays hpending => exact ⟨hgrammar, .inl hpending⟩
  | moves hpending hresolve =>
      obtain ⟨-, hrule⟩ := Grammar.resolve_eq_ok_iff.mp hresolve
      exact ⟨hgrammar, .inr hrule⟩

theorem looksUp_shift : Leads (LooksUp grammar) (LooksUp grammar) (fun _ => True) shift :=
  fun parser hparser => leads_shift_looksUp parser hparser.1

theorem looksUp_expressionWithin (turns room floor : Nat) :
    Leads (LooksUp grammar) (LooksUp grammar) (fun _ => True)
      (expressionWithin turns room floor) := by
  have hfree : LevelFree (LooksUp grammar) := fun _ _ _ hparser => hparser
  exact looksUp_shift.expressionWithin looksUp_shift hfree hfree (fun _ _ _ _ => trivial)
    (fun _ _ => trivial) (fun _ _ => trivial) turns room floor

/-- Behind a prefix form and turns of folding the rule is looked up. -/
theorem looksUp_of_fold {turns room floor power : Nat} {form : PrefixForm} {left tree : Expr}
    {parser first after : Parser}
    (hprefixed : prefixed (expressionWithin turns room) form power parser = .ok left first)
    (hfold : fold (expressionWithin turns room) floor turns left first = .ok tree after) :
    after.LooksUp parser.grammar := by
  have hfirst := leads_shift_looksUp.prefixed looksUp_shift
    (looksUp_expressionWithin turns room) (fun _ _ => trivial) form power parser rfl
  rw [hprefixed] at hfirst
  have hafter := looksUp_shift.fold (looksUp_expressionWithin turns room) (fun _ _ => trivial)
    floor turns left first hfirst
  rw [hfold] at hafter
  exact hafter

/-- A parser without pending items stays where it is. -/
theorem leads_atRest (rule? : Option Rule) (turns room floor : Nat) :
    Leads (fun parser => parser.pending = [] ∧ parser.rule? = rule?)
      (fun parser => parser.pending = [] ∧ parser.rule? = rule?) (fun _ => True)
      (expressionWithin turns room floor) := by
  have hfree : LevelFree fun parser => parser.pending = [] ∧ parser.rule? = rule? :=
    fun _ _ _ hparser => hparser
  have hshift : Leads (fun parser => parser.pending = [] ∧ parser.rule? = rule?)
      (fun parser => parser.pending = [] ∧ parser.rule? = rule?) (fun _ => True) shift := by
    rintro parser ⟨hnil, hrule⟩
    rw [shift, hnil]
    exact ⟨hnil, hrule⟩
  exact hshift.expressionWithin hshift hfree hfree (fun _ _ _ _ => trivial) (fun _ _ => trivial)
    (fun _ _ => trivial) turns room floor

end LooksUp

/-! ## Turns of folding -/

/-- Turns of folding above the floor lead to the tree. -/
inductive Folds (expression : Nat → Parse Expr) (floor : Nat) (tree : Expr) (after : Parser) :
    Expr → Parser → Prop
  | refl : Folds expression floor tree after tree after
  | turn {left joined : Expr} {parser next : Parser} {rule : InfixRule}
      (hpower : floor < parser.power) (hrule : parser.rule?.bind Rule.infixRule = some rule)
      (hjoined : Parser.joined expression left rule.rightPower parser = .ok joined next)
      (hrest : Folds expression floor tree after joined next) :
      Folds expression floor tree after left parser

section Folds

variable {expression : Nat → Parse Expr} {floor turns : Nat} {left tree : Expr}
variable {parser after : Parser}

theorem folds_of_fold (hfold : fold expression floor turns left parser = .ok tree after) :
    Folds expression floor tree after left parser ∧ after.power ≤ floor := by
  induction turns generalizing left parser with
  | zero =>
      rw [fold] at hfold
      split at hfold
      · split at hfold <;> contradiction
      · next hpower =>
        cases hfold
        exact ⟨.refl, Nat.le_of_not_lt hpower⟩
  | succ turns ih =>
      rw [fold] at hfold
      split at hfold
      · next hpower =>
        split at hfold
        · contradiction
        · next rule hrule =>
          cases hjoined : joined expression left rule.rightPower parser with
          | error failure next =>
              rw [hjoined] at hfold
              contradiction
          | ok tree next =>
              rw [hjoined] at hfold
              obtain ⟨hrest, hstop⟩ := ih hfold
              exact ⟨.turn hpower hrule hjoined hrest, hstop⟩
      · next hpower =>
        cases hfold
        exact ⟨.refl, Nat.le_of_not_lt hpower⟩

/-- Above a higher floor some of the turns are taken, and the others lead on from there. -/
theorem fold_refloor {higher : Nat} (hle : floor ≤ higher)
    (hfold : fold expression floor turns left parser = .ok tree after) :
    ∃ part between, fold expression higher turns left parser = .ok part between ∧
      Folds expression floor tree after part between := by
  induction turns generalizing left parser with
  | zero =>
      rw [fold] at hfold
      split at hfold
      · split at hfold <;> contradiction
      · next hpower =>
        have hstop : ¬ higher < parser.power := fun hlt => hpower (Nat.lt_of_le_of_lt hle hlt)
        cases hfold
        refine ⟨_, _, ?_, .refl⟩
        rw [fold, if_neg hstop]
  | succ turns ih =>
      by_cases hhigher : higher < parser.power
      · rw [fold, if_pos (Nat.lt_of_le_of_lt hle hhigher)] at hfold
        rw [fold, if_pos hhigher]
        cases hrule : parser.rule?.bind Rule.infixRule with
        | none =>
            rw [hrule] at hfold
            contradiction
        | some rule =>
            rw [hrule] at hfold
            cases hjoined : joined expression left rule.rightPower parser with
            | error failure next =>
                simp only [hjoined] at hfold
                contradiction
            | ok joined next =>
                simp only [hjoined] at hfold ⊢
                exact ih hfold
      · refine ⟨left, parser, ?_, (folds_of_fold hfold).1⟩
        rw [fold, if_neg hhigher]

end Folds

section Spine

variable {grammar : Grammar} {turns room floor : Nat} {left tree : Expr} {parser after : Parser}

theorem joined_eq_ok {power : Nat} {expression : Nat → Parse Expr}
    (hjoined : joined expression left power parser = .ok tree after) :
    ∃ operator next right, shift parser = .ok operator next ∧
      expression power next = .ok right after ∧ tree = .binary operator.lexeme left right := by
  simp only [joined, bind, EStateM.bind] at hjoined
  split at hjoined
  · next operator next hshift =>
    split at hjoined
    · next right last hright =>
      cases hjoined
      exact ⟨operator, next, right, hshift, hright, rfl⟩
    · contradiction
  · contradiction

theorem Folds.power_eq (hfolds : Folds (expressionWithin turns room) floor tree after left parser)
    (hpending : parser.pending = []) : after.power = parser.power := by
  induction hfolds with
  | refl => rfl
  | @turn left joined parser next rule hpower hrule hjoined hrest ih =>
      obtain ⟨operator, inner, right, hshift, hright, -⟩ := joined_eq_ok hjoined
      rw [shift, hpending] at hshift
      cases hshift
      have hleaves := leads_atRest parser.rule? turns room rule.rightPower parser ⟨hpending, rfl⟩
      rw [hright] at hleaves
      rw [ih hleaves.1, power, power, hleaves.2]

/-- Turns that come to an end pass the operators of the nodes that they put on top of the tree. -/
theorem Folds.exists_leftPart
    (hfolds : Folds (expressionWithin turns room) floor tree after left parser)
    (hstop : after.power ≤ floor) (hparser : parser.LooksUp grammar) :
    ∃ rest, parser.Takes rest after ∧ Expr.LeftPart
      (fun operator => ∃ token ∈ rest, token.lexeme = operator ∧ floor < grammar.powerOf token)
      left tree := by
  induction hfolds with
  | refl => exact ⟨[], .refl after, .refl⟩
  | @turn left joined parser next rule hpower hrule hjoined hrest ih =>
      -- without a pending item the operator would be folded in for ever
      have hpending : parser.pending ≠ [] := by
        intro hnil
        have hpower' := (Folds.turn hpower hrule hjoined hrest).power_eq hnil
        omega
      obtain ⟨operator, inner, right, hshift, hright, rfl⟩ := joined_eq_ok hjoined
      obtain ⟨rfl, ⟨hnil, -⟩ | hfirst⟩ := takes_of_shift hshift
      · exact absurd hnil hpending
      obtain ⟨hgrammar, hrule'⟩ := hparser
      have hbetween := leads_shift_looksUp parser hgrammar
      rw [hshift] at hbetween
      have hnext := looksUp_expressionWithin turns room rule.rightPower inner hbetween
      rw [hright] at hnext
      obtain ⟨operand, hoperand⟩ := exists_takes hright
      obtain ⟨rest, hrest, hpart⟩ := ih hnext
      refine ⟨_, (hfirst.trans hoperand).trans hrest, ?_⟩
      have hbinds : floor < grammar.powerOf parser.current := by
        have hknows : parser.rule? = grammar.ruleOf? parser.current := by
          rw [← hgrammar]
          exact hrule'.resolve_left hpending
        rw [power, hknows] at hpower
        exact hpower
      apply Expr.LeftPart.of_left
      · apply hpart.mono
        rintro operator ⟨token, htoken, hlexeme⟩
        exact ⟨token, by simp [htoken], hlexeme⟩
      · exact ⟨parser.current, by simp, rfl, hbinds⟩

end Spine

/-! ## Readings -/

section Reading

variable {parser after : Parser} {floor : Nat} {tree : Expr}

/-- A reading comes to a tree by a prefix form and turns of folding, on a level of their own. -/
theorem expressionWithin_eq_ok_iff {turns room : Nat} :
    expressionWithin turns (room + 1) floor parser = .ok tree after ↔
      parser.depth < parser.limit ∧ ∃ rule left first last,
        parser.rule?.bind Rule.prefixRule = some rule ∧
        prefixed (expressionWithin turns room) rule.form rule.power
          { parser with depth := parser.depth + 1 } = .ok left first ∧
        fold (expressionWithin turns room) floor turns left first = .ok tree last ∧
        last.closeLevel = after := by
  rw [expressionWithin, nested, openLevel]
  by_cases hdepth : parser.depth < parser.limit
  · rw [if_pos hdepth]
    simp only [chain]
    cases hrule : parser.rule?.bind Rule.prefixRule with
    | none => simp [unexpected, refuse]
    | some rule =>
        simp only [bind, EStateM.bind]
        cases hprefixed : prefixed (expressionWithin turns room) rule.form rule.power
            { parser with depth := parser.depth + 1 } with
        | error failure first => simp [hprefixed]
        | ok left first =>
            cases hfold : fold (expressionWithin turns room) floor turns left first with
            | error failure last => simp [hprefixed, hfold]
            | ok tree last => simp [hdepth, hprefixed, hfold]
  · simp [hdepth, tooDeep, refuse]

/-- A reading stops in front of a token that binds no more strongly than its floor.  Above a higher
floor a reading from the same place comes to a tree as well.  It passes a first part of the tokens,
and its tree is a left part of the other one, where every operator in between binds more strongly
than the lower floor. -/
theorem expression_refloor (hread : expression floor parser = .ok tree after) :
    after.power ≤ floor ∧ ∀ higher, floor ≤ higher → ∃ part between taken rest,
      expression higher parser = .ok part between ∧
        parser.Takes taken between ∧ parser.Takes (taken ++ rest) after ∧
        Expr.LeftPart (fun operator => ∃ token ∈ rest,
          token.lexeme = operator ∧ floor < parser.grammar.powerOf token) part tree := by
  simp only [expression] at hread ⊢
  cases hroom : parser.limit - parser.depth with
  | zero =>
      rw [hroom] at hread
      contradiction
  | succ room =>
      rw [hroom] at hread
      obtain ⟨hdepth, rule, left, first, last, hrule, hprefixed, hfold, rfl⟩ :=
        expressionWithin_eq_ok_iff.mp hread
      have hstop := (folds_of_fold hfold).2
      refine ⟨hstop, ?_⟩
      intro higher hle
      obtain ⟨part, between, hpart, hfolds⟩ := fold_refloor hle hfold
      have hhigher := expressionWithin_eq_ok_iff.mpr
        ⟨hdepth, rule, left, first, between, hrule, hprefixed, hpart, rfl⟩
      obtain ⟨taken, htaken⟩ := exists_takes hhigher
      obtain ⟨rest, hrest, hleft⟩ := hfolds.exists_leftPart hstop (looksUp_of_fold hprefixed hpart)
      exact ⟨part, between.closeLevel, taken, rest, hhigher, htaken, htaken.trans hrest, hleft⟩

/-- Above the power of `+` only the product on its left is read. -/
theorem expression_refloor_product :
    let parser : Parser :=
      { grammar := .arithmetic
        current := ⟨.number, "1", ⟨0, 1, "shell"⟩⟩
        pending := [.ok ⟨.operator, "*", ⟨1, 2, "shell"⟩⟩, .ok ⟨.number, "2", ⟨2, 3, "shell"⟩⟩,
          .ok ⟨.operator, "+", ⟨3, 4, "shell"⟩⟩, .ok ⟨.number, "3", ⟨4, 5, "shell"⟩⟩,
          .ok (.closing 5 "shell")]
        depth := 0
        limit := standardLimit }
    let after := parser.moveTo ⟨.closing 5 "shell", []⟩
    let product := Expr.binary "*" (.literal "1") (.literal "2")
    let tree := Expr.binary "+" product (.literal "3")
    expression 0 parser = .ok tree after ∧ after.power ≤ 0 ∧
      ∃ part between taken rest, expression Grammar.additivePower parser = .ok part between ∧
        part = product ∧ parser.Takes taken between ∧ parser.Takes (taken ++ rest) after ∧
        Expr.LeftPart (fun operator => ∃ token ∈ rest,
          token.lexeme = operator ∧ 0 < parser.grammar.powerOf token) part tree := by
  intro parser after product tree
  have hread : expression 0 parser = .ok tree after := rfl
  obtain ⟨hstop, hhigher⟩ := expression_refloor hread
  obtain ⟨part, between, taken, rest, hpart, htaken, hrest, hleft⟩ :=
    hhigher Grammar.additivePower (Nat.zero_le _)
  have hproduct : expression Grammar.additivePower parser = .ok product _ := rfl
  have heq : part = product := (EStateM.Result.ok.inj (hpart.symm.trans hproduct)).1
  exact ⟨hread, hstop, part, between, taken, rest, hpart, heq, htaken, hrest, hleft⟩

end Reading

end Parser

end Precedence
