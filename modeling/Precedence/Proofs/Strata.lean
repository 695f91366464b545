import Precedence.Proofs.Phrase

/-!
# The strata of arithmetic

The usual way to write the precedence of arithmetic down is a grammar with a nonterminal for every
tier of operators.  The parser knows no nonterminals and goes by binding powers.  Both describe the
same trees: a phrase is derived from a nonterminal exactly if it fits above that nonterminal's
floor.
-/

namespace Precedence

/-- The token is one of the operators. -/
def Token.IsOneOf (token : Token) (operators : List String) : Prop :=
  token.kind = .operator ∧ token.lexeme ∈ operators

instance (token : Token) (operators : List String) : Decidable (token.IsOneOf operators) :=
  inferInstanceAs (Decidable (_ ∧ _))

theorem Parser.closesGroup_iff {token : Token} :
    closesGroup token = true ↔ token.IsOneOf [")"] := by
  simp [closesGroup, Token.IsOneOf]

/-! ## The rules of arithmetic -/

namespace Grammar

theorem rule?_mem {grammar : Grammar} {symbol : Symbol} {rule : Rule}
    (hrule : grammar.rule? symbol = some rule) : rule ∈ grammar.rules ∧ rule.symbol = symbol := by
  have hsymbol := List.find?_some hrule
  exact ⟨List.mem_of_find?_eq_some hrule, of_decide_eq_true hsymbol⟩

theorem arithmetic_finishBare : arithmetic.FinishBare := by
  intro rule hrule
  have hrule' : arithmetic.rule? .finish = some ⟨.finish, loosestPower, none, none⟩ := by decide
  rw [hrule', Option.mem_some_iff] at hrule
  rw [← hrule]
  exact ⟨rfl, rfl⟩

theorem arithmetic_finish_power : ∀ rule ∈ arithmetic.rule? .finish, rule.power = 0 := by
  decide

end Grammar

/-! ## What the rules make of a token -/

theorem Token.symbol?_mem_atoms {token : Token} {symbol : Symbol}
    (hsymbol : token.symbol? = some symbol) (hmem : symbol ∈ [.constant, .name]) :
    token.kind = .number ∨ token.kind = .string ∨ token.kind = .name := by
  rw [Token.symbol?] at hsymbol
  cases hkind : token.kind <;> rw [hkind] at hsymbol <;> cases hsymbol <;> simp at hmem ⊢

theorem Token.isOneOf_of_symbol? {token : Token} {symbol : Symbol} {operators : List String}
    (hsymbol : token.symbol? = some symbol) (hmem : symbol ∈ operators.map .operator) :
    token.IsOneOf operators := by
  obtain ⟨operator, hoperator, rfl⟩ := List.mem_map.mp hmem
  rw [Token.symbol?] at hsymbol
  cases hkind : token.kind <;> simp only [hkind] at hsymbol <;> cases hsymbol
  exact ⟨hkind, hoperator⟩

/-- What a grammar says of all the operators it says of a token that is one of them. -/
theorem Token.IsOneOf.ruleOf? {token : Token} {operators : List String} {grammar : Grammar}
    {P : Option Rule → Prop} (hone : token.IsOneOf operators)
    (hall : ∀ symbol ∈ operators, P (grammar.rule? (.operator symbol))) :
    P (grammar.ruleOf? token) := by
  rw [Grammar.ruleOf?_operator hone.1]
  exact hall token.lexeme hone.2

namespace Grammar

variable {token : Token}

theorem arithmetic_ruleOf?_eq_some {rule : Rule} (hrule : arithmetic.ruleOf? token = some rule) :
    rule ∈ arithmetic.rules ∧ token.symbol? = some rule.symbol := by
  obtain ⟨symbol, hsymbol, hrule⟩ := Option.bind_eq_some_iff.mp hrule
  obtain ⟨hmem, hrule⟩ := rule?_mem hrule
  rw [hrule]
  exact ⟨hmem, hsymbol⟩

/-- The three ways in which an arithmetic expression begins. -/
theorem arithmetic_prefixOf?_iff {rule : PrefixRule} : arithmetic.prefixOf? token = some rule ↔
    (token.kind = .number ∨ token.kind = .string ∨ token.kind = .name) ∧ rule = ⟨.atom, 0⟩ ∨
      token.IsOneOf ["+", "-"] ∧ rule = ⟨.sign, signPower⟩ ∨
      token.IsOneOf ["("] ∧ rule = ⟨.group, loosestPower⟩ := by
  constructor
  · intro hbegins
    have hrules : ∀ whole ∈ arithmetic.rules, ∀ rule ∈ whole.prefixRule,
        whole.symbol ∈ [.constant, .name] ∧ rule = ⟨.atom, 0⟩ ∨
          whole.symbol ∈ ["+", "-"].map .operator ∧ rule = ⟨.sign, signPower⟩ ∨
          whole.symbol ∈ ["("].map .operator ∧ rule = ⟨.group, loosestPower⟩ := by decide
    obtain ⟨whole, hwhole, hrule⟩ := Option.bind_eq_some_iff.mp hbegins
    obtain ⟨hmem, hsymbol⟩ := arithmetic_ruleOf?_eq_some hwhole
    have hone {operators : List String} (hmem : whole.symbol ∈ operators.map .operator) :
        token.IsOneOf operators := Token.isOneOf_of_symbol? hsymbol hmem
    exact (hrules whole hmem rule hrule).imp (And.imp_left (Token.symbol?_mem_atoms hsymbol))
      (Or.imp (And.imp_left hone) (And.imp_left hone))
  · rintro (⟨hkind, rfl⟩ | ⟨hsign, rfl⟩ | ⟨hopening, rfl⟩)
    · rcases ruleOf?_atom hkind with hrule | hrule <;> rw [prefixOf?, hrule] <;> decide
    · exact hsign.ruleOf? (P := fun rule => rule.bind Rule.prefixRule = _) (by decide)
    · exact hopening.ruleOf? (P := fun rule => rule.bind Rule.prefixRule = _) (by decide)

/-- The three tiers of arithmetic operators. -/
theorem arithmetic_infixOf?_iff {power rightPower : Nat} :
    arithmetic.infixOf? token = some ⟨rightPower⟩ ∧ arithmetic.powerOf token = power ↔
      token.IsOneOf ["+", "-"] ∧ power = additivePower ∧ rightPower = additivePower ∨
      token.IsOneOf ["*", "/"] ∧ power = multiplicativePower ∧
        rightPower = multiplicativePower ∨
      token.IsOneOf ["^", "%"] ∧ power = exponentPower ∧ rightPower = exponentPower - 1 := by
  constructor
  · rintro ⟨hjoins, hpower⟩
    have hrules : ∀ whole ∈ arithmetic.rules, ∀ rule ∈ whole.infixRule,
        whole.symbol ∈ ["+", "-"].map .operator ∧ whole.power = additivePower ∧
          rule.rightPower = additivePower ∨
        whole.symbol ∈ ["*", "/"].map .operator ∧ whole.power = multiplicativePower ∧
          rule.rightPower = multiplicativePower ∨
        whole.symbol ∈ ["^", "%"].map .operator ∧ whole.power = exponentPower ∧
          rule.rightPower = exponentPower - 1 := by decide
    obtain ⟨whole, hwhole, hrule⟩ := Option.bind_eq_some_iff.mp hjoins
    obtain ⟨hmem, hsymbol⟩ := arithmetic_ruleOf?_eq_some hwhole
    rw [powerOf, hwhole] at hpower
    have hone {operators : List String} (hmem : whole.symbol ∈ operators.map .operator) :
        token.IsOneOf operators := Token.isOneOf_of_symbol? hsymbol hmem
    rw [← hpower]
    exact (hrules whole hmem ⟨rightPower⟩ hrule).imp (And.imp_left hone)
      (Or.imp (And.imp_left hone) (And.imp_left hone))
  · rintro (⟨hone, rfl, rfl⟩ | ⟨hone, rfl, rfl⟩ | ⟨hone, rfl, rfl⟩) <;>
      exact hone.ruleOf? (P := fun rule => rule.bind Rule.infixRule = _ ∧
        (rule.map Rule.power).getD 0 = _) (by decide)

theorem arithmetic_powers {rule : InfixRule} (hrule : arithmetic.infixOf? token = some rule) :
    arithmetic.powerOf token = 10 ∧ rule.rightPower = 10 ∨
      arithmetic.powerOf token = 20 ∧ rule.rightPower = 20 ∨
      arithmetic.powerOf token = 30 ∧ rule.rightPower = 29 :=
  (arithmetic_infixOf?_iff.mp ⟨hrule, rfl⟩).imp And.right (Or.imp And.right And.right)

theorem arithmetic_closing (hclosing : token.IsOneOf [")"]) :
    arithmetic.checkOperator token = .ok () ∧ arithmetic.powerOf token = loosestPower := by
  have hrule : arithmetic.ruleOf? token = some ⟨.operator ")", loosestPower, none, none⟩ :=
    hclosing.ruleOf? (P := fun rule => rule = _) (by decide)
  refine ⟨checkOperator_eq_ok hrule, ?_⟩
  rw [powerOf, hrule]
  rfl

end Grammar

/-! ## Derivations -/

/-- The nonterminals of arithmetic expressions. -/
inductive Stratum where
  | expression
  | term
  | power
  | unary
  | atom

/-- The tokens are derived from the nonterminal and stand for the tree.  The last argument is the
number of levels that the derivation opens: the left operand of an operator shares the level of the
whole, and every other operand has one of its own. -/
inductive Derives : Stratum → List Token → Expr → Nat → Prop
  | sum {left right leftTree rightTree leftHeight rightHeight operator}
      (hleft : Derives .expression left leftTree leftHeight)
      (hoperator : operator.IsOneOf ["+", "-"])
      (hright : Derives .term right rightTree rightHeight) :
      Derives .expression (left ++ operator :: right)
        (.binary operator.lexeme leftTree rightTree) (max leftHeight (1 + rightHeight))
  | term {tokens tree height} (hterm : Derives .term tokens tree height) :
      Derives .expression tokens tree height
  | product {left right leftTree rightTree leftHeight rightHeight operator}
      (hleft : Derives .term left leftTree leftHeight)
      (hoperator : operator.IsOneOf ["*", "/"])
      (hright : Derives .power right rightTree rightHeight) :
      Derives .term (left ++ operator :: right)
        (.binary operator.lexeme leftTree rightTree) (max leftHeight (1 + rightHeight))
  | factor {tokens tree height} (hpower : Derives .power tokens tree height) :
      Derives .term tokens tree height
  | power {left right leftTree rightTree leftHeight rightHeight operator}
      (hleft : Derives .unary left leftTree leftHeight)
      (hoperator : operator.IsOneOf ["^", "%"])
      (hright : Derives .power right rightTree rightHeight) :
      Derives .power (left ++ operator :: right)
        (.binary operator.lexeme leftTree rightTree) (max leftHeight (1 + rightHeight))
  | base {tokens tree height} (hunary : Derives .unary tokens tree height) :
      Derives .power tokens tree height
  | sign {operand tree height operator} (hoperator : operator.IsOneOf ["+", "-"])
      (hoperand : Derives .unary operand tree height) :
      Derives .unary (operator :: operand) (.unary operator.lexeme tree) (1 + height)
  | atom {tokens tree height} (hatom : Derives .atom tokens tree height) :
      Derives .unary tokens tree height
  | literal {token} (hkind : token.kind = .number ∨ token.kind = .string) :
      Derives .atom [token] (.literal token.lexeme) 1
  | identifier {token} (hkind : token.kind = .name) :
      Derives .atom [token] (.identifier token.lexeme) 1
  | group {inner tree height opening closing} (hopening : opening.IsOneOf ["("])
      (hinner : Derives .expression inner tree height) (hclosing : closing.IsOneOf [")"]) :
      Derives .atom (opening :: (inner ++ [closing])) tree (1 + height)

/-- The floor that the phrases of a nonterminal are read above. -/
def Stratum.floor : Stratum → Nat
  | .expression => Grammar.loosestPower
  | .term => Grammar.additivePower
  | .power => Grammar.multiplicativePower
  | .unary | .atom => Grammar.exponentPower

/-- The power of the strongest operator that can have the nonterminal's phrases on its left. -/
def Stratum.follow : Stratum → Nat
  | .expression => Grammar.additivePower
  | .term | .power => Grammar.multiplicativePower
  | .unary | .atom => Grammar.exponentPower

namespace Derives

variable {stratum : Stratum} {tokens : List Token} {tree : Expr} {height : Nat}

theorem of_expression (hexpression : Derives .expression tokens tree height)
    (hfloor : stratum.floor < Grammar.additivePower) : Derives stratum tokens tree height := by
  cases stratum with
  | expression => exact hexpression
  | term | power | unary | atom => exact absurd hfloor (by decide)

theorem of_term (hterm : Derives .term tokens tree height)
    (hfloor : stratum.floor < Grammar.multiplicativePower) :
    Derives stratum tokens tree height := by
  cases stratum with
  | expression => exact .term hterm
  | term => exact hterm
  | power | unary | atom => exact absurd hfloor (by decide)

theorem of_power (hpower : Derives .power tokens tree height)
    (hfloor : stratum.floor < Grammar.exponentPower) : Derives stratum tokens tree height := by
  cases stratum with
  | expression => exact .term (.factor hpower)
  | term => exact .factor hpower
  | power => exact hpower
  | unary | atom => exact absurd hfloor (by decide)

theorem of_unary (hunary : Derives .unary tokens tree height) (hstratum : stratum ≠ .atom) :
    Derives stratum tokens tree height := by
  cases stratum with
  | expression | term | power => exact of_power (.base hunary) (by decide)
  | unary => exact hunary
  | atom => contradiction

end Derives

namespace Phrase

open Grammar

theorem Fits.raise_arithmetic {phrase : Phrase} {floor higher power : Nat}
    (hfits : phrase.Fits arithmetic floor) (hends : phrase.EndsBefore arithmetic power)
    (hkeep : ∀ powers ∈ [(10, 10), (20, 20), (30, 29)], power ≤ powers.2 →
      higher < powers.1 ∧ power ≤ powers.1) : phrase.Fits arithmetic higher := by
  apply hfits.raise hends
  intro token rule hrule
  apply hkeep (arithmetic.powerOf token, rule.rightPower)
  have hpowers := arithmetic_powers hrule
  simpa only [List.mem_cons, Prod.mk.injEq, List.not_mem_nil, or_false] using hpowers

/-- A phrase that fits above the floor of a nonterminal is derived from it. -/
theorem Fits.derives {phrase : Phrase} {floor : Nat} (hfits : phrase.Fits arithmetic floor)
    {stratum : Stratum} (hstratum : stratum ≠ .atom) (hfloor : stratum.floor ≤ floor) :
    Derives stratum phrase.tokens phrase.tree phrase.height := by
  induction phrase generalizing floor stratum with
  | atom token =>
      cases hfits with
      | atom hrule =>
          apply Derives.of_unary _ hstratum
          apply Derives.atom
          rw [tree, Token.leaf]
          rcases arithmetic_prefixOf?_iff.mp hrule with ⟨hkind, -⟩ | ⟨-, hrule⟩ | ⟨-, hrule⟩
          · split
            · next hname => exact .identifier hname
            · next hname => exact .literal (by simpa [hname] using hkind)
          · cases hrule
          · cases hrule
  | sign operator operand ih =>
      cases hfits with
      | sign hrule hoperand =>
          apply Derives.of_unary _ hstratum
          rcases arithmetic_prefixOf?_iff.mp hrule with ⟨-, hrule⟩ | ⟨hsign, hrule⟩ | ⟨-, hrule⟩
          · cases hrule
          · cases hrule
            have hunary : Derives .unary _ _ _ := ih hoperand Stratum.noConfusion (by decide)
            exact .sign hsign hunary
          · cases hrule
  | group opening inner closing ih =>
      cases hfits with
      | group hrule hinner hclosing hcheck hpower =>
          apply Derives.of_unary _ hstratum
          apply Derives.atom
          rcases arithmetic_prefixOf?_iff.mp hrule with ⟨-, hrule⟩ | ⟨-, hrule⟩ | ⟨hopening, -⟩
          · cases hrule
          · cases hrule
          · have hexpression : Derives .expression _ _ _ :=
              ih hinner Stratum.noConfusion (Nat.zero_le _)
            exact .group hopening hexpression (Parser.closesGroup_iff.mp hclosing)
  | binary left operator right ihleft ihright =>
      cases hfits with
      | binary hrule hpower hleft hends hright =>
          rcases arithmetic_infixOf?_iff.mp ⟨hrule, rfl⟩ with
            ⟨hone, hpower', rfl⟩ | ⟨hone, hpower', rfl⟩ | ⟨hone, hpower', rfl⟩
          · rw [hpower'] at hpower
            have hexpression : Derives .expression _ _ _ :=
              ihleft hleft Stratum.noConfusion (Nat.zero_le _)
            have hterm : Derives .term _ _ _ := ihright hright Stratum.noConfusion (Nat.le_refl _)
            exact .of_expression (.sum hexpression hone hterm) (Nat.lt_of_le_of_lt hfloor hpower)
          · rw [hpower'] at hpower hends
            have hterm : Derives .term _ _ _ :=
              ihleft (hleft.raise_arithmetic hends (by decide)) Stratum.noConfusion (Nat.le_refl _)
            have hfactor : Derives .power _ _ _ :=
              ihright hright Stratum.noConfusion (Nat.le_refl _)
            exact .of_term (.product hterm hone hfactor) (Nat.lt_of_le_of_lt hfloor hpower)
          · rw [hpower'] at hpower hends
            have hunary : Derives .unary _ _ _ :=
              ihleft (hleft.raise_arithmetic hends (by decide)) Stratum.noConfusion (Nat.le_refl _)
            have hfactor : Derives .power _ _ _ := ihright hright Stratum.noConfusion (by decide)
            exact .of_power (.power hunary hone hfactor) (Nat.lt_of_le_of_lt hfloor hpower)

end Phrase

namespace Phrase

open Grammar

variable {phrase : Phrase} {stratum : Stratum}

theorem Fits.endsBefore_follow (hfits : phrase.Fits arithmetic stratum.floor) :
    phrase.EndsBefore arithmetic stratum.follow := by
  apply hfits.endsBefore
  · intro token rule hrule hform
    rcases arithmetic_prefixOf?_iff.mp hrule with ⟨-, rfl⟩ | ⟨-, rfl⟩ | ⟨-, rfl⟩
    · contradiction
    · cases stratum <;> decide
    · contradiction
  · intro token rule hrule
    have hpowers := arithmetic_powers hrule
    cases stratum <;> simp only [Stratum.floor, Stratum.follow, loosestPower, additivePower,
      multiplicativePower, exponentPower] <;> omega

theorem Fits.join {left right : Phrase} {operator : Token} {power rightPower : Nat}
    {whole : Stratum} (hleft : left.Fits arithmetic stratum.floor)
    (hrule : arithmetic.infixOf? operator = some ⟨rightPower⟩ ∧
      arithmetic.powerOf operator = power)
    (hright : right.Fits arithmetic rightPower) (hfollow : stratum.follow = power)
    (hfloor : whole.floor ≤ stratum.floor) (hpower : whole.floor < power) :
    (Phrase.binary left operator right).Fits arithmetic whole.floor := by
  have hends := hleft.endsBefore_follow
  rw [hfollow, ← hrule.2] at hends
  rw [← hrule.2] at hpower
  exact .binary hrule.1 hpower (hleft.mono hfloor) hends hright

theorem Fits.refloor_arithmetic {floor higher : Nat} (hfits : phrase.Fits arithmetic floor)
    (hgap : ∀ power ∈ [10, 20, 30], floor < power → higher < power) :
    phrase.Fits arithmetic higher := by
  apply hfits.refloor
  intro token rule hrule hpower
  apply hgap _ _ hpower
  have hpowers := arithmetic_powers hrule
  simp only [List.mem_cons, List.not_mem_nil, or_false]
  omega

end Phrase

namespace Derives

open Grammar

/-- What is derived from a nonterminal is a phrase that fits above the nonterminal's floor. -/
theorem exists_phrase {stratum : Stratum} {tokens : List Token} {tree : Expr} {height : Nat}
    (hderives : Derives stratum tokens tree height) :
    ∃ phrase : Phrase, phrase.Fits arithmetic stratum.floor ∧ phrase.tokens = tokens ∧
      phrase.tree = tree ∧ phrase.height = height := by
  induction hderives with
  | sum hleft hoperator hright ihleft ihright =>
      obtain ⟨first, hfirst, rfl, rfl, rfl⟩ := ihleft
      obtain ⟨second, hsecond, rfl, rfl, rfl⟩ := ihright
      have hrule := arithmetic_infixOf?_iff.mpr (.inl ⟨hoperator, rfl, rfl⟩)
      refine ⟨.binary first _ second, ?_, rfl, rfl, rfl⟩
      exact hfirst.join hrule hsecond rfl (by decide) (by decide)
  | product hleft hoperator hright ihleft ihright =>
      obtain ⟨first, hfirst, rfl, rfl, rfl⟩ := ihleft
      obtain ⟨second, hsecond, rfl, rfl, rfl⟩ := ihright
      have hrule := arithmetic_infixOf?_iff.mpr (.inr (.inl ⟨hoperator, rfl, rfl⟩))
      refine ⟨.binary first _ second, ?_, rfl, rfl, rfl⟩
      exact hfirst.join hrule hsecond rfl (by decide) (by decide)
  | power hleft hoperator hright ihleft ihright =>
      obtain ⟨first, hfirst, rfl, rfl, rfl⟩ := ihleft
      obtain ⟨second, hsecond, rfl, rfl, rfl⟩ := ihright
      have hrule := arithmetic_infixOf?_iff.mpr (.inr (.inr ⟨hoperator, rfl, rfl⟩))
      refine ⟨.binary first _ second, ?_, rfl, rfl, rfl⟩
      exact hfirst.join hrule (hsecond.refloor_arithmetic (by decide)) rfl (by decide) (by decide)
  | term hinner ih | factor hinner ih | base hinner ih =>
      obtain ⟨phrase, hphrase, hparts⟩ := ih
      exact ⟨phrase, hphrase.mono (by decide), hparts⟩
  | sign hoperator hoperand ih =>
      obtain ⟨operand, hfits, rfl, rfl, rfl⟩ := ih
      have hrule := arithmetic_prefixOf?_iff.mpr (.inr (.inl ⟨hoperator, rfl⟩))
      refine ⟨.sign _ operand, ?_, rfl, rfl, rfl⟩
      exact .sign hrule (hfits.refloor_arithmetic (by decide))
  | atom hatom ih => exact ih
  | @literal token hkind =>
      have hrule := arithmetic_prefixOf?_iff.mpr (.inl ⟨by tauto, rfl⟩)
      refine ⟨_, .atom hrule, rfl, ?_, rfl⟩
      rcases hkind with hkind | hkind <;> simp [Phrase.tree, Token.leaf, hkind]
  | @identifier token hkind =>
      have hrule := arithmetic_prefixOf?_iff.mpr (.inl ⟨.inr (.inr hkind), rfl⟩)
      refine ⟨_, .atom hrule, rfl, ?_, rfl⟩
      simp [Phrase.tree, Token.leaf, hkind]
  | group hopening hinner hclosing ih =>
      obtain ⟨inner, hfits, rfl, rfl, rfl⟩ := ih
      have hrule := arithmetic_prefixOf?_iff.mpr (.inr (.inr ⟨hopening, rfl⟩))
      have hcloses := Parser.closesGroup_iff.mpr hclosing
      obtain ⟨hcheck, hpower⟩ := arithmetic_closing hclosing
      exact ⟨_, .group hrule hfits hcloses hcheck (Nat.le_of_eq hpower), rfl, rfl, rfl⟩

end Derives

/-- The nonterminals but the last derive the phrases that fit above their floors. -/
theorem derives_iff_exists_phrase {stratum : Stratum} (hstratum : stratum ≠ .atom)
    {tokens : List Token} {tree : Expr} {height : Nat} :
    Derives stratum tokens tree height ↔
      ∃ phrase : Phrase, phrase.Fits Grammar.arithmetic stratum.floor ∧ phrase.tokens = tokens ∧
        phrase.tree = tree ∧ phrase.height = height := by
  constructor
  · exact Derives.exists_phrase
  · rintro ⟨phrase, hfits, rfl, rfl, rfl⟩
    exact hfits.derives hstratum (Nat.le_refl _)

/-- The parser accepts exactly the sources whose tokens derive from the grammar with at most as many
open levels as the limit allows, and its tree is the one that is derived. -/
theorem parse_eq_ok_iff_derives (source : String) (file : Option String) (tree : Expr) :
    parse source file = .ok tree ↔
      ∃ tokens height, tokenize source file = .ok (tokenRow source file tokens) ∧
        Derives .expression tokens tree height ∧ height ≤ Parser.standardLimit := by
  constructor
  · intro hparse
    obtain ⟨phrase, htokenize, hfits, rfl, hheight⟩ :=
      exists_phrase_of_parseWith Grammar.arithmetic_finishBare hparse
    have hderives : Derives .expression _ _ _ :=
      (derives_iff_exists_phrase Stratum.noConfusion).mpr ⟨phrase, hfits, rfl, rfl, rfl⟩
    exact ⟨phrase.tokens, phrase.height, htokenize, hderives, hheight⟩
  · rintro ⟨tokens, height, htokenize, hderives, hheight⟩
    obtain ⟨phrase, hfits, rfl, rfl, rfl⟩ :=
      (derives_iff_exists_phrase Stratum.noConfusion).mp hderives
    exact parseWith_of_phrase Grammar.arithmetic_finish_power htokenize hfits hheight

end Precedence
