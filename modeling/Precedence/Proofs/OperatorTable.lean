import Mathlib.Data.List.Induction
import Precedence.Proofs.Phrase

/-!
# Operator tables

A grammar may give its operators any powers and group each from either side.  A row of operands with
operators between them is then parsed into the one tree in which no operator takes an operand away
from another that binds it more strongly.
-/

namespace Precedence

/-! ## Grammars that are built step by step -/

/-- The right operand of the rule is read at the rule's own power or at the one below. -/
def Rule.Climbs (rule : Rule) : Prop :=
  ∀ infixRule ∈ rule.infixRule,
    infixRule.rightPower ≤ rule.power ∧ rule.power ≤ infixRule.rightPower + 1

namespace Grammar

/-- Grammars that the building steps lead to. -/
inductive Built : Grammar → Prop
  | empty : Built empty
  | introduce {grammar} (hbuilt : Built grammar) (symbol : Symbol) (power : Nat) :
      Built (grammar.introduce symbol power)
  | addPrefix {grammar} (hbuilt : Built grammar) (symbol : Symbol) (power : Nat)
      (form : PrefixForm) : Built (grammar.addPrefix symbol power form)
  | addInfix {grammar} (hbuilt : Built grammar) (symbol : Symbol) (power : Nat)
      (side : Associativity) : Built (grammar.addInfix symbol power side)
  | addAtom {grammar} (hbuilt : Built grammar) (symbol : Symbol) : Built (grammar.addAtom symbol)

theorem forall_introduce {P : Rule → Prop} {grammar : Grammar}
    (hall : ∀ rule ∈ grammar.rules, P rule) (symbol : Symbol) (power : Nat)
    (hnew : P ⟨symbol, power, none, none⟩) :
    ∀ rule ∈ (grammar.introduce symbol power).rules, P rule := by
  intro rule hmem
  rw [introduce] at hmem
  split at hmem
  · exact hall rule hmem
  · rcases List.mem_append.mp hmem with hmem | hmem
    · exact hall rule hmem
    · rw [List.mem_singleton.mp hmem]
      exact hnew

theorem forall_amend {P : Rule → Prop} {grammar : Grammar} (hall : ∀ rule ∈ grammar.rules, P rule)
    (symbol : Symbol) {change : Rule → Rule} (hchange : ∀ rule, P rule → P (change rule)) :
    ∀ rule ∈ (grammar.amend symbol change).rules, P rule := by
  intro rule hmem
  obtain ⟨old, hold, hrule⟩ := List.mem_map.mp hmem
  rw [← hrule]
  split
  · exact hchange old (hall old hold)
  · exact hall old hold

theorem Built.climbs {grammar : Grammar} (hbuilt : grammar.Built) :
    ∀ rule ∈ grammar.rules, rule.Climbs := by
  have hbare (symbol : Symbol) (power : Nat) : Rule.Climbs ⟨symbol, power, none, none⟩ := by
    intro infixRule hmem
    contradiction
  induction hbuilt with
  | empty =>
      intro rule hmem
      contradiction
  | introduce hbuilt symbol power ih => exact forall_introduce ih symbol power (hbare symbol power)
  | addPrefix hbuilt symbol power form ih =>
      apply forall_amend (forall_introduce ih symbol 0 (hbare symbol 0))
      intro rule hrule
      exact hrule
  | addInfix hbuilt symbol power side ih =>
      apply forall_amend (forall_introduce ih symbol power (hbare symbol power))
      intro rule hrule infixRule hmem
      rw [← Option.mem_some_iff.mp hmem]
      cases side with
      | left => exact ⟨Nat.le_refl _, Nat.le_succ _⟩
      | right => exact ⟨Nat.sub_le _ 1, Nat.le_add_of_sub_le (Nat.le_refl _)⟩
  | addAtom hbuilt symbol ih =>
      apply forall_amend (forall_introduce ih symbol 0 (hbare symbol 0))
      intro rule hrule
      exact hrule

/-- How strongly an operator binds to its left operand. -/
def leftPower (grammar : Grammar) (operator : String) : Nat :=
  ((grammar.rule? (.operator operator)).map Rule.power).getD 0

/-- The floor that the right operand of an operator is read above. -/
def rightPower (grammar : Grammar) (operator : String) : Nat :=
  (((grammar.rule? (.operator operator)).bind Rule.infixRule).map InfixRule.rightPower).getD 0

theorem powers_of_infixOf? {grammar : Grammar} {token : Token} {rule : InfixRule}
    (hkind : token.kind = .operator) (hrule : grammar.infixOf? token = some rule) :
    grammar.powerOf token = grammar.leftPower token.lexeme ∧
      rule.rightPower = grammar.rightPower token.lexeme := by
  rw [infixOf?, ruleOf?_operator hkind] at hrule
  constructor
  · rw [powerOf, ruleOf?_operator hkind, leftPower]
  · rw [rightPower, hrule, Option.map_some, Option.getD_some]

theorem Built.powers {grammar : Grammar} (hbuilt : grammar.Built) {token : Token}
    {rule : InfixRule} (hrule : grammar.infixOf? token = some rule) :
    rule.rightPower ≤ grammar.powerOf token ∧ grammar.powerOf token ≤ rule.rightPower + 1 := by
  obtain ⟨whole, hwhole, hjoins⟩ := Option.bind_eq_some_iff.mp hrule
  obtain ⟨symbol, hsymbol, hfound⟩ := Option.bind_eq_some_iff.mp hwhole
  have hclimbs := hbuilt.climbs whole (List.mem_of_find?_eq_some hfound) rule hjoins
  rwa [powerOf, hwhole]

end Grammar

/-! ## Trees that respect the powers -/

namespace Expr

/-- The leaves from left to right. -/
def leaves : Expr → List Expr
  | .literal text => [.literal text]
  | .identifier text => [.identifier text]
  | .unary _ operand => operand.leaves
  | .binary _ left right => left.leaves ++ right.leaves

/-- The operators from left to right. -/
def operators : Expr → List String
  | .literal _ | .identifier _ => []
  | .unary operator operand => operator :: operand.operators
  | .binary operator left right => left.operators ++ operator :: right.operators

/-- Binary nodes over leaves, where every operator binds its operands more strongly than the
operators inside of them bind what lies beyond. -/
inductive Grouped (grammar : Grammar) : Expr → Prop
  | literal {text : String} : Grouped grammar (.literal text)
  | identifier {text : String} : Grouped grammar (.identifier text)
  | binary {operator : String} {left right : Expr} (hleft : Grouped grammar left)
      (hright : Grouped grammar right)
      (hbefore : ∀ inner ∈ left.operators,
        grammar.leftPower operator ≤ grammar.rightPower inner)
      (hafter : ∀ inner ∈ right.operators,
        grammar.rightPower operator < grammar.leftPower inner) :
      Grouped grammar (.binary operator left right)

variable {grammar : Grammar} {tree other : Expr}

theorem Grouped.length_leaves (hgrouped : tree.Grouped grammar) :
    tree.leaves.length = tree.operators.length + 1 := by
  induction hgrouped with
  | literal | identifier => rfl
  | binary hleft hright hbefore hafter ihleft ihright =>
      rw [leaves, operators, List.length_append, List.length_append, List.length_cons, ihleft,
        ihright]
      omega

/-- The roots of two such trees over a row of operators stand at the same place.  Were one of them
inside the left operand of the other, its operator would bind both more and less strongly. -/
theorem Grouped.not_beyond {operator operator' : String} {left right left' right' : Expr}
    (hgrouped : (Expr.binary operator left right).Grouped grammar)
    (hother : (Expr.binary operator' left' right').Grouped grammar) {between : List String}
    (hleft : left'.operators = left.operators ++ operator :: between)
    (hright : right.operators = between ++ operator' :: right'.operators) : False := by
  cases hgrouped with
  | binary _ _ _ hafter =>
      cases hother with
      | binary _ _ hbefore' _ =>
          have hinside : operator ∈ left'.operators := by simp [hleft]
          have hinside' : operator' ∈ right.operators := by simp [hright]
          have hle := hbefore' operator hinside
          have hlt := hafter operator' hinside'
          exact absurd hle (Nat.not_le_of_lt hlt)

theorem Grouped.root_eq {operator operator' : String} {left right left' right' : Expr}
    (hgrouped : (Expr.binary operator left right).Grouped grammar)
    (hother : (Expr.binary operator' left' right').Grouped grammar)
    (hoperators : (Expr.binary operator left right).operators =
      (Expr.binary operator' left' right').operators) :
    left.operators = left'.operators ∧ operator = operator' ∧
      right.operators = right'.operators := by
  rw [operators, operators, List.append_eq_append_iff] at hoperators
  rcases hoperators with ⟨between, hleft, hright⟩ | ⟨between, hleft, hright⟩
  · cases between with
    | nil =>
        rw [List.append_nil] at hleft
        exact ⟨hleft.symm, (List.cons.inj hright).1, (List.cons.inj hright).2⟩
    | cons first between =>
        obtain ⟨hfirst, hrest⟩ := List.cons.inj hright
        rw [← hfirst] at hleft
        exact (hgrouped.not_beyond hother hleft hrest).elim
  · cases between with
    | nil =>
        rw [List.append_nil] at hleft
        exact ⟨hleft, (List.cons.inj hright).1.symm, (List.cons.inj hright).2.symm⟩
    | cons first between =>
        obtain ⟨hfirst, hrest⟩ := List.cons.inj hright
        rw [← hfirst] at hleft
        exact (hother.not_beyond hgrouped hleft hrest).elim

/-- There is only one such tree over a row of leaves and operators. -/
theorem Grouped.eq_of_yield (hgrouped : tree.Grouped grammar) (hother : other.Grouped grammar)
    (hleaves : tree.leaves = other.leaves) (hoperators : tree.operators = other.operators) :
    tree = other := by
  induction hgrouped generalizing other with
  | literal | identifier =>
      cases hother with
      | literal | identifier => exact List.singleton_inj.mp hleaves
      | binary => simp [operators] at hoperators
  | @binary operator left right hleft hright hbefore hafter ihleft ihright =>
      cases hother with
      | literal | identifier => simp [operators] at hoperators
      | @binary operator' left' right' hleft' hright' hbefore' hafter' =>
          have hwhole := Grouped.binary hleft hright hbefore hafter
          have hwhole' := Grouped.binary hleft' hright' hbefore' hafter'
          obtain ⟨hfirst, hroot, hsecond⟩ := hwhole.root_eq hwhole' hoperators
          have hlength : left.leaves.length = left'.leaves.length := by
            rw [hleft.length_leaves, hleft'.length_leaves, hfirst]
          obtain ⟨hleaves, hleaves'⟩ := List.append_inj hleaves hlength
          rw [hroot, ihleft hleft' hleaves hfirst, ihright hright' hleaves' hsecond]

end Expr

theorem Token.leaves_leaf (token : Token) : token.leaf.leaves = [token.leaf] := by
  rw [leaf]
  split <;> rfl

theorem Token.operators_leaf (token : Token) : token.leaf.operators = [] := by
  rw [leaf]
  split <;> rfl

/-! ## Phrases without signs and groups -/

namespace Phrase

variable {grammar : Grammar} {floor : Nat} {phrase : Phrase}

/-- The phrase is made of leaves and binary operators. -/
def Plain : Phrase → Prop
  | .atom _ => True
  | .sign _ _ => False
  | .group _ _ _ => False
  | .binary left operator right => left.Plain ∧ operator.kind = .operator ∧ right.Plain

/-- All operators of a plain phrase bind more strongly than the floor it is read above. -/
theorem Fits.lt_leftPower (hbuilt : grammar.Built) (hfits : phrase.Fits grammar floor)
    (hplain : phrase.Plain) : ∀ inner ∈ phrase.tree.operators, floor < grammar.leftPower inner := by
  induction hfits with
  | @atom floor power token hrule =>
      intro inner hinner
      rw [tree, Token.operators_leaf] at hinner
      contradiction
  | sign | group => exact hplain.elim
  | @binary floor rightPower left right operator hrule hpower hleft hends hright ihleft ihright =>
      intro inner hinner
      obtain ⟨hleftPower, hrightPower⟩ := Grammar.powers_of_infixOf? hplain.2.1 hrule
      have hpowers : rightPower ≤ grammar.powerOf operator ∧
          grammar.powerOf operator ≤ rightPower + 1 := hbuilt.powers hrule
      rw [tree, Expr.operators, List.mem_append, List.mem_cons] at hinner
      rcases hinner with hinner | rfl | hinner
      · exact ihleft hplain.1 inner hinner
      · rwa [← hleftPower]
      · have hlt := ihright hplain.2.2 inner hinner
        omega

/-- All operators of a plain phrase let it end where it ends. -/
theorem Fits.le_rightPower (hbuilt : grammar.Built) (hfits : phrase.Fits grammar floor)
    (hplain : phrase.Plain) {power : Nat} (hends : phrase.EndsBefore grammar power) :
    ∀ inner ∈ phrase.tree.operators, power ≤ grammar.rightPower inner := by
  induction hfits generalizing power with
  | @atom floor power token hrule =>
      intro inner hinner
      rw [tree, Token.operators_leaf] at hinner
      contradiction
  | sign | group => exact hplain.elim
  | @binary floor rightPower left right operator hrule hpower hleft hends' hright ihleft ihright =>
      intro inner hinner
      obtain ⟨hleftPower, hrightPower⟩ := Grammar.powers_of_infixOf? hplain.2.1 hrule
      have hpowers : rightPower ≤ grammar.powerOf operator ∧
          grammar.powerOf operator ≤ rightPower + 1 := hbuilt.powers hrule
      have hle : power ≤ rightPower := hends.1 ⟨rightPower⟩ hrule
      rw [tree, Expr.operators, List.mem_append, List.mem_cons] at hinner
      rcases hinner with hinner | rfl | hinner
      · have hle' := ihleft hplain.1 hends' inner hinner
        exact Nat.le_trans hle (Nat.le_trans hpowers.1 hle')
      · rwa [← hrightPower]
      · exact ihright hplain.2.2 hends.2 inner hinner

theorem Fits.grouped (hbuilt : grammar.Built) (hfits : phrase.Fits grammar floor)
    (hplain : phrase.Plain) : phrase.tree.Grouped grammar := by
  induction hfits with
  | @atom floor power token hrule =>
      rw [tree, Token.leaf]
      split
      · exact .identifier
      · exact .literal
  | sign | group => exact hplain.elim
  | @binary floor rightPower left right operator hrule hpower hleft hends hright ihleft ihright =>
      obtain ⟨hleftPower, hrightPower⟩ := Grammar.powers_of_infixOf? hplain.2.1 hrule
      apply Expr.Grouped.binary (ihleft hplain.1) (ihright hplain.2.2)
      · rw [← hleftPower]
        exact hleft.le_rightPower hbuilt hplain.1 hends
      · rw [← hrightPower]
        exact hright.lt_leftPower hbuilt hplain.2.2

theorem Fits.endsBefore_of_plain (hbuilt : grammar.Built) (hfits : phrase.Fits grammar floor)
    (hplain : phrase.Plain) {power : Nat} (hle : power ≤ floor) :
    phrase.EndsBefore grammar power := by
  induction hfits with
  | atom => trivial
  | sign | group => exact hplain.elim
  | @binary floor rightPower left right operator hrule hpower hleft hends hright ihleft ihright =>
      have hpowers : rightPower ≤ grammar.powerOf operator ∧
          grammar.powerOf operator ≤ rightPower + 1 := hbuilt.powers hrule
      have hright : power ≤ rightPower := by omega
      exact endsBefore_binary hrule hright (ihright hplain.2.2 hright)

/-! ### Reading a row from left to right -/

/-- Takes in one more operator and operand at the end. -/
def attach (grammar : Grammar) (operator operand : Token) : Phrase → Phrase
  | .binary left inner right =>
    if grammar.rightPower inner.lexeme < grammar.powerOf operator then
      .binary left inner (right.attach grammar operator operand)
    else .binary (.binary left inner right) operator (.atom operand)
  | phrase => .binary phrase operator (.atom operand)

variable {operator operand : Token}

theorem tokens_attach (grammar : Grammar) (operator operand : Token) (phrase : Phrase) :
    (phrase.attach grammar operator operand).tokens = phrase.tokens ++ [operator, operand] := by
  fun_induction attach grammar operator operand phrase with
  | case1 left inner right hlt ih => simp [tokens, ih]
  | case2 left inner right hle => simp [tokens]
  | case3 phrase hroot => simp [tokens]

theorem leaves_attach (grammar : Grammar) (operator operand : Token) (phrase : Phrase) :
    (phrase.attach grammar operator operand).tree.leaves =
      phrase.tree.leaves ++ [operand.leaf] := by
  fun_induction attach grammar operator operand phrase with
  | case1 left inner right hlt ih => simp [tree, Expr.leaves, ih]
  | case2 left inner right hle => simp [tree, Expr.leaves, Token.leaves_leaf]
  | case3 phrase hroot => simp [tree, Expr.leaves, Token.leaves_leaf]

theorem operators_attach (grammar : Grammar) (operator operand : Token) (phrase : Phrase) :
    (phrase.attach grammar operator operand).tree.operators =
      phrase.tree.operators ++ [operator.lexeme] := by
  fun_induction attach grammar operator operand phrase with
  | case1 left inner right hlt ih => simp [tree, Expr.operators, ih]
  | case2 left inner right hle => simp [tree, Expr.operators, Token.operators_leaf]
  | case3 phrase hroot => simp [tree, Expr.operators, Token.operators_leaf]

theorem height_attach (grammar : Grammar) (operator operand : Token) (phrase : Phrase) :
    (phrase.attach grammar operator operand).height ≤ phrase.height + 1 := by
  have hpositive := height_pos
  fun_induction attach grammar operator operand phrase with
  | case1 left inner right hlt ih =>
      rw [height, height]
      omega
  | case2 left inner right hle =>
      have hleft := left.height_pos
      simp only [height]
      omega
  | case3 phrase hroot =>
      have hphrase := phrase.height_pos
      simp only [height]
      omega

theorem Plain.attach (hplain : phrase.Plain) (hkind : operator.kind = .operator) :
    (phrase.attach grammar operator operand).Plain := by
  fun_induction Phrase.attach grammar operator operand phrase with
  | case1 left inner right hlt ih => exact ⟨hplain.1, hplain.2.1, ih hplain.2.2⟩
  | case2 left inner right hle => exact ⟨hplain, hkind, trivial⟩
  | case3 phrase hroot => exact ⟨hplain, hkind, trivial⟩

theorem Fits.attach (hbuilt : grammar.Built) (hfits : phrase.Fits grammar floor)
    (hplain : phrase.Plain) {power : Nat} {rule : InfixRule}
    (hoperand : grammar.prefixOf? operand = some ⟨.atom, power⟩)
    (hoperator : grammar.infixOf? operator = some rule)
    (hfloor : floor < grammar.powerOf operator) :
    (phrase.attach grammar operator operand).Fits grammar floor := by
  fun_induction Phrase.attach grammar operator operand phrase generalizing floor with
  | case1 left inner right hlt ih =>
      cases hfits with
      | binary hrule hpower hleft hends hright =>
          obtain ⟨-, hrightPower⟩ := Grammar.powers_of_infixOf? hplain.2.1 hrule
          rw [← hrightPower] at hlt
          exact .binary hrule hpower hleft hends (ih hright hplain.2.2 hlt)
  | case2 left inner right hle =>
      refine .binary hoperator hfloor hfits ?_ (.atom hoperand)
      cases hfits with
      | binary hrule hpower hleft hends hright =>
          obtain ⟨-, hrightPower⟩ := Grammar.powers_of_infixOf? hplain.2.1 hrule
          rw [← hrightPower, Nat.not_lt] at hle
          apply endsBefore_binary hrule hle
          exact hright.endsBefore_of_plain hbuilt hplain.2.2 hle
  | case3 phrase hroot =>
      refine .binary hoperator hfloor hfits ?_ (.atom hoperand)
      cases phrase with
      | atom token => trivial
      | sign | group => exact hplain.elim
      | binary left inner right => exact (hroot left inner right rfl).elim

end Phrase

/-! ## Rows of operands -/

/-- The tokens of a row of operands with operators between them. -/
def operandRow (first : Token) (rest : List (Token × Token)) : List Token :=
  first :: rest.flatMap fun step => [step.1, step.2]

/-- The symbol is an expression by itself. -/
def Grammar.IsAtom (grammar : Grammar) (symbol : Symbol) : Prop :=
  ∃ rule, grammar.rule? symbol = some rule ∧ ∃ power, rule.prefixRule = some ⟨.atom, power⟩

theorem Grammar.IsAtom.prefixOf? {grammar : Grammar} (hconstant : grammar.IsAtom .constant)
    (hname : grammar.IsAtom .name) {token : Token}
    (hkind : token.kind = .number ∨ token.kind = .string ∨ token.kind = .name) :
    ∃ power, grammar.prefixOf? token = some ⟨.atom, power⟩ := by
  have hbegins {symbol : Symbol} (hsymbol : grammar.ruleOf? token = grammar.rule? symbol)
      (hatom : grammar.IsAtom symbol) : ∃ power, grammar.prefixOf? token = some ⟨.atom, power⟩ := by
    obtain ⟨rule, hrule, power, hform⟩ := hatom
    refine ⟨power, ?_⟩
    rw [Grammar.prefixOf?, hsymbol, hrule, Option.bind_some, hform]
  rcases Grammar.ruleOf?_atom hkind with hsymbol | hsymbol
  · exact hbegins hsymbol hconstant
  · exact hbegins hsymbol hname

/-- The tree joins the operands by the operators between them. -/
structure Expr.Joins (grammar : Grammar) (first : Token) (rest : List (Token × Token))
    (tree : Expr) : Prop where
  grouped : tree.Grouped grammar
  leaves_eq : tree.leaves = (first :: rest.map Prod.snd).map Token.leaf
  operators_eq : tree.operators = (rest.map Prod.fst).map Token.lexeme

section Row

variable {grammar : Grammar} {first : Token} {rest : List (Token × Token)}

theorem exists_phrase_of_row (hbuilt : grammar.Built)
    (hoperands : ∀ token ∈ first :: rest.map Prod.snd,
      ∃ power, grammar.prefixOf? token = some ⟨.atom, power⟩)
    (hoperators : ∀ token ∈ rest.map Prod.fst, token.kind = .operator ∧
      (grammar.infixOf? token).isSome ∧ 1 ≤ grammar.powerOf token) :
    ∃ phrase : Phrase, phrase.Fits grammar Grammar.loosestPower ∧ phrase.Plain ∧
      phrase.tokens = operandRow first rest ∧ phrase.height ≤ rest.length + 1 ∧
      phrase.tree.leaves = (first :: rest.map Prod.snd).map Token.leaf ∧
      phrase.tree.operators = (rest.map Prod.fst).map Token.lexeme := by
  induction rest using List.reverseRecOn with
  | nil =>
      obtain ⟨power, hpower⟩ := hoperands first List.mem_cons_self
      exact ⟨.atom first, .atom hpower, trivial, rfl, Nat.le_refl 1, first.leaves_leaf,
        first.operators_leaf⟩
  | append_singleton rest step ih =>
      obtain ⟨phrase, hfits, hplain, htokens, hheight, hleaves, hoperatorsEq⟩ := ih
        (fun token hmem => hoperands token (by simp at hmem ⊢; tauto))
        (fun token hmem => hoperators token (by simp at hmem ⊢; tauto))
      obtain ⟨power, hpower⟩ := hoperands step.2 (by simp)
      obtain ⟨hkind, hjoins, hpositive⟩ := hoperators step.1 (by simp)
      obtain ⟨rule, hrule⟩ := Option.isSome_iff_exists.mp hjoins
      refine ⟨phrase.attach grammar step.1 step.2,
        hfits.attach hbuilt hplain hpower hrule hpositive, hplain.attach hkind, ?_, ?_, ?_, ?_⟩
      · rw [Phrase.tokens_attach, htokens]
        simp [operandRow]
      · have hattach := phrase.height_attach grammar step.1 step.2
        rw [List.length_append, List.length_singleton]
        omega
      · rw [Phrase.leaves_attach, hleaves]
        simp
      · rw [Phrase.operators_attach, hoperatorsEq]
        simp

/-- A row of operands is parsed into the only tree that joins them as the powers of the operators
demand. -/
theorem parseWith_operandRow {source : String} {file : Option String} (hbuilt : grammar.Built)
    (hconstant : grammar.IsAtom .constant) (hname : grammar.IsAtom .name)
    (hfinish : ∀ rule ∈ grammar.rule? .finish, rule.power = 0)
    (htokenize : tokenize source file = .ok (tokenRow source file (operandRow first rest)))
    (hoperands : ∀ token ∈ first :: rest.map Prod.snd,
      token.kind = .number ∨ token.kind = .string ∨ token.kind = .name)
    (hoperators : ∀ token ∈ rest.map Prod.fst, token.kind = .operator ∧
      (grammar.infixOf? token).isSome ∧ 1 ≤ grammar.powerOf token)
    (hlimit : rest.length + 1 ≤ Parser.standardLimit) :
    ∃ tree, parseWith grammar source file = .ok tree ∧ tree.Joins grammar first rest ∧
      ∀ other : Expr, other.Joins grammar first rest → other = tree := by
  have hatoms : ∀ token ∈ first :: rest.map Prod.snd,
      ∃ power, grammar.prefixOf? token = some ⟨.atom, power⟩ := by
    intro token hmem
    exact hconstant.prefixOf? hname (hoperands token hmem)
  obtain ⟨phrase, hfits, hplain, htokens, hheight, hleaves, hoperators⟩ :=
    exists_phrase_of_row hbuilt hatoms hoperators
  rw [← htokens] at htokenize
  have hparse := parseWith_of_phrase hfinish htokenize hfits (Nat.le_trans hheight hlimit)
  have hjoins : phrase.tree.Joins grammar first rest :=
    ⟨hfits.grouped hbuilt hplain, hleaves, hoperators⟩
  refine ⟨phrase.tree, hparse, hjoins, ?_⟩
  intro other hother
  apply hother.grouped.eq_of_yield hjoins.grouped
  · rw [hother.leaves_eq, hleaves]
  · rw [hother.operators_eq, hoperators]

end Row

/-- A table with operators of either side on one tier. -/
def Grammar.mixedTier : Grammar :=
  empty
    |>.addAtom .constant
    |>.addAtom .name
    |>.introduce .finish loosestPower
    |>.addInfix (.operator "<<") 5 .left
    |>.addInfix (.operator "->") 1 .right
    |>.addInfix (.operator "-") 1 .left

theorem Grammar.built_mixedTier : mixedTier.Built :=
  .addInfix (.addInfix (.addInfix (.introduce (.addAtom (.addAtom .empty _) _) _ _) _ _ _) _ _ _)
    _ _ _

/-- The row `a -> b - 1 << c` with the mixed table. -/
theorem parseWith_operandRow_mixedTier :
    ∃ tree, parseWith .mixedTier "a -> b - 1 << c" none = .ok tree ∧
      tree.Joins .mixedTier ⟨.name, "a", ⟨0, 1, "shell"⟩⟩
        [(⟨.operator, "->", ⟨2, 4, "shell"⟩⟩, ⟨.name, "b", ⟨5, 6, "shell"⟩⟩),
          (⟨.operator, "-", ⟨7, 8, "shell"⟩⟩, ⟨.number, "1", ⟨9, 10, "shell"⟩⟩),
          (⟨.operator, "<<", ⟨11, 13, "shell"⟩⟩, ⟨.name, "c", ⟨14, 15, "shell"⟩⟩)] ∧
      ∀ other : Expr, other.Joins .mixedTier ⟨.name, "a", ⟨0, 1, "shell"⟩⟩
        [(⟨.operator, "->", ⟨2, 4, "shell"⟩⟩, ⟨.name, "b", ⟨5, 6, "shell"⟩⟩),
          (⟨.operator, "-", ⟨7, 8, "shell"⟩⟩, ⟨.number, "1", ⟨9, 10, "shell"⟩⟩),
          (⟨.operator, "<<", ⟨11, 13, "shell"⟩⟩, ⟨.name, "c", ⟨14, 15, "shell"⟩⟩)] →
        other = tree := by
  have hatom (symbol : Symbol) (hsymbol : Grammar.mixedTier.rule? symbol =
      some ⟨symbol, 0, some ⟨.atom, 0⟩, none⟩) : Grammar.mixedTier.IsAtom symbol :=
    ⟨_, hsymbol, 0, rfl⟩
  apply parseWith_operandRow Grammar.built_mixedTier
  · exact hatom .constant (by decide)
  · exact hatom .name (by decide)
  · decide
  · decide +kernel
  · decide
  · decide
  · decide

end Precedence
