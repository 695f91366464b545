import Precedence.Token

/-!
# Grammars of operators

A grammar gives rules to symbols.  A rule says how strongly its symbol binds to an operand on its
left, what the symbol does where an expression begins, and what it does after a left operand.  A
grammar is built by introducing symbols and attaching behaviours to them; the binding power that a
symbol was first introduced with is kept.
-/

namespace Precedence

/-- What a rule is given to.  Numbers and text literals share one symbol, and so do all names. -/
inductive Symbol where
  | constant
  | name
  | finish
  | operator (symbol : String)
  deriving DecidableEq

/-- How a symbol is shown. -/
def Symbol.label : Symbol → String
  | .constant => "Const"
  | .name => "Name"
  | .finish => "(end)"
  | .operator symbol => symbol

/-- The symbol a token stands for.  The opening token and written-out escapes stand for none. -/
def Token.symbol? (token : Token) : Option Symbol :=
  match token.kind with
  | .number | .string => some .constant
  | .name => some .name
  | .finish => some .finish
  | .operator => some (.operator token.lexeme)
  | .start | .statement => none

/-- The side on which operators of equal power are grouped first. -/
inductive Associativity where
  | left
  | right
  deriving DecidableEq

/-- The binding power that a right operand is read at.  At the operator's own power an equal
operator is left over for the enclosing expression; one below it, the operand takes it in. -/
def Associativity.rightPower : Associativity → Nat → Nat
  | .left, power => power
  | .right, power => power - 1

/-- What a symbol can do at the beginning of an expression. -/
inductive PrefixForm where
  /-- It is an expression by itself. -/
  | atom
  /-- It applies to the operand that follows. -/
  | sign
  /-- It opens a group that a closing parenthesis ends. -/
  | group
  deriving DecidableEq

/-- The behaviour of a symbol at the beginning of an expression. -/
structure PrefixRule where
  form : PrefixForm
  /-- The binding power that an operand is read at. -/
  power : Nat
  deriving DecidableEq

/-- The behaviour of a symbol after a left operand: it joins it to a right operand. -/
structure InfixRule where
  /-- The binding power that the right operand is read at. -/
  rightPower : Nat
  deriving DecidableEq

/-- All that a grammar says of one symbol. -/
structure Rule where
  symbol : Symbol
  /-- How strongly the symbol binds to an operand on its left. -/
  power : Nat
  prefixRule : Option PrefixRule
  infixRule : Option InfixRule
  deriving DecidableEq

/-- Rules in the order in which their symbols were introduced. -/
structure Grammar where
  rules : List Rule
  deriving DecidableEq

namespace Grammar

/-- The grammar without rules. -/
def empty : Grammar := ⟨[]⟩

/-- The rule of a symbol. -/
def rule? (grammar : Grammar) (symbol : Symbol) : Option Rule :=
  grammar.rules.find? fun rule => rule.symbol = symbol

/-- Whether the symbol has a rule. -/
def contains (grammar : Grammar) (symbol : Symbol) : Bool := (grammar.rule? symbol).isSome

/-- The number of symbols that have a rule. -/
def size (grammar : Grammar) : Nat := grammar.rules.length

/-- Whether no symbol has a rule. -/
def isEmpty (grammar : Grammar) : Bool := grammar.rules.isEmpty

/-- Gives the symbol a rule without behaviours.  A symbol that has a rule keeps it as it is. -/
def introduce (grammar : Grammar) (symbol : Symbol) (power : Nat) : Grammar :=
  if grammar.contains symbol then grammar
  else ⟨grammar.rules ++ [⟨symbol, power, none, none⟩]⟩

/-- Changes the rule of a symbol. -/
def amend (grammar : Grammar) (symbol : Symbol) (change : Rule → Rule) : Grammar :=
  ⟨grammar.rules.map fun rule => if rule.symbol = symbol then change rule else rule⟩

/-- Replaces the left binding power of a symbol. -/
def setPower (grammar : Grammar) (symbol : Symbol) (power : Nat) : Grammar :=
  (grammar.introduce symbol 0).amend symbol fun rule => { rule with power }

/-- Lets the symbol begin expressions, with operands read at the given power. -/
def addPrefix (grammar : Grammar) (symbol : Symbol) (power : Nat) (form : PrefixForm) : Grammar :=
  (grammar.introduce symbol 0).amend symbol fun rule => { rule with prefixRule := some ⟨form, power⟩ }

/-- Lets the symbol be an expression by itself. -/
def addAtom (grammar : Grammar) (symbol : Symbol) : Grammar := grammar.addPrefix symbol 0 .atom

/-- Lets the symbol join two operands.  The power that the symbol was introduced with, not the
requested one, gives the power of the right operand. -/
def addInfix (grammar : Grammar) (symbol : Symbol) (power : Nat) (side : Associativity) : Grammar :=
  (grammar.introduce symbol power).amend symbol fun rule =>
    { rule with infixRule := some ⟨side.rightPower rule.power⟩ }

/-- Whether a request to bind the symbol at the given power is set aside, because the symbol was
introduced with another. -/
def overrules (grammar : Grammar) (symbol : Symbol) (power : Nat) : Bool :=
  (grammar.rule? symbol).any fun rule => rule.power ≠ power

end Grammar

end Precedence
