import Precedence.Expr
import Precedence.Grammar.Arithmetic
import Precedence.Parser

/-!
# Precedence climbing

An expression is read above a floor: first a prefix form, then, as long as the current token binds
more strongly than the floor, that token and its right operand are folded into the tree read so far.
The right operand is an expression in turn, read above a floor that the rule of the token sets.

Expressions are nested at most as deeply as the limit of the parser allows, so the recursion runs on
the number of levels left.  Folding goes on only as long as items are pending: after one turn without
a pending item the parser is where it was before, and folding would never end.
-/

namespace Precedence

namespace Parser

/-- Takes the current token as an expression by itself. -/
def atom : Parse Expr := do
  let token ← shift
  return if token.kind = .name then .identifier token.lexeme else .literal token.lexeme

/-- Takes the current token as a sign before an operand, which is read above `power`. -/
def signed (expression : Nat → Parse Expr) (power : Nat) : Parse Expr := do
  let operator ← shift
  let operand ← expression power
  return .unary operator.lexeme operand

/-- Takes the current token as an operator after `left`; the right operand is read above `power`. -/
def joined (expression : Nat → Parse Expr) (left : Expr) (power : Nat) : Parse Expr := do
  let operator ← shift
  let right ← expression power
  return .binary operator.lexeme left right

/-- Whether a token closes a group. -/
def closesGroup (token : Token) : Bool := token.kind = .operator && token.lexeme = ")"

/-- Takes the current token as the opening of a group and reads up to its closing. -/
def grouped (expression : Nat → Parse Expr) : Parse Expr := do
  let _ ← shift
  let inner ← expression Grammar.loosestPower
  let closing := (← get).current
  if closesGroup closing then
    let _ ← shift
    return inner
  else refuse (.unclosedGroup closing.lexeme)

/-- Reads a prefix form from the current token on. -/
def prefixed (expression : Nat → Parse Expr) : PrefixForm → Nat → Parse Expr
  | .atom, _ => atom
  | .sign, power => signed expression power
  | .group, _ => grouped expression

/-- Folds operators that bind more strongly than `floor` into the tree read so far, in at most
`turns` turns. -/
def fold (expression : Nat → Parse Expr) (floor : Nat) : Nat → Expr → Parse Expr
  | 0, left, parser =>
    if floor < parser.power then
      if (parser.rule?.bind Rule.infixRule).isSome then .error .endless parser
      else unexpected parser
    else .ok left parser
  | turns + 1, left, parser =>
    if floor < parser.power then
      match parser.rule?.bind Rule.infixRule with
      | none => unexpected parser
      | some rule =>
        match joined expression left rule.rightPower parser with
        | .error failure parser => .error failure parser
        | .ok left parser => fold expression floor turns left parser
    else .ok left parser

/-- Reads a prefix form and folds in what follows it. -/
def chain (expression : Nat → Parse Expr) (turns floor : Nat) : Parse Expr := fun parser =>
  match parser.rule?.bind Rule.prefixRule with
  | none => unexpected parser
  | some rule => (prefixed expression rule.form rule.power >>= fold expression floor turns) parser

/-- Reads an expression above a floor, on a level of its own, where `room` more levels may be opened
and folding may take `turns` turns on each of them. -/
def expressionWithin (turns : Nat) : Nat → Nat → Parse Expr
  | 0, _ => tooDeep
  | room + 1, floor => nested (chain (expressionWithin turns room) turns floor)

/-- Reads an expression above a floor.  Each turn of folding but the last takes a pending item, and
the limit bounds the levels. -/
def expression (floor : Nat) : Parse Expr := fun parser =>
  expressionWithin (parser.pending.length + 1) (parser.limit - parser.depth) floor parser

/-- Reads an expression that takes up the whole source. -/
def wholeExpression : Parse Expr := do
  let tree ← expression Grammar.loosestPower
  let last := (← get).current
  if last.kind = .finish then return tree
  else refuse (.trailingInput last.lexeme)

end Parser

/-- The expression that a source holds, by a given grammar. -/
def parseWith (grammar : Grammar) (source : String) (file : Option String) : Except Failure Expr :=
  match Parser.ofLexer (.ofSource source file) grammar with
  | .error failure => .error failure
  | .ok parser =>
    match Parser.wholeExpression parser with
    | .ok tree _ => .ok tree
    | .error failure _ => .error failure

/-- The arithmetic expression that a source holds. -/
def parse (source : String) (file : Option String) : Except Failure Expr :=
  parseWith .arithmetic source file

end Precedence
