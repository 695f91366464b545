import Precedence.Grammar
import Precedence.Lexer

/-!
# The parser's cursor

A parser stands on one token of a source, whose rule it has looked up, and holds the items that
follow it.  Moving on returns the token left behind; past the end the cursor stays on the last token.
Two kinds of items are refused, errors of the lexer and operators without a rule, and then the cursor
does not move.

A parser also counts the levels of nesting that are open, up to a limit.
-/

namespace Precedence

/-- A cursor over the items of one source. -/
structure Parser where
  grammar : Grammar
  /-- The items after the current token. -/
  pending : List Lexer.Item
  /-- The token under the cursor, which is not consumed yet. -/
  current : Token
  /-- The number of open levels. -/
  depth : Nat
  /-- The largest number of levels that may be open. -/
  limit : Nat
  /-- The rule of the current token, which is looked up when the cursor moves there. -/
  rule? : Option Rule := current.symbol?.bind grammar.rule?

/-- Why a run of the parser has no result. -/
inductive Failure where
  | error (error : Error)
  /-- The run would go on for ever: an operator without a following token is folded in again and
  again. -/
  | endless
  deriving DecidableEq

/-- A step of the parser.  Whether it fails or not, it leaves a parser that can be used on. -/
abbrev Parse (α : Type) := EStateM Failure Parser α

namespace Grammar

/-- Refuses an operator that the grammar has no rule for. -/
def checkOperator (grammar : Grammar) (token : Token) : Except Error Unit :=
  if token.kind = .operator && !grammar.contains (.operator token.lexeme) then
    .error ⟨.unknownOperator token.lexeme, token.position⟩
  else .ok ()

/-- The rule of a token, if it has one.  An operator must have one. -/
def resolve (grammar : Grammar) (token : Token) : Except Error (Option Rule) :=
  (grammar.checkOperator token).map fun _ => token.symbol?.bind grammar.rule?

end Grammar

namespace Parser

/-- The number of levels that may be open unless another limit is set. -/
def standardLimit : Nat := 256

/-- How strongly the current token binds to an operand on its left; without a rule, not at all. -/
def power (parser : Parser) : Nat := (parser.rule?.map Rule.power).getD 0

/-- Where the current token begins. -/
def position (parser : Parser) : Position := parser.current.position

/-- Sets another limit on the levels of nesting. -/
def withLimit (parser : Parser) (limit : Nat) : Parser := { parser with limit }

/-- Fails with a fault at the current token. -/
def refuse (fault : Fault) {α : Type} : Parse α := fun parser =>
  .error (.error ⟨fault, parser.position⟩) parser

/-- Fails because the current token cannot stand here. -/
def unexpected {α : Type} : Parse α := fun parser =>
  refuse (.unexpectedToken parser.current.lexeme) parser

/-- Fails because the limit allows no further level. -/
def tooDeep {α : Type} : Parse α := fun parser =>
  refuse (.nestingTooDeep parser.limit) parser

/-- Moves on to the next item and returns the token left behind. -/
def shift : Parse Token := fun parser =>
  match parser.pending with
  | [] => .ok parser.current parser
  | .error error :: rest => .error (.error error) { parser with pending := rest }
  | .ok next :: rest =>
    match parser.grammar.resolve next with
    | .error error => .error (.error error) { parser with pending := rest }
    | .ok rule? => .ok parser.current { parser with pending := rest, current := next, rule? }

/-- Opens a level of nesting. -/
def openLevel : Parse Unit := fun parser =>
  if parser.depth < parser.limit then .ok () { parser with depth := parser.depth + 1 }
  else tooDeep parser

/-- Closes a level of nesting. -/
def closeLevel (parser : Parser) : Parser := { parser with depth := parser.depth - 1 }

/-- Runs a step on a level of its own, which is closed again whether the step fails or not. -/
def nested {α : Type} (step : Parse α) : Parse α := fun parser =>
  match openLevel parser with
  | .error failure parser => .error failure parser
  | .ok () parser =>
    match step parser with
    | .error failure parser => .error failure parser.closeLevel
    | .ok value parser => .ok value parser.closeLevel

/-- A parser on the first token that the lexer still yields.  The opening token is passed over. -/
def ofLexer (lexer : Lexer) (grammar : Grammar) : Except Failure Parser :=
  match lexer.items with
  | [] => .error (.error ⟨.unexpectedToken "", ⟨0, lexer.file⟩⟩)
  | .error error :: _ => .error (.error error)
  | .ok first :: rest =>
    let parser : Parser :=
      { grammar, pending := rest, current := first, depth := 0, limit := standardLimit,
        rule? := none }
    if first.kind = .start then
      match shift parser with
      | .ok _ parser => .ok parser
      | .error failure _ => .error failure
    else
      match grammar.resolve first with
      | .ok rule? => .ok { parser with rule? }
      | .error error => .error (.error error)

end Parser

end Precedence
