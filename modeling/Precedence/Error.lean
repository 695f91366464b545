import Precedence.Text.Quoted
import Precedence.Token

/-!
# Errors

An error is a fault and the position it is reported at.  The wording of a fault comes in two forms:
a summary for messages, which quotes source text with escapes, and a tip for diagnostics, which
shows it as it stands.
-/

namespace Precedence

open Text

/-- Why a source was refused. -/
inductive Fault where
  /-- No lexeme begins with this character. -/
  | unexpectedCharacter (character : Char)
  /-- No expression begins, or goes on, with this lexeme. -/
  | unexpectedToken (lexeme : String)
  /-- The grammar has no rule for this operator. -/
  | unknownOperator (symbol : String)
  /-- The expression was complete before this lexeme. -/
  | trailingInput (lexeme : String)
  /-- This lexeme stands where a closing parenthesis was due. -/
  | unclosedGroup (lexeme : String)
  /-- The expression opens more levels than the limit allows. -/
  | nestingTooDeep (limit : Nat)
  deriving DecidableEq

namespace Fault

/-- The name a fault goes by. -/
def name : Fault → String
  | .unexpectedCharacter _ => "UnexpectedCharacter"
  | .unexpectedToken _ => "UnexpectedToken"
  | .unknownOperator _ => "UnknownOperator"
  | .trailingInput _ => "TrailingInput"
  | .unclosedGroup _ => "UnclosedGroup"
  | .nestingTooDeep _ => "NestingTooDeep"

/-- The fault in a few words, with source text quoted. -/
def summary : Fault → String
  | .unexpectedCharacter character => "unexpected character: " ++ quoteChar character
  | .unexpectedToken lexeme => "unexpected token: " ++ quote lexeme
  | .unknownOperator symbol => "unknown operator: " ++ quote symbol
  | .trailingInput lexeme => "trailing input: " ++ quote lexeme
  | .unclosedGroup lexeme => "unclosed group, found: " ++ quote lexeme
  | .nestingTooDeep limit => "expression nested more than " ++ toString limit ++ " levels deep"

/-- The remark a diagnostic adds to the name of the fault. -/
def remark : Fault → String
  | .unexpectedCharacter character => "Unexpected character `" ++ character.toString ++ "`"
  | .unexpectedToken lexeme =>
    "Unexpected token: `" ++ lexeme ++ "`, expected a value or a prefix operator"
  | .unknownOperator symbol => "Operator `" ++ symbol ++ "` is not defined by the grammar"
  | .trailingInput lexeme => "Unexpected `" ++ lexeme ++ "` after the end of the expression"
  | .unclosedGroup lexeme => "Expected `)` but found `" ++ lexeme ++ "`"
  | .nestingTooDeep limit => "Expression nests deeper than " ++ toString limit ++ " levels"

end Fault

/-- Advice that may accompany an error. -/
inductive Tip where
  | none
  | suggestion (text : String)
  deriving DecidableEq

/-- The words of a tip; the absent tip has none. -/
def Tip.text : Tip → String
  | .none => ""
  | .suggestion text => text

/-- A fault and where it was found. -/
structure Error where
  fault : Fault
  position : Position
  deriving DecidableEq

namespace Error

/-- Whether the text itself could not be split into tokens. -/
def isLexical (error : Error) : Bool :=
  match error.fault with
  | .unexpectedCharacter _ => true
  | _ => false

/-- Whether the tokens were readable but did not form an expression. -/
def isSyntactic (error : Error) : Bool := !error.isLexical

/-- The summary of the fault with its byte offset. -/
def message (error : Error) : String :=
  error.fault.summary ++ " at position " ++ toString error.position.offset

/-- Every fault comes with a suggestion. -/
def tip (error : Error) : Tip := .suggestion error.fault.remark

end Error

end Precedence
