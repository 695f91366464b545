/-!
# Tokens

A source is read as a row of tokens: one that opens it, the classified lexemes in source order, and
one that ends it.  Offsets count UTF-8 bytes; they are integers because the opening token stands
before the first byte.
-/

namespace Precedence

/-- A byte offset in the source that bears the name `file`. -/
structure Position where
  offset : Int
  file : String
  deriving DecidableEq

/-- The bytes from offset `start` up to, but not including, offset `stop`. -/
structure Span where
  start : Int
  stop : Int
  file : String
  deriving DecidableEq

/-- What a token stands for. -/
inductive TokenKind where
  /-- The token that opens every source. -/
  | start
  /-- A written-out line break or tabulator, which separates statements. -/
  | statement
  | name
  | operator
  | number
  | string
  /-- The token that ends every source. -/
  | finish
  deriving DecidableEq

/-- The word a listing of tokens shows for a kind. -/
def TokenKind.label : TokenKind → String
  | .start => "Start"
  | .statement => "Stmt"
  | .name => "Name"
  | .operator => "Operator"
  | .number => "Number"
  | .string => "String"
  | .finish => "End"

/-- A lexeme with its kind and its place. -/
structure Token where
  kind : TokenKind
  lexeme : String
  span : Span
  deriving DecidableEq

namespace Token

/-- The lexeme that the opening token carries. -/
def openingLexeme : String := "Module"

/-- The lexeme that the closing token carries. -/
def closingLexeme : String := "(end)"

/-- The token that opens a source, placed before its first byte. -/
def opening (file : String) : Token :=
  ⟨.start, openingLexeme, ⟨-1, -1, file⟩⟩

/-- The token that ends a source of `length` bytes. -/
def closing (length : Nat) (file : String) : Token :=
  ⟨.finish, closingLexeme, ⟨length, length, file⟩⟩

/-- Where the lexeme begins. -/
def position (token : Token) : Position :=
  ⟨token.span.start, token.span.file⟩

/-- How a listing shows the token. -/
def text (token : Token) : String :=
  "(" ++ token.kind.label ++ ", " ++ token.lexeme ++ ")"

end Token

end Precedence
