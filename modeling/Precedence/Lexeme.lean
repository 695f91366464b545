import Precedence.Text.Classes
import Precedence.Text.Word
import Precedence.Token

/-!
# Lexemes

Five classes of lexemes make up a source, beside the gaps between them: written-out line breaks and
tabulators, names, operators, numbers and text literals.  Each class has a recogniser, which finds
the longest member of the class at the front of a text.  `classify?` asks the recognisers in order,
and the first that finds a lexeme decides the kind, even if a later one would find a longer lexeme.
-/

namespace Precedence.Lexeme

open Text

/-- Characters that stand between lexemes and belong to none. -/
def isGap (c : Char) : Bool := isBlank c || c = ';'

/-- The first choice that the text begins with. -/
def firstOf (choices : List (List Char)) (text : List Char) : Option (List Char) :=
  choices.find? fun choice => choice.isPrefixOf text

/-- The text itself unless it is empty. -/
def nonempty? (text : List Char) : Option (List Char) :=
  if text.isEmpty then none else some text

/-- A line break or tabulator written out as a backslash and a letter, or the one followed by the
other. -/
def escapes : List (List Char) := [['\\', 'n', '\\', 't'], ['\\', 'n'], ['\\', 't']]

/-- Finds a written-out line break or tabulator. -/
def escape? (text : List Char) : Option (List Char) := firstOf escapes text

/-- Names begin with an unaccented Latin letter or an underscore. -/
def startsName (c : Char) : Bool := c.isAlpha || c = '_'

/-- Finds a name: its first character and all the word characters that follow. -/
def name? : List Char → Option (List Char)
  | [] => none
  | c :: rest => if startsName c then some (c :: rest.takeWhile isWord) else none

/-- The operator symbols, each after those it is the beginning of. -/
def operators : List String :=
  ["<=", ">=", "<<", ">>", "!=", "==", "<>", "::", "<-", "->", "**", ":", "=", "+", "-", "*",
    "%", "/", "^", "<", ">", "(", ")", "&", "!", "\x7d", "\x7b", "[", "]", "|", ","]

/-- The characters of the operator symbols. -/
def operatorSpellings : List (List Char) := operators.map String.toList

/-- Finds an operator symbol. -/
def operator? (text : List Char) : Option (List Char) := firstOf operatorSpellings text

/-- Finds digits, of which there may be none, a point and at least one more digit. -/
def fraction? (text : List Char) : Option (List Char) :=
  match text.dropWhile isDigit with
  | '.' :: rest =>
    (nonempty? (rest.takeWhile isDigit)).map fun digits => text.takeWhile isDigit ++ '.' :: digits
  | _ => none

/-- Finds a number: a fraction, before which a colon may stand, or digits alone. -/
def number? : List Char → Option (List Char)
  | ':' :: rest => (fraction? rest).map (':' :: ·)
  | text =>
    match fraction? text with
    | some number => some number
    | none => nonempty? (text.takeWhile isDigit)

/-- Text literals are filled with word characters and blanks. -/
def fillsString (c : Char) : Bool := isWord c || isBlank c

/-- Finds one or more quotation marks, a filling and one quotation mark. -/
def quoted? (text : List Char) : Option (List Char) :=
  let marks := text.takeWhile (· = '"')
  let inside := text.dropWhile (· = '"')
  let filling := inside.takeWhile fillsString
  match inside.dropWhile fillsString with
  | '"' :: _ => if marks.isEmpty || filling.isEmpty then none else some (marks ++ filling ++ ['"'])
  | _ => none

/-- Finds a text literal, before which a colon may stand. -/
def string? : List Char → Option (List Char)
  | ':' :: rest => (quoted? rest).map (':' :: ·)
  | text => quoted? text

/-- The classes of lexemes in the order in which they are tried. -/
def classes : List (TokenKind × (List Char → Option (List Char))) :=
  [(.statement, escape?), (.name, name?), (.operator, operator?), (.number, number?),
    (.string, string?)]

/-- The lexeme at the front of the text, with its kind. -/
def classify? (text : List Char) : Option (TokenKind × List Char) :=
  classes.findSome? fun (kind, recognise) => (recognise text).map (kind, ·)

end Precedence.Lexeme
