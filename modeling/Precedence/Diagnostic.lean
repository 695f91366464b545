import Precedence.Diagnostic.Line
import Precedence.Error

/-!
# Diagnostics

A diagnostic names the error and the source, shows the source line without its indentation, and
points at the place with a caret:

```text
Error: UnexpectedCharacter (Unexpected character `@`)
-> shell
  |
1 | 1 @ 2
  | --^
```

The caret is set flush right in a field that ends in its column.  Fields have a greatest width, and
a diagnostic whose caret stands further to the right cannot be written.
-/

namespace Precedence

namespace Diagnostic

open Text

/-- A character written a number of times. -/
def repeated (c : Char) (count : Nat) : String := String.ofList (List.replicate count c)

/-- The line that names the error. -/
def header (name : String) : Tip → String
  | .none => "Error: " ++ name ++ "\n"
  | .suggestion text => "Error: " ++ name ++ " (" ++ text ++ ")\n"

/-- The line that names the source. -/
def origin (file : String) : String := "-> " ++ file ++ "\n"

/-- The bar before lines without a number, below the bar of the numbered line. -/
def margin (number : Nat) : String := repeated ' ' ((toString number).length + 1) ++ "|"

/-- Spaces before a line are not shown. -/
def isIndent (c : Char) : Bool := c = ' '

/-- The number of characters between the indentation and the place on the line.  A place that is not
between two characters of the line counts in bytes. -/
def caretOffset (line : Line) : Nat :=
  ((charsWithin? line.text line.column).getD line.column) - (line.text.takeWhile isIndent).length

/-- The line as it is shown. -/
def shownText (line : Line) : String :=
  String.ofList (trimEnd (line.text.dropWhile isIndent))

/-- The part of a diagnostic that shows the line and points at the place. -/
def excerpt (line : Line) : String :=
  margin line.number ++ "\n" ++
    toString line.number ++ " | " ++ shownText line ++ "\n" ++
    margin line.number ++ " " ++ repeated '-' (caretOffset line) ++ "^\n"

/-- The greatest width of a field. -/
def fieldLimit : Nat := 65535

end Diagnostic

/-- The lines of the diagnostic of an error in a source, however wide they are.  A place before the
source counts as its beginning; for a place beyond its end there is no line to show. -/
def Error.diagnostic (error : Error) (source : String) : String :=
  Diagnostic.header error.fault.name error.tip ++ Diagnostic.origin error.position.file ++
    match Diagnostic.lineAt? source error.position.offset.toNat with
    | none => ""
    | some line => Diagnostic.excerpt line

/-- The column of the caret, from one on and without the indentation.  Where no line is shown there
is no caret. -/
def Error.caretColumn? (error : Error) (source : String) : Option Nat :=
  (Diagnostic.lineAt? source error.position.offset.toNat).map fun line =>
    Diagnostic.caretOffset line + 1

/-- The diagnostic of an error in a source, if it can be written. -/
def Error.diagnostic? (error : Error) (source : String) : Option String :=
  if (error.caretColumn? source).all (· ≤ Diagnostic.fieldLimit) then
    some (error.diagnostic source)
  else none

end Precedence
