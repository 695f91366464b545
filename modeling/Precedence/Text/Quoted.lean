import Precedence.Text.Extender
import Precedence.Text.Printable

/-!
# Quoted text

Messages show a character between apostrophes and a text between double quotes.  What would not be
seen, or would end the quotation, is written as an escape: a short one for the usual controls and
the backslash, the code point in hexadecimal for every other character that does not show as itself.
-/

namespace Precedence.Text

/-- The code point in lower-case hexadecimal, without leading zeros, between braces. -/
def escapeByNumber (c : Char) : String :=
  "\\u\x7b" ++ String.ofList (Nat.toDigits 16 c.toNat) ++ "\x7d"

/-- How a character is written inside a quotation that `mark` ends. -/
def escapeWithin (mark c : Char) : String :=
  if c = mark then "\\" ++ c.toString
  else if c = '\x00' then "\\0"
  else if c = '\t' then "\\t"
  else if c = '\r' then "\\r"
  else if c = '\n' then "\\n"
  else if c = '\\' then "\\\\"
  else if isExtender c || !isPrintable c then escapeByNumber c
  else c.toString

/-- A character between apostrophes. -/
def quoteChar (c : Char) : String :=
  "'" ++ escapeWithin '\x27' c ++ "'"

/-- A text between double quotes. -/
def quote (text : String) : String :=
  text.toList.foldl (fun written c => written ++ escapeWithin '\x22' c) "\"" ++ "\""

end Precedence.Text
