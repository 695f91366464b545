import Precedence.Grammar

/-!
# The arithmetic grammar

Sums and differences bind least, then products and quotients, then powers and remainders, and signs
bind most.  Powers and remainders are grouped from the right, the others from the left.
-/

namespace Precedence.Grammar

/-- The power of symbols that bind nothing, and the floor of a whole expression. -/
def loosestPower : Nat := 0

/-- The power of `+` and `-` between operands. -/
def additivePower : Nat := 10

/-- The power of `*` and `/`. -/
def multiplicativePower : Nat := 20

/-- The power of `^` and `%`. -/
def exponentPower : Nat := 30

/-- The power that the operand of a sign is read at. -/
def signPower : Nat := 100

/-- The grammar of arithmetic expressions.  The signs are added to `+` and `-` after their binary
forms, whose power they keep. -/
def arithmetic : Grammar :=
  empty
    |>.addAtom .constant
    |>.addAtom .name
    |>.addInfix (.operator "+") additivePower .left
    |>.addInfix (.operator "-") additivePower .left
    |>.addInfix (.operator "*") multiplicativePower .left
    |>.addInfix (.operator "/") multiplicativePower .left
    |>.addInfix (.operator "^") exponentPower .right
    |>.addInfix (.operator "%") exponentPower .right
    |>.introduce .finish loosestPower
    |>.addPrefix (.operator "+") signPower .sign
    |>.addPrefix (.operator "-") signPower .sign
    |>.addPrefix (.operator "(") loosestPower .group
    |>.introduce (.operator ")") loosestPower

end Precedence.Grammar
