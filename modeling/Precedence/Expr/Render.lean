import Precedence.Expr

/-!
# Rendering of trees

A tree is written in prefix form with one pair of parentheses for each node.  The pieces that are
still to be written are kept in a list, so trees of any depth can be written in constant stack space.
-/

namespace Precedence.Expr

/-- The operators that are written by a name of their own. -/
def operatorLabels : List (String × String) :=
  [("%", "Mod"), ("*", "Mul"), ("+", "Add"), ("-", "Sub"), ("/", "Div"), ("^", "Power")]

/-- How an operator is written: by its name, or by its symbol if it has none. -/
def operatorLabel (operator : String) : String :=
  (operatorLabels.lookup operator).getD operator

/-- A piece of a rendering that is still to be written. -/
inductive Piece where
  | text (text : String)
  | tree (tree : Expr)

/-- The number of steps that writing the pieces takes. -/
def steps : List Piece → Nat
  | [] => 0
  | .text _ :: rest => 1 + steps rest
  | .tree tree :: rest => 3 * tree.size + steps rest

/-- Writes the pieces after what is written already. -/
def write : List Piece → String → String
  | [], written => written
  | .text text :: rest, written => write rest (written ++ text)
  | .tree (.literal text) :: rest, written => write rest (written ++ "(Const " ++ text ++ ")")
  | .tree (.identifier text) :: rest, written => write rest (written ++ "(Name " ++ text ++ ")")
  | .tree (.unary operator operand) :: rest, written =>
    write (.tree operand :: .text ")" :: rest) (written ++ "(Unary" ++ operatorLabel operator ++ " ")
  | .tree (.binary operator left right) :: rest, written =>
    write (.tree left :: .text " " :: .tree right :: .text ")" :: rest)
      (written ++ "(" ++ operatorLabel operator ++ " ")
termination_by pieces => steps pieces
decreasing_by all_goals simp +arith [steps, size]

/-- The written form of a tree. -/
def render (tree : Expr) : String := write [.tree tree] ""

end Precedence.Expr
