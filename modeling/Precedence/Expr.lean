/-!
# Expression trees

Leaves keep the lexeme they were read from, inner nodes the symbol of their operator.  Parentheses
leave no node behind.
-/

namespace Precedence

/-- An expression. -/
inductive Expr where
  /-- A number or a text literal. -/
  | literal (text : String)
  | identifier (text : String)
  /-- An operator before its operand. -/
  | unary (operator : String) (operand : Expr)
  /-- An operator between its operands. -/
  | binary (operator : String) (left right : Expr)
  deriving DecidableEq

namespace Expr

/-- The form of the root of a tree. -/
inductive Form where
  | literal
  | identifier
  | unary
  | binary
  deriving DecidableEq

/-- The form of the root. -/
def form : Expr → Form
  | .literal _ => .literal
  | .identifier _ => .identifier
  | .unary _ _ => .unary
  | .binary _ _ _ => .binary

/-- The operator at the root, if there is one. -/
def operator? : Expr → Option String
  | .literal _ | .identifier _ => none
  | .unary operator _ | .binary operator _ _ => some operator

/-- The number of operands at the root. -/
def arity : Expr → Nat
  | .literal _ | .identifier _ => 0
  | .unary _ _ => 1
  | .binary _ _ _ => 2

/-- The number of nodes. -/
def size : Expr → Nat
  | .literal _ | .identifier _ => 1
  | .unary _ operand => 1 + operand.size
  | .binary _ left right => 1 + left.size + right.size

/-- The number of nodes on the left of all pairs together. -/
def totalSize : List (Expr × Expr) → Nat
  | [] => 0
  | (left, _) :: rest => left.size + totalSize rest

/-- Whether the trees of each pair are equal.  The pairs that are still to be compared are kept in a
list, so trees of any depth can be compared in constant stack space. -/
def allAgree : List (Expr × Expr) → Bool
  | [] => true
  | (.literal left, .literal right) :: rest => left = right && allAgree rest
  | (.identifier left, .identifier right) :: rest => left = right && allAgree rest
  | (.unary operator operand, .unary operator' operand') :: rest =>
    operator = operator' && allAgree ((operand, operand') :: rest)
  | (.binary operator left right, .binary operator' left' right') :: rest =>
    operator = operator' && allAgree ((left, left') :: (right, right') :: rest)
  | _ :: _ => false
termination_by pairs => totalSize pairs
decreasing_by all_goals simp +arith [totalSize, size]

/-- Whether two trees are equal. -/
def agrees (left right : Expr) : Bool := allAgree [(left, right)]

theorem allAgree_iff (pairs : List (Expr × Expr)) :
    allAgree pairs = true ↔ ∀ pair ∈ pairs, pair.1 = pair.2 := by
  fun_induction allAgree pairs with
  | case1 => simp
  | case2 left right rest ih => simp [ih]
  | case3 left right rest ih => simp [ih]
  | case4 operator operand operator' operand' rest ih => simp [ih, and_assoc]
  | case5 operator left right operator' left' right' rest ih => simp [ih, and_assoc]
  | case6 pair rest hliteral hidentifier hunary hbinary =>
    have hroot : pair.1 ≠ pair.2 := by
      rcases pair with ⟨left, right⟩
      rintro ⟨⟩
      cases left with
      | literal text => exact hliteral text text rfl
      | identifier text => exact hidentifier text text rfl
      | unary operator operand => exact hunary operator operand operator operand rfl
      | binary operator first second => exact hbinary operator first second operator first second rfl
    simp [hroot]

/-- The comparison in constant stack space decides equality. -/
theorem agrees_iff_eq (left right : Expr) : left.agrees right = true ↔ left = right := by
  simp [agrees, allAgree_iff]

end Expr

end Precedence
