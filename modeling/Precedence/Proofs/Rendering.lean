import Mathlib.Logic.Function.Iterate
import Precedence.Expr.Render

/-!
# Writing in turns

Trees are written without recursion: what is still to be written waits on a stack, and each turn
takes the top piece off, writes a part of it and puts back what is left of it, which may be four
pieces.  Each turn brings the end nearer all the same, since it leaves one turn less to do, and it
changes nothing about the text that the turns come to: what is written and, behind it, the prefix
forms of the pieces that wait.
-/

namespace Precedence.Expr

/-- The prefix form of a tree. -/
def prefixForm : Expr → String
  | .literal text => "(Const " ++ text ++ ")"
  | .identifier text => "(Name " ++ text ++ ")"
  | .unary operator operand =>
    "(Unary" ++ operatorLabel operator ++ " " ++ operand.prefixForm ++ ")"
  | .binary operator left right =>
    "(" ++ operatorLabel operator ++ " " ++ left.prefixForm ++ " " ++ right.prefixForm ++ ")"

/-- The number of turns that a tree takes. -/
def turns : Expr → Nat
  | .literal _ | .identifier _ => 1
  | .unary _ operand => 2 + operand.turns
  | .binary _ left right => 3 + left.turns + right.turns

/-- The text that the pieces come to. -/
def remainder : List Piece → String
  | [] => ""
  | .text text :: rest => text ++ remainder rest
  | .tree tree :: rest => tree.prefixForm ++ remainder rest

/-- The number of turns that the pieces take. -/
def turnsLeft : List Piece → Nat
  | [] => 0
  | .text _ :: rest => 1 + turnsLeft rest
  | .tree tree :: rest => tree.turns + turnsLeft rest

/-- One turn: the top piece is taken off the stack, and it is written or taken apart. -/
def turn : List Piece × String → List Piece × String
  | ([], written) => ([], written)
  | (.text text :: rest, written) => (rest, written ++ text)
  | (.tree (.literal text) :: rest, written) => (rest, written ++ "(Const " ++ text ++ ")")
  | (.tree (.identifier text) :: rest, written) => (rest, written ++ "(Name " ++ text ++ ")")
  | (.tree (.unary operator operand) :: rest, written) =>
    (.tree operand :: .text ")" :: rest, written ++ "(Unary" ++ operatorLabel operator ++ " ")
  | (.tree (.binary operator left right) :: rest, written) =>
    (.tree left :: .text " " :: .tree right :: .text ")" :: rest,
      written ++ "(" ++ operatorLabel operator ++ " ")

theorem turns_pos (tree : Expr) : 0 < tree.turns := by
  cases tree <;> simp only [turns] <;> omega

theorem turnsLeft_eq_zero_iff {pieces : List Piece} : turnsLeft pieces = 0 ↔ pieces = [] := by
  cases pieces with
  | nil => simp [turnsLeft]
  | cons piece rest =>
      cases piece with
      | text text => simp [turnsLeft]
      | tree tree =>
          have htree := tree.turns_pos
          simp only [turnsLeft, List.cons_ne_nil, iff_false]
          omega

/-! ## One turn -/

section Turn

variable (state : List Piece × String)

/-- The renderer goes on by turns. -/
theorem write_turn : write (turn state).1 (turn state).2 = write state.1 state.2 := by
  obtain ⟨pieces, written⟩ := state
  cases pieces with
  | nil => rfl
  | cons piece rest =>
      cases piece with
      | text text => rw [turn, write]
      | tree tree => cases tree <;> rw [turn, write]

/-- Every turn leaves one turn less to do, however many pieces it puts on the stack. -/
theorem turnsLeft_turn : turnsLeft (turn state).1 = turnsLeft state.1 - 1 := by
  obtain ⟨pieces, written⟩ := state
  cases pieces with
  | nil => rfl
  | cons piece rest =>
      cases piece with
      | text text =>
          simp only [turn, turnsLeft]
          omega
      | tree tree =>
          cases tree <;> simp only [turn, turnsLeft, turns] <;> omega

/-- No turn changes the text that is written in the end. -/
theorem remainder_turn :
    (turn state).2 ++ remainder (turn state).1 = state.2 ++ remainder state.1 := by
  obtain ⟨pieces, written⟩ := state
  cases pieces with
  | nil => rfl
  | cons piece rest =>
      cases piece with
      | text text => simp only [turn, remainder, String.append_assoc]
      | tree tree =>
          cases tree <;> simp only [turn, remainder, prefixForm, String.append_assoc]

end Turn

/-! ## Any number of turns -/

section Turns

variable (state : List Piece × String) (count : Nat)

theorem turnsLeft_iterate : turnsLeft (turn^[count] state).1 = turnsLeft state.1 - count := by
  induction count with
  | zero => rfl
  | succ count ih =>
      rw [Function.iterate_succ_apply', turnsLeft_turn, ih]
      omega

/-- The stack is empty as soon as the turns are done, and not before. -/
theorem iterate_turn_fst_eq_nil_iff :
    (turn^[count] state).1 = [] ↔ turnsLeft state.1 ≤ count := by
  rw [← turnsLeft_eq_zero_iff, turnsLeft_iterate]
  omega

/-- What no turn changes no number of turns changes. -/
theorem iterate_turn_eq {α : Type} (value : List Piece × String → α)
    (hturn : ∀ state, value (turn state) = value state) :
    value (turn^[count] state) = value state := by
  induction count with
  | zero => rfl
  | succ count ih => rw [Function.iterate_succ_apply', hturn, ih]

theorem remainder_iterate :
    (turn^[count] state).2 ++ remainder (turn^[count] state).1 = state.2 ++ remainder state.1 :=
  iterate_turn_eq state count (fun state => state.2 ++ remainder state.1) remainder_turn

theorem write_iterate :
    write (turn^[count] state).1 (turn^[count] state).2 = write state.1 state.2 :=
  iterate_turn_eq state count (fun state => write state.1 state.2) write_turn

/-- When the turns are done, all pieces are written behind what was written before. -/
theorem iterate_turn_turnsLeft :
    turn^[turnsLeft state.1] state = ([], state.2 ++ remainder state.1) := by
  have hnil := (iterate_turn_fst_eq_nil_iff state _).mpr (Nat.le_refl _)
  have htext := remainder_iterate state (turnsLeft state.1)
  rw [hnil, remainder, String.append_empty] at htext
  exact Prod.ext hnil htext

end Turns

/-- The renderer writes the prefix forms of all its pieces. -/
theorem write_eq (pieces : List Piece) (written : String) :
    write pieces written = written ++ remainder pieces := by
  have hwrite := write_iterate (pieces, written) (turnsLeft pieces)
  have hturns := iterate_turn_turnsLeft (pieces, written)
  rw [hturns] at hwrite
  rw [← hwrite, write]

theorem render_eq_prefixForm (tree : Expr) : tree.render = tree.prefixForm := by
  rw [render, write_eq, remainder, remainder, String.append_empty, String.empty_append]

/-- The stack gets empty, and when it does the prefix form of the tree is written, which is what the
renderer returns. -/
theorem render_in_turns (tree : Expr) :
    (∀ count, (turn^[count] ([.tree tree], "")).1 = [] ↔ tree.turns ≤ count) ∧
      turn^[tree.turns] ([.tree tree], "") = ([], tree.prefixForm) ∧
      tree.render = tree.prefixForm := by
  have hturns := iterate_turn_turnsLeft ([.tree tree], "")
  simp only [turnsLeft, remainder, Nat.add_zero, String.append_empty, String.empty_append] at hturns
  exact ⟨fun count => iterate_turn_fst_eq_nil_iff ([.tree tree], "") count, hturns,
    tree.render_eq_prefixForm⟩

/-- The stack grows from one piece to four in the first turn. -/
example : (turn ([.tree (.binary "+" (.literal "1") (.literal "2"))], "")).1.length = 4 ∧
    (Expr.binary "+" (.literal "1") (.literal "2")).turns = 5 ∧
    (Expr.binary "+" (.literal "1") (.literal "2")).prefixForm = "(Add (Const 1) (Const 2))" := by
  decide

end Precedence.Expr
