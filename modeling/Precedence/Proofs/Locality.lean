import Precedence.Proofs.Run

/-!
# What a run does not look at

A run looks at no item beyond the place where it leaves the parser.  So the items behind that place
may be replaced by others, and the run comes to the same result.  More levels may be allowed too,
unless it was the limit that ended the run.
-/

namespace Precedence

open Lexer

/-- The failure was neither for the limit on levels nor for want of an end. -/
def Failure.IsLocal : Failure → Prop
  | .error cause => ∀ limit, cause.fault ≠ .nestingTooDeep limit
  | .endless => False

namespace Cursor

variable {grammar : Grammar} {rest other : List Item} {cursor : Cursor}

/-- Replaces the last items, as many as `rest` has, by others. -/
def splice (rest other : List Item) (cursor : Cursor) : Cursor :=
  { cursor with pending := cursor.pending.take (cursor.pending.length - rest.length) ++ other }

theorem pending_splice {front : List Item} (hpending : cursor.pending = front ++ rest) :
    (cursor.splice rest other).pending = front ++ other := by
  simp [splice, hpending]

theorem splice_eq {front : List Item} (hpending : cursor.pending = front ++ rest) :
    cursor.splice rest other = ⟨cursor.current, front ++ other⟩ := by
  rw [splice, ← pending_splice hpending]
  rfl

end Cursor

namespace Outcome

variable {α β : Type} {rest other : List Item}

def splice (rest other : List Item) : Outcome α → Outcome α
  | .ok value cursor => .ok value (cursor.splice rest other)
  | .error failure cursor => .error failure (cursor.splice rest other)

/-- The outcome does not depend on the limit. -/
def IsLocal : Outcome α → Prop
  | .ok _ _ => True
  | .error failure _ => failure.IsLocal

theorem map_splice (f : α → β) (outcome : Outcome α) :
    (outcome.splice rest other).map f = (outcome.map f).splice rest other := by
  cases outcome <;> rfl

theorem isLocal_map {f : α → β} {outcome : Outcome α} :
    (outcome.map f).IsLocal ↔ outcome.IsLocal := by
  cases outcome <;> exact Iff.rfl

end Outcome

namespace Cursor

variable {grammar : Grammar} {rest other : List Item} {cursor : Cursor}

theorem shift_splice (hend : rest = [] → other = [])
    (hrest : rest <:+ (cursor.shift grammar).cursor.pending) :
    (cursor.splice rest other).shift grammar = (cursor.shift grammar).splice rest other := by
  obtain ⟨current, pending⟩ := cursor
  cases pending with
  | nil =>
      obtain rfl : rest = [] := List.suffix_nil.mp hrest
      obtain rfl : other = [] := hend rfl
      rfl
  | cons item pending =>
      have hpending : rest <:+ pending := by
        cases item with
        | error error => exact hrest
        | ok next =>
            cases hcheck : grammar.checkOperator next <;>
              simpa [shift, hcheck, Outcome.cursor] using hrest
      obtain ⟨front, rfl⟩ := hpending
      have hwhole : item :: (front ++ rest) = (item :: front) ++ rest := rfl
      rw [splice_eq hwhole]
      cases item with
      | error error => simp [shift, Outcome.splice, splice]
      | ok next =>
          cases hcheck : grammar.checkOperator next <;>
            simp [shift, Outcome.splice, splice, hcheck]

theorem items_splice {front : List Item} (hitems : cursor.items = front ++ rest)
    (hfront : front ≠ []) : (cursor.splice rest other).items = front ++ other := by
  cases front with
  | nil => contradiction
  | cons first front =>
      obtain ⟨hcurrent, hpending⟩ := List.cons.inj hitems
      rw [items, pending_splice hpending, ← hcurrent]
      rfl

theorem pending_splice_ne_nil {next : Cursor} {token : Token}
    (hshift : cursor.shift grammar = .ok token next) (hrest : rest <:+ next.pending)
    (hpending : cursor.pending ≠ []) : (cursor.splice rest other).pending ≠ [] := by
  obtain ⟨front, hfront⟩ := hrest
  rcases (shift_ok hshift).2 with ⟨hnil, -⟩ | ⟨hcons, -⟩
  · exact absurd hnil hpending
  · have hwhole : cursor.pending = (.ok next.current :: front) ++ rest := by
      rw [hcons, ← hfront]
      rfl
    rw [pending_splice hwhole]
    exact List.cons_ne_nil _ _

theorem close_splice {inner : Outcome Expr} (hend : rest = [] → other = [])
    (hrest : rest <:+ (close grammar inner).cursor.pending) :
    close grammar (inner.splice rest other) = (close grammar inner).splice rest other := by
  cases inner with
  | error failure cursor => rfl
  | ok tree cursor =>
      have hcurrent : (cursor.splice rest other).current = cursor.current := rfl
      rw [Outcome.splice, close, close, hcurrent]
      rw [close] at hrest
      split
      · next hcloses =>
          rw [if_pos hcloses, Outcome.cursor_map] at hrest
          rw [shift_splice hend hrest, Outcome.map_splice]
      · rfl

end Cursor

/-- The task with other items at its end and with more levels to open. -/
def Task.splice (rest other : List Item) (more : Nat) : Task → Task
  | .read room floor cursor => .read (room + more) floor (cursor.splice rest other)
  | .begin room rule cursor => .begin (room + more) rule (cursor.splice rest other)
  | .fold room floor left => .fold (room + more) floor (left.splice rest other)

namespace Run

variable {grammar : Grammar} {limit : Nat} {task : Task} {result : Outcome Expr}
variable {rest other : List Item}

theorem left_isLocal {room floor : Nat} {left : Outcome Expr}
    (hfold : Run grammar limit (.fold room floor left) result) (hlocal : result.IsLocal) :
    left.IsLocal := by
  cases left with
  | ok tree cursor => trivial
  | error failure cursor =>
      cases hfold
      exact hlocal

theorem inner_isLocal {inner : Outcome Expr} (hlocal : (Cursor.close grammar inner).IsLocal) :
    inner.IsLocal := by
  cases inner with
  | ok tree cursor => trivial
  | error failure cursor => exact hlocal

/-- A run comes to the same result with other items behind the place where it stops. -/
theorem splice (hend : rest = [] → other = []) (limit' more : Nat)
    (hrun : Run grammar limit task result)
    (hlocal : result.IsLocal ∨ limit' = limit ∧ more = 0)
    (hrest : rest <:+ result.cursor.pending) :
    Run grammar limit' (task.splice rest other more) (result.splice rest other) := by
  have hshifts {cursor : Cursor} {outcome : Outcome Token}
      (hshift : cursor.shift grammar = outcome) (hrest : rest <:+ outcome.cursor.pending) :
      (cursor.splice rest other).shift grammar = outcome.splice rest other := by
    rw [← hshift] at hrest ⊢
    exact Cursor.shift_splice hend hrest
  induction hrun with
  | tooDeep =>
      rcases hlocal with hlocal | ⟨rfl, rfl⟩
      · exact absurd rfl (hlocal limit)
      · exact .tooDeep
  | @noPrefix room floor cursor hrule =>
      rw [Task.splice, Nat.add_right_comm]
      exact .noPrefix hrule
  | @read room floor cursor rule left result hrule hleft hfold ihleft ihfold =>
      rw [Task.splice, Nat.add_right_comm]
      have hsuffix : rest <:+ left.cursor.pending := hrest.trans hfold.pending_suffix
      have hleft' := ihleft (hlocal.imp_left (left_isLocal hfold)) hsuffix
      exact .read hrule hleft' (ihfold hlocal hrest)
  | @stuckPrefix room rule cursor failure next hshift =>
      exact .stuckPrefix (hshifts hshift hrest)
  | @atom room power cursor token next hshift => exact .atom (hshifts hshift hrest)
  | @sign room power cursor token next operand hshift hoperand ih =>
      rw [← Outcome.map_splice]
      rw [Outcome.isLocal_map] at hlocal
      rw [Outcome.cursor_map] at hrest
      have hnext : rest <:+ next.pending := hrest.trans hoperand.pending_suffix
      exact .sign (hshifts hshift hnext) (ih hlocal hrest)
  | @group room power cursor token next inner hshift hinner ih =>
      rw [← Cursor.close_splice hend hrest]
      have hclosing : rest <:+ inner.cursor.pending :=
        hrest.trans (Cursor.pending_close_suffix grammar inner)
      have hnext : rest <:+ next.pending := hclosing.trans hinner.pending_suffix
      exact .group (hshifts hshift hnext) (ih (hlocal.imp_left inner_isLocal) hclosing)
  | failed => exact .failed
  | stop hpower => exact .stop hpower
  | noInfix hpower hrule => exact .noInfix hpower hrule
  | @stuckInfix room floor left cursor rule failure next hpower hrule hshift =>
      exact .stuckInfix hpower hrule (hshifts hshift hrest)
  | @join room floor left cursor rule token next right result hpower hrule hshift hright hpending
      hfold ihright ihfold =>
      have hafter : rest <:+ right.cursor.pending := by
        have hsuffix := hfold.pending_suffix
        rw [Task.cursor, Outcome.cursor_map] at hsuffix
        exact hrest.trans hsuffix
      have hright' := ihright
        (hlocal.imp_left fun hlocal => Outcome.isLocal_map.mp (left_isLocal hfold hlocal)) hafter
      have hnext : rest <:+ next.pending := hafter.trans hright.pending_suffix
      have hfold' := ihfold hlocal hrest
      rw [Task.splice, ← Outcome.map_splice] at hfold'
      have hpower' : floor < grammar.powerOf (cursor.splice rest other).current := hpower
      apply Run.join hpower' hrule (hshifts hshift hnext) hright' _ hfold'
      intro tree after hok
      cases right with
      | error failure further => contradiction
      | ok second further => exact Cursor.pending_splice_ne_nil hshift hnext (hpending _ _ rfl)
  | @endless room floor left cursor rule right after hpower hrule hpending hright ih =>
      rcases hlocal with hlocal | hsame
      · exact hlocal.elim
      · obtain rfl : rest = [] := by rwa [Outcome.cursor, hpending, List.suffix_nil] at hrest
        obtain rfl : other = [] := hend rfl
        have hnil : (cursor.splice [] []).pending = [] := by simp [Cursor.splice, hpending]
        exact .endless hpower hrule hnil (ih (.inr hsame) List.nil_suffix)

end Run

end Precedence
