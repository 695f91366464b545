import Precedence.Proofs.Machine

/-!
# Levels of nesting

A parser counts the levels that are open.  Each level is opened and closed by the same call, and no
failure gets past the closing.  So a call leaves as many levels open as it found, no more than the
limit allows are open in between, and a level is closed only where one is open.
-/

namespace Precedence.Parser

namespace Machine

variable {depth limit : Nat} {state next : Machine}

/-- Behind a call that began with so many levels open, the parser counts these and the levels that
are still to be closed. -/
structure Counts (depth limit : Nat) (state : Machine) : Prop where
  depth_eq : state.parser.depth = depth + state.levels
  limit_eq : state.parser.limit = limit
  depth_le : state.parser.depth ≤ max depth limit

theorem counts_start (parser : Parser) (call : Call) :
    Counts parser.depth parser.limit (start parser call) where
  depth_eq := rfl
  limit_eq := rfl
  depth_le := Nat.le_max_left _ _

theorem Counts.of_atLevel (hcounts : Counts depth limit state)
    (hparser : next.parser.AtLevel state.parser.depth state.parser.limit)
    (hlevels : next.levels = state.levels) : Counts depth limit next where
  depth_eq := by rw [hparser.1, hlevels, hcounts.depth_eq]
  limit_eq := hparser.2.trans hcounts.limit_eq
  depth_le := hparser.1 ▸ hcounts.depth_le

theorem Counts.step (hcounts : Counts depth limit state) (hstep : state.step = some next) :
    Counts depth limit next := by
  obtain ⟨hdepth, hlimit, hle⟩ := hcounts
  cases moved_of_step hstep with
  | opens hroom hparser hlevels =>
      have hdepth' : next.parser.depth = state.parser.depth + 1 := by rw [hparser]
      have hlimit' : next.parser.limit = state.parser.limit := by rw [hparser]
      refine ⟨by omega, by omega, ?_⟩
      apply Nat.le_trans _ (Nat.le_max_right depth limit)
      omega
  | closes hparser hlevels =>
      have hdepth' : next.parser.depth = state.parser.depth - 1 := by rw [hparser]; rfl
      have hlimit' : next.parser.limit = state.parser.limit := by rw [hparser]; rfl
      exact ⟨by omega, by omega, by omega⟩
  | shifts hshifts hlevels =>
      have hparser := hshifts.keeps atLevel_shift ⟨rfl, rfl⟩
      exact Counts.of_atLevel ⟨hdepth, hlimit, hle⟩ hparser hlevels
  | stays hparser hlevels =>
      exact Counts.of_atLevel ⟨hdepth, hlimit, hle⟩ (by rw [hparser]; exact ⟨rfl, rfl⟩) hlevels

theorem counts_of_reaches {parser : Parser} {call : Call}
    (hreaches : Reaches (start parser call) state) : Counts parser.depth parser.limit state :=
  hreaches.invariant (fun _ _ hcounts hstep => hcounts.step hstep) (counts_start parser call)

/-- The next move closes a level. -/
def ClosesLevel (state : Machine) : Prop :=
  ∃ outcome frames, state.control = .answer outcome ∧ state.frames = .level :: frames

theorem Counts.depth_pos (hcounts : Counts depth limit state) (hcloses : state.ClosesLevel) :
    0 < state.parser.depth := by
  obtain ⟨outcome, frames, -, hframes⟩ := hcloses
  have hlevels : 0 < state.levels := by
    rw [levels, hframes, List.count_cons_self]
    exact Nat.succ_pos _
  rw [hcounts.depth_eq]
  exact Nat.add_pos_right depth hlevels

end Machine

/-- The call leaves as many levels open as it found.  While it lasts, and it lasts until the machine
comes to its outcome, there are never more levels open than before or than the limit allows, and a
level that is closed was open. -/
structure Call.Balanced (call : Call) (parser : Parser) : Prop where
  restores : (remaining (call.run parser)).depth = parser.depth
  reaches : Reading.Ends (call.run parser) →
    (Machine.start parser call).Reaches (Machine.answered (call.run parser) [])
  bounded : ∀ state, (Machine.start parser call).Reaches state →
    state.parser.depth ≤ max parser.depth parser.limit
  closes : ∀ state, (Machine.start parser call).Reaches state → state.ClosesLevel →
    0 < state.parser.depth

/-- Every call is balanced, on every parser, whatever it comes to. -/
theorem Call.balanced (call : Call) (parser : Parser) : call.Balanced parser where
  restores := by
    have hlevel := call.atLevel_run parser ⟨rfl, rfl⟩
    cases hresult : call.run parser with
    | ok tree after =>
        rw [hresult] at hlevel
        exact hlevel.1
    | error failure after =>
        rw [hresult] at hlevel
        exact hlevel.1
  reaches := Machine.reaches_answered call parser []
  bounded state hreaches := (Machine.counts_of_reaches hreaches).depth_le
  closes state hreaches hcloses := (Machine.counts_of_reaches hreaches).depth_pos hcloses

/-- Behind the second sign the limit is reached, and both levels are closed again. -/
example :
    let parser := fresh .arithmetic
      ⟨⟨.operator, "-", ⟨0, 1, "shell"⟩⟩, [.ok ⟨.operator, "-", ⟨1, 2, "shell"⟩⟩,
        .ok ⟨.number, "1", ⟨2, 3, "shell"⟩⟩, .ok (.closing 3 "shell")]⟩
    (remaining (expression 0 (parser.withLimit 2))).position.offset = 2 ∧
      (remaining (expression 0 (parser.withLimit 2))).depth = 0 := by
  decide

end Precedence.Parser
