import Precedence.Proofs.Machine

/-!
# Every reading ends

Two things run out while an expression is read.  In front of the end each prefix form and each
operator takes one of the pending items.  At the end nothing is taken any more, but no operator
follows there, so nothing is folded in, and prefix forms that go on open one level after another up
to the limit.
-/

namespace Precedence.Parser

open Lexer

variable {parser after : Parser}

/-! ## What is taken -/

theorem pending_of_shift_ok {token : Token} (hpending : parser.pending ≠ [])
    (hshift : shift parser = .ok token after) :
    parser.pending = .ok after.current :: after.pending := by
  have hshifted := shifted_shift parser
  rw [hshift] at hshifted
  cases hshifted with
  | stays hnil => exact absurd hnil hpending
  | moves hpending hresolve => exact hpending

theorem pending_of_shift_error {failure : Failure} (hshift : shift parser = .error failure after) :
    ∃ item error, parser.pending = item :: after.pending ∧ failure = .error error := by
  have hshifted := shifted_shift parser
  rw [hshift] at hshifted
  cases hshifted with
  | refuses hpending hrefused => exact ⟨_, _, hpending, rfl⟩

theorem length_pending_of_shift {token : Token} (hshift : shift parser = .ok token after) :
    after.pending.length = parser.pending.length - 1 := by
  have hshifted := shifted_shift parser
  rw [hshift] at hshifted
  cases hshifted with
  | stays hpending => simp [hpending]
  | moves hpending hresolve => simp [hpending]

/-- An expression in front of which items are pending takes one of them at least. -/
theorem length_pending_lt_of_expression {floor : Nat} {tree : Expr}
    (hpending : parser.pending ≠ []) (hread : expression floor parser = .ok tree after) :
    after.pending.length < parser.pending.length := by
  have hfirst : Leads (fun between => between.pending = parser.pending)
      (fun between => between.pending.length < parser.pending.length) (fun _ => True) shift := by
    apply Leads.of_ok
    intro between token after hbetween hshift
    rw [length_pending_of_shift hshift, hbetween]
    exact Nat.sub_one_lt_of_lt (List.length_pos_iff.mpr hpending)
  have hshift : Leads (fun between => between.pending.length < parser.pending.length)
      (fun between => between.pending.length < parser.pending.length) (fun _ => True) shift := by
    apply Leads.of_ok
    intro between token after hbetween hshift
    rw [length_pending_of_shift hshift]
    exact Nat.lt_of_le_of_lt (Nat.sub_le _ _) hbetween
  have hleaves := hfirst.expression hshift (fun _ _ _ hsame => hsame) (fun _ _ _ hfewer => hfewer)
    (fun _ _ _ _ => trivial) (fun _ _ => trivial) (fun _ _ => trivial) floor parser rfl
  rw [hread] at hleaves
  exact hleaves

/-! ## The end of the items -/

/-- From the current token on, the end is the last item, and no other token is the last item. -/
def FinishLast (parser : Parser) : Prop :=
  ∀ token rest, .ok token :: rest <:+ parser.cursor.items → (token.kind = .finish ↔ rest = [])

theorem FinishLast.pending_eq_nil_iff (hlast : parser.FinishLast) :
    parser.current.kind = .finish ↔ parser.pending = [] :=
  hlast parser.current parser.pending (List.suffix_refl _)

theorem FinishLast.of_shift {token : Token} (hlast : parser.FinishLast)
    (hshift : shift parser = .ok token after) : after.FinishLast := by
  have hshifted := shifted_shift parser
  rw [hshift] at hshifted
  cases hshifted with
  | stays hpending => exact hlast
  | moves hpending hresolve =>
      intro token rest hsuffix
      apply hlast token rest
      rw [cursor, Cursor.items, hpending]
      exact hsuffix.trans (List.suffix_cons _ _)

theorem finishLast_ofLexer {grammar : Grammar} {source : String} {file : Option String}
    (hfresh : ofLexer (.ofSource source file) grammar = .ok parser) : parser.FinishLast := by
  obtain ⟨tokens, last, hitems, hkinds, hlast⟩ := items_ofSource source file
  obtain ⟨-, -, hcursor⟩ := of_ofLexer hitems (by simp) hfresh
  intro token rest hsuffix
  rw [hcursor, List.suffix_concat_iff] at hsuffix
  obtain ⟨before, hbefore, hmem⟩ := hsuffix.resolve_left (List.cons_ne_nil _ _)
  cases before with
  | nil =>
      obtain ⟨hend, rfl⟩ := List.cons.inj hbefore
      rcases hlast with rfl | ⟨c, position, rfl⟩
      · cases hend
        exact ⟨fun _ => rfl, fun _ => rfl⟩
      · contradiction
  | cons item before =>
      obtain ⟨rfl, rfl⟩ := List.cons.inj hbefore
      obtain ⟨other, htoken, hother⟩ := List.mem_map.mp (hmem.subset List.mem_cons_self)
      cases hother
      simp [(hkinds token htoken).2]

/-- Nothing is pending, and no operator can be folded in. -/
def AtEnd (parser : Parser) : Prop :=
  parser.pending = [] ∧ parser.rule?.bind Rule.infixRule = none

theorem invariant_atEnd : Invariant AtEnd where
  shift := by
    intro parser hend
    rw [shift, hend.1]
    exact hend
  levels _ _ _ hend := hend

/-- At the end a parser stays there, if the end is not an operator. -/
theorem Settled.atEnd {grammar : Grammar} (hsettled : parser.Settled grammar)
    (hfinish : ∀ rule ∈ grammar.rule? .finish, rule.infixRule = none) (hlast : parser.FinishLast)
    (hkind : parser.current.kind = .finish) : parser.AtEnd := by
  obtain ⟨-, hrule⟩ := Grammar.resolve_eq_ok_iff.mp hsettled.resolve_eq
  refine ⟨hlast.pending_eq_nil_iff.mp hkind, ?_⟩
  rw [hrule]
  exact Grammar.infixOf?_finish hfinish hkind

namespace Machine

variable {state next later : Machine}

/-- An operator is about to be folded in. -/
def Joins (state : Machine) : Prop := ∃ left power, state.control = .call (.joined left power)

/-- The behaviour of a symbol is about to be used, that of a prefix form or that of an operator. -/
def Handles (state : Machine) : Prop :=
  (∃ form power, state.control = .call (.prefixed form power)) ∨ state.Joins

/-- A failure is on its way out. -/
def Failed (state : Machine) : Prop := ∃ failure, state.control = .answer (.error failure)

theorem Failed.step (hfailed : state.Failed) (hstep : state.step = some next) : next.Failed := by
  obtain ⟨parser, control, frames⟩ := state
  obtain ⟨failure, rfl⟩ := hfailed
  cases frames with
  | nil => contradiction
  | cons frame frames =>
      cases hstep
      cases frame <;> exact ⟨failure, rfl⟩

/-- Until a failure comes up, the end stays behind all other items. -/
theorem finishLast_of_step (hstate : state.Failed ∨ state.parser.FinishLast)
    (hstep : state.step = some next) : next.Failed ∨ next.parser.FinishLast := by
  rcases hstate with hfailed | hlast
  · exact .inl (hfailed.step hstep)
  · cases moved_of_step hstep with
    | opens hdepth hparser | closes hparser | stays hparser =>
        rw [hparser]
        exact .inr hlast
    | shifts hshifts hlevels =>
        cases hshifts with
        | moves hshift => exact .inr (hlast.of_shift hshift)
        | refuses hshift hcontrol => exact .inl ⟨_, hcontrol⟩

theorem not_joins_answer (parser : Parser) (outcome : Except Failure Expr) (frames : List Frame) :
    ¬ Joins ⟨parser, .answer outcome, frames⟩ := by
  rintro ⟨left, power, hcontrol⟩
  contradiction

theorem not_joins_attempt {α : Type} {move : Parse α} {parser : Parser} {frames : List Frame}
    {proceed : α → Parser → Machine} (hproceed : ∀ value after, ¬ (proceed value after).Joins) :
    ¬ (attempt move parser frames proceed).Joins := by
  cases hmove : move parser with
  | ok value after =>
      rw [attempt_ok hmove]
      exact hproceed value after
  | error failure after =>
      rw [attempt_error hmove]
      exact not_joins_answer after (.error failure) frames

theorem not_joins_enter (parser : Parser) (frames : List Frame) (call : Call) :
    ¬ (enter parser frames call).Joins := by
  cases call with
  | expression floor =>
      apply not_joins_attempt
      rintro _ after ⟨left, power, ⟨⟩⟩
  | prefixed form power =>
      apply not_joins_attempt
      rintro token after ⟨left, power, hcontrol⟩
      cases form <;> cases hcontrol
  | joined left power =>
      apply not_joins_attempt
      rintro token after ⟨left, power, ⟨⟩⟩

/-- What is folded in has a rule for that. -/
theorem Joins.infixRule_ne_none (hjoins : next.Joins) (hstep : state.step = some next) :
    next.parser.rule?.bind Rule.infixRule ≠ none := by
  obtain ⟨parser, control, frames⟩ := state
  cases control with
  | call call =>
      cases hstep
      exact absurd hjoins (not_joins_enter parser frames call)
  | chain floor =>
      cases hstep
      rw [enterChain] at hjoins
      obtain ⟨left, power, hcontrol⟩ := hjoins
      split at hcontrol <;> cases hcontrol
  | answer outcome =>
      cases frames with
      | nil => contradiction
      | cons frame frames =>
          cases outcome with
          | error failure =>
              cases hstep
              cases frame <;> exact absurd hjoins (not_joins_answer _ _ _)
          | ok tree =>
              cases hstep
              cases frame with
              | level | sign | join => exact absurd hjoins (not_joins_answer _ _ _)
              | close =>
                  rw [resume] at hjoins
                  split at hjoins
                  · exact absurd hjoins (not_joins_attempt fun _ _ => not_joins_answer _ _ _)
                  · exact absurd hjoins (not_joins_answer _ _ _)
              | fold floor =>
                  by_cases hpower : floor < parser.power
                  · cases hrule : parser.rule?.bind Rule.infixRule with
                    | none =>
                        rw [resume, if_pos hpower, hrule] at hjoins
                        exact absurd hjoins (not_joins_answer _ _ _)
                    | some rule => simp [resume, hpower, hrule]
                  · rw [resume, if_neg hpower] at hjoins
                    exact absurd hjoins (not_joins_answer _ _ _)

/-- Wherever the machine comes from a call of an expression, only operators are folded in. -/
theorem infixRule_ne_none_of_reaches {floor : Nat}
    (hreaches : (start parser (.expression floor)).Reaches state) (hjoins : state.Joins) :
    state.parser.rule?.bind Rule.infixRule ≠ none := by
  rcases Relation.ReflTransGen.cases_tail hreaches with rfl | ⟨before, -, hstep⟩
  · obtain ⟨left, power, ⟨⟩⟩ := hjoins
  · exact hjoins.infixRule_ne_none hstep

/-- A behaviour is used by moving on from its symbol. -/
theorem Handles.exists_shifts (hhandles : state.Handles) :
    ∃ next, state.step = some next ∧ Shifts state next := by
  obtain ⟨parser, control, frames⟩ := state
  rcases hhandles with ⟨form, power, rfl⟩ | ⟨left, power, rfl⟩
  · exact ⟨_, rfl, shifts_enter_prefixed parser frames form power⟩
  · exact ⟨_, rfl, shifts_enter_joined parser frames left power⟩

/-- Where a call begins, the end is behind all other items. -/
theorem finishLast_of_reaches {call call' : Call} (hlast : parser.FinishLast)
    (hreaches : (start parser call).Reaches state) (hcall : state.control = .call call') :
    state.parser.FinishLast := by
  rcases hreaches.invariant (fun _ _ => finishLast_of_step) (.inr hlast) with ⟨_, hfailed⟩ | hlast
  · rw [hcall] at hfailed
    cases hfailed
  · exact hlast

theorem Handles.exists_call (hhandles : state.Handles) : ∃ call, state.control = .call call := by
  rcases hhandles with ⟨form, power, hcall⟩ | ⟨left, power, hcall⟩
  · exact ⟨_, hcall⟩
  · exact ⟨_, hcall⟩

end Machine

/-! ## Readings end -/

/-- The reading of an expression comes to an end, since everything in it goes forward: what is used
in front of the end takes an item, or nothing else is done; behind what is used at the end nothing
is folded in; and each expression takes one item at least. -/
structure Progresses (floor : Nat) (parser : Parser) : Prop where
  ends : Reading.Ends (expression floor parser) ∧
    (Machine.start parser (.expression floor)).Reaches
      (Machine.answered (expression floor parser) [])
  moves : ∀ state, (Machine.start parser (.expression floor)).Reaches state → state.Handles →
    state.parser.current.kind ≠ .finish → ∃ item next, state.step = some next ∧
      state.parser.pending = item :: next.parser.pending ∧
      (item = .ok next.parser.current ∨
        ∃ error after, expression floor parser = .error (.error error) after)
  stops : ∀ state, (Machine.start parser (.expression floor)).Reaches state → state.Handles →
    state.parser.current.kind = .finish → ∀ later, state.Reaches later → ¬ later.Joins
  takes : ∀ state floor', (Machine.start parser (.expression floor)).Reaches state →
    state.control = .call (.expression floor') → state.parser.current.kind ≠ .finish →
    ∀ tree after, expression floor' state.parser = .ok tree after →
      after.pending.length < state.parser.pending.length

section Source

variable {grammar : Grammar} {source : String} {file : Option String}

/-- With the end no operator, no reading of an expression goes on for ever. -/
theorem ends_expression (hfinish : ∀ rule ∈ grammar.rule? .finish, rule.infixRule = none)
    (hfresh : ofLexer (.ofSource source file) grammar = .ok parser) (floor limit : Nat) :
    Reading.Ends (expression floor (parser.withLimit limit)) := by
  obtain ⟨tokens, done, left, -, -, -, hitems⟩ := exists_row source file
  obtain ⟨rfl, hdepth, hcursor⟩ := of_ofLexer hitems (by simp) hfresh
  obtain ⟨result, hrun⟩ := Run.exists_read parser.grammar limit limit floor parser.cursor
  have hstays := hrun.stays (List.suffix_refl _)
  rw [expression_withLimit hdepth hrun]
  cases result with
  | ok tree after => trivial
  | error failure after =>
      rw [hcursor] at hstays
      exact Failure.ComesFrom.ne_endless hstays hfinish

/-- A reading that ends does so since everything in it goes forward. -/
theorem progresses_of_ends {floor : Nat} (hends : Reading.Ends (expression floor parser))
    (hfinish : ∀ rule ∈ grammar.rule? .finish, rule.infixRule = none)
    (hsettled : parser.Settled grammar) (hlast : parser.FinishLast) : Progresses floor parser := by
  have hanswered := Machine.reaches_answered (.expression floor) parser [] hends
  refine ⟨⟨hends, hanswered⟩, ?_, ?_, ?_⟩
  · intro state hreaches hhandles hkind
    obtain ⟨call, hcall⟩ := hhandles.exists_call
    have hpending : state.parser.pending ≠ [] :=
      mt (Machine.finishLast_of_reaches hlast hreaches hcall).pending_eq_nil_iff.mpr hkind
    obtain ⟨next, hstep, hshifts⟩ := hhandles.exists_shifts
    cases hshifts with
    | moves hshift => exact ⟨_, next, hstep, pending_of_shift_ok hpending hshift, .inl rfl⟩
    | refuses hshift hcontrol =>
        obtain ⟨item, error, hitem, rfl⟩ := pending_of_shift_error hshift
        obtain ⟨after, hafter⟩ :=
          Machine.eq_error_of_reaches hanswered (hreaches.tail hstep) hcontrol
        exact ⟨item, next, hstep, hitem, .inr ⟨error, after, hafter⟩⟩
  · intro state hreaches hhandles hkind later hlater hjoins
    obtain ⟨call, hcall⟩ := hhandles.exists_call
    have hend := (hreaches.property (invariant_settled grammar) hsettled).atEnd hfinish
      (Machine.finishLast_of_reaches hlast hreaches hcall) hkind
    have hlaterEnd := hlater.property invariant_atEnd hend
    exact Machine.infixRule_ne_none_of_reaches (hreaches.trans hlater) hjoins hlaterEnd.2
  · intro state floor' hreaches hcall hkind tree after hread
    have hpending : state.parser.pending ≠ [] :=
      mt (Machine.finishLast_of_reaches hlast hreaches hcall).pending_eq_nil_iff.mpr hkind
    exact length_pending_lt_of_expression hpending hread

/-- Every expression that a source begins with is read in finite time, above any floor and within
any limit, if the end is not an operator. -/
theorem progresses_expression (hfinish : ∀ rule ∈ grammar.rule? .finish, rule.infixRule = none)
    (hfresh : ofLexer (.ofSource source file) grammar = .ok parser) (floor limit : Nat) :
    Progresses floor (parser.withLimit limit) := by
  have hends := ends_expression hfinish hfresh floor limit
  have hsettled : parser.Settled grammar := @settled_ofLexer grammar parser source file 0 hfresh
  have hlast : (parser.withLimit limit).FinishLast :=
    fun token rest hsuffix => finishLast_ofLexer hfresh token rest hsuffix
  exact progresses_of_ends hends hfinish ((invariant_settled grammar).levels _ _ limit hsettled)
    hlast

/-- The end may still begin expressions.  Here it is a sign, which is put before itself until the
limit is reached. -/
theorem progresses_expression_sign :
    let grammar := Grammar.arithmetic.addPrefix .finish 0 .sign
    let parser : Parser :=
      { grammar
        current := ⟨.number, "1", ⟨0, 1, "shell"⟩⟩
        pending := [.ok ⟨.operator, "+", ⟨1, 2, "shell"⟩⟩, .ok (.closing 2 "shell")]
        depth := 0
        limit := standardLimit }
    ofLexer (.ofSource "1+" none) grammar = .ok parser ∧
      Reading.GaveUp 5 2 (expression 0 (parser.withLimit 5)) ∧
      Progresses 0 (parser.withLimit 5) := by
  intro grammar parser
  have hfresh : ofLexer (.ofSource "1+" none) grammar = .ok parser := by decide +kernel
  exact ⟨hfresh, by decide +kernel, progresses_expression (by decide +kernel) hfresh 0 5⟩

end Source

end Precedence.Parser
