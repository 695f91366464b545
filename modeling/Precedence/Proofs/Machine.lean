import Mathlib.Logic.Relation
import Precedence.Proofs.Limit
import Precedence.Proofs.Operation

/-!
# The parser as a machine

The functions that read expressions call each other, so what they come to says nothing of the
parsers in between.  The machine does the same one move at a time.  What is still to be done with
the outcome of a call waits on a stack of frames, and each state of the machine shows the parser at
that moment.  Where a call has an end, the machine walks from the call to what the call comes to.
-/

namespace Precedence

namespace Parser

/-- The calls that a reading is made of. -/
inductive Call where
  /-- An expression is read above the floor. -/
  | expression (floor : Nat)
  /-- A prefix form is read from the current token on. -/
  | prefixed (form : PrefixForm) (power : Nat)
  /-- The current token joins the left operand to a right one, which is read above the power. -/
  | joined (left : Expr) (power : Nat)

/-- What a call comes to. -/
def Call.run : Call → Parse Expr
  | .expression floor => Parser.expression floor
  | .prefixed form power => Parser.prefixed Parser.expression form power
  | .joined left power => Parser.joined Parser.expression left power

/-- What waits for the outcome of a call. -/
inductive Frame where
  /-- The level of an expression is closed. -/
  | level
  /-- Operators above the floor are folded in. -/
  | fold (floor : Nat)
  /-- The sign is put before its operand. -/
  | sign (operator : Token)
  /-- The operator is put between its operands. -/
  | join (operator : Token) (left : Expr)
  /-- The closing of a group is due. -/
  | close
  deriving DecidableEq

/-- What the machine does next. -/
inductive Control where
  | call (call : Call)
  /-- Reads a prefix form and folds in what follows it, on a level that is open. -/
  | chain (floor : Nat)
  /-- Hands an outcome on to the innermost frame. -/
  | answer (outcome : Except Failure Expr)

/-- A parser in the middle of a reading. -/
structure Machine where
  parser : Parser
  control : Control
  /-- What waits for the outcome, the innermost first. -/
  frames : List Frame

namespace Machine

/-- The state in which a call begins. -/
def start (parser : Parser) (call : Call) : Machine := ⟨parser, .call call, []⟩

/-- The state in which an outcome is there. -/
def answered : Reading → List Frame → Machine
  | .ok tree parser, frames => ⟨parser, .answer (.ok tree), frames⟩
  | .error failure parser, frames => ⟨parser, .answer (.error failure), frames⟩

/-- Makes a move and goes on with its value, or hands on its failure. -/
def attempt {α : Type} (move : Parse α) (parser : Parser) (frames : List Frame)
    (proceed : α → Parser → Machine) : Machine :=
  match move parser with
  | .ok value parser => proceed value parser
  | .error failure parser => ⟨parser, .answer (.error failure), frames⟩

section Attempt

variable {α : Type} {move : Parse α} {parser after : Parser} {frames : List Frame}
variable {proceed : α → Parser → Machine}

theorem attempt_ok {value : α} (hmove : move parser = .ok value after) :
    attempt move parser frames proceed = proceed value after := by
  rw [attempt, hmove]

theorem attempt_error {failure : Failure} (hmove : move parser = .error failure after) :
    attempt move parser frames proceed = ⟨after, .answer (.error failure), frames⟩ := by
  rw [attempt, hmove]

end Attempt

/-- How a call begins. -/
def enter (parser : Parser) (frames : List Frame) : Call → Machine
  | .expression floor =>
    attempt openLevel parser frames fun _ parser => ⟨parser, .chain floor, .level :: frames⟩
  | .prefixed form power =>
    attempt shift parser frames fun token parser =>
      match form with
      | .atom => ⟨parser, .answer (.ok token.leaf), frames⟩
      | .sign => ⟨parser, .call (.expression power), .sign token :: frames⟩
      | .group => ⟨parser, .call (.expression Grammar.loosestPower), .close :: frames⟩
  | .joined left power =>
    attempt shift parser frames fun token parser =>
      ⟨parser, .call (.expression power), .join token left :: frames⟩

/-- Looks for the prefix form of the current token. -/
def enterChain (parser : Parser) (frames : List Frame) (floor : Nat) : Machine :=
  match parser.rule?.bind Rule.prefixRule with
  | none => answered (unexpected parser) frames
  | some rule => ⟨parser, .call (.prefixed rule.form rule.power), .fold floor :: frames⟩

/-- What a frame does with a tree. -/
def resume (parser : Parser) (frames : List Frame) (tree : Expr) : Frame → Machine
  | .level => ⟨parser.closeLevel, .answer (.ok tree), frames⟩
  | .fold floor =>
    if floor < parser.power then
      match parser.rule?.bind Rule.infixRule with
      | none => answered (unexpected parser) frames
      | some rule => ⟨parser, .call (.joined tree rule.rightPower), .fold floor :: frames⟩
    else ⟨parser, .answer (.ok tree), frames⟩
  | .sign operator => ⟨parser, .answer (.ok (.unary operator.lexeme tree)), frames⟩
  | .join operator left => ⟨parser, .answer (.ok (.binary operator.lexeme left tree)), frames⟩
  | .close =>
    if closesGroup parser.current then
      attempt shift parser frames fun _ parser => ⟨parser, .answer (.ok tree), frames⟩
    else answered (refuse (.unclosedGroup parser.current.lexeme) parser) frames

/-- What a frame does with a failure. -/
def abandon (parser : Parser) (frames : List Frame) (failure : Failure) : Frame → Machine
  | .level => ⟨parser.closeLevel, .answer (.error failure), frames⟩
  | .fold _ | .sign _ | .join _ _ | .close => ⟨parser, .answer (.error failure), frames⟩

/-- One move of the machine.  It comes to rest where no frame waits for an outcome. -/
def step : Machine → Option Machine
  | ⟨parser, .call call, frames⟩ => some (enter parser frames call)
  | ⟨parser, .chain floor, frames⟩ => some (enterChain parser frames floor)
  | ⟨_, .answer _, []⟩ => none
  | ⟨parser, .answer (.ok tree), frame :: frames⟩ => some (resume parser frames tree frame)
  | ⟨parser, .answer (.error failure), frame :: frames⟩ =>
    some (abandon parser frames failure frame)

/-- Moves of the machine lead from one state to the other. -/
def Reaches : Machine → Machine → Prop :=
  Relation.ReflTransGen fun state next => state.step = some next

variable {state next last other : Machine}

theorem Reaches.of_step (hstep : state.step = some next) : Reaches state next :=
  .single hstep

theorem Reaches.trans (hfirst : Reaches state next) (hrest : Reaches next last) :
    Reaches state last :=
  Relation.ReflTransGen.trans hfirst hrest

/-- What holds at first and is kept by each move holds at all times. -/
theorem Reaches.invariant {property : Machine → Prop}
    (hkeeps : ∀ state next, property state → state.step = some next → property next)
    (hreaches : Reaches state last) (hstate : property state) : property last := by
  induction hreaches with
  | refl => exact hstate
  | tail _ hstep ih => exact hkeeps _ _ ih hstep

/-- The machine has one state at most to come to rest in. -/
theorem Reaches.eq_of_rest (hlast : Reaches state last) (hother : Reaches state other)
    (hrest : last.step = none) (hrest' : other.step = none) : last = other := by
  induction hlast using Relation.ReflTransGen.head_induction_on with
  | refl =>
      rcases Relation.ReflTransGen.cases_head hother with rfl | ⟨next, hstep, -⟩
      · rfl
      · rw [hrest] at hstep
        contradiction
  | head hstep _ ih =>
      rcases Relation.ReflTransGen.cases_head hother with rfl | ⟨next, hstep', hnext⟩
      · rw [hrest'] at hstep
        contradiction
      · rw [hstep] at hstep'
        cases hstep'
        exact ih hnext

theorem step_answered_nil (reading : Reading) : (answered reading []).step = none := by
  cases reading <;> rfl

/-- A failure is handed on through all frames. -/
theorem exists_reaches_error (parser : Parser) (failure : Failure) (frames : List Frame) :
    ∃ after, Reaches ⟨parser, .answer (.error failure), frames⟩
      ⟨after, .answer (.error failure), []⟩ := by
  induction frames generalizing parser with
  | nil => exact ⟨parser, .refl⟩
  | cons frame frames ih =>
      cases frame with
      | level =>
          obtain ⟨after, hrest⟩ := ih parser.closeLevel
          exact ⟨after, .head rfl hrest⟩
      | fold | sign | join | close =>
          obtain ⟨after, hrest⟩ := ih parser
          exact ⟨after, .head rfl hrest⟩

/-- A failure that comes up once is what the machine comes to. -/
theorem eq_error_of_reaches {reading : Reading} {failure : Failure}
    (hanswered : Reaches state (answered reading [])) (hreaches : Reaches state next)
    (hcontrol : next.control = .answer (.error failure)) : ∃ after, reading = .error failure after := by
  obtain ⟨parser, control, frames⟩ := next
  obtain rfl : control = .answer (.error failure) := hcontrol
  obtain ⟨after, hafter⟩ := exists_reaches_error parser failure frames
  have hsame := hanswered.eq_of_rest (hreaches.trans hafter) (step_answered_nil reading) rfl
  cases reading with
  | ok tree parser => cases hsame
  | error failure' parser =>
      cases hsame
      exact ⟨after, rfl⟩

/-! ## What one move does -/

/-- The number of levels that are still to be closed. -/
def levels (state : Machine) : Nat := state.frames.count .level

/-- The parser moves on, or the failure to do so is handed on. -/
inductive Shifts (state next : Machine) : Prop
  | moves {token : Token} (hshift : shift state.parser = .ok token next.parser)
  | refuses {failure : Failure} (hshift : shift state.parser = .error failure next.parser)
      (hcontrol : next.control = .answer (.error failure))

/-- What moving on keeps is kept, whether the parser moves on or not. -/
theorem Shifts.keeps {property : Parser → Prop} (hshifts : Shifts state next)
    (hkeeps : Leads property property property shift) (hstate : property state.parser) :
    property next.parser := by
  have hnext := hkeeps state.parser hstate
  cases hshifts with
  | moves hshift =>
      rw [hshift] at hnext
      exact hnext
  | refuses hshift hcontrol =>
      rw [hshift] at hnext
      exact hnext

/-- What one move does to the parser and to the levels that are to be closed. -/
inductive Moved (state next : Machine) : Prop
  | opens (hdepth : state.parser.depth < state.parser.limit)
      (hparser : next.parser = { state.parser with depth := state.parser.depth + 1 })
      (hlevels : next.levels = state.levels + 1)
  | closes (hparser : next.parser = state.parser.closeLevel)
      (hlevels : state.levels = next.levels + 1)
  | shifts (hshifts : Shifts state next) (hlevels : next.levels = state.levels)
  | stays (hparser : next.parser = state.parser) (hlevels : next.levels = state.levels)

section Attempt

variable {parser : Parser} {control : Control} {frames frames' : List Frame}
variable {proceed : Token → Parser → Machine}

theorem shifts_attempt (hparser : ∀ token after, (proceed token after).parser = after) :
    Shifts ⟨parser, control, frames'⟩ (attempt shift parser frames proceed) := by
  cases hshift : shift parser with
  | ok token after =>
      rw [attempt_ok hshift]
      apply Shifts.moves
      rw [hparser, hshift]
  | error failure after =>
      rw [attempt_error hshift]
      exact .refuses hshift rfl

theorem levels_attempt (hlevels : ∀ token after, (proceed token after).levels = frames.count .level) :
    (attempt shift parser frames proceed).levels = frames.count .level := by
  cases hshift : shift parser with
  | ok token after => rw [attempt_ok hshift, hlevels]
  | error failure after =>
      rw [attempt_error hshift]
      rfl

end Attempt

theorem shifts_enter_prefixed (parser : Parser) (frames : List Frame) (form : PrefixForm)
    (power : Nat) : Shifts ⟨parser, .call (.prefixed form power), frames⟩
      (enter parser frames (.prefixed form power)) := by
  apply shifts_attempt
  intro token after
  cases form <;> rfl

theorem shifts_enter_joined (parser : Parser) (frames : List Frame) (left : Expr) (power : Nat) :
    Shifts ⟨parser, .call (.joined left power), frames⟩
      (enter parser frames (.joined left power)) :=
  shifts_attempt fun _ _ => rfl

theorem moved_of_step (hstep : state.step = some next) : Moved state next := by
  obtain ⟨parser, control, frames⟩ := state
  cases control with
  | call call =>
      cases hstep
      cases call with
      | expression floor =>
          rw [enter, attempt, openLevel]
          by_cases hdepth : parser.depth < parser.limit
          · rw [if_pos hdepth]
            exact .opens hdepth rfl (by simp [levels])
          · rw [if_neg hdepth]
            exact .stays rfl rfl
      | prefixed form power =>
          refine .shifts (shifts_enter_prefixed parser frames form power) ?_
          apply levels_attempt
          intro token after
          cases form <;> simp [levels]
      | joined left power =>
          refine .shifts (shifts_enter_joined parser frames left power) ?_
          apply levels_attempt
          simp [levels]
  | chain floor =>
      cases hstep
      rw [enterChain]
      cases parser.rule?.bind Rule.prefixRule with
      | none => exact .stays rfl rfl
      | some rule => exact .stays rfl (by simp [levels])
  | answer outcome =>
      cases frames with
      | nil => contradiction
      | cons frame frames =>
          cases outcome with
          | error failure =>
              cases hstep
              cases frame with
              | level => exact .closes rfl (by simp [levels, abandon])
              | fold | sign | join | close => exact .stays rfl (by simp [levels, abandon])
          | ok tree =>
              cases hstep
              cases frame with
              | level => exact .closes rfl (by simp [levels, resume])
              | sign | join => exact .stays rfl (by simp [levels, resume])
              | fold floor =>
                  rw [resume]
                  split
                  · cases parser.rule?.bind Rule.infixRule with
                    | none => exact .stays rfl (by simp [levels, unexpected, refuse, answered])
                    | some rule => exact .stays rfl rfl
                  · exact .stays rfl (by simp [levels])
              | close =>
                  rw [resume]
                  split
                  · refine .shifts (shifts_attempt fun _ _ => rfl) ?_
                    have hcount : levels ⟨parser, .answer (.ok tree), .close :: frames⟩ =
                        frames.count .level := by
                      simp [levels]
                    rw [hcount]
                    exact levels_attempt fun _ _ => rfl
                  · exact .stays rfl (by simp [levels, refuse, answered])

/-- What every operation on a parser keeps is kept by each move. -/
theorem property_of_step {property : Parser → Prop} (hinvariant : Invariant property)
    (hstate : property state.parser) (hstep : state.step = some next) :
    property next.parser := by
  cases moved_of_step hstep with
  | opens hdepth hparser hlevels =>
      rw [hparser]
      exact hinvariant.levels _ _ _ hstate
  | closes hparser hlevels =>
      rw [hparser]
      exact hinvariant.levels _ _ _ hstate
  | shifts hshifts hlevels =>
      exact hshifts.keeps (keeps_iff_leads.mp hinvariant.shift) hstate
  | stays hparser hlevels =>
      rw [hparser]
      exact hstate

theorem Reaches.property {property : Parser → Prop} (hreaches : Reaches state last)
    (hinvariant : Invariant property) (hstate : property state.parser) : property last.parser :=
  hreaches.invariant (fun _ _ => property_of_step hinvariant) hstate

end Machine

/-! ## Levels are kept -/

/-- So many levels are open, and so many may be open. -/
def AtLevel (depth limit : Nat) (parser : Parser) : Prop :=
  parser.depth = depth ∧ parser.limit = limit

section Levels

variable {depth limit : Nat}

theorem atLevel_shift :
    Leads (AtLevel depth limit) (AtLevel depth limit) (AtLevel depth limit) shift := by
  intro parser hparser
  have hshifted := shifted_shift parser
  generalize shift parser = result at hshifted
  cases hshifted <;> exact hparser

theorem atLevel_expressionWithin (turns room floor : Nat) :
    Leads (AtLevel depth limit) (AtLevel depth limit) (AtLevel depth limit)
      (expressionWithin turns room floor) := by
  induction room generalizing floor depth with
  | zero => exact fun _ hparser => hparser
  | succ room ih =>
      have hopen (parser : Parser) (hparser : AtLevel depth limit parser) :
          AtLevel (depth + 1) limit { parser with depth := parser.depth + 1 } :=
        ⟨congrArg (· + 1) hparser.1, hparser.2⟩
      have hclose (parser : Parser) (hparser : AtLevel (depth + 1) limit parser) :
          AtLevel depth limit parser.closeLevel :=
        ⟨congrArg (· - 1) hparser.1, hparser.2⟩
      have hshift := @atLevel_shift (depth + 1) limit
      have hchain := hshift.chain hshift ih (fun _ hparser => hparser) (fun _ hparser => hparser)
        turns floor
      exact hchain.nested (fun parser hparser _ => hopen parser hparser) (fun _ hparser => hparser)
        hclose hclose

theorem atLevel_expression (floor : Nat) :
    Leads (AtLevel depth limit) (AtLevel depth limit) (AtLevel depth limit) (expression floor) :=
  fun parser hparser => atLevel_expressionWithin _ _ floor parser hparser

theorem Call.atLevel_run (call : Call) :
    Leads (AtLevel depth limit) (AtLevel depth limit) (AtLevel depth limit) call.run := by
  cases call with
  | expression floor => exact atLevel_expression floor
  | prefixed form power =>
      exact atLevel_shift.prefixed atLevel_shift atLevel_expression (fun _ hparser => hparser) _ _
  | joined left power => exact atLevel_shift.joined atLevel_expression left power

end Levels

/-! ## The machine walks to what a call comes to -/

namespace Machine

/-- With so many levels left the machine walks to what the step comes to, if that has an end, and
the step leaves the levels as they are. -/
structure Walks (room : Nat) (control : Control) (step : Parse Expr) : Prop where
  reaches : ∀ parser frames, parser.limit - parser.depth = room → Reading.Ends (step parser) →
    Reaches ⟨parser, control, frames⟩ (answered (step parser) frames)
  levels : ∀ depth limit,
    Leads (AtLevel depth limit) (AtLevel depth limit) (AtLevel depth limit) step

/-- With so many levels left the frame does with a tree what the step does. -/
def Resumes (room : Nat) (frame : Frame) (next : Expr → Parse Expr) : Prop :=
  ∀ tree parser frames, parser.limit - parser.depth = room → Reading.Ends (next tree parser) →
    Reaches ⟨parser, .answer (.ok tree), frame :: frames⟩ (answered (next tree parser) frames)

section Walks

variable {room floor power : Nat} {parser after : Parser} {frames : List Frame}
variable {expression : Nat → Parse Expr}

theorem room_eq_of_shift {token : Token} (hroom : parser.limit - parser.depth = room)
    (hshift : shift parser = .ok token after) : after.limit - after.depth = room := by
  have hlevel := atLevel_shift parser ⟨rfl, rfl⟩
  rw [hshift] at hlevel
  rw [hlevel.1, hlevel.2, hroom]

theorem Walks.bind {control : Control} {step : Parse Expr} {frame : Frame}
    {next : Expr → Parse Expr} (hwalks : Walks room control step)
    (hnext : Resumes room frame next) (hframe : frame ≠ .level)
    (hroom : parser.limit - parser.depth = room)
    (hends : Reading.Ends ((step >>= next) parser)) :
    Reaches ⟨parser, control, frame :: frames⟩ (answered ((step >>= next) parser) frames) := by
  have hwalk := hwalks.reaches parser (frame :: frames) hroom
  have hlevel := hwalks.levels _ _ parser ⟨rfl, rfl⟩
  cases hresult : step parser with
  | error failure after =>
      rw [bind_error hresult] at hends ⊢
      rw [hresult] at hwalk
      refine (hwalk hends).trans (.of_step ?_)
      cases frame with
      | level => exact absurd rfl hframe
      | fold | sign | join | close => rfl
  | ok tree after =>
      rw [bind_ok hresult] at hends ⊢
      rw [hresult] at hwalk hlevel
      refine (hwalk trivial).trans (hnext tree after frames ?_ hends)
      rw [hlevel.1, hlevel.2, hroom]

theorem resumes_sign (room : Nat) (operator : Token) :
    Resumes room (.sign operator) fun operand => pure (.unary operator.lexeme operand) :=
  fun _ _ _ _ _ => .of_step rfl

theorem resumes_join (room : Nat) (operator : Token) (left : Expr) :
    Resumes room (.join operator left) fun right => pure (.binary operator.lexeme left right) :=
  fun _ _ _ _ _ => .of_step rfl

/-- Takes the closing of a group behind its inner expression. -/
def closing (inner : Expr) : Parse Expr := do
  let closing := (← get).current
  if closesGroup closing then
    let _ ← shift
    return inner
  else refuse (.unclosedGroup closing.lexeme)

theorem resumes_close (room : Nat) : Resumes room .close closing := by
  intro tree parser frames hroom hends
  apply Reaches.of_step
  simp only [step, resume, closing, bind, EStateM.bind, get_apply]
  by_cases hcloses : closesGroup parser.current = true
  · simp only [hcloses, if_true, EStateM.bind, attempt]
    cases shift parser <;> rfl
  · simp only [hcloses]
    rfl

section Calls

variable (hexpression : ∀ floor, Walks room (.call (.expression floor)) (expression floor))

include hexpression

theorem walks_joined (left : Expr) (power : Nat) :
    Walks room (.call (.joined left power)) (joined expression left power) where
  levels _ _ := atLevel_shift.joined (fun floor => (hexpression floor).levels _ _) left power
  reaches parser frames hroom hends := by
    cases hshift : shift parser with
    | error failure after =>
        have hjoined : joined expression left power parser = .error failure after :=
          bind_error hshift
        rw [hjoined]
        apply Reaches.of_step
        simp only [step, enter, attempt, hshift, answered]
    | ok operator next =>
        have hjoined : joined expression left power parser =
            (expression power >>= fun right => pure (.binary operator.lexeme left right)) next :=
          bind_ok hshift
        rw [hjoined] at hends ⊢
        have hstep : step ⟨parser, .call (.joined left power), frames⟩ =
            some ⟨next, .call (.expression power), .join operator left :: frames⟩ := by
          simp only [step, enter, attempt, hshift]
        exact .head hstep ((hexpression power).bind (resumes_join room operator left) (by simp)
          (room_eq_of_shift hroom hshift) hends)

theorem walks_prefixed (form : PrefixForm) (power : Nat) :
    Walks room (.call (.prefixed form power)) (prefixed expression form power) where
  levels _ _ := atLevel_shift.prefixed atLevel_shift
    (fun floor => (hexpression floor).levels _ _) (fun _ hparser => hparser) form power
  reaches parser frames hroom hends := by
    cases hshift : shift parser with
    | error failure after =>
        have hprefixed : prefixed expression form power parser = .error failure after := by
          cases form <;> exact bind_error hshift
        rw [hprefixed]
        apply Reaches.of_step
        simp only [step, enter, attempt, hshift, answered]
    | ok token next =>
        have hroom := room_eq_of_shift hroom hshift
        cases form with
        | atom =>
            have hatom : prefixed expression .atom power parser = .ok token.leaf next :=
              bind_ok hshift
            rw [hatom]
            apply Reaches.of_step
            simp only [step, enter, attempt, hshift, answered]
        | sign =>
            have hsigned : prefixed expression .sign power parser =
                (expression power >>= fun operand => pure (.unary token.lexeme operand)) next :=
              bind_ok hshift
            rw [hsigned] at hends ⊢
            have hstep : step ⟨parser, .call (.prefixed .sign power), frames⟩ =
                some ⟨next, .call (.expression power), .sign token :: frames⟩ := by
              simp only [step, enter, attempt, hshift]
            exact .head hstep
              ((hexpression power).bind (resumes_sign room token) (by simp) hroom hends)
        | group =>
            have hgrouped : prefixed expression .group power parser =
                (expression Grammar.loosestPower >>= closing) next :=
              bind_ok hshift
            rw [hgrouped] at hends ⊢
            have hstep : step ⟨parser, .call (.prefixed .group power), frames⟩ =
                some ⟨next, .call (.expression Grammar.loosestPower), .close :: frames⟩ := by
              simp only [step, enter, attempt, hshift]
            exact .head hstep ((hexpression _).bind (resumes_close room) (by simp) hroom hends)

/-- The frame of a fold takes the turns that folding takes. -/
theorem resumes_fold (floor turns : Nat) :
    Resumes room (.fold floor) (fold expression floor turns) := by
  induction turns with
  | zero =>
      intro tree parser frames hroom hends
      apply Reaches.of_step
      rw [fold] at hends ⊢
      by_cases hpower : floor < parser.power
      · rw [if_pos hpower] at hends ⊢
        cases hrule : parser.rule?.bind Rule.infixRule with
        | none => simp only [step, resume, if_pos hpower, hrule]; rfl
        | some rule =>
            rw [hrule] at hends
            exact absurd rfl hends
      · rw [if_neg hpower]
        simp only [step, resume, if_neg hpower, answered]
  | succ turns ih =>
      intro tree parser frames hroom hends
      by_cases hpower : floor < parser.power
      · cases hrule : parser.rule?.bind Rule.infixRule with
        | none =>
            rw [fold, if_pos hpower, hrule]
            apply Reaches.of_step
            simp only [step, resume, if_pos hpower, hrule]
        | some rule =>
            rw [fold_eq_bind hpower hrule] at hends ⊢
            have hstep : step ⟨parser, .answer (.ok tree), .fold floor :: frames⟩ =
                some ⟨parser, .call (.joined tree rule.rightPower), .fold floor :: frames⟩ := by
              simp only [step, resume, if_pos hpower, hrule]
            have hwalks := walks_joined hexpression tree rule.rightPower
            exact .head hstep (hwalks.bind ih (by simp) hroom hends)
      · rw [fold, if_neg hpower]
        apply Reaches.of_step
        simp only [step, resume, if_neg hpower, answered]

theorem walks_chain (turns floor : Nat) :
    Walks room (.chain floor) (chain expression turns floor) where
  levels _ _ := atLevel_shift.chain atLevel_shift
    (fun floor => (hexpression floor).levels _ _) (fun _ hparser => hparser)
    (fun _ hparser => hparser) turns floor
  reaches parser frames hroom hends := by
    rw [chain] at hends ⊢
    cases hrule : parser.rule?.bind Rule.prefixRule with
    | none =>
        apply Reaches.of_step
        simp only [step, enterChain, hrule]
    | some rule =>
        rw [hrule] at hends
        have hstep : step ⟨parser, .chain floor, frames⟩ = some
            ⟨parser, .call (.prefixed rule.form rule.power), .fold floor :: frames⟩ := by
          simp only [step, enterChain, hrule]
        exact .head hstep ((walks_prefixed hexpression rule.form rule.power).bind
          (resumes_fold hexpression floor turns) (by simp) hroom hends)

end Calls

theorem walks_expressionWithin (turns room floor : Nat) :
    Walks room (.call (.expression floor)) (expressionWithin turns room floor) := by
  induction room generalizing floor with
  | zero =>
      refine ⟨?_, fun depth limit => atLevel_expressionWithin turns 0 floor⟩
      intro parser frames hroom hends
      have hdepth : ¬ parser.depth < parser.limit := by omega
      apply Reaches.of_step
      simp only [step, enter, attempt, openLevel, if_neg hdepth]
      rfl
  | succ room ih =>
      refine ⟨?_, fun depth limit => atLevel_expressionWithin turns (room + 1) floor⟩
      intro parser frames hroom hends
      have hdepth : parser.depth < parser.limit := by omega
      have hchain := (walks_chain ih turns floor).reaches { parser with depth := parser.depth + 1 }
        (.level :: frames) (by simp only; omega)
      have hstep : step ⟨parser, .call (.expression floor), frames⟩ =
          some ⟨{ parser with depth := parser.depth + 1 }, .chain floor, .level :: frames⟩ := by
        simp only [step, enter, attempt, openLevel, if_pos hdepth]
      rw [expressionWithin, nested, openLevel, if_pos hdepth] at hends ⊢
      simp only at hends ⊢
      cases hresult : chain (expressionWithin turns room) turns floor
          { parser with depth := parser.depth + 1 } with
      | error failure after =>
          rw [hresult] at hchain hends
          exact (Reaches.of_step hstep).trans ((hchain hends).trans (.of_step rfl))
      | ok tree after =>
          rw [hresult] at hchain
          exact (Reaches.of_step hstep).trans ((hchain trivial).trans (.of_step rfl))

theorem walks_expression (room floor : Nat) :
    Walks room (.call (.expression floor)) (Parser.expression floor) where
  levels _ _ := atLevel_expression floor
  reaches parser frames _ hends :=
    (walks_expressionWithin _ _ floor).reaches parser frames rfl hends

/-- The machine walks to what a call comes to. -/
theorem reaches_answered (call : Call) (parser : Parser) (frames : List Frame)
    (hends : Reading.Ends (call.run parser)) :
    Reaches ⟨parser, .call call, frames⟩ (answered (call.run parser) frames) := by
  cases call with
  | expression floor => exact (walks_expression _ floor).reaches parser frames rfl hends
  | prefixed form power =>
      exact (walks_prefixed (walks_expression _) form power).reaches parser frames rfl hends
  | joined left power =>
      exact (walks_joined (walks_expression _) left power).reaches parser frames rfl hends

end Walks

end Machine

end Parser

end Precedence
