import Precedence.Proofs.Blame

/-!
# The limit on levels

Two runs with different limits do the same until the one with fewer levels gives up.  So a run that
is not cut short comes to the same result under every higher limit, and one that is cut short has
stopped at a place that the longer run passes or stops at as well.
-/

namespace Precedence

open Lexer

/-- The outcome is the other one, or that of a parser which gave up for the limit at a place among
the items, behind which the other one goes on. -/
def Outcome.CutFrom (grammar : Grammar) (limit higher : Nat) (items : List Item)
    (short long : Outcome Expr) : Prop :=
  short = long ∨ ∃ cursor : Cursor, cursor.items <:+ items ∧
    short = cursor.refuse (.nestingTooDeep limit) ∧ long.Stays grammar higher cursor.items

/-- The task with more levels to open. -/
def Task.deepen (more : Nat) : Task → Task
  | .read room floor cursor => .read (room + more) floor cursor
  | .begin room rule cursor => .begin (room + more) rule cursor
  | .fold room floor left => .fold (room + more) floor left

section CutFrom

variable {grammar : Grammar} {limit higher : Nat} {items : List Item} {short long : Outcome Expr}

theorem Outcome.CutFrom.map {f : Expr → Expr}
    (hcut : short.CutFrom grammar limit higher items long) :
    (short.map f).CutFrom grammar limit higher items (long.map f) := by
  rcases hcut with rfl | ⟨cursor, hcursor, rfl, hlong⟩
  · exact .inl rfl
  · exact .inr ⟨cursor, hcursor, rfl, Outcome.stays_map.mpr hlong⟩

theorem Outcome.CutFrom.close (hcut : short.CutFrom grammar limit higher items long) :
    (Cursor.close grammar short).CutFrom grammar limit higher items
      (Cursor.close grammar long) := by
  rcases hcut with rfl | ⟨cursor, hcursor, rfl, hlong⟩
  · exact .inl rfl
  · exact .inr ⟨cursor, hcursor, rfl, Cursor.stays_close hlong⟩

end CutFrom

namespace Run

variable {grammar : Grammar} {limit : Nat} {items : List Item} {task : Task} {short : Outcome Expr}

/-- Nothing is folded into an outcome that was cut short, while operators are still folded into the
one that it was cut from. -/
theorem exists_fold_cutFrom {higher room room' floor : Nat} {left : Outcome Expr} {place : Cursor}
    (hplace : place.items <:+ items)
    (hfold : Run grammar limit (.fold room floor (place.refuse (.nestingTooDeep limit))) short)
    (hleft : left.Stays grammar higher place.items) :
    ∃ long, Run grammar higher (.fold room' floor left) long ∧
      short.CutFrom grammar limit higher items long := by
  obtain ⟨long, hlong⟩ := exists_fold (exists_read grammar higher room') floor left
  cases hfold
  exact ⟨long, hlong, .inr ⟨place, hplace, rfl, hlong.stays hleft⟩⟩

/-- Where the right operand of an operator was cut short, the operand it was cut from is folded
in. -/
theorem exists_join_cutFrom {higher room room' floor : Nat} {left : Expr}
    {cursor next place : Cursor} {rule : InfixRule} {token : Token} {right : Outcome Expr}
    (hplace : place.items <:+ items)
    (hpower : floor < grammar.powerOf cursor.current)
    (hrule : grammar.infixOf? cursor.current = some rule)
    (hshift : cursor.shift grammar = .ok token next)
    (hshort : Run grammar limit (.read room rule.rightPower next)
      (place.refuse (.nestingTooDeep limit)))
    (hfold : Run grammar limit (.fold room floor (place.refuse (.nestingTooDeep limit))) short)
    (hright : Run grammar higher (.read room' rule.rightPower next) right)
    (hstays : right.Stays grammar higher place.items) :
    ∃ long, Run grammar higher (.fold room' floor (.ok left cursor)) long ∧
      short.CutFrom grammar limit higher items long := by
  by_cases hpending : ∀ tree after, right = .ok tree after → cursor.pending ≠ []
  · obtain ⟨long, hlong, hcut⟩ := exists_fold_cutFrom hplace hfold
      (Outcome.stays_map (f := .binary token.lexeme left) |>.mpr hstays)
    exact ⟨long, .join hpower hrule hshift hright hpending hlong, hcut⟩
  · push Not at hpending
    obtain ⟨tree, after, rfl, hnil⟩ := hpending
    -- without a pending item neither run has left the operator
    rw [Cursor.shift_nil hnil] at hshift
    injection hshift with htoken hnext
    subst hnext
    obtain rfl : place = cursor := hshort.cursor_eq hnil
    have hlong : Run grammar higher (.fold room' floor (.ok left place)) _ :=
      .endless hpower hrule hnil hright
    cases hfold
    exact ⟨_, hlong, .inr ⟨place, hplace, rfl, hlong.stays (List.suffix_refl _)⟩⟩

/-- With more levels a run comes to the same result, unless it was cut short. -/
theorem deepen (hrun : Run grammar limit task short) (htask : task.Stays grammar limit items)
    (higher more : Nat) : ∃ long, Run grammar higher (task.deepen more) long ∧
      short.CutFrom grammar limit higher items long := by
  -- Until the shorter run gives up, both take the same steps; from there on it only hands its error
  -- on, and the longer run stays behind that place whatever it comes to.
  induction hrun with
  | @tooDeep floor cursor =>
      obtain ⟨long, hlong⟩ := exists_read grammar higher (0 + more) floor cursor
      have hstays : long.Stays grammar higher cursor.items := hlong.stays (List.suffix_refl _)
      exact ⟨long, hlong, .inr ⟨cursor, htask, rfl, hstays⟩⟩
  | @noPrefix room floor cursor hrule =>
      rw [Task.deepen, Nat.add_right_comm]
      exact ⟨_, .noPrefix hrule, .inl rfl⟩
  | @read room floor cursor rule left result hrule hleft hfold ihleft ihfold =>
      rw [Task.deepen, Nat.add_right_comm]
      obtain ⟨left', hleft', rfl | ⟨place, hplace, rfl, hstays⟩⟩ := ihleft htask
      · obtain ⟨long, hlong, hcut⟩ := ihfold (hleft.stays htask)
        exact ⟨long, .read hrule hleft' hlong, hcut⟩
      · obtain ⟨long, hlong, hcut⟩ := exists_fold_cutFrom hplace hfold hstays
        exact ⟨long, .read hrule hleft' hlong, hcut⟩
  | stuckPrefix hshift => exact ⟨_, .stuckPrefix hshift, .inl rfl⟩
  | atom hshift => exact ⟨_, .atom hshift, .inl rfl⟩
  | sign hshift hoperand ih =>
      obtain ⟨operand, hlong, hcut⟩ := ih (Cursor.stays_shift limit hshift htask)
      exact ⟨_, .sign hshift hlong, hcut.map⟩
  | group hshift hinner ih =>
      obtain ⟨inner, hlong, hcut⟩ := ih (Cursor.stays_shift limit hshift htask)
      exact ⟨_, .group hshift hlong, hcut.close⟩
  | failed => exact ⟨_, .failed, .inl rfl⟩
  | stop hpower => exact ⟨_, .stop hpower, .inl rfl⟩
  | noInfix hpower hrule => exact ⟨_, .noInfix hpower hrule, .inl rfl⟩
  | stuckInfix hpower hrule hshift => exact ⟨_, .stuckInfix hpower hrule hshift, .inl rfl⟩
  | @join room floor left cursor rule token next right result hpower hrule hshift hright hpending
      hfold ihright ihfold =>
      have hnext : next.items <:+ items := Cursor.stays_shift limit hshift htask
      obtain ⟨right', hright', rfl | ⟨place, hplace, rfl, hstays⟩⟩ := ihright hnext
      · obtain ⟨long, hlong, hcut⟩ := ihfold (Outcome.stays_map.mpr (hright.stays hnext))
        exact ⟨long, .join hpower hrule hshift hright' hpending hlong, hcut⟩
      · exact exists_join_cutFrom hplace hpower hrule hshift hright hfold hright' hstays
  | @endless room floor left cursor rule right after hpower hrule hpending hright ihright =>
      obtain ⟨right', hright', rfl | ⟨place, hplace, hcut, hstays⟩⟩ := ihright htask
      · exact ⟨_, .endless hpower hrule hpending hright', .inl rfl⟩
      · contradiction

end Run

/-! ## The parser's limit -/

deriving instance DecidableEq for Parser

/-- What reading an expression comes to, and the parser that it leaves. -/
abbrev Reading := EStateM.Result Failure Parser Expr

namespace Reading

instance decEq : DecidableEq Reading
  | .ok tree parser, .ok tree' parser' =>
    decidable_of_iff (tree = tree' ∧ parser = parser') (by simp)
  | .error failure parser, .error failure' parser' =>
    decidable_of_iff (failure = failure' ∧ parser = parser') (by simp)
  | .ok _ _, .error _ _ | .error _ _, .ok _ _ => .isFalse nofun

/-- The same, with another limit for what is read after it. -/
def withLimit (limit : Nat) : Reading → Reading
  | .ok tree parser => .ok tree (parser.withLimit limit)
  | .error failure parser => .error failure (parser.withLimit limit)

/-- The reading comes to a tree or to an error. -/
def Ends : Reading → Prop
  | .ok _ _ => True
  | .error failure _ => failure ≠ .endless

/-- The reading gave up, at this offset, since the limit allowed no further level. -/
def GaveUp (limit : Nat) (offset : Int) : Reading → Prop
  | .error (.error cause) _ =>
    cause.fault = .nestingTooDeep limit ∧ cause.position.offset = offset
  | _ => False

instance (limit : Nat) (offset : Int) :
    (reading : Reading) → Decidable (reading.GaveUp limit offset)
  | .error (.error cause) _ => inferInstanceAs
      (Decidable (cause.fault = .nestingTooDeep limit ∧ cause.position.offset = offset))
  | .error .endless _ | .ok _ _ => .isFalse id

/-- The reading with the lower limit only cuts the other one short. -/
structure Shortens (lower higher : Nat) (short long : Reading) : Prop where
  ends : short.Ends ∧ long.Ends
  agrees : (∀ limit offset, ¬ short.GaveUp limit offset) → long = short.withLimit higher
  earlier : ∀ limit offset, long.GaveUp limit offset →
    ∃ offset' ≤ offset, short.GaveUp lower offset'

end Reading

namespace Outcome

variable {grammar : Grammar} {parser : Parser} {items : List Item} {limit : Nat}

theorem withLimit_onto (result : Outcome Expr) (parser : Parser) (lower higher : Nat) :
    Reading.withLimit higher (result.onto (parser.withLimit lower)) =
      result.onto (parser.withLimit higher) := by
  cases result <;> rfl

theorem gaveUp_onto {parser' : Parser} {result : Outcome Expr} {offset : Int} :
    Reading.GaveUp limit offset (result.onto parser) ↔
      Reading.GaveUp limit offset (result.onto parser') := by
  cases result with
  | ok tree after => exact Iff.rfl
  | error failure after => cases failure <;> exact Iff.rfl

/-- A run gives up at one of its tokens, and for its own limit. -/
theorem Stays.of_gaveUp {result : Outcome Expr} {other : Nat} {offset : Int}
    (hstays : result.Stays grammar limit items)
    (hlexical : ∀ cause, .error cause ∈ items → cause.isLexical = true)
    (hgave : Reading.GaveUp other offset (result.onto parser)) :
    other = limit ∧ ∃ token, .ok token ∈ items ∧ token.span.start = offset := by
  cases result with
  | ok tree after => exact hgave.elim
  | error failure after =>
      cases failure with
      | endless => exact hgave.elim
      | error cause =>
          obtain ⟨hfault, hoffset⟩ := hgave
          obtain ⟨item, hmem, hnames⟩ := hstays
          cases item with
          | error cause' =>
              obtain rfl := hnames.eq_of_error
              have htrue := hlexical cause hmem
              rw [Error.isLexical, hfault] at htrue
              contradiction
          | ok token =>
              rw [hnames.position_eq] at hoffset
              exact ⟨(hnames.suits token rfl).limit_eq other hfault, token, hmem, hoffset⟩

end Outcome

theorem Cursor.start_le {cursor : Cursor} {token : Token}
    (hordered : cursor.items.Pairwise StartsBefore) (hmem : .ok token ∈ cursor.items) :
    cursor.current.span.start ≤ token.span.start := by
  rcases List.mem_cons.mp hmem with hcurrent | hpending
  · exact Int.le_of_eq (by rw [Except.ok.inj hcurrent])
  · have hbefore := (List.pairwise_cons.mp hordered).1 _ hpending
    exact Int.le_of_lt (hbefore _ _ rfl rfl)

/-- A run that was cut short is a reading that was cut short, if the items are those of a source. -/
theorem Outcome.CutFrom.shortens {grammar : Grammar} {lower higher : Nat} {items : List Item}
    {short long : Outcome Expr} {parser : Parser}
    (hcut : short.CutFrom grammar lower higher items long)
    (hordered : items.Pairwise StartsBefore)
    (hlexical : ∀ cause, .error cause ∈ items → cause.isLexical = true)
    (hshort : short.Stays grammar lower items)
    (hends : Reading.Ends (short.onto (parser.withLimit lower)) ∧
      Reading.Ends (long.onto (parser.withLimit higher))) :
    Reading.Shortens lower higher (short.onto (parser.withLimit lower))
      (long.onto (parser.withLimit higher)) := by
  rcases hcut with rfl | ⟨cursor, hcursor, rfl, hlong⟩
  · refine ⟨hends, fun _ => (short.withLimit_onto parser lower higher).symm, ?_⟩
    intro limit offset hgave
    obtain ⟨rfl, -⟩ := hshort.of_gaveUp hlexical hgave
    exact ⟨offset, Int.le_refl _, Outcome.gaveUp_onto.mp hgave⟩
  · have hcutAt : Reading.GaveUp lower cursor.current.span.start
        ((cursor.refuse (.nestingTooDeep lower)).onto (parser.withLimit lower)) := ⟨rfl, rfl⟩
    refine ⟨hends, fun hnever => absurd hcutAt (hnever _ _), ?_⟩
    intro limit offset hgave
    obtain ⟨-, token, hmem, rfl⟩ :=
      hlong.of_gaveUp (fun cause hcause => hlexical cause (hcursor.subset hcause)) hgave
    exact ⟨_, Cursor.start_le (hordered.sublist hcursor.sublist) hmem, hcutAt⟩

section Source

variable {grammar : Grammar} {source : String} {file : Option String} {parser : Parser}

theorem Grammar.infixOf?_finish {token : Token}
    (hfinish : ∀ rule ∈ grammar.rule? .finish, rule.infixRule = none)
    (hkind : token.kind = .finish) : grammar.infixOf? token = none := by
  rw [infixOf?, ruleOf?_finish hkind, Option.bind_eq_none_iff]
  exact hfinish

/-- A new parser has no level open, knows the rule of its token and has all the items of its source
in front of it, but for the opening token. -/
theorem Parser.of_ofLexer {name : String} {rest : List Item}
    (hitems : (ofSource source file).items = .ok (.opening name) :: rest) (hrest : rest ≠ [])
    (hfresh : Parser.ofLexer (.ofSource source file) grammar = .ok parser) :
    parser.grammar = grammar ∧ (parser.depth = 0 ∧ parser.KnowsRule) ∧
      parser.cursor.items = rest := by
  rw [ofLexer_eq hitems] at hfresh
  split at hfresh
  · next token next hshift =>
      obtain rfl := Except.ok.inj hfresh
      rcases (Cursor.shift_ok hshift).2 with ⟨hnil, -⟩ | ⟨hpending, -⟩
      · exact absurd hnil hrest
      · exact ⟨rfl, ⟨rfl, rfl⟩, hpending.symm⟩
  · contradiction

/-- With no level open, a parser reads an expression as a run does that has its whole limit left. -/
theorem Parser.expression_withLimit {limit floor : Nat} {result : Outcome Expr}
    (hparser : parser.depth = 0 ∧ parser.KnowsRule)
    (hrun : Run parser.grammar limit (.read limit floor parser.cursor) result) :
    Parser.expression floor (parser.withLimit limit) = result.onto (parser.withLimit limit) := by
  have hroom : (parser.withLimit limit).limit - (parser.withLimit limit).depth = limit := by
    simp [Parser.withLimit, hparser.1]
  have hrule : (parser.withLimit limit).KnowsRule := hparser.2
  apply Parser.expression_eq hrule
  rw [hroom]
  exact hrun

/-- No run over the items of a source goes on for ever, if the end is not an operator. -/
theorem Failure.ComesFrom.ne_endless {limit length stop : Nat} {failure : Failure} {name : String}
    {tokens : List Token} {left : List Char}
    (hcomes : failure.ComesFrom grammar limit
      (tokens.map .ok ++ [lastItem length name stop left]))
    (hfinish : ∀ rule ∈ grammar.rule? .finish, rule.infixRule = none) : failure ≠ .endless := by
  rintro rfl
  obtain ⟨token, hend, hrule⟩ := hcomes
  rw [List.getLast?_concat, Option.some_inj] at hend
  obtain ⟨-, rfl⟩ := eq_closing_of_lastItem hend
  exact hrule (Grammar.infixOf?_finish hfinish rfl)

/-- The limit on levels only cuts readings short.  A reading that does not give up within the lower
limit comes to the same within the higher one; one that gives up within the higher limit gives up
within the lower one as well, and no later. -/
theorem expression_shortens
    (hfinish : ∀ rule ∈ grammar.rule? .finish, rule.infixRule = none)
    (hfresh : Parser.ofLexer (.ofSource source file) grammar = .ok parser) (floor : Nat)
    {lower higher : Nat} (hle : lower ≤ higher) :
    Reading.Shortens lower higher (Parser.expression floor (parser.withLimit lower))
      (Parser.expression floor (parser.withLimit higher)) := by
  obtain ⟨tokens, done, left, -, -, -, hitems⟩ := exists_row source file
  obtain ⟨rfl, hdepth, hcursor⟩ := Parser.of_ofLexer hitems (by simp) hfresh
  have hordered : parser.cursor.items.Pairwise StartsBefore := by
    have hsource := pairwise_startsBefore source file
    rw [hitems] at hsource
    rw [hcursor]
    exact hsource.of_cons
  have hlexical (cause : Error) (hcause : .error cause ∈ parser.cursor.items) :
      cause.isLexical = true := by
    rw [hcursor] at hcause
    obtain ⟨before, hyields⟩ := exists_yields hitems hcause
    exact hyields.isLexical
  have hends {limit : Nat} {result : Outcome Expr}
      (hstays : result.Stays parser.grammar limit parser.cursor.items) :
      Reading.Ends (result.onto (parser.withLimit limit)) := by
    cases result with
    | ok tree after => trivial
    | error failure after =>
        rw [hcursor] at hstays
        exact Failure.ComesFrom.ne_endless hstays hfinish
  obtain ⟨short, hshort⟩ := Run.exists_read parser.grammar lower lower floor parser.cursor
  have hstays := hshort.stays (List.suffix_refl _)
  obtain ⟨long, hlong, hcut⟩ := hshort.deepen (List.suffix_refl _) higher (higher - lower)
  rw [Task.deepen, Nat.add_sub_of_le hle] at hlong
  rw [Parser.expression_withLimit hdepth hshort, Parser.expression_withLimit hdepth hlong]
  exact hcut.shortens hordered hlexical hstays
    ⟨hends hstays, hends (hlong.stays (List.suffix_refl _))⟩

/-- Behind each opening parenthesis another level is due: one level lasts up to the second one, and
two levels last up to the end. -/
theorem expression_shortens_groups :
    let parser : Parser :=
      { grammar := .arithmetic
        current := ⟨.operator, "(", ⟨0, 1, "shell"⟩⟩
        pending := [.ok ⟨.operator, "(", ⟨1, 2, "shell"⟩⟩, .ok (.closing 2 "shell")]
        depth := 0
        limit := Parser.standardLimit }
    Parser.ofLexer (.ofSource "((" none) .arithmetic = .ok parser ∧
      Reading.GaveUp 1 1 (Parser.expression 0 (parser.withLimit 1)) ∧
      Reading.GaveUp 2 2 (Parser.expression 0 (parser.withLimit 2)) ∧
      Reading.Shortens 1 2 (Parser.expression 0 (parser.withLimit 1))
        (Parser.expression 0 (parser.withLimit 2)) := by
  intro parser
  have hfresh : Parser.ofLexer (.ofSource "((" none) .arithmetic = .ok parser := by decide +kernel
  refine ⟨hfresh, by decide +kernel, by decide +kernel, ?_⟩
  exact expression_shortens (by decide +kernel) hfresh 0 (by decide)

end Source

end Precedence
