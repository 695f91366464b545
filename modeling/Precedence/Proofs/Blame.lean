import Precedence.Proofs.ViablePrefix

/-!
# What an error names

A failed parse has met an item that it could not take: an error of the lexer, which it hands on, or
a token, whose lexeme it quotes and whose place it reports.  The item is one that the lexer yields,
so what is known about the places of tokens carries over to errors, and a parse goes wrong at the
latest where the lexer does.  All this holds for every grammar.
-/

namespace Precedence

open Lexer Text

/-- The lexeme that a fault quotes from a token. -/
def Fault.lexeme? : Fault → Option String
  | .unexpectedToken lexeme | .unknownOperator lexeme | .trailingInput lexeme
  | .unclosedGroup lexeme => some lexeme
  | .unexpectedCharacter _ | .nestingTooDeep _ => none

/-- The fault is one that may be found at the token: it quotes no lexeme but that of the token, and
no limit but the given one. -/
structure Fault.Suits (limit : Nat) (token : Token) (fault : Fault) : Prop where
  lexeme_eq : ∀ lexeme ∈ fault.lexeme?, lexeme = token.lexeme
  limit_eq : ∀ other, fault = .nestingTooDeep other → other = limit

/-- The error is the item, or was found at the token which is the item. -/
structure Error.Names (limit : Nat) (cause : Error) (item : Item) : Prop where
  blames : (Failure.error cause).Blames item
  suits : ∀ token, item = .ok token → cause.fault.Suits limit token

namespace Error

variable {limit : Nat} {cause error : Error} {token : Token}

theorem names_error (limit : Nat) (cause : Error) : cause.Names limit (.error cause) where
  blames := .item
  suits := by
    intro token hitem
    contradiction

theorem names_quoting {fault : Fault} (limit : Nat) (token : Token)
    (hfault : fault.lexeme? = some token.lexeme) :
    Names limit ⟨fault, token.position⟩ (.ok token) where
  blames := by
    apply Failure.Blames.token
    rintro c rfl
    contradiction
  suits := by
    intro other hitem
    rw [← Except.ok.inj hitem]
    refine ⟨?_, ?_⟩
    · intro lexeme hlexeme
      rw [hfault, Option.mem_some_iff] at hlexeme
      exact hlexeme.symm
    · rintro other rfl
      contradiction

theorem names_tooDeep (limit : Nat) (token : Token) :
    Names limit ⟨.nestingTooDeep limit, token.position⟩ (.ok token) where
  blames := .token (by simp)
  suits := by
    intro other hitem
    refine ⟨?_, ?_⟩
    · intro lexeme hlexeme
      contradiction
    · intro other hother
      exact (Fault.nestingTooDeep.inj hother).symm

theorem Names.eq_of_error (hnames : cause.Names limit (.error error)) : cause = error := by
  cases hnames.blames
  rfl

theorem Names.position_eq (hnames : cause.Names limit (.ok token)) :
    cause.position = token.position := by
  cases hnames.blames
  rfl

theorem Names.isSyntactic (hnames : cause.Names limit (.ok token)) : cause.isSyntactic = true := by
  cases hnames.blames with
  | @token fault _ hfault =>
      cases fault with
      | unexpectedCharacter c => exact absurd rfl (hfault c)
      | unexpectedToken | unknownOperator | trailingInput | unclosedGroup | nestingTooDeep => rfl

end Error

/-- The fault is one that a parser finds at a token: it is there at the limit, the token cannot begin
an expression or join operands, or it stands where a group is to be closed. -/
inductive Grammar.Refuses (grammar : Grammar) (limit : Nat) (token : Token) : Fault → Prop
  | tooDeep : Refuses grammar limit token (.nestingTooDeep limit)
  | noPrefix (hrule : grammar.prefixOf? token = none) :
      Refuses grammar limit token (.unexpectedToken token.lexeme)
  | noInfix (hpower : 0 < grammar.powerOf token) (hrule : grammar.infixOf? token = none) :
      Refuses grammar limit token (.unexpectedToken token.lexeme)
  | unclosed (hcloses : Parser.closesGroup token = false) :
      Refuses grammar limit token (.unclosedGroup token.lexeme)

theorem Grammar.Refuses.names {grammar : Grammar} {limit : Nat} {token : Token} {fault : Fault}
    (hrefuses : grammar.Refuses limit token fault) :
    Error.Names limit ⟨fault, token.position⟩ (.ok token) := by
  cases hrefuses with
  | tooDeep => exact Error.names_tooDeep limit token
  | noPrefix | noInfix | unclosed => exact Error.names_quoting limit token rfl

/-! ## A run stays among its items -/

section Among

variable {α β : Type} {grammar : Grammar} {limit : Nat} {items : List Item}
variable {property : Failure → Cursor → Prop} {cursor : Cursor}

/-- The outcome leaves the parser in front of some last part of the items, or else the failure and
the place where it leaves the parser have the property. -/
def Outcome.Among (items : List Item) (property : Failure → Cursor → Prop) : Outcome α → Prop
  | .ok _ next => next.items <:+ items
  | .error failure next => property failure next

/-- The task starts in front of some last part of the items, or goes on with such an outcome. -/
def Task.Among (items : List Item) (property : Failure → Cursor → Prop) : Task → Prop
  | .read _ _ cursor | .begin _ _ cursor => cursor.items <:+ items
  | .fold _ _ left => left.Among items property

/-- The property holds of all failures that the parser can have in front of a last part of the
items. -/
structure Grammar.Suffers (grammar : Grammar) (limit : Nat) (items : List Item)
    (property : Failure → Cursor → Prop) : Prop where
  refuse : ∀ {cursor : Cursor} {fault : Fault}, cursor.items <:+ items →
    grammar.Refuses limit cursor.current fault →
    property (.error ⟨fault, cursor.current.position⟩) cursor
  shift : ∀ {cursor next : Cursor} {failure : Failure}, cursor.items <:+ items →
    cursor.shift grammar = .error failure next → property failure next
  endless : ∀ {cursor : Cursor}, cursor.items <:+ items → cursor.pending = [] →
    grammar.infixOf? cursor.current ≠ none → property .endless cursor

theorem Outcome.among_map {f : α → β} {outcome : Outcome α} :
    (outcome.map f).Among items property ↔ outcome.Among items property := by
  cases outcome <;> exact Iff.rfl

namespace Grammar.Suffers

theorem among_shift (hsuffers : grammar.Suffers limit items property) {outcome : Outcome Token}
    (hshift : cursor.shift grammar = outcome) (hcursor : cursor.items <:+ items) :
    outcome.Among items property := by
  cases outcome with
  | ok token next =>
      rcases (Cursor.shift_ok hshift).2 with ⟨-, rfl⟩ | ⟨hpending, -⟩
      · exact hcursor
      · have hnext : next.items <:+ cursor.items := by
          rw [Cursor.items, Cursor.items, hpending]
          exact List.suffix_cons _ _
        exact hnext.trans hcursor
  | error failure next => exact hsuffers.shift hcursor hshift

theorem among_close (hsuffers : grammar.Suffers limit items property) {inner : Outcome Expr}
    (hinner : inner.Among items property) : (Cursor.close grammar inner).Among items property := by
  cases inner with
  | error failure next => exact hinner
  | ok tree next =>
      rw [Cursor.close]
      split
      · exact Outcome.among_map.mpr (hsuffers.among_shift rfl hinner)
      · next hcloses => exact hsuffers.refuse hinner (.unclosed (Bool.eq_false_iff.mpr hcloses))

/-- A run that starts among the items ends among them, or fails as the property says. -/
theorem among (hsuffers : grammar.Suffers limit items property) {task : Task}
    {result : Outcome Expr} (hrun : Run grammar limit task result)
    (htask : task.Among items property) : result.Among items property := by
  induction hrun with
  | tooDeep => exact hsuffers.refuse htask .tooDeep
  | noPrefix hrule => exact hsuffers.refuse htask (.noPrefix hrule)
  | read hrule hleft hfold ihleft ihfold => exact ihfold (ihleft htask)
  | stuckPrefix hshift => exact hsuffers.among_shift hshift htask
  | atom hshift => exact hsuffers.among_shift hshift htask
  | sign hshift hoperand ih =>
      exact Outcome.among_map.mpr (ih (hsuffers.among_shift hshift htask))
  | group hshift hinner ih =>
      exact hsuffers.among_close (ih (hsuffers.among_shift hshift htask))
  | failed => exact htask
  | stop hpower => exact htask
  | noInfix hpower hrule =>
      exact hsuffers.refuse htask (.noInfix (Nat.zero_lt_of_lt hpower) hrule)
  | stuckInfix hpower hrule hshift => exact hsuffers.among_shift hshift htask
  | join hpower hrule hshift hright hpending hfold ihright ihfold =>
      exact ihfold (Outcome.among_map.mpr (ihright (hsuffers.among_shift hshift htask)))
  | endless hpower hrule hpending hright ihright =>
      exact hsuffers.endless htask hpending (by simp [hrule])

end Grammar.Suffers

end Among

/-- The failure names one of the items.  Or there is no end to the run, because the last item is an
operator. -/
def Failure.ComesFrom (grammar : Grammar) (limit : Nat) (items : List Item) : Failure → Prop
  | .error cause => ∃ item ∈ items, cause.Names limit item
  | .endless => ∃ token, items.getLast? = some (.ok token) ∧ grammar.infixOf? token ≠ none

/-- The outcome leaves the parser in front of some last part of the items, or the failure comes from
them. -/
def Outcome.Stays {α : Type} (grammar : Grammar) (limit : Nat) (items : List Item) :
    Outcome α → Prop
  | .ok _ next => next.items <:+ items
  | .error failure _ => failure.ComesFrom grammar limit items

/-- The task starts in front of some last part of the items. -/
def Task.Stays (grammar : Grammar) (limit : Nat) (items : List Item) : Task → Prop
  | .read _ _ cursor | .begin _ _ cursor => cursor.items <:+ items
  | .fold _ _ left => left.Stays grammar limit items

theorem Failure.ComesFrom.mono {grammar : Grammar} {limit : Nat} {fewer items : List Item}
    {failure : Failure} (hfailure : failure.ComesFrom grammar limit fewer)
    (hfewer : fewer <:+ items) :
    failure.ComesFrom grammar limit items := by
  cases failure with
  | error cause =>
      obtain ⟨item, hitem, hnames⟩ := hfailure
      exact ⟨item, hfewer.subset hitem, hnames⟩
  | endless =>
      obtain ⟨token, hlast, hrule⟩ := hfailure
      obtain ⟨front, rfl⟩ := hfewer
      refine ⟨token, ?_, hrule⟩
      rw [List.getLast?_append, hlast]
      rfl

section Stays

variable {grammar : Grammar} {limit : Nat} {items : List Item} {cursor : Cursor}

theorem Outcome.stays_map {α β : Type} {f : α → β} {outcome : Outcome α} :
    (outcome.map f).Stays grammar limit items ↔ outcome.Stays grammar limit items :=
  Outcome.among_map

/-- A step fails for an item that is still pending. -/
theorem Cursor.exists_named_of_shift {failure : Failure} {next : Cursor}
    (hshift : cursor.shift grammar = .error failure next) :
    ∃ item cause, cursor.pending = item :: next.pending ∧ failure = .error cause ∧
      cause.Names limit item := by
  obtain ⟨-, item, cause, hpending, rfl, hitem⟩ := Cursor.shift_error hshift
  refine ⟨item, cause, hpending, rfl, ?_⟩
  rcases hitem with rfl | ⟨bad, rfl, hcheck⟩
  · exact cause.names_error limit
  · rw [Grammar.eq_of_checkOperator hcheck]
    exact Error.names_quoting limit bad rfl

theorem Cursor.comesFrom_shift {failure : Failure} {next : Cursor}
    (hshift : cursor.shift grammar = .error failure next) :
    failure.ComesFrom grammar limit cursor.pending := by
  obtain ⟨item, cause, hpending, rfl, hnames⟩ := Cursor.exists_named_of_shift hshift
  exact ⟨item, by simp [hpending], hnames⟩

theorem Grammar.suffers_comesFrom (grammar : Grammar) (limit : Nat) (items : List Item) :
    grammar.Suffers limit items fun failure _ => failure.ComesFrom grammar limit items where
  refuse := by
    intro cursor fault hcursor hrefuses
    exact ⟨_, hcursor.subset (by simp [Cursor.items]), hrefuses.names⟩
  shift := by
    intro cursor next failure hcursor hshift
    have hpending : cursor.pending <:+ items := (List.suffix_cons _ _).trans hcursor
    exact (Cursor.comesFrom_shift hshift).mono hpending
  endless := by
    intro cursor hcursor hpending hrule
    obtain ⟨front, rfl⟩ := hcursor
    rw [Cursor.items, hpending]
    exact ⟨cursor.current, List.getLast?_concat, hrule⟩

theorem Cursor.stays_shift (limit : Nat) {outcome : Outcome Token}
    (hshift : cursor.shift grammar = outcome) (hcursor : cursor.items <:+ items) :
    outcome.Stays grammar limit items :=
  (grammar.suffers_comesFrom limit items).among_shift hshift hcursor

theorem Cursor.stays_close {inner : Outcome Expr} (hinner : inner.Stays grammar limit items) :
    (Cursor.close grammar inner).Stays grammar limit items :=
  (grammar.suffers_comesFrom limit items).among_close hinner

/-- A run that starts among the items ends among them, and fails for one of them. -/
theorem Run.stays {task : Task} {result : Outcome Expr}
    (hrun : Run grammar limit task result) (htask : task.Stays grammar limit items) :
    result.Stays grammar limit items := by
  apply (grammar.suffers_comesFrom limit items).among hrun
  cases task <;> exact htask

end Stays

/-! ## Whole sources -/

section Source

variable {grammar : Grammar} {source : String} {file : Option String}

/-- A whole source is parsed up to an end, or the failure comes from the items behind the opening
token. -/
theorem parseWith_comesFrom {name : String} {rest : List Item}
    (hitems : (ofSource source file).items = .ok (.opening name) :: rest) (hrest : rest ≠ []) :
    match parseWith grammar source file with
    | .ok _ => ∃ token, .ok token ∈ rest ∧ token.kind = .finish
    | .error failure => failure.ComesFrom grammar Parser.standardLimit rest := by
  cases hshift : Cursor.shift grammar ⟨.opening name, rest⟩ with
  | error failure next =>
      rw [parseWith_of_shift_error hitems hshift]
      exact Cursor.comesFrom_shift hshift
  | ok token next =>
      have hnext : next.items <:+ rest := by
        rcases (Cursor.shift_ok hshift).2 with ⟨hnil, -⟩ | ⟨hpending, -⟩
        · exact absurd hnil hrest
        · exact ⟨[], hpending.symm⟩
      obtain ⟨result, hrun⟩ := Run.exists_read grammar Parser.standardLimit Parser.standardLimit
        Grammar.loosestPower next
      have hstays := hrun.stays hnext
      rw [parseWith_of_run hitems hshift hrun]
      cases result with
      | error failure after => exact hstays
      | ok tree after =>
          have hmem : Except.ok after.current ∈ rest := hstays.subset (by simp [Cursor.items])
          by_cases hfinish : after.current.kind = .finish
          · rw [Outcome.whole, if_pos hfinish]
            exact ⟨after.current, hmem, hfinish⟩
          · rw [Outcome.whole, if_neg hfinish]
            exact ⟨_, hmem, Error.names_quoting _ after.current rfl⟩

end Source

/-! ## The rows of a lexer -/

namespace Lexer

/-- The items of a source are the tokens of its first part, between the opening token and a last
item.  Where the second part is not empty, it begins with neither a gap nor a lexeme. -/
theorem exists_row (source : String) (file : Option String) :
    ∃ (tokens : List Token) (done left : List Char), source.toList = done ++ left ∧
      SpanLaw (fileName file) done tokens ∧ Stops Lexeme.isGap left ∧
      (ofSource source file).items = .ok (.opening (fileName file)) ::
        (tokens.map .ok ++ [lastItem source.utf8ByteSize (fileName file) (width done) left]) := by
  obtain ⟨tokens, stop, left, hscan, hend⟩ := Scan.exists_scan (fileName file) 0 source.toList
  obtain ⟨done, hsource, rfl, hdone⟩ := hscan.cut
  refine ⟨tokens, done, left, hsource, hdone.spanLaw, hscan.stops, ?_⟩
  rw [items_of_scan hscan hend, Nat.zero_add]

theorem tokenize_eq_error_iff {source : String} {file : Option String} {tokens : List Token}
    {first : Token} {last : Item} {error : Error}
    (hitems : (ofSource source file).items = .ok first :: (tokens.map .ok ++ [last])) :
    tokenize source file = .error error ↔ last = .error error := by
  rw [tokenize_of_items hitems]
  cases last <;> simp [Except.map]

end Lexer

section Row

variable {tokens : List Token} {last : Item}

theorem ok_mem_row {token : Token} :
    Except.ok token ∈ tokens.map (Except.ok (ε := Error)) ++ [last] ↔
      token ∈ tokens ∨ last = .ok token := by
  simp [eq_comm]

theorem error_mem_row {error : Error} :
    Except.error error ∈ tokens.map Except.ok ++ [last] ↔ last = .error error := by
  simp [eq_comm]

end Row

/-- A source that the lexer cannot read to its end is not parsed, and the failure is about one of
the items that the lexer yields. -/
theorem exists_error_of_parseWith {source : String} {file : Option String} {name : String}
    {tokens : List Token} {error : Error} (grammar : Grammar)
    (hitems : (ofSource source file).items =
      .ok (.opening name) :: (tokens.map .ok ++ [.error error]))
    (hkinds : ∀ token ∈ tokens, token.kind ≠ .finish) :
    ∃ cause item, parseWith grammar source file = .error (.error cause) ∧
      item ∈ tokens.map .ok ++ [.error error] ∧ cause.Names Parser.standardLimit item := by
  have hparse := @parseWith_comesFrom grammar source file _ _ hitems (by simp)
  cases hresult : parseWith grammar source file with
  | ok tree =>
      rw [hresult] at hparse
      obtain ⟨token, hmem, hfinish⟩ := hparse
      rcases ok_mem_row.mp hmem with htoken | hend
      · exact absurd hfinish (hkinds token htoken)
      · contradiction
  | error failure =>
      rw [hresult] at hparse
      cases failure with
      | endless =>
          obtain ⟨token, hend, -⟩ := hparse
          rw [List.getLast?_concat] at hend
          simp at hend
      | error cause =>
          obtain ⟨item, hmem, hnames⟩ := hparse
          exact ⟨cause, item, rfl, hmem, hnames⟩

/-- A parse fails at the latest where the lexer does: for the same character, or earlier and for
another reason.  And it only fails for a character for which the lexer fails. -/
theorem parseWith_error_tokenize (grammar : Grammar) (source : String) (file : Option String) :
    (∀ error, tokenize source file = .error error → error.isLexical = true ∧
      ∃ error', parseWith grammar source file = .error (.error error') ∧
        (error' = error ∨
          error'.isSyntactic = true ∧ error'.position.offset < error.position.offset)) ∧
    ∀ c position, parseWith grammar source file =
        .error (.error ⟨.unexpectedCharacter c, position⟩) →
      tokenize source file = .error ⟨.unexpectedCharacter c, position⟩ := by
  obtain ⟨tokens, done, left, -, hspans, -, hitems⟩ := exists_row source file
  constructor
  · intro error htokenize
    have hlast := (tokenize_eq_error_iff hitems).mp htokenize
    obtain ⟨c, rfl⟩ : ∃ c, error = ⟨.unexpectedCharacter c, ⟨width done, fileName file⟩⟩ := by
      cases left with
      | nil => contradiction
      | cons c left => exact ⟨c, (Except.error.inj hlast).symm⟩
    rw [hlast] at hitems
    obtain ⟨cause, item, hparse, hmem, hnames⟩ := exists_error_of_parseWith grammar hitems
      fun token htoken => (hspans.kinds token htoken).2
    refine ⟨rfl, cause, hparse, ?_⟩
    cases item with
    | error error =>
        rw [hnames.eq_of_error]
        exact .inl (Except.error.inj (error_mem_row.mp hmem)).symm
    | ok token =>
        rcases ok_mem_row.mp hmem with htoken | hend
        · obtain ⟨-, hlt, hle⟩ := hspans.bounds token htoken
          refine .inr ⟨hnames.isSyntactic, ?_⟩
          rw [hnames.position_eq]
          exact Int.lt_of_lt_of_le hlt hle
        · contradiction
  · intro c position hfailed
    have hparse := @parseWith_comesFrom grammar source file _ _ hitems (by simp)
    rw [hfailed] at hparse
    obtain ⟨item, hmem, hnames⟩ := hparse
    rw [tokenize_eq_error_iff hitems]
    cases item with
    | error error =>
        rw [hnames.eq_of_error]
        exact error_mem_row.mp hmem
    | ok token => exact absurd hnames.isSyntactic (by simp [Error.isSyntactic, Error.isLexical])

/-! ## The text that an error points at -/

/-- The position is that of a character, or of the end, of the source, and the text stands behind
it. -/
def Position.FrontOf (source : String) (file : Option String) (position : Position)
    (text : List Char) : Prop :=
  position.file = fileName file ∧
    ∃ before, source.toList = before ++ text ∧ position.offset = width before

/-- The error is about the text behind its position: about the first character, which is not blank,
or about the token that begins there, whose lexeme it quotes. -/
def Error.Describes (source : String) (file : Option String) (text : List Char) (error : Error) :
    Prop :=
  match error.fault with
  | .unexpectedCharacter c => text.head? = some c ∧ isBlank c = false
  | .unexpectedToken lexeme | .unknownOperator lexeme | .trailingInput lexeme
  | .unclosedGroup lexeme =>
    (∃ before token, Yields source file before (.ok token) ∧ token.position = error.position ∧
      token.lexeme = lexeme) ∧
    (lexeme.toList <+: text ∨ text = [] ∧ lexeme = Token.closingLexeme)
  | .nestingTooDeep _ =>
    ∃ before token, Yields source file before (.ok token) ∧ token.position = error.position

/-- The error points at the text that it is about. -/
structure Error.PointsInto (source : String) (file : Option String) (error : Error) : Prop where
  bounds : 0 ≤ error.position.offset ∧ error.position.offset ≤ source.utf8ByteSize
  describes : ∃ text, error.position.FrontOf source file text ∧ error.Describes source file text

section PointsInto

variable {grammar : Grammar} {source : String} {file : Option String} {before : List Token}

theorem Position.FrontOf.bounds {position : Position} {text : List Char}
    (hfront : position.FrontOf source file text) :
    0 ≤ position.offset ∧ position.offset ≤ source.utf8ByteSize := by
  obtain ⟨-, before, hsource, hoffset⟩ := hfront
  rw [hoffset, utf8ByteSize_eq_width, hsource, width_append]
  omega

theorem Lexer.exists_yields {tokens : List Token} {item last : Item}
    (hitems : (ofSource source file).items =
      .ok (.opening (fileName file)) :: (tokens.map .ok ++ [last]))
    (hmem : item ∈ tokens.map .ok ++ [last]) : ∃ before, Yields source file before item := by
  rcases List.mem_append.mp hmem with hmem | hmem
  · obtain ⟨token, htoken, rfl⟩ := List.mem_map.mp hmem
    obtain ⟨before, after, rfl⟩ := List.append_of_mem htoken
    refine ⟨before, after.map .ok ++ [last], ?_⟩
    rw [hitems]
    simp
  · obtain rfl := List.mem_singleton.mp hmem
    exact ⟨tokens, [], hitems⟩

/-- Every error names an item that the lexer yields. -/
theorem exists_named {error : Error} (herror : tokenize source file = .error error ∨
    parseWith grammar source file = .error (.error error)) :
    ∃ before item, Yields source file before item ∧ error.Names Parser.standardLimit item := by
  obtain ⟨tokens, done, left, -, -, -, hitems⟩ := exists_row source file
  rcases herror with htokenize | hparse
  · have hlast := (tokenize_eq_error_iff hitems).mp htokenize
    obtain ⟨before, hyields⟩ := exists_yields hitems (error_mem_row.mpr hlast)
    exact ⟨before, _, hyields, error.names_error _⟩
  · have hcomes := @parseWith_comesFrom grammar source file _ _ hitems (by simp)
    rw [hparse] at hcomes
    obtain ⟨item, hmem, hnames⟩ := hcomes
    obtain ⟨before, hyields⟩ := exists_yields hitems hmem
    exact ⟨before, item, hyields, hnames⟩

theorem Lexer.Yields.mem_row {tokens : List Token} {item last : Item} {name : String}
    (hyields : Yields source file before item)
    (hitems : (ofSource source file).items = .ok (.opening name) :: (tokens.map .ok ++ [last])) :
    item ∈ tokens.map .ok ++ [last] := by
  obtain ⟨after, hbefore⟩ := hyields
  rw [← (List.cons.inj (hbefore.symm.trans hitems)).2]
  simp

/-- A token that the lexer yields stands in the source, or is the closing token at its end. -/
theorem Lexer.Yields.exists_frontOf {token : Token}
    (hyields : Yields source file before (.ok token)) :
    ∃ text, token.position.FrontOf source file text ∧
      (token.lexeme.toList <+: text ∨ text = [] ∧ token.lexeme = Token.closingLexeme) := by
  obtain ⟨tokens, done, left, hsource, hspans, -, hitems⟩ := exists_row source file
  rcases ok_mem_row.mp (hyields.mem_row hitems) with htoken | hlast
  · obtain ⟨passed, after, hdone, hstart, -⟩ := hspans.lexemes token htoken
    refine ⟨token.lexeme.toList ++ (after ++ left), ⟨hspans.files token htoken, passed, ?_, hstart⟩,
      .inl (List.prefix_append _ _)⟩
    rw [hsource, hdone]
    simp
  · obtain ⟨rfl, rfl⟩ := eq_closing_of_lastItem hlast
    refine ⟨[], ⟨rfl, source.toList, by simp, ?_⟩, .inr ⟨rfl, rfl⟩⟩
    simp [Token.position, Token.closing, utf8ByteSize_eq_width]

/-- An error that the lexer yields is about a character of the source that begins no gap. -/
theorem Lexer.Yields.exists_character {error : Error}
    (hyields : Yields source file before (.error error)) :
    ∃ c text, error.fault = .unexpectedCharacter c ∧ isBlank c = false ∧
      error.position.FrontOf source file (c :: text) := by
  obtain ⟨tokens, done, left, hsource, -, hstops, hitems⟩ := exists_row source file
  have hlast := error_mem_row.mp (hyields.mem_row hitems)
  cases left with
  | nil => contradiction
  | cons c text =>
      obtain rfl := Except.error.inj hlast
      have hgap : Lexeme.isGap c = false := hstops c rfl
      simp only [Lexeme.isGap, Bool.or_eq_false_iff] at hgap
      exact ⟨c, text, rfl, hgap.1, rfl, done, hsource, rfl⟩

/-- Every error points at the text that it is about. -/
theorem error_pointsInto {error : Error} (herror : tokenize source file = .error error ∨
    parseWith grammar source file = .error (.error error)) : error.PointsInto source file := by
  obtain ⟨before, item, hyields, hnames⟩ := exists_named herror
  cases item with
  | error cause =>
      obtain rfl := hnames.eq_of_error
      obtain ⟨c, text, hfault, hblank, hfront⟩ := hyields.exists_character
      refine ⟨hfront.bounds, c :: text, hfront, ?_⟩
      rw [Error.Describes, hfault]
      exact ⟨rfl, hblank⟩
  | ok token =>
      obtain ⟨text, hfront, htext⟩ := hyields.exists_frontOf
      have hposition := hnames.position_eq
      rw [← hposition] at hfront
      refine ⟨hfront.bounds, text, hfront, ?_⟩
      have hsyntactic := hnames.isSyntactic
      have hquotes := (hnames.suits token rfl).lexeme_eq
      obtain ⟨fault, position⟩ := error
      cases fault with
      | unexpectedCharacter c => contradiction
      | nestingTooDeep limit => exact ⟨before, token, hyields, hposition.symm⟩
      | unexpectedToken lexeme | unknownOperator lexeme | trailingInput lexeme
      | unclosedGroup lexeme =>
          obtain rfl : lexeme = token.lexeme := hquotes lexeme rfl
          exact ⟨⟨before, token, hyields, hposition.symm, rfl⟩, htext⟩

/-- An operator without a rule, behind characters of more than one byte. -/
theorem error_pointsInto_operator :
    parse "\"é٣\" & 1" (some "input") =
        .error (.error ⟨.unknownOperator "&", ⟨7, "input"⟩⟩) ∧
      Error.PointsInto "\"é٣\" & 1" (some "input") ⟨.unknownOperator "&", ⟨7, "input"⟩⟩ := by
  have hparse : parse "\"é٣\" & 1" (some "input") =
      .error (.error ⟨.unknownOperator "&", ⟨7, "input"⟩⟩) := by decide +kernel
  exact ⟨hparse, error_pointsInto (.inr hparse)⟩

end PointsInto

end Precedence
