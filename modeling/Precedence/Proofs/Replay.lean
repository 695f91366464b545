import Precedence.Proofs.Blame

/-!
# What a parse depends on

A parse depends on the kinds and the lexemes of the tokens that it has looked at.  It depends
neither on their places, which it only reports, nor on what stands behind them.

Two parses are compared by taking the places away.  A run without places takes the same course, so
two runs over tokens of the same kinds and lexemes come to the same result but for the places.  What
is still pending where one of them stops may be replaced, so nothing behind that place matters.
-/

namespace Precedence

open Lexer

/-! ## Runs without places -/

/-- The kind of a token and its lexeme. -/
def Token.word (token : Token) : TokenKind × String := (token.kind, token.lexeme)

/-- The token with no place in any source. -/
def Token.unplaced (token : Token) : Token := { token with span := ⟨0, 0, ""⟩ }

/-- The error with no place in any source. -/
def Error.unplaced (error : Error) : Error := { error with position := ⟨0, ""⟩ }

def Failure.unplaced : Failure → Failure
  | .error cause => .error cause.unplaced
  | .endless => .endless

def Lexer.unplaced : Item → Item
  | .ok token => .ok token.unplaced
  | .error error => .error error.unplaced

theorem Lexer.map_unplaced {tokens others : List Token}
    (hwords : tokens.map Token.word = others.map Token.word) :
    (tokens.map Except.ok).map Lexer.unplaced = (others.map Except.ok).map Lexer.unplaced := by
  have hmap := congrArg (List.map fun word : TokenKind × String =>
    (Except.ok ⟨word.1, word.2, ⟨0, 0, ""⟩⟩ : Item)) hwords
  rw [List.map_map, List.map_map] at hmap ⊢
  exact hmap

def Cursor.unplaced (cursor : Cursor) : Cursor :=
  ⟨cursor.current.unplaced, cursor.pending.map Lexer.unplaced⟩

/-- The opening tokens of two sources differ in their places only. -/
theorem Cursor.unplaced_opening {name name' : String} {items others : List Item}
    (hitems : items.map Lexer.unplaced = others.map Lexer.unplaced) :
    (Cursor.mk (.opening name) items).unplaced = (Cursor.mk (.opening name') others).unplaced := by
  rw [unplaced, unplaced, hitems]
  rfl

def Outcome.unplaced {α : Type} : Outcome α → Outcome α
  | .ok value cursor => .ok value cursor.unplaced
  | .error failure cursor => .error failure.unplaced cursor.unplaced

def Task.unplaced : Task → Task
  | .read room floor cursor => .read room floor cursor.unplaced
  | .begin room rule cursor => .begin room rule cursor.unplaced
  | .fold room floor left => .fold room floor left.unplaced

section Unplaced

variable {grammar : Grammar} {limit : Nat} {cursor : Cursor}

theorem Outcome.map_unplaced {α β : Type} (f : α → β) (outcome : Outcome α) :
    (outcome.map f).unplaced = outcome.unplaced.map f := by
  cases outcome <;> rfl

theorem Grammar.checkOperator_unplaced (grammar : Grammar) (token : Token) :
    grammar.checkOperator token.unplaced =
      (grammar.checkOperator token).mapError Error.unplaced := by
  have hsame : token.unplaced.kind = token.kind ∧ token.unplaced.lexeme = token.lexeme :=
    ⟨rfl, rfl⟩
  rw [checkOperator, checkOperator, hsame.1, hsame.2]
  split <;> rfl

/-- A step without places leaves a token without a place behind. -/
theorem Cursor.shift_unplaced (grammar : Grammar) (cursor : Cursor) :
    cursor.unplaced.shift grammar = (cursor.shift grammar).unplaced.map Token.unplaced := by
  obtain ⟨current, pending⟩ := cursor
  cases pending with
  | nil => rfl
  | cons item pending =>
      cases item with
      | error error => rfl
      | ok next =>
          simp only [unplaced, List.map_cons, Lexer.unplaced, shift,
            Grammar.checkOperator_unplaced]
          cases grammar.checkOperator next <;> rfl

theorem Cursor.close_unplaced (grammar : Grammar) (inner : Outcome Expr) :
    close grammar inner.unplaced = (close grammar inner).unplaced := by
  cases inner with
  | error failure cursor => rfl
  | ok tree cursor =>
      have hcloses : Parser.closesGroup cursor.unplaced.current =
        Parser.closesGroup cursor.current := rfl
      rw [Outcome.unplaced, close, close, hcloses]
      split
      · rw [shift_unplaced]
        cases cursor.shift grammar <;> rfl
      · rfl

/-- A run without places takes the same course. -/
theorem Run.unplaced {task : Task} {result : Outcome Expr} (hrun : Run grammar limit task result) :
    Run grammar limit task.unplaced result.unplaced := by
  have hmoves {cursor next : Cursor} {token : Token}
      (hshift : cursor.shift grammar = .ok token next) :
      cursor.unplaced.shift grammar = .ok token.unplaced next.unplaced := by
    rw [Cursor.shift_unplaced, hshift]
    rfl
  have hfails {cursor next : Cursor} {failure : Failure}
      (hshift : cursor.shift grammar = .error failure next) :
      cursor.unplaced.shift grammar = .error failure.unplaced next.unplaced := by
    rw [Cursor.shift_unplaced, hshift]
    rfl
  induction hrun with
  | tooDeep => exact .tooDeep
  | noPrefix hrule => exact .noPrefix hrule
  | read hrule hleft hfold ihleft ihfold => exact .read hrule ihleft ihfold
  | stuckPrefix hshift => exact .stuckPrefix (hfails hshift)
  | @atom room power cursor token next hshift =>
      change Run grammar limit _ (.ok token.unplaced.leaf next.unplaced)
      exact .atom (hmoves hshift)
  | @sign room power cursor token next operand hshift hoperand ih =>
      rw [Outcome.map_unplaced]
      change Run grammar limit _ (operand.unplaced.map (.unary token.unplaced.lexeme))
      exact .sign (hmoves hshift) ih
  | group hshift hinner ih =>
      rw [← Cursor.close_unplaced]
      exact .group (hmoves hshift) ih
  | failed => exact .failed
  | stop hpower => exact .stop hpower
  | noInfix hpower hrule => exact .noInfix hpower hrule
  | stuckInfix hpower hrule hshift => exact .stuckInfix hpower hrule (hfails hshift)
  | @join room floor left cursor rule token next right result hpower hrule hshift hright hpending
      hfold ihright ihfold =>
      rw [Task.unplaced, Outcome.map_unplaced] at ihfold
      have hgoes : ∀ tree after, right.unplaced = .ok tree after →
          cursor.unplaced.pending ≠ [] := by
        intro tree after hok
        cases right with
        | error failure further => contradiction
        | ok second further =>
            rw [Cursor.unplaced, ne_eq, List.map_eq_nil_iff]
            exact hpending second further rfl
      exact .join hpower hrule (hmoves hshift) ihright hgoes ihfold
  | @endless room floor left cursor rule right after hpower hrule hpending hright ih =>
      have hnil : cursor.unplaced.pending = [] := by rw [Cursor.unplaced, hpending, List.map_nil]
      exact .endless hpower hrule hnil ih

end Unplaced

/-! ## Where a failure stops the parser -/

/-- The failure names the item in front of those that are still pending. -/
def Failure.StopsAt (limit : Nat) (items : List Item) (failure : Failure) (next : Cursor) : Prop :=
  ∀ cause, failure = .error cause →
    ∃ item, item :: next.pending <:+ items ∧ cause.Names limit item

theorem Grammar.suffers_stopsAt (grammar : Grammar) (limit : Nat) (items : List Item) :
    grammar.Suffers limit items (Failure.StopsAt limit items) where
  refuse := by
    intro cursor fault hcursor hrefuses cause hcause
    rw [← Failure.error.inj hcause]
    exact ⟨_, hcursor, hrefuses.names⟩
  shift := by
    intro cursor next failure hcursor hshift cause hcause
    obtain ⟨item, other, hpending, rfl, hnames⟩ := Cursor.exists_named_of_shift hshift
    rw [← Failure.error.inj hcause]
    refine ⟨item, ?_, hnames⟩
    rw [← hpending]
    exact (List.suffix_cons _ _).trans hcursor
  endless := by
    intro cursor hcursor hpending hrule cause hcause
    contradiction

/-! ## Whole sources -/

/-- The opening token of a source is passed over like a sign, and the expression is its operand. -/
def Cursor.Reads (grammar : Grammar) (cursor : Cursor) (outcome : Outcome Expr) : Prop :=
  Run grammar Parser.standardLimit
    (.begin Parser.standardLimit ⟨.sign, Grammar.loosestPower⟩ cursor) outcome

section Reads

variable {grammar : Grammar} {cursor : Cursor} {outcome : Outcome Expr}

theorem Cursor.exists_reads (grammar : Grammar) (cursor : Cursor) :
    ∃ outcome, cursor.Reads grammar outcome :=
  Run.exists_begin (Run.exists_read grammar Parser.standardLimit Parser.standardLimit) _ cursor

/-- A parse is what becomes of the opening token and the expression behind it. -/
theorem Cursor.Reads.parseWith_map {source : String} {file : Option String} {name : String}
    {rest : List Item} (hitems : (ofSource source file).items = .ok (.opening name) :: rest)
    (hreads : Cursor.Reads grammar ⟨.opening name, rest⟩ outcome) :
    (parseWith grammar source file).map (.unary Token.openingLexeme) = outcome.whole := by
  cases hreads with
  | stuckPrefix hshift =>
      rw [parseWith_of_shift_error hitems hshift]
      rfl
  | @sign _ _ _ token next operand hshift hoperand =>
      obtain rfl := (Cursor.shift_ok hshift).1
      rw [parseWith_of_run hitems hshift hoperand]
      cases operand with
      | error failure after => rfl
      | ok tree after =>
          simp only [Outcome.map, Outcome.whole]
          split <;> rfl

theorem Cursor.Reads.whole_eq_error {source : String} {file : Option String} {name : String}
    {rest : List Item} {failure : Failure}
    (hitems : (ofSource source file).items = .ok (.opening name) :: rest)
    (hreads : Cursor.Reads grammar ⟨.opening name, rest⟩ outcome)
    (hparse : parseWith grammar source file = .error failure) : outcome.whole = .error failure := by
  rw [← hreads.parseWith_map hitems, hparse]
  rfl

/-- Where a source is refused, an item is named behind which everything is still pending. -/
theorem Cursor.Reads.exists_named (hreads : cursor.Reads grammar outcome) {cause : Error}
    (hwhole : outcome.whole = .error (.error cause)) :
    ∃ item, item :: outcome.cursor.pending <:+ cursor.items ∧
      cause.Names Parser.standardLimit item := by
  have hamong := (grammar.suffers_stopsAt Parser.standardLimit cursor.items).among hreads
    (List.suffix_refl _)
  cases outcome with
  | error failure next => exact hamong cause (Except.error.inj hwhole)
  | ok tree next =>
      rw [Outcome.whole] at hwhole
      split at hwhole
      · contradiction
      · rw [← Failure.error.inj (Except.error.inj hwhole)]
        exact ⟨_, hamong, Error.names_quoting _ next.current rfl⟩

theorem Outcome.cursor_splice {rest other : List Item} :
    (outcome.splice rest other).cursor = outcome.cursor.splice rest other := by
  cases outcome <;> rfl

theorem Outcome.cursor_unplaced : outcome.unplaced.cursor = outcome.cursor.unplaced := by
  cases outcome <;> rfl

theorem Outcome.whole_splice {rest other : List Item} :
    (outcome.splice rest other).whole = outcome.whole := by
  cases outcome <;> rfl

theorem Outcome.whole_unplaced :
    outcome.unplaced.whole = outcome.whole.mapError Failure.unplaced := by
  cases outcome with
  | error failure next => rfl
  | ok tree next =>
      have hkind : next.unplaced.current.kind = next.current.kind := rfl
      rw [Outcome.unplaced, Outcome.whole, Outcome.whole, hkind]
      split <;> rfl

/-- What is still pending where a reading ends may be replaced. -/
theorem Cursor.Reads.splice {rest other : List Item} (hreads : cursor.Reads grammar outcome)
    (hend : rest = [] → other = []) (hrest : rest <:+ outcome.cursor.pending) :
    (cursor.splice rest other).Reads grammar (outcome.splice rest other) :=
  Run.splice hend Parser.standardLimit 0 hreads (.inr ⟨rfl, rfl⟩) hrest

/-- Readings of two sources come to the same but for the places, if the items do. -/
theorem Cursor.Reads.unplaced_eq {other : Cursor} {outcome' : Outcome Expr}
    (hreads : cursor.Reads grammar outcome) (hother : other.Reads grammar outcome')
    (hsame : cursor.unplaced = other.unplaced) : outcome.unplaced = outcome'.unplaced := by
  have hunplaced : Run grammar _ _ outcome.unplaced := Run.unplaced hreads
  have hunplaced' : Run grammar _ _ outcome'.unplaced := Run.unplaced hother
  rw [Task.unplaced] at hunplaced hunplaced'
  rw [hsame] at hunplaced
  exact hunplaced.begin_unique (Nat.le_refl _) hunplaced'

end Reads

section Source

variable {grammar : Grammar} {source source' : String} {file file' : Option String}

/-- Nothing follows the token that ends a source, and something follows all others. -/
theorem Lexer.kind_eq_finish_iff {before : List Token} {token : Token} {after : List Item}
    (hitems : (ofSource source file).items =
      .ok (.opening (fileName file)) :: (before.map .ok ++ .ok token :: after)) :
    token.kind = .finish ↔ after = [] := by
  obtain ⟨tokens, last, hitems', hkinds, hlast⟩ := items_ofSource source file
  have hrow := (List.cons.inj (hitems'.symm.trans hitems)).2
  constructor
  · intro hfinish
    obtain ⟨rfl, rfl⟩ := @row_eq_of_finish _ _ _ ⟨token, after⟩ hkinds hrow hfinish
    exact (List.cons.inj (List.append_cancel_left hrow)).2.symm
  · rintro rfl
    have hend : last = .ok token := (List.cons.inj (List.append_inj' hrow rfl).2).1
    rcases hlast with hlast | ⟨c, position, hlast⟩
    · rw [Except.ok.inj (hend.symm.trans hlast)]
      rfl
    · rw [hlast] at hend
      contradiction

/-- Parses whose readings come to the same but for the places have the same result but for the
place of an error. -/
theorem mapError_eq_of_unplaced {result result' : Except Failure Expr}
    {outcome outcome' : Outcome Expr}
    (hresult : result.map (.unary Token.openingLexeme) = outcome.whole)
    (hresult' : result'.map (.unary Token.openingLexeme) = outcome'.whole)
    (hsame : outcome.unplaced = outcome'.unplaced) :
    result.mapError Failure.unplaced = result'.mapError Failure.unplaced := by
  have hwhole := congrArg Outcome.whole hsame
  rw [Outcome.whole_unplaced, Outcome.whole_unplaced, ← hresult, ← hresult'] at hwhole
  cases result with
  | error failure =>
      cases result' with
      | error failure' => exact hwhole
      | ok tree' => contradiction
  | ok tree =>
      cases result' with
      | error failure' => contradiction
      | ok tree' => rw [(Expr.unary.inj (Except.ok.inj hwhole)).2]

theorem eq_ok_of_mapError {result : Except Failure Expr} {tree : Expr}
    (hsame : (Except.ok tree).mapError Failure.unplaced = result.mapError Failure.unplaced) :
    result = .ok tree := by
  cases result with
  | error failure => contradiction
  | ok other => exact hsame.symm

theorem exists_error_of_mapError {result : Except Failure Expr} {error : Error}
    (hsame : (Except.error (.error error)).mapError Failure.unplaced =
      result.mapError Failure.unplaced) :
    ∃ cause, result = .error (.error cause) ∧ cause.fault = error.fault := by
  cases result with
  | ok tree => contradiction
  | error failure =>
      have hfailure := Except.error.inj hsame
      cases failure with
      | endless => contradiction
      | error cause => exact ⟨cause, rfl, (congrArg Error.fault (Failure.error.inj hfailure)).symm⟩

/-- Of a tree no place is left, so it only depends on the kinds and the lexemes of the tokens. -/
theorem parseWith_ok_of_words {tree : Expr} {row row' : List Token}
    (hparse : parseWith grammar source file = .ok tree)
    (hrow : tokenize source file = .ok row) (hrow' : tokenize source' file' = .ok row')
    (hwords : row.map Token.word = row'.map Token.word) :
    parseWith grammar source' file' = .ok tree := by
  obtain ⟨tokens, last, hitems, -⟩ := items_ofSource source file
  obtain ⟨tokens', last', hitems', -⟩ := items_ofSource source' file'
  have hmap := Lexer.map_unplaced hwords
  rw [← tokenize_eq_ok_iff.mp hrow, ← tokenize_eq_ok_iff.mp hrow', hitems, hitems'] at hmap
  obtain ⟨outcome, hreads⟩ := Cursor.exists_reads grammar
    ⟨.opening (fileName file), tokens.map .ok ++ [last]⟩
  obtain ⟨outcome', hreads'⟩ := Cursor.exists_reads grammar
    ⟨.opening (fileName file'), tokens'.map .ok ++ [last']⟩
  have hsame := hreads.unplaced_eq hreads' (Cursor.unplaced_opening (List.cons.inj hmap).2)
  have hresult := mapError_eq_of_unplaced (hreads.parseWith_map hitems)
    (hreads'.parseWith_map hitems') hsame
  rw [hparse] at hresult
  exact eq_ok_of_mapError hresult

section Blamed

variable {before before' : List Token} {token token' : Token} {after after' : List Item}
variable {error : Error} {outcome outcome' : Outcome Expr}

/-- With the items that follow in another source, a source differs from it in places only. -/
theorem Cursor.unplaced_splice {name name' : String}
    (hwords : (before ++ [token]).map Token.word = (before' ++ [token']).map Token.word) :
    (Cursor.splice after after' ⟨.opening name, before.map .ok ++ .ok token :: after⟩).unplaced =
      (Cursor.mk (.opening name') (before'.map .ok ++ .ok token' :: after')).unplaced := by
  have hfront : before.map Except.ok ++ Except.ok token :: after =
      (before ++ [token]).map .ok ++ after := by
    simp
  have hfront' : before'.map Except.ok ++ Except.ok token' :: after' =
      (before' ++ [token']).map .ok ++ after' := by
    simp
  rw [hfront, hfront', splice_eq rfl]
  apply unplaced_opening
  rw [@List.map_append _ _ Lexer.unplaced, @List.map_append _ _ Lexer.unplaced,
    Lexer.map_unplaced hwords]

/-- A parse that fails at a token has all that follows the token still pending. -/
theorem pending_eq_of_position
    (hitems : (ofSource source file).items =
      .ok (.opening (fileName file)) :: (before.map .ok ++ .ok token :: after))
    (hreads : Cursor.Reads grammar
      ⟨.opening (fileName file), before.map .ok ++ .ok token :: after⟩ outcome)
    (hwhole : outcome.whole = .error (.error error)) (hsyntactic : error.isSyntactic = true)
    (hposition : token.position = error.position) : outcome.cursor.pending = after := by
  obtain ⟨item, ⟨front, hfront⟩, hnames⟩ := hreads.exists_named hwhole
  rw [Cursor.items, ← hitems] at hfront
  cases item with
  | error cause =>
      obtain ⟨tokens, last, hrow, -⟩ := items_ofSource source file
      have hmem : Except.error cause ∈ tokens.map Except.ok ++ [last] := by
        rw [hrow] at hfront
        have hsplit : Except.error cause ∈ front ++ .error cause :: outcome.cursor.pending := by
          simp
        rw [hfront] at hsplit
        exact (List.mem_cons.mp hsplit).resolve_left (by simp)
      obtain ⟨others, hyields⟩ := exists_yields hrow hmem
      have hlexical := hyields.isLexical
      rw [← hnames.eq_of_error] at hlexical
      simp [Error.isSyntactic, hlexical] at hsyntactic
  | ok named =>
      have hpair := pairwise_startsBefore source file
      rw [← hfront] at hpair
      have hstart : named.span.start = token.span.start := by
        rw [hnames.position_eq] at hposition
        exact (congrArg Position.offset hposition).symm
      rw [hitems, ← List.cons_append] at hfront
      obtain ⟨rfl, rfl⟩ := eq_of_start_eq hpair hfront hstart
      exact (List.cons.inj (List.append_cancel_left hfront)).2

/-- A parse that fails with as much pending as follows a token fails at the token. -/
theorem position_eq_of_length
    (hitems : (ofSource source file).items =
      .ok (.opening (fileName file)) :: (before.map .ok ++ .ok token :: after))
    (hreads : Cursor.Reads grammar
      ⟨.opening (fileName file), before.map .ok ++ .ok token :: after⟩ outcome)
    (hwhole : outcome.whole = .error (.error error))
    (hlength : outcome.cursor.pending.length = after.length) :
    error.position = token.position := by
  obtain ⟨item, hsuffix, hnames⟩ := hreads.exists_named hwhole
  have hrest : .ok token :: after <:+ (ofSource source file).items := by
    rw [hitems, ← List.cons_append]
    exact List.suffix_append _ _
  rw [Cursor.items, ← hitems] at hsuffix
  have hitem : item :: outcome.cursor.pending = .ok token :: after := by
    apply (List.suffix_of_suffix_length_le hsuffix hrest _).eq_of_length <;> simp [hlength]
  rw [(List.cons.inj hitem).1] at hnames
  exact hnames.position_eq

/-- Of an error only the place depends on more than the kinds and the lexemes of the tokens up to
it. -/
theorem parseWith_error_of_words (hparse : parseWith grammar source file = .error (.error error))
    (hsyntactic : error.isSyntactic = true) (hyields : Yields source file before (.ok token))
    (hposition : token.position = error.position)
    (hyields' : Yields source' file' before' (.ok token'))
    (hwords : (before ++ [token]).map Token.word = (before' ++ [token']).map Token.word) :
    parseWith grammar source' file' = .error (.error ⟨error.fault, token'.position⟩) := by
  obtain ⟨after, hitems⟩ := hyields
  obtain ⟨after', hitems'⟩ := hyields'
  obtain ⟨outcome, hreads⟩ := Cursor.exists_reads grammar
    ⟨.opening (fileName file), before.map .ok ++ .ok token :: after⟩
  obtain ⟨outcome', hreads'⟩ := Cursor.exists_reads grammar
    ⟨.opening (fileName file'), before'.map .ok ++ .ok token' :: after'⟩
  have hwhole := hreads.whole_eq_error hitems hparse
  have hpending := pending_eq_of_position hitems hreads hwhole hsyntactic hposition
  have hend : after = [] → after' = [] := by
    rw [List.map_append, List.map_append] at hwords
    have hkind : token.kind = token'.kind :=
      (Prod.mk.inj (List.cons.inj (List.append_inj' hwords rfl).2).1).1
    rw [← kind_eq_finish_iff hitems, ← kind_eq_finish_iff hitems', hkind]
    exact id
  have hspliced := hreads.splice hend ⟨[], hpending.symm⟩
  have hsame := hspliced.unplaced_eq hreads' (Cursor.unplaced_splice hwords)
  have hresult := mapError_eq_of_unplaced
    ((hreads.parseWith_map hitems).trans Outcome.whole_splice.symm)
    (hreads'.parseWith_map hitems') hsame
  rw [hparse] at hresult
  obtain ⟨cause, hparse', hfault⟩ := exists_error_of_mapError hresult
  have hwhole' := hreads'.whole_eq_error hitems' hparse'
  have hlength : outcome'.cursor.pending.length = after'.length := by
    have hcursor := congrArg (fun outcome => outcome.cursor.pending.length) hsame
    simpa [Outcome.cursor_unplaced, Outcome.cursor_splice, Cursor.unplaced, Cursor.splice,
      hpending] using hcursor.symm
  rw [hparse', ← hfault, ← position_eq_of_length hitems' hreads' hwhole' hlength]

end Blamed

end Source

/-- A parse depends on the kinds and the lexemes of tokens alone.  A tree depends on those of all
tokens.  An error at a token depends on those of the tokens up to it, and is the same at the same
token of any source that begins with such tokens. -/
theorem parseWith_determined (grammar : Grammar) (source source' : String)
    (file file' : Option String) :
    (∀ tree row row', parseWith grammar source file = .ok tree →
      tokenize source file = .ok row → tokenize source' file' = .ok row' →
      row.map Token.word = row'.map Token.word → parseWith grammar source' file' = .ok tree) ∧
    ∀ error before before' token token',
      parseWith grammar source file = .error (.error error) → error.isSyntactic = true →
      Yields source file before (.ok token) → token.position = error.position →
      Yields source' file' before' (.ok token') →
      (before ++ [token]).map Token.word = (before' ++ [token']).map Token.word →
      parseWith grammar source' file' = .error (.error ⟨error.fault, token'.position⟩) := by
  constructor
  · intro tree row row' hparse hrow hrow' hwords
    exact parseWith_ok_of_words hparse hrow hrow' hwords
  · intro error before before' token token' hparse hsyntactic hyields hposition hyields' hwords
    exact parseWith_error_of_words hparse hsyntactic hyields hposition hyields' hwords

/-- The same tokens with other gaps between them, and a missing operand in front of a character
that begins no lexeme. -/
theorem parseWith_determined_respaced :
    parseWith .arithmetic "2\n*  x" (some "copy") =
        .ok (.binary "*" (.literal "2") (.identifier "x")) ∧
      parseWith .arithmetic "1  +\t* @" (some "copy") =
        .error (.error ⟨.unexpectedToken "*", ⟨5, "copy"⟩⟩) := by
  have hrow : tokenize "2*x" none = .ok [.opening "shell", ⟨.number, "2", ⟨0, 1, "shell"⟩⟩,
      ⟨.operator, "*", ⟨1, 2, "shell"⟩⟩, ⟨.name, "x", ⟨2, 3, "shell"⟩⟩, .closing 3 "shell"] := by
    decide +kernel
  have hrow' : tokenize "2\n*  x" (some "copy") = .ok [.opening "copy",
      ⟨.number, "2", ⟨0, 1, "copy"⟩⟩, ⟨.operator, "*", ⟨2, 3, "copy"⟩⟩,
      ⟨.name, "x", ⟨5, 6, "copy"⟩⟩, .closing 6 "copy"] := by
    decide +kernel
  have hyields : Yields "1 + * 2" none
      [⟨.number, "1", ⟨0, 1, "shell"⟩⟩, ⟨.operator, "+", ⟨2, 3, "shell"⟩⟩]
      (.ok ⟨.operator, "*", ⟨4, 5, "shell"⟩⟩) :=
    ⟨[.ok ⟨.number, "2", ⟨6, 7, "shell"⟩⟩, .ok (.closing 7 "shell")], by decide +kernel⟩
  have hyields' : Yields "1  +\t* @" (some "copy")
      [⟨.number, "1", ⟨0, 1, "copy"⟩⟩, ⟨.operator, "+", ⟨3, 4, "copy"⟩⟩]
      (.ok ⟨.operator, "*", ⟨5, 6, "copy"⟩⟩) :=
    ⟨[.error ⟨.unexpectedCharacter '@', ⟨7, "copy"⟩⟩], by decide +kernel⟩
  constructor
  · exact (parseWith_determined .arithmetic "2*x" "2\n*  x" none (some "copy")).1 _ _ _
      (by decide +kernel) hrow hrow' (by decide)
  · exact (parseWith_determined .arithmetic "1 + * 2" "1  +\t* @" none (some "copy")).2
      ⟨.unexpectedToken "*", ⟨4, "shell"⟩⟩ _ _ _ _ (by decide +kernel) rfl hyields rfl hyields'
      (by decide)

end Precedence
