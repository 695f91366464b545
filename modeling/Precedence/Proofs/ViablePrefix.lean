import Precedence.Proofs.Locality
import Precedence.Proofs.Strata

/-!
# Viable prefixes

Where the parser gives up, it gives up as early as it can.  The tokens that it has taken by then are
the beginning of a phrase, and with the token that it blames they are the beginning of none.
-/

namespace Precedence

open Lexer

/-- The failure reports an error of the lexer, or one at a token. -/
inductive Failure.Blames : Failure → Item → Prop
  | item {cause : Error} : Blames (.error cause) (.error cause)
  | token {fault : Fault} {token : Token} (hfault : ∀ c, fault ≠ .unexpectedCharacter c) :
      Blames (.error ⟨fault, token.position⟩) (.ok token)

theorem Grammar.eq_of_checkOperator {grammar : Grammar} {token : Token} {cause : Error}
    (hcheck : grammar.checkOperator token = .error cause) :
    cause = ⟨.unknownOperator token.lexeme, token.position⟩ := by
  rw [checkOperator] at hcheck
  split at hcheck
  · exact (Except.error.inj hcheck).symm
  · contradiction

theorem Cursor.shift_blames {grammar : Grammar} {cursor next : Cursor} {failure : Failure}
    (hshift : cursor.shift grammar = .error failure next) :
    ∃ item, cursor.pending = item :: next.pending ∧ failure.Blames item ∧
      ∀ token, item = .ok token → ∃ cause, grammar.checkOperator token = .error cause := by
  obtain ⟨-, item, cause, hpending, rfl, hitem⟩ := Cursor.shift_error hshift
  rcases hitem with rfl | ⟨token, rfl, hcheck⟩
  · refine ⟨_, hpending, .item, ?_⟩
    intro token heq
    contradiction
  · have hcause := Grammar.eq_of_checkOperator hcheck
    refine ⟨_, hpending, ?_, ?_⟩
    · rw [hcause]
      exact .token (by simp)
    · intro other heq
      rw [← Except.ok.inj heq]
      exact ⟨cause, hcheck⟩

/-! ## What was taken can be completed -/

namespace Phrase

/-- The tokens that were taken are the beginning of the phrase, and the failure is about the item
behind them. -/
structure BreaksOff (grammar : Grammar) (floor : Nat) (items : List Item) (failure : Failure)
    (next : Cursor) (taken : List Token) (phrase : Phrase) : Prop where
  begins : taken <+: phrase.tokens
  fits : phrase.Fits grammar floor
  blames : ∃ item, items = taken.map .ok ++ item :: next.pending ∧ failure.Blames item

variable {grammar : Grammar} {floor : Nat} {items : List Item} {failure : Failure} {next : Cursor}
variable {taken : List Token} {phrase : Phrase}

/-- A phrase that breaks off inside a larger one. -/
theorem BreaksOff.within (hbreaks : phrase.BreaksOff grammar floor items failure next taken)
    (front back : List Token) {whole : Phrase} {higher : Nat}
    (htokens : whole.tokens = front ++ (phrase.tokens ++ back))
    (hfits : whole.Fits grammar higher) :
    whole.BreaksOff grammar higher (front.map .ok ++ items) failure next (front ++ taken) := by
  obtain ⟨item, hitems, hblames⟩ := hbreaks.blames
  refine ⟨?_, hfits, item, ?_, hblames⟩
  · rw [htokens, List.prefix_append_right_inj]
    exact hbreaks.begins.trans (List.prefix_append _ _)
  · rw [hitems, List.map_append, List.append_assoc]

/-- A right operand that breaks off behind a phrase that was read and its operator. -/
theorem BreaksOff.right {room : Nat} {tree : Expr} {cursor after : Cursor} {operand : Phrase}
    {rule : InfixRule}
    (hoperand : operand.BreaksOff grammar rule.rightPower next.items failure after taken)
    (hphrase : phrase.ReadOff grammar room floor items tree cursor)
    (hrule : grammar.infixOf? cursor.current = some rule)
    (hpower : floor < grammar.powerOf cursor.current)
    (hitems : cursor.items = .ok cursor.current :: next.items) :
    (Phrase.binary phrase cursor.current operand).BreaksOff grammar floor items failure after
      (phrase.tokens ++ [cursor.current] ++ taken) := by
  have hwhole : items = (phrase.tokens ++ [cursor.current]).map .ok ++ next.items := by
    rw [hphrase.items_eq, hitems]
    simp
  rw [hwhole]
  apply hoperand.within (phrase.tokens ++ [cursor.current]) []
  · simp [tokens]
  · exact .binary hrule hpower hphrase.fits hphrase.ends hoperand.fits

end Phrase

/-- The task fails in a phrase. -/
def Task.BreaksOff (grammar : Grammar) (failure : Failure) (next : Cursor) : Task → Prop
  | .read _ floor cursor => cursor.Ready grammar → ∃ (taken : List Token) (phrase : Phrase),
      phrase.BreaksOff grammar floor cursor.items failure next taken
  | .begin _ rule cursor => cursor.Ready grammar → grammar.prefixOf? cursor.current = some rule →
      ∀ floor, ∃ (taken : List Token) (phrase : Phrase),
        phrase.BreaksOff grammar floor cursor.items failure next taken
  | .fold _ _ (.error _ _) => True
  | .fold room floor (.ok left cursor) => ∀ (items : List Item) (phrase : Phrase),
      phrase.ReadOff grammar (room + 1) floor items left cursor →
      ∃ (taken : List Token) (longer : Phrase),
        longer.BreaksOff grammar floor items failure next taken

/-- There are tokens that end what a group or an operator left open. -/
structure Grammar.Completes (grammar : Grammar) (filler closing : Token) : Prop where
  filler : ∃ power, grammar.prefixOf? filler = some ⟨.atom, power⟩
  closes : Parser.closesGroup closing = true
  checked : grammar.checkOperator closing = .ok ()
  power : grammar.powerOf closing ≤ Grammar.loosestPower

namespace Grammar.Completes

variable {grammar : Grammar} {filler closing : Token} {floor : Nat}

theorem fits_filler (hcompletes : grammar.Completes filler closing) :
    (Phrase.atom filler).Fits grammar floor := by
  obtain ⟨power, hrule⟩ := hcompletes.filler
  exact .atom hrule

theorem fits_group (hcompletes : grammar.Completes filler closing) {opening : Token} {power : Nat}
    {inner : Phrase} (hrule : grammar.prefixOf? opening = some ⟨.group, power⟩)
    (hinner : inner.Fits grammar loosestPower) :
    (Phrase.group opening inner closing).Fits grammar floor :=
  .group hrule hinner hcompletes.closes hcompletes.checked hcompletes.power

/-- A token that can begin an expression begins a phrase that fits. -/
theorem exists_phrase_cons (hcompletes : grammar.Completes filler closing) {token : Token}
    {rule : PrefixRule} (hrule : grammar.prefixOf? token = some rule) :
    ∃ phrase : Phrase, [token] <+: phrase.tokens ∧ phrase.Fits grammar floor := by
  obtain ⟨form, power⟩ := rule
  cases form with
  | atom => exact ⟨.atom token, List.prefix_refl _, .atom hrule⟩
  | sign =>
      exact ⟨.sign token (.atom filler), List.prefix_append _ _,
        .sign hrule hcompletes.fits_filler⟩
  | group =>
      exact ⟨.group token (.atom filler) closing, List.prefix_append _ _,
        hcompletes.fits_group hrule hcompletes.fits_filler⟩

/-- A group breaks off at its closing: the token there does not close it, or the next cannot be
had. -/
theorem breaksOff_close (hcompletes : grammar.Completes filler closing) {opening : Token}
    {power room : Nat} {inner : Phrase} {items : List Item} {tree : Expr} {cursor next : Cursor}
    {failure : Failure} (hrule : grammar.prefixOf? opening = some ⟨.group, power⟩)
    (hinner : inner.ReadOff grammar room loosestPower items tree cursor)
    (hpower : grammar.powerOf cursor.current ≤ loosestPower)
    (hclose : Cursor.close grammar (.ok tree cursor) = .error failure next) :
    ∃ (taken : List Token) (phrase : Phrase),
      phrase.BreaksOff grammar floor (.ok opening :: items) failure next taken := by
  have hwhole : .ok opening :: items = (opening :: inner.tokens).map .ok ++ cursor.items := by
    rw [hinner.items_eq]
    rfl
  rw [Cursor.close] at hclose
  split at hclose
  · next hcloses =>
      have hshift := Outcome.map_eq_error hclose
      obtain ⟨item, hpending, hblames, -⟩ := Cursor.shift_blames hshift
      refine ⟨opening :: (inner.tokens ++ [cursor.current]), .group opening inner cursor.current,
        List.prefix_refl _, .group hrule hinner.fits hcloses hinner.ready.checked hpower, item, ?_,
        hblames⟩
      rw [hwhole, Cursor.items, hpending]
      simp
  · cases hclose
    refine ⟨opening :: inner.tokens, .group opening inner closing, ?_,
      hcompletes.fits_group hrule hinner.fits, _, hwhole, .token (by simp)⟩
    rw [Phrase.tokens, List.prefix_cons_inj]
    exact List.prefix_append _ _

end Grammar.Completes

namespace Run

variable {grammar : Grammar} {limit : Nat} {task : Task} {result : Outcome Expr}
variable {filler closing : Token}

/-- What was taken by a run that fails is the beginning of a phrase that fits. -/
theorem breaksOff (hfinish : grammar.FinishBare) (hcompletes : grammar.Completes filler closing)
    (hrun : Run grammar limit task result) :
    ∀ failure next, result = .error failure next → task.BreaksOff grammar failure next := by
  induction hrun with
  | tooDeep | noPrefix hrule =>
      intro failure next hresult hready
      cases hresult
      exact ⟨[], .atom filler, List.nil_prefix, hcompletes.fits_filler, _, rfl, .token (by simp)⟩
  | @read room floor cursor rule left result hrule hleft hfold ihleft ihfold =>
      intro failure next hresult hready
      cases left with
      | error failure' after =>
          cases hfold
          exact ihleft failure next hresult hready hrule floor
      | ok first after =>
          obtain ⟨phrase, hphrase⟩ := hleft.phrased hfinish first after rfl hready hrule floor
          exact ihfold failure next hresult cursor.items phrase hphrase
  | @stuckPrefix room rule cursor failure next hshift =>
      intro failure' next' hresult hready hrule floor
      cases hresult
      obtain ⟨item, hpending, hblames, -⟩ := Cursor.shift_blames hshift
      obtain ⟨phrase, hbegins, hfits⟩ := hcompletes.exists_phrase_cons hrule
      refine ⟨[cursor.current], phrase, hbegins, hfits, item, ?_, hblames⟩
      rw [Cursor.items, hpending]
      rfl
  | atom | stop =>
      intro failure next hresult
      contradiction
  | @sign room power cursor token next operand hshift hoperand ih =>
      intro failure after hresult hready hrule floor
      have hoperandError := Outcome.map_eq_error hresult
      obtain ⟨rfl, hitems, hnext⟩ := hready.shift (hfinish.kind_ne_of_prefixOf? hrule) hshift
      obtain ⟨taken, phrase, hbreaks⟩ := ih failure after hoperandError hnext
      refine ⟨cursor.current :: taken, .sign cursor.current phrase, ?_⟩
      rw [hitems]
      exact hbreaks.within [cursor.current] [] (by simp [Phrase.tokens]) (.sign hrule hbreaks.fits)
  | @group room power cursor token next inner hshift hinner ih =>
      intro failure after hresult hready hrule floor
      obtain ⟨rfl, hitems, hnext⟩ := hready.shift (hfinish.kind_ne_of_prefixOf? hrule) hshift
      rw [hitems]
      cases inner with
      | error failure' further =>
          cases hresult
          obtain ⟨taken, phrase, hbreaks⟩ := ih failure after rfl hnext
          refine ⟨cursor.current :: taken, .group cursor.current phrase closing, ?_⟩
          exact hbreaks.within [cursor.current] [closing] rfl
            (hcompletes.fits_group hrule hbreaks.fits)
      | ok tree further =>
          obtain ⟨phrase, hphrase, hpower⟩ := hinner.phrased hfinish tree further rfl hnext
          exact hcompletes.breaksOff_close hrule hphrase hpower hresult
  | failed =>
      intro failure next hresult
      trivial
  | @noInfix room floor left cursor hpower hrule =>
      intro failure next hresult items phrase hphrase
      cases hresult
      exact ⟨phrase.tokens, phrase, List.prefix_refl _, hphrase.fits, _, hphrase.items_eq,
        .token (by simp)⟩
  | @stuckInfix room floor left cursor rule failure next hpower hrule hshift =>
      intro failure' next' hresult items phrase hphrase
      cases hresult
      obtain ⟨item, hpending, hblames, -⟩ := Cursor.shift_blames hshift
      refine ⟨phrase.tokens ++ [cursor.current], .binary phrase cursor.current (.atom filler), ?_,
        .binary hrule hpower hphrase.fits hphrase.ends hcompletes.fits_filler, item, ?_, hblames⟩
      · simp [Phrase.tokens]
      · rw [hphrase.items_eq, Cursor.items, hpending]
        simp
  | @join room floor left cursor rule token next right result hpower hrule hshift hright hpending
      hfold ihright ihfold =>
      intro failure after hresult items phrase hphrase
      obtain ⟨rfl, hitems, hnext⟩ :=
        hphrase.ready.shift (hfinish.kind_ne_of_infixOf? hrule) hshift
      cases right with
      | error failure' further =>
          rw [Outcome.map_error] at hfold
          cases hfold
          cases hresult
          obtain ⟨taken, operand, hbreaks⟩ := ihright failure after rfl hnext
          exact ⟨_, _, hbreaks.right hphrase hrule hpower hitems⟩
      | ok second further =>
          obtain ⟨operand, hoperand, hfloor⟩ :=
            hright.phrased hfinish second further rfl hnext
          exact ihfold failure after hresult items _
            (hphrase.join hrule hpower hitems hoperand hfloor)
  | @endless room floor left cursor rule right after hpower hrule hpending hright =>
      intro failure next hresult items phrase hphrase
      have hitems : cursor.items = [] ++ [.ok cursor.current] := by
        rw [Cursor.items, hpending]
        rfl
      exact absurd (hphrase.ready.kind_eq_finish hitems) (hfinish.kind_ne_of_infixOf? hrule)

end Run

/-! ## What stopped the parser cannot be completed -/

/-- Some expression begins with the tokens, the end of a source behind it included. -/
def Grammar.Viable (grammar : Grammar) (tokens : List Token) : Prop :=
  ∃ (phrase : Phrase) (last : Token), phrase.Fits grammar Grammar.loosestPower ∧
    last.kind = .finish ∧ tokens <+: phrase.tokens ++ [last]

namespace Phrase

variable {grammar : Grammar} {floor : Nat} {phrase : Phrase}

/-- A phrase that fits does not contain the end of a source. -/
theorem Fits.kind_ne_finish (hfinish : grammar.FinishBare) (hfits : phrase.Fits grammar floor) :
    ∀ token ∈ phrase.tokens, token.kind ≠ .finish := by
  intro token htoken
  rcases hfits.serves token htoken with ⟨rule, hrule⟩ | ⟨rule, hrule⟩ | ⟨hcloses, -⟩
  · exact hfinish.kind_ne_of_prefixOf? hrule
  · exact hfinish.kind_ne_of_infixOf? hrule
  · intro hkind
    simp [Parser.closesGroup, hkind] at hcloses

end Phrase

section Hopeless

variable {grammar : Grammar} {before : List Token} {bad : Token}

/-- No expression contains a token that is refused. -/
theorem Grammar.not_viable_of_checkOperator {cause : Error}
    (hcheck : grammar.checkOperator bad = .error cause) : ¬ grammar.Viable (before ++ [bad]) := by
  rintro ⟨phrase, last, hfits, hlast, hbegins⟩
  have hmem : bad ∈ phrase.tokens ++ [last] := hbegins.subset (by simp)
  have hok : grammar.checkOperator bad = .ok () := by
    rcases List.mem_append.mp hmem with hmem | hmem
    · exact hfits.checked bad hmem
    · rw [List.mem_singleton.mp hmem]
      exact checkOperator_finish hlast
  rw [hcheck] at hok
  contradiction

/-- If a run stops at a token without having come to the end of a source, then it would stop there
whatever stood behind the token. -/
theorem Run.not_viable {limit room : Nat} {first : Cursor} {result : Outcome Expr}
    (hfinish : grammar.FinishBare) (hpower : ∀ rule ∈ grammar.rule? .finish, rule.power = 0)
    (hready : first.Ready grammar)
    (hrun : Run grammar limit (.read room Grammar.loosestPower first) result)
    (hlocal : result.IsLocal)
    (hstop : ∀ tree next, result = .ok tree next → next.current.kind ≠ .finish)
    (hitems : first.items = before.map .ok ++ .ok bad :: result.cursor.pending) :
    ¬ grammar.Viable (before ++ [bad]) := by
  rintro ⟨phrase, last, hfits, hlast, more, hmore⟩
  -- the end of a source stands only at the end of a sentence, where nothing more follows
  have hend : result.cursor.pending = [] → more.map (Except.ok (ε := Error)) = [] := by
    intro hnil
    rw [hnil] at hitems
    rcases more.eq_nil_or_concat with rfl | ⟨others, final, rfl⟩
    · rfl
    · rw [List.concat_eq_append, ← List.append_assoc] at hmore
      have hbefore : before ++ [bad] ++ others = phrase.tokens := (List.append_inj' hmore rfl).1
      have hmem : bad ∈ phrase.tokens := by
        rw [← hbefore]
        simp
      exact absurd (hready.kind_eq_finish hitems) (hfits.kind_ne_finish hfinish bad hmem)
  -- with the sentence behind the token the run stops as before, though the sentence can be read
  have hspliced := hrun.splice hend (room + phrase.height) phrase.height (.inl hlocal)
    (List.suffix_refl _)
  have hfront : first.items = (before ++ [bad]).map .ok ++ result.cursor.pending := by
    rw [hitems]
    simp
  have hsentence : (first.splice result.cursor.pending (more.map .ok)).items =
      phrase.tokens.map .ok ++ [.ok last] := by
    rw [Cursor.items_splice hfront (by simp), ← List.map_append, hmore]
    simp
  have hread : Run grammar (room + phrase.height) _ _ := hfits.read_sentence hpower
    (Nat.le_add_left phrase.height room) hsentence hlast
  have heq := Run.read_unique (Nat.le_refl _) hspliced hread
  cases result with
  | error failure next => contradiction
  | ok tree next =>
      injection heq with htree hnext
      apply hstop tree next rfl
      have hcurrent : next.current = last := congrArg Cursor.current hnext
      rw [hcurrent]
      exact hlast

/-- What a failed parse reports stands behind tokens that some expression begins with.  If it is a
token and the limit on levels is not to blame, then no expression begins with that token as well. -/
theorem exists_blamed_of_parseWith {filler closing : Token} {source : String}
    {file : Option String} {failure : Failure} (hfinish : grammar.FinishBare)
    (hpower : ∀ rule ∈ grammar.rule? .finish, rule.power = 0)
    (hcompletes : grammar.Completes filler closing)
    (hparse : parseWith grammar source file = .error failure) :
    ∃ (before : List Token) (item : Item) (after : List Item),
      (ofSource source file).items =
        .ok (.opening (fileName file)) :: (before.map .ok ++ item :: after) ∧
      failure.Blames item ∧ grammar.Viable before ∧
      ∀ token, item = .ok token → failure.IsLocal → ¬ grammar.Viable (before ++ [token]) := by
  obtain ⟨tokens, last, hitems, -, hlast⟩ := items_ofSource source file
  have hviable {phrase : Phrase} {taken : List Token}
      (hfits : phrase.Fits grammar Grammar.loosestPower) (hbegins : taken <+: phrase.tokens) :
      grammar.Viable taken :=
    ⟨phrase, .closing 0 "", hfits, rfl, hbegins.trans (List.prefix_append _ _)⟩
  cases hshift : Cursor.shift grammar ⟨.opening (fileName file), tokens.map .ok ++ [last]⟩ with
  | error failure' next =>
      rw [parseWith_of_shift_error hitems hshift] at hparse
      obtain rfl := Except.error.inj hparse
      obtain ⟨item, hpending, hblames, hrefused⟩ := Cursor.shift_blames hshift
      have hnone : grammar.Viable [] := hviable hcompletes.fits_filler List.nil_prefix
      refine ⟨[], item, next.pending, ?_, hblames, hnone, ?_⟩
      · rw [hitems]
        exact congrArg _ hpending
      · intro token hitem hlocal
        obtain ⟨cause, hcheck⟩ := hrefused token hitem
        exact Grammar.not_viable_of_checkOperator hcheck
  | ok token next =>
      obtain ⟨hnext, hready⟩ := Cursor.Ready.of_opening hlast hshift
      obtain ⟨result, hrun⟩ := Run.exists_read grammar Parser.standardLimit Parser.standardLimit
        Grammar.loosestPower next
      rw [parseWith_of_run hitems hshift hrun] at hparse
      cases result with
      | error failure' after =>
          obtain rfl := Except.error.inj hparse
          obtain ⟨taken, phrase, hbreaks⟩ :=
            hrun.breaksOff hfinish hcompletes failure' after rfl hready
          obtain ⟨item, hbroken, hblames⟩ := hbreaks.blames
          refine ⟨taken, item, after.pending, ?_, hblames, hviable hbreaks.fits hbreaks.begins, ?_⟩
          · rw [hitems, ← hbroken, hnext]
          · rintro token rfl hlocal
            exact hrun.not_viable hfinish hpower hready hlocal (by simp) hbroken
      | ok tree after =>
          rw [Outcome.whole] at hparse
          split at hparse
          · contradiction
          · next hkind =>
              obtain rfl := Except.error.inj hparse
              obtain ⟨phrase, hphrase, -⟩ := hrun.phrased hfinish tree after rfl hready
              refine ⟨phrase.tokens, .ok after.current, after.pending, ?_, .token (by simp),
                hviable hphrase.fits (List.prefix_refl _), ?_⟩
              · rw [hitems, ← hnext, hphrase.items_eq]
                rfl
              · intro token heq hlocal
                rw [← Except.ok.inj heq]
                apply hrun.not_viable hfinish hpower hready trivial _ hphrase.items_eq
                intro tree' next' hresult
                cases hresult
                exact hkind

end Hopeless

/-! ## Arithmetic -/

/-- Some sentence of arithmetic begins with the tokens.  A sentence is an expression with the end of
a source behind it. -/
def Viable (tokens : List Token) : Prop :=
  ∃ sentence last tree height, Derives .expression sentence tree height ∧ last.kind = .finish ∧
    tokens <+: sentence ++ [last]

theorem viable_iff {tokens : List Token} : Viable tokens ↔ Grammar.arithmetic.Viable tokens := by
  constructor
  · rintro ⟨sentence, last, tree, height, hderives, hlast, hbegins⟩
    obtain ⟨phrase, hfits, rfl, -⟩ := (derives_iff_exists_phrase Stratum.noConfusion).mp hderives
    exact ⟨phrase, last, hfits, hlast, hbegins⟩
  · rintro ⟨phrase, last, hfits, hlast, hbegins⟩
    have hderives : Derives .expression _ _ _ :=
      (derives_iff_exists_phrase Stratum.noConfusion).mpr ⟨phrase, hfits, rfl, rfl, rfl⟩
    exact ⟨phrase.tokens, last, phrase.tree, phrase.height, hderives, hlast, hbegins⟩

theorem Grammar.arithmetic_completes :
    arithmetic.Completes ⟨.number, "0", ⟨0, 0, ""⟩⟩ ⟨.operator, ")", ⟨0, 0, ""⟩⟩ := by
  have hclosing : Token.IsOneOf ⟨.operator, ")", ⟨0, 0, ""⟩⟩ [")"] := by decide
  obtain ⟨hcheck, hpower⟩ := arithmetic_closing hclosing
  refine ⟨⟨0, ?_⟩, Parser.closesGroup_iff.mpr hclosing, hcheck, Nat.le_of_eq hpower⟩
  exact arithmetic_prefixOf?_iff.mpr (.inl ⟨.inl rfl, rfl⟩)

/-- The lexer yields the tokens and then the item. -/
def Lexer.Yields (source : String) (file : Option String) (before : List Token) (item : Item) :
    Prop :=
  ∃ after, (ofSource source file).items =
    .ok (.opening (fileName file)) :: (before.map .ok ++ item :: after)

theorem Lexer.Yields.eq_of_position {source : String} {file : Option String}
    {before before' : List Token} {token token' : Token}
    (hyields : Yields source file before (.ok token))
    (hyields' : Yields source file before' (.ok token'))
    (hposition : token.position = token'.position) : before = before' ∧ token = token' := by
  obtain ⟨after, hitems⟩ := hyields
  obtain ⟨after', hitems'⟩ := hyields'
  have hpair := pairwise_startsBefore source file
  rw [hitems, List.pairwise_cons] at hpair
  have hrest := (List.cons.inj (hitems.symm.trans hitems')).2
  have hstart : token.span.start = token'.span.start := congrArg Position.offset hposition
  obtain ⟨hbefore, htoken⟩ := eq_of_start_eq hpair.2 hrest hstart
  exact ⟨eq_of_map_ok hbefore, htoken⟩

theorem Lexer.Yields.isLexical {source : String} {file : Option String} {before : List Token}
    {cause : Error} (hyields : Yields source file before (.error cause)) :
    cause.isLexical = true := by
  obtain ⟨after, hitems⟩ := hyields
  obtain ⟨tokens, last, hitems', -, hlast⟩ := items_ofSource source file
  have hmem : Except.error cause ∈ tokens.map Except.ok ++ [last] := by
    rw [← (List.cons.inj (hitems.symm.trans hitems')).2]
    simp
  rcases List.mem_append.mp hmem with hmem | hmem
  · obtain ⟨token, -, heq⟩ := List.mem_map.mp hmem
    contradiction
  · rw [← List.mem_singleton.mp hmem] at hlast
    rcases hlast with hlast | ⟨c, position, hlast⟩
    · contradiction
    · rw [Except.error.inj hlast]
      rfl

/-- An error is reported at the first token with which no sentence begins any more.  An unexpected
character stands behind tokens with which some sentence begins. -/
theorem parse_error_viable {source : String} {file : Option String} {error : Error}
    (hparse : parse source file = .error (.error error)) :
    match error.fault with
    | .unexpectedCharacter _ =>
      ∃ before, Lexer.Yields source file before (.error error) ∧ Viable before
    | .nestingTooDeep _ => ∃ before token, Lexer.Yields source file before (.ok token) ∧
        token.position = error.position ∧ Viable before
    | .unexpectedToken _ | .unknownOperator _ | .trailingInput _ | .unclosedGroup _ =>
      (∃ before token, Lexer.Yields source file before (.ok token) ∧
        token.position = error.position) ∧
      ∀ before token, Lexer.Yields source file before (.ok token) →
        token.position = error.position → Viable before ∧ ¬ Viable (before ++ [token]) := by
  obtain ⟨before, item, after, hitems, hblames, hviable, hhopeless⟩ :=
    exists_blamed_of_parseWith Grammar.arithmetic_finishBare Grammar.arithmetic_finish_power
      Grammar.arithmetic_completes hparse
  have hyields : Lexer.Yields source file before item := ⟨after, hitems⟩
  rw [← viable_iff] at hviable
  cases hblames with
  | item =>
      have hlexical := hyields.isLexical
      obtain ⟨fault, position⟩ := error
      cases fault with
      | unexpectedCharacter c => exact ⟨before, hyields, hviable⟩
      | unexpectedToken | unknownOperator | trailingInput | unclosedGroup | nestingTooDeep =>
          contradiction
  | @token fault token hfault =>
      have hunique : ∀ others other, Lexer.Yields source file others (.ok other) →
          other.position = token.position → (∀ limit, fault ≠ .nestingTooDeep limit) →
          Viable others ∧ ¬ Viable (others ++ [other]) := by
        intro others other hothers hposition hlimit
        obtain ⟨rfl, rfl⟩ := hothers.eq_of_position hyields hposition
        rw [@viable_iff (others ++ [other])]
        exact ⟨hviable, hhopeless other rfl hlimit⟩
      cases fault with
      | unexpectedCharacter c => exact absurd rfl (hfault c)
      | nestingTooDeep limit => exact ⟨before, token, hyields, rfl, hviable⟩
      | unexpectedToken | unknownOperator | trailingInput | unclosedGroup =>
          refine ⟨⟨before, token, hyields, rfl⟩, ?_⟩
          intro others other hothers hposition
          exact hunique others other hothers hposition (by simp)

/-- A missing operand. -/
theorem parse_error_viable_operand :
    parse "1 + * 2" none = .error (.error ⟨.unexpectedToken "*", ⟨4, "shell"⟩⟩) ∧
      (∃ before token, Lexer.Yields "1 + * 2" none before (.ok token) ∧
        token.position = ⟨4, "shell"⟩) ∧
      ∀ before token, Lexer.Yields "1 + * 2" none before (.ok token) →
        token.position = ⟨4, "shell"⟩ → Viable before ∧ ¬ Viable (before ++ [token]) := by
  have hparse : parse "1 + * 2" none =
      .error (.error ⟨.unexpectedToken "*", ⟨4, "shell"⟩⟩) := by decide +kernel
  exact ⟨hparse, parse_error_viable hparse⟩

end Precedence
