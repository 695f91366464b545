import Precedence.Proofs.Phrase

/-!
# What a tree keeps of its tokens

A parsed tree shows every token that was read, in the order of the source, but for the parentheses
of groups.  Which tokens these are is no matter of choice, whatever a grammar lets its symbols do: a
row of tokens can be read as one phrase only.
-/

namespace Precedence

/-! ## A row of tokens is one phrase at most -/

/-- How strongly the first token of a row binds to what stands before it; an empty row does not bind
at all. -/
def Grammar.powerBehind (grammar : Grammar) (row : List Token) : Nat :=
  (row.head?.map grammar.powerOf).getD 0

namespace Phrase

variable {grammar : Grammar} {floor : Nat} {phrase other : Phrase} {behind behind' : List Token}

/-- The phrase was folded out of the first one, by operators and right operands. -/
inductive FoldedFrom (first : Phrase) : Phrase → Prop
  | refl : FoldedFrom first first
  | fold {left right : Phrase} {operator : Token} (hleft : FoldedFrom first left) :
      FoldedFrom first (.binary left operator right)

/-- The phrase and the row behind it are read above the floor, as far as the phrase goes. -/
structure Leads (grammar : Grammar) (floor : Nat) (behind : List Token) (phrase : Phrase) :
    Prop where
  fits : phrase.Fits grammar floor
  ends : phrase.EndsBefore grammar (grammar.powerBehind behind)

/-- The phrase is all that is read above the floor. -/
structure Fills (grammar : Grammar) (floor : Nat) (behind : List Token) (phrase : Phrase) : Prop
    extends phrase.Leads grammar floor behind where
  stops : grammar.powerBehind behind ≤ floor

theorem Leads.operand {power : Nat} {operator : Token} {operand : Phrase}
    (hleads : (Phrase.sign operator operand).Leads grammar floor behind)
    (hrule : grammar.prefixOf? operator = some ⟨.sign, power⟩) :
    operand.Fills grammar power behind := by
  obtain ⟨hfits, hends⟩ := hleads
  cases hfits with
  | sign hrule' hoperand =>
      obtain ⟨-, rfl⟩ := PrefixRule.mk.inj (Option.some.inj (hrule'.symm.trans hrule))
      exact ⟨⟨hoperand, hends.2⟩, hends.1 _ hrule⟩

theorem Leads.inner {opening closing : Token} {inner : Phrase}
    (hleads : (Phrase.group opening inner closing).Leads grammar floor behind) :
    inner.Fills grammar Grammar.loosestPower (closing :: behind) := by
  obtain ⟨hfits, -⟩ := hleads
  cases hfits with
  | group hrule hinner hcloses hcheck hpower =>
      have hzero : grammar.powerBehind (closing :: behind) = 0 := Nat.le_zero.mp hpower
      refine ⟨⟨hinner, ?_⟩, Nat.le_of_eq hzero⟩
      rw [hzero]
      exact inner.endsBefore_zero grammar

theorem Leads.left {left right : Phrase} {operator : Token}
    (hleads : (Phrase.binary left operator right).Leads grammar floor behind) :
    left.Leads grammar floor (operator :: (right.tokens ++ behind)) := by
  obtain ⟨hfits, -⟩ := hleads
  cases hfits with
  | binary hrule hpower hleft hends hright => exact ⟨hleft, hends⟩

/-- The right operand of an operator above the floor is read as far as it goes. -/
theorem Leads.right {left right : Phrase} {operator : Token}
    (hleads : (Phrase.binary left operator right).Leads grammar floor behind) :
    floor < grammar.powerOf operator ∧ ∃ rule, grammar.infixOf? operator = some rule ∧
      right.Fills grammar rule.rightPower behind := by
  obtain ⟨hfits, hends⟩ := hleads
  cases hfits with
  | binary hrule hpower hleft _ hright =>
      exact ⟨hpower, _, hrule, ⟨hright, hends.2⟩, hends.1 _ hrule⟩

/-- A phrase that was folded out of another goes on, behind that one, with an operator and its right
operand. -/
theorem FoldedFrom.eq_or_exists {first : Phrase} (hfolded : FoldedFrom first phrase)
    (hleads : phrase.Leads grammar floor behind) :
    first = phrase ∨ ∃ (operator : Token) (right : Phrase) (after : List Token),
      FoldedFrom (.binary first operator right) phrase ∧
      phrase.tokens ++ behind = first.tokens ++ operator :: (right.tokens ++ after) ∧
      (Phrase.binary first operator right).Leads grammar floor after := by
  induction hfolded generalizing behind with
  | refl => exact .inl rfl
  | @fold left last operator hleft ih =>
      rcases ih hleads.left with rfl | ⟨inner, right, after, hfolded, htokens, hinner⟩
      · exact .inr ⟨operator, last, behind, .refl, by simp [tokens], hleads⟩
      · refine .inr ⟨inner, right, after, hfolded.fold, ?_, hinner⟩
        rw [← htokens]
        simp [tokens]

/-- Of two phrases that begin a row, one is folded out of the other, however far each of them
goes. -/
def Nests (grammar : Grammar) (phrase other : Phrase) : Prop :=
  ∀ ⦃floor : Nat⦄ ⦃behind behind' : List Token⦄, phrase.Leads grammar floor behind →
    other.Leads grammar floor behind' → phrase.tokens ++ behind = other.tokens ++ behind' →
    FoldedFrom phrase other ∨ FoldedFrom other phrase

theorem Nests.symm (hnests : Nests grammar phrase other) : Nests grammar other phrase := by
  intro floor behind behind' hother hphrase htokens
  exact (hnests hphrase hother htokens.symm).symm

theorem eq_of_foldedFrom (hfolded : FoldedFrom phrase other)
    (hphrase : phrase.Fills grammar floor behind) (hother : other.Leads grammar floor behind')
    (htokens : phrase.tokens ++ behind = other.tokens ++ behind') : phrase = other := by
  rcases hfolded.eq_or_exists hother with rfl | ⟨operator, right, after, -, hsplit, hlonger⟩
  · rfl
  · -- the operator behind the first phrase would have been folded in
    rw [← htokens, List.append_cancel_left_eq] at hsplit
    have hstops := hphrase.stops
    rw [hsplit] at hstops
    exact absurd hlonger.right.1 (Nat.not_lt_of_le hstops)

/-- What fills the same row is the same phrase. -/
theorem Nests.eq (hnests : Nests grammar phrase other)
    (hphrase : phrase.Fills grammar floor behind) (hother : other.Fills grammar floor behind')
    (htokens : phrase.tokens ++ behind = other.tokens ++ behind') : phrase = other := by
  rcases hnests hphrase.toLeads hother.toLeads htokens with hfolded | hfolded
  · exact eq_of_foldedFrom hfolded hphrase hother.toLeads htokens
  · exact (eq_of_foldedFrom hfolded hother hphrase.toLeads htokens.symm).symm

/-- Two phrases that go on behind a common left operand go on with the same operator and the same
right operand. -/
theorem nests_binary {left right : Phrase} {operator : Token} (hleft : Nests grammar left other)
    (hright : ∀ operand, Nests grammar right operand) :
    Nests grammar (.binary left operator right) other := by
  intro floor behind behind' hphrase hother htokens
  have hrow : left.tokens ++ operator :: (right.tokens ++ behind) = other.tokens ++ behind' := by
    rw [← htokens]
    simp [tokens]
  rcases hleft hphrase.left hother hrow with hfolded | hfolded
  · rcases hfolded.eq_or_exists hother with rfl | ⟨inner, operand, after, hlonger, hsplit, hinner⟩
    · exact .inr (.fold .refl)
    · rw [← hrow, List.append_cancel_left_eq] at hsplit
      obtain ⟨rfl, hrest⟩ := List.cons.inj hsplit
      obtain ⟨-, rule, hrule, hfills⟩ := hphrase.right
      obtain ⟨-, rule', hrule', hfills'⟩ := hinner.right
      obtain rfl : rule = rule' := Option.some.inj (hrule.symm.trans hrule')
      obtain rfl := (hright operand).eq hfills hfills' hrest
      exact .inl hlonger
  · exact .inr (.fold hfolded)

/-- The form of a phrase without an operator at its root. -/
def form? : Phrase → Option PrefixForm
  | .atom _ => some .atom
  | .sign _ _ => some .sign
  | .group _ _ _ => some .group
  | .binary _ _ _ => none

theorem FoldedFrom.eq_of_form? {first : Phrase} {form : PrefixForm}
    (hfolded : FoldedFrom first phrase) (hform : phrase.form? = some form) : first = phrase := by
  cases hfolded with
  | refl => rfl
  | fold => contradiction

/-- The first token of a phrase decides the form of the phrase. -/
theorem Fits.exists_rule {form : PrefixForm} (hfits : phrase.Fits grammar floor)
    (hform : phrase.form? = some form) :
    ∃ (token : Token) (rest : List Token) (power : Nat), phrase.tokens = token :: rest ∧
      grammar.prefixOf? token = some ⟨form, power⟩ := by
  cases hfits with
  | atom hrule | sign hrule | group hrule =>
      obtain rfl := Option.some.inj hform
      exact ⟨_, _, _, rfl, hrule⟩
  | binary => contradiction

theorem form?_eq {form form' : PrefixForm} (hphrase : phrase.Leads grammar floor behind)
    (hother : other.Leads grammar floor behind') (hform : phrase.form? = some form)
    (hform' : other.form? = some form')
    (htokens : phrase.tokens ++ behind = other.tokens ++ behind') : form = form' := by
  obtain ⟨token, rest, power, hfirst, hrule⟩ := hphrase.fits.exists_rule hform
  obtain ⟨token', rest', power', hfirst', hrule'⟩ := hother.fits.exists_rule hform'
  rw [hfirst, hfirst'] at htokens
  obtain rfl : token = token' := (List.cons.inj htokens).1
  rw [hrule] at hrule'
  exact (PrefixRule.mk.inj (Option.some.inj hrule')).1

/-- A phrase without an operator at its root is compared with any other, once it is compared with
those of its form. -/
theorem nests_of_form? {form : PrefixForm} (hform : phrase.form? = some form)
    (hsame : ∀ other : Phrase, other.form? = some form → Nests grammar phrase other)
    (other : Phrase) : Nests grammar phrase other := by
  induction other with
  | atom | sign | group =>
      intro floor behind behind' hphrase hother htokens
      obtain rfl := form?_eq hphrase hother hform rfl htokens
      exact hsame _ rfl hphrase hother htokens
  | binary left operator right ihleft ihright =>
      intro floor behind behind' hphrase hother htokens
      have hrow : phrase.tokens ++ behind =
          left.tokens ++ operator :: (right.tokens ++ behind') := by
        rw [htokens]
        simp [tokens]
      rcases ihleft hphrase hother.left hrow with hfolded | hfolded
      · exact .inl (.fold hfolded)
      · obtain rfl := hfolded.eq_of_form? hform
        exact .inl (.fold .refl)

/-- Phrases that begin the same row are folded out of one another. -/
theorem nests (grammar : Grammar) (phrase other : Phrase) : Nests grammar phrase other := by
  induction phrase generalizing other with
  | atom token =>
      apply nests_of_form? rfl
      intro other hform floor behind behind' hphrase hother htokens
      cases other with
      | atom token' =>
          obtain rfl : token = token' := (List.cons.inj htokens).1
          exact .inl .refl
      | sign | group | binary => cases hform
  | sign operator operand ih =>
      apply nests_of_form? rfl
      intro other hform floor behind behind' hphrase hother htokens
      cases other with
      | sign operator' operand' =>
          obtain ⟨rfl, hrest⟩ := List.cons.inj htokens
          have hfits := hphrase.fits
          cases hfits with
          | sign hrule hoperand =>
              obtain rfl := (ih operand').eq (hphrase.operand hrule) (hother.operand hrule) hrest
              exact .inl .refl
      | atom | group | binary => cases hform
  | group opening inner closing ih =>
      apply nests_of_form? rfl
      intro other hform floor behind behind' hphrase hother htokens
      cases other with
      | group opening' inner' closing' =>
          obtain ⟨rfl, hrest⟩ := List.cons.inj htokens
          have hrow : inner.tokens ++ closing :: behind = inner'.tokens ++ closing' :: behind' := by
            simpa using hrest
          obtain rfl := (ih inner').eq hphrase.inner hother.inner hrow
          obtain rfl := (List.cons.inj (List.append_cancel_left hrow)).1
          exact .inl .refl
      | atom | sign | binary => cases hform
  | binary left operator right ihleft ihright =>
      exact nests_binary (ihleft other) ihright

/-- Every grammar is unambiguous: a row of tokens is read as one phrase at most. -/
theorem Fits.eq_of_tokens (hfits : phrase.Fits grammar floor) (hother : other.Fits grammar floor)
    (htokens : phrase.tokens = other.tokens) : phrase = other := by
  have hfills {whole : Phrase} (hwhole : whole.Fits grammar floor) :
      whole.Fills grammar floor [] :=
    ⟨⟨hwhole, whole.endsBefore_zero grammar⟩, Nat.zero_le floor⟩
  exact (nests grammar phrase other).eq (hfills hfits) (hfills hother) (by rw [htokens])

end Phrase

/-! ## Trees in the order of the source -/

/-- The nodes of a tree in order, each with its form and its text: an operator stands before its
only operand or between its two. -/
def Expr.inOrder : Expr → List (Form × String)
  | .literal text => [(.literal, text)]
  | .identifier text => [(.identifier, text)]
  | .unary operator operand => (.unary, operator) :: operand.inOrder
  | .binary operator left right => left.inOrder ++ (.binary, operator) :: right.inOrder

/-- The tokens of a phrase but for the opening and the closing of each group. -/
def Phrase.kept : Phrase → List Token
  | .atom token => [token]
  | .sign operator operand => operator :: operand.kept
  | .group _ inner _ => inner.kept
  | .binary left operator right => left.kept ++ operator :: right.kept

/-- A token with this kind and this rule may become a node of the form. -/
def Grammar.Allows (grammar : Grammar) (token : Token) : Expr.Form → Prop
  | .literal => (∃ power, grammar.prefixOf? token = some ⟨.atom, power⟩) ∧ token.kind ≠ .name
  | .identifier => (∃ power, grammar.prefixOf? token = some ⟨.atom, power⟩) ∧ token.kind = .name
  | .unary => ∃ power, grammar.prefixOf? token = some ⟨.sign, power⟩
  | .binary => ∃ rule, grammar.infixOf? token = some rule

/-- The node shows the lexeme of the token, in a form that the token may become. -/
structure Grammar.Becomes (grammar : Grammar) (token : Token) (node : Expr.Form × String) :
    Prop where
  text_eq : node.2 = token.lexeme
  allows : grammar.Allows token node.1

namespace Phrase

variable {grammar : Grammar} {floor : Nat} {phrase : Phrase}

theorem becomes_leaf {token : Token} {power : Nat}
    (hrule : grammar.prefixOf? token = some ⟨.atom, power⟩) :
    List.Forall₂ grammar.Becomes [token] token.leaf.inOrder := by
  rw [Token.leaf]
  split
  · next hkind => exact .cons ⟨rfl, ⟨power, hrule⟩, hkind⟩ .nil
  · next hkind => exact .cons ⟨rfl, ⟨power, hrule⟩, hkind⟩ .nil

/-- The tokens that are kept become the nodes of the tree, one by one. -/
theorem Fits.becomes (hfits : phrase.Fits grammar floor) :
    List.Forall₂ grammar.Becomes phrase.kept phrase.tree.inOrder := by
  induction hfits with
  | atom hrule => exact becomes_leaf hrule
  | sign hrule hoperand ih => exact .cons ⟨rfl, _, hrule⟩ ih
  | group hrule hinner hclosing hcheck hpower ih => exact ih
  | binary hrule hpower hleft hends hright ihleft ihright =>
      exact List.rel_append ihleft (.cons ⟨rfl, _, hrule⟩ ihright)

/-- Written-out escapes stand for no symbol, so no phrase contains one. -/
theorem Fits.kind_ne_statement (hfits : phrase.Fits grammar floor) :
    ∀ token ∈ phrase.tokens, token.kind ≠ .statement := by
  intro token htoken hkind
  have hrule : grammar.ruleOf? token = none := by
    rw [Grammar.ruleOf?, Token.symbol?, hkind, Option.bind_none]
  rcases hfits.serves token htoken with ⟨rule, hprefix⟩ | ⟨rule, hinfix⟩ | ⟨hcloses, -⟩
  · rw [Grammar.prefixOf?, hrule] at hprefix
    contradiction
  · rw [Grammar.infixOf?, hrule] at hinfix
    contradiction
  · simp [Parser.closesGroup, hkind] at hcloses

end Phrase

/-- What is known of a tree that was parsed from a row of tokens: the phrase that takes up the row
is the only one, its tree is the parsed one, and the tokens outside of the parentheses of its groups
have become the nodes of the tree. -/
structure Phrase.Accounts (grammar : Grammar) (tree : Expr) (phrase : Phrase) : Prop where
  fits : phrase.Fits grammar Grammar.loosestPower
  tree_eq : phrase.tree = tree
  unique : ∀ other : Phrase, other.Fits grammar Grammar.loosestPower →
    other.tokens = phrase.tokens → other = phrase
  becomes : List.Forall₂ grammar.Becomes phrase.kept tree.inOrder
  readable : ∀ token ∈ phrase.tokens, token.kind ≠ .statement

section Source

variable {grammar : Grammar} {source : String} {file : Option String} {tree : Expr}

/-- No token of a source that is parsed gets lost, and none is made up.  The tree shows the tokens
in their order, without the parentheses of groups. -/
theorem parseWith_accounts (hfinish : grammar.FinishBare)
    (hparse : parseWith grammar source file = .ok tree) :
    ∃ phrase : Phrase, tokenize source file = .ok (tokenRow source file phrase.tokens) ∧
      phrase.Accounts grammar tree := by
  obtain ⟨phrase, htokenize, hfits, rfl, -⟩ := exists_phrase_of_parseWith hfinish hparse
  refine ⟨phrase, htokenize, hfits, rfl, ?_, hfits.becomes, hfits.kind_ne_statement⟩
  intro other hother htokens
  exact hother.eq_of_tokens hfits htokens

end Source

/-- A table in which a name opens a group, numbers are signs and a closing parenthesis may stand for
itself. -/
def Grammar.turnedRound : Grammar :=
  empty
    |>.addPrefix .name 0 .group
    |>.addPrefix .constant 9 .sign
    |>.addAtom (.operator ")")
    |>.addInfix (.operator "+") 5 .right

/-- Of the four closing parentheses the first and the third are operands. -/
theorem parseWith_accounts_turnedRound :
    ∃ phrase : Phrase, tokenize "f f ) ) + 2 ) )" none =
        .ok (tokenRow "f f ) ) + 2 ) )" none phrase.tokens) ∧
      phrase.Accounts .turnedRound
        (.binary "+" (.literal ")") (.unary "2" (.literal ")"))) :=
  parseWith_accounts (by unfold Grammar.FinishBare; decide) (by decide +kernel)

end Precedence
