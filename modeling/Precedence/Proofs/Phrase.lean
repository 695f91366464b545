import Precedence.Proofs.Run
import Precedence.Proofs.Scan

/-!
# Phrases

A phrase is an expression as it stands in a row of tokens, with its parentheses.  Which phrases a
parser reads is said without a parser: `Fits` bounds the operators of a phrase from below by the
floor that it is read above, and `EndsBefore` bounds the token behind it by the floors of all
operands that end there.  The parser reads exactly the phrases that fit, if there is room for their
height.
-/

namespace Precedence

/-- An expression in a row of tokens. -/
inductive Phrase where
  | atom (token : Token)
  | sign (operator : Token) (operand : Phrase)
  | group (opening : Token) (inner : Phrase) (closing : Token)
  | binary (left : Phrase) (operator : Token) (right : Phrase)

namespace Phrase

/-- The tokens of a phrase from left to right. -/
def tokens : Phrase → List Token
  | .atom token => [token]
  | .sign operator operand => operator :: operand.tokens
  | .group opening inner closing => opening :: (inner.tokens ++ [closing])
  | .binary left operator right => left.tokens ++ operator :: right.tokens

/-- The tree that a phrase stands for. -/
def tree : Phrase → Expr
  | .atom token => token.leaf
  | .sign operator operand => .unary operator.lexeme operand.tree
  | .group _ inner _ => inner.tree
  | .binary left operator right => .binary operator.lexeme left.tree right.tree

/-- The number of levels that are open at once while the phrase is read. -/
def height : Phrase → Nat
  | .atom _ => 1
  | .sign _ operand => 1 + operand.height
  | .group _ inner _ => 1 + inner.height
  | .binary left _ right => max left.height (1 + right.height)

/-- All operands that end with the phrase are read above a floor that keeps a token of the given
power out of them. -/
def EndsBefore (grammar : Grammar) (power : Nat) : Phrase → Prop
  | .atom _ => True
  | .sign operator operand =>
    (∀ rule ∈ grammar.prefixOf? operator, power ≤ rule.power) ∧ operand.EndsBefore grammar power
  | .group _ _ _ => True
  | .binary _ operator right =>
    (∀ rule ∈ grammar.infixOf? operator, power ≤ rule.rightPower) ∧ right.EndsBefore grammar power

/-- The phrase is one that is read above the floor. -/
inductive Fits (grammar : Grammar) : Nat → Phrase → Prop
  | atom {floor power : Nat} {token : Token}
      (hrule : grammar.prefixOf? token = some ⟨.atom, power⟩) : Fits grammar floor (.atom token)
  | sign {floor power : Nat} {operator : Token} {operand : Phrase}
      (hrule : grammar.prefixOf? operator = some ⟨.sign, power⟩)
      (hoperand : Fits grammar power operand) : Fits grammar floor (.sign operator operand)
  | group {floor power : Nat} {opening closing : Token} {inner : Phrase}
      (hrule : grammar.prefixOf? opening = some ⟨.group, power⟩)
      (hinner : Fits grammar Grammar.loosestPower inner)
      (hclosing : Parser.closesGroup closing = true)
      (hcheck : grammar.checkOperator closing = .ok ())
      (hpower : grammar.powerOf closing ≤ Grammar.loosestPower) :
      Fits grammar floor (.group opening inner closing)
  | binary {floor rightPower : Nat} {left right : Phrase} {operator : Token}
      (hrule : grammar.infixOf? operator = some ⟨rightPower⟩)
      (hpower : floor < grammar.powerOf operator) (hleft : Fits grammar floor left)
      (hends : left.EndsBefore grammar (grammar.powerOf operator))
      (hright : Fits grammar rightPower right) :
      Fits grammar floor (.binary left operator right)

theorem height_pos (phrase : Phrase) : 0 < phrase.height := by
  induction phrase with
  | atom token => exact Nat.one_pos
  | sign operator operand ih => simp only [height]; omega
  | group opening inner closing ih => simp only [height]; omega
  | binary left operator right ihleft ihright => simp only [height]; omega

theorem tokens_ne_nil (phrase : Phrase) : phrase.tokens ≠ [] := by
  cases phrase <;> simp [tokens]

section Floor

variable {grammar : Grammar} {floor higher power : Nat} {phrase : Phrase}

theorem endsBefore_sign {operator : Token} {operand : Phrase} {rule : PrefixRule}
    (hrule : grammar.prefixOf? operator = some rule) (hle : power ≤ rule.power)
    (hoperand : operand.EndsBefore grammar power) :
    (Phrase.sign operator operand).EndsBefore grammar power := by
  refine ⟨?_, hoperand⟩
  intro other hother
  rw [hrule, Option.mem_some_iff] at hother
  rwa [← hother]

theorem endsBefore_binary {operator : Token} {left right : Phrase} {rule : InfixRule}
    (hrule : grammar.infixOf? operator = some rule) (hle : power ≤ rule.rightPower)
    (hright : right.EndsBefore grammar power) :
    (Phrase.binary left operator right).EndsBefore grammar power := by
  refine ⟨?_, hright⟩
  intro other hother
  rw [hrule, Option.mem_some_iff] at hother
  rwa [← hother]

theorem EndsBefore.mono {lower : Nat} (hends : phrase.EndsBefore grammar power)
    (hle : lower ≤ power) : phrase.EndsBefore grammar lower := by
  induction phrase with
  | atom token => trivial
  | sign operator operand ih =>
      exact ⟨fun rule hrule => Nat.le_trans hle (hends.1 rule hrule), ih hends.2⟩
  | group opening inner closing ih => trivial
  | binary left operator right ihleft ihright =>
      exact ⟨fun rule hrule => Nat.le_trans hle (hends.1 rule hrule), ihright hends.2⟩

/-- A floor may be moved if no operator is lost on the way. -/
theorem Fits.refloor (hfits : phrase.Fits grammar floor)
    (hkeep : ∀ token rule, grammar.infixOf? token = some rule →
      floor < grammar.powerOf token → higher < grammar.powerOf token) :
    phrase.Fits grammar higher := by
  induction hfits with
  | atom hrule => exact .atom hrule
  | sign hrule hoperand => exact .sign hrule hoperand
  | group hrule hinner hclosing hcheck hpower =>
      exact .group hrule hinner hclosing hcheck hpower
  | binary hrule hpower hleft hends hright ihleft =>
      exact .binary hrule (hkeep _ _ hrule hpower) (ihleft hkeep) hends hright

theorem Fits.mono {lower : Nat} (hfits : phrase.Fits grammar floor) (hle : lower ≤ floor) :
    phrase.Fits grammar lower :=
  hfits.refloor fun _ _ _ hpower => Nat.lt_of_le_of_lt hle hpower

/-- A phrase that ends before an operator fits above a higher floor, if the operators that let it
end there bind more strongly than that floor. -/
theorem Fits.raise (hfits : phrase.Fits grammar floor) (hends : phrase.EndsBefore grammar power)
    (hkeep : ∀ token rule, grammar.infixOf? token = some rule → power ≤ rule.rightPower →
      higher < grammar.powerOf token ∧ power ≤ grammar.powerOf token) :
    phrase.Fits grammar higher := by
  induction hfits with
  | atom hrule => exact .atom hrule
  | sign hrule hoperand => exact .sign hrule hoperand
  | group hrule hinner hclosing hcheck hpower =>
      exact .group hrule hinner hclosing hcheck hpower
  | binary hrule hpower hleft hends' hright ihleft =>
      have hoperator := hkeep _ _ hrule (hends.1 _ hrule)
      exact .binary hrule hoperator.1 (ihleft (hends'.mono hoperator.2)) hends' hright

/-- A phrase that fits ends before an operator, if everything that fits with it does. -/
theorem Fits.endsBefore (hfits : phrase.Fits grammar floor)
    (hsigns : ∀ token rule, grammar.prefixOf? token = some rule → rule.form = .sign →
      power ≤ rule.power ∧ floor ≤ rule.power)
    (hoperators : ∀ token rule, grammar.infixOf? token = some rule →
      floor < grammar.powerOf token → power ≤ rule.rightPower ∧ floor ≤ rule.rightPower) :
    phrase.EndsBefore grammar power := by
  induction phrase generalizing floor with
  | atom token => trivial
  | sign operator operand ih =>
      cases hfits with
      | @sign _ inner _ _ hrule hoperand =>
          have hsign := hsigns operator _ hrule rfl
          apply endsBefore_sign hrule hsign.1
          exact ih (hoperand.mono hsign.2) hsigns hoperators
  | group opening inner closing ih => trivial
  | binary left operator right ihleft ihright =>
      cases hfits with
      | binary hrule hpower hleft hends hright =>
          have hoperator := hoperators operator _ hrule hpower
          apply endsBefore_binary hrule hoperator.1
          exact ihright (hright.mono hoperator.2) hsigns hoperators

end Floor

end Phrase

/-! ## What the parser reads is a phrase -/

/-- The end of a source is neither an expression nor an operator. -/
def Grammar.FinishBare (grammar : Grammar) : Prop :=
  ∀ rule ∈ grammar.rule? .finish, rule.prefixRule = none ∧ rule.infixRule = none

theorem Grammar.FinishBare.prefixOf?_eq_none {grammar : Grammar} (hfinish : grammar.FinishBare)
    {token : Token} (hkind : token.kind = .finish) : grammar.prefixOf? token = none := by
  rw [prefixOf?, ruleOf?_finish hkind]
  cases hrule : grammar.rule? .finish with
  | none => rfl
  | some rule => exact (hfinish rule hrule).1

theorem Grammar.FinishBare.infixOf?_eq_none {grammar : Grammar} (hfinish : grammar.FinishBare)
    {token : Token} (hkind : token.kind = .finish) : grammar.infixOf? token = none := by
  rw [infixOf?, ruleOf?_finish hkind]
  cases hrule : grammar.rule? .finish with
  | none => rfl
  | some rule => exact (hfinish rule hrule).2

theorem Grammar.FinishBare.kind_ne_of_prefixOf? {grammar : Grammar} (hfinish : grammar.FinishBare)
    {token : Token} {rule : PrefixRule} (hrule : grammar.prefixOf? token = some rule) :
    token.kind ≠ .finish := by
  intro hkind
  rw [hfinish.prefixOf?_eq_none hkind] at hrule
  contradiction

theorem Grammar.FinishBare.kind_ne_of_infixOf? {grammar : Grammar} (hfinish : grammar.FinishBare)
    {token : Token} {rule : InfixRule} (hrule : grammar.infixOf? token = some rule) :
    token.kind ≠ .finish := by
  intro hkind
  rw [hfinish.infixOf?_eq_none hkind] at hrule
  contradiction

/-- The current token was not refused, and the last item, if it is a token, is the end of the
source. -/
structure Cursor.Ready (grammar : Grammar) (cursor : Cursor) : Prop where
  checked : grammar.checkOperator cursor.current = .ok ()
  ended : ∀ token, cursor.items.getLast? = some (.ok token) → token.kind = .finish

theorem Cursor.Ready.kind_eq_finish {grammar : Grammar} {cursor : Cursor} {token : Token}
    {front : List Lexer.Item} (hready : cursor.Ready grammar)
    (hitems : cursor.items = front ++ [.ok token]) : token.kind = .finish := by
  apply hready.ended
  rw [hitems, List.getLast?_concat]

/-- A step from a token other than the end takes that token off the items. -/
theorem Cursor.Ready.shift {grammar : Grammar} {cursor next : Cursor} {token : Token}
    (hready : cursor.Ready grammar) (hkind : cursor.current.kind ≠ .finish)
    (hshift : cursor.shift grammar = .ok token next) :
    token = cursor.current ∧ cursor.items = .ok cursor.current :: next.items ∧
      next.Ready grammar := by
  obtain ⟨htoken, ⟨hpending, -⟩ | ⟨hpending, hcheck⟩⟩ := Cursor.shift_ok hshift
  · have hitems : cursor.items = [] ++ [.ok cursor.current] := by rw [Cursor.items, hpending]; rfl
    exact absurd (hready.kind_eq_finish hitems) hkind
  · have hitems : cursor.items = .ok cursor.current :: next.items := by
      rw [Cursor.items, hpending, Cursor.items]
    refine ⟨htoken, hitems, hcheck, ?_⟩
    intro last hlast
    apply hready.ended last
    rw [hitems, Cursor.items, List.getLast?_cons_cons]
    exact hlast

namespace Phrase

/-- The phrase stands at the front of the items, was read into the tree, and is followed by what is
left at the cursor. -/
structure ReadOff (grammar : Grammar) (room floor : Nat) (items : List Lexer.Item) (tree : Expr)
    (next : Cursor) (phrase : Phrase) : Prop where
  items_eq : items = phrase.tokens.map .ok ++ next.items
  fits : phrase.Fits grammar floor
  tree_eq : phrase.tree = tree
  height_le : phrase.height ≤ room
  ends : phrase.EndsBefore grammar (grammar.powerOf next.current)
  ready : next.Ready grammar

section ReadOff

variable {grammar : Grammar} {room floor : Nat} {items : List Lexer.Item}
variable {cursor next after : Cursor}

theorem ReadOff.sign {power : Nat} {operator : Token} {operand : Phrase} {tree : Expr}
    (hoperand : operand.ReadOff grammar room power items tree next)
    (hrule : grammar.prefixOf? operator = some ⟨.sign, power⟩)
    (hpower : grammar.powerOf next.current ≤ power) :
    (Phrase.sign operator operand).ReadOff grammar (room + 1) floor (.ok operator :: items)
      (.unary operator.lexeme tree) next where
  items_eq := congrArg _ hoperand.items_eq
  fits := .sign hrule hoperand.fits
  tree_eq := congrArg _ hoperand.tree_eq
  height_le := by
    have hheight := hoperand.height_le
    rw [height]
    omega
  ends := endsBefore_sign hrule hpower hoperand.ends
  ready := hoperand.ready

/-- A group around an expression that was read up to the closing. -/
theorem ReadOff.group {power : Nat} {opening : Token} {inner : Phrase} {tree : Expr}
    (hinner : inner.ReadOff grammar room Grammar.loosestPower items tree next)
    (hrule : grammar.prefixOf? opening = some ⟨.group, power⟩)
    (hpower : grammar.powerOf next.current ≤ Grammar.loosestPower)
    (hcloses : Parser.closesGroup next.current = true)
    (hitems : next.items = .ok next.current :: after.items) (hafter : after.Ready grammar) :
    (Phrase.group opening inner next.current).ReadOff grammar (room + 1) floor
      (.ok opening :: items) tree after where
  items_eq := by
    rw [hinner.items_eq, hitems]
    simp [tokens]
  fits := .group hrule hinner.fits hcloses hinner.ready.checked hpower
  tree_eq := hinner.tree_eq
  height_le := by
    have hheight := hinner.height_le
    rw [height]
    omega
  ends := trivial
  ready := hafter

/-- An operator and its right operand behind a phrase that was read. -/
theorem ReadOff.join {left right : Expr} {phrase operand : Phrase} {rule : InfixRule}
    (hphrase : phrase.ReadOff grammar (room + 1) floor items left cursor)
    (hrule : grammar.infixOf? cursor.current = some rule)
    (hpower : floor < grammar.powerOf cursor.current)
    (hitems : cursor.items = .ok cursor.current :: next.items)
    (hoperand : operand.ReadOff grammar room rule.rightPower next.items right after)
    (hfloor : grammar.powerOf after.current ≤ rule.rightPower) :
    (Phrase.binary phrase cursor.current operand).ReadOff grammar (room + 1) floor items
      (.binary cursor.current.lexeme left right) after where
  items_eq := by
    rw [hphrase.items_eq, hitems, hoperand.items_eq]
    simp [tokens]
  fits := .binary hrule hpower hphrase.fits hphrase.ends hoperand.fits
  tree_eq := by rw [tree, hphrase.tree_eq, hoperand.tree_eq]
  height_le := by
    have hleft := hphrase.height_le
    have hright := hoperand.height_le
    rw [height]
    omega
  ends := endsBefore_binary hrule hfloor hoperand.ends
  ready := hoperand.ready

end ReadOff

end Phrase

/-- The task reads a phrase, or reads one to its end. -/
def Task.Phrased (grammar : Grammar) (tree : Expr) (next : Cursor) : Task → Prop
  | .read room floor cursor => cursor.Ready grammar →
      ∃ phrase : Phrase, phrase.ReadOff grammar room floor cursor.items tree next ∧
        grammar.powerOf next.current ≤ floor
  | .begin room rule cursor => cursor.Ready grammar →
      grammar.prefixOf? cursor.current = some rule → ∀ floor,
        ∃ phrase : Phrase, phrase.ReadOff grammar (room + 1) floor cursor.items tree next
  | .fold _ _ (.error _ _) => True
  | .fold room floor (.ok left cursor) => ∀ (items : List Lexer.Item) (phrase : Phrase),
      phrase.ReadOff grammar (room + 1) floor items left cursor →
      ∃ longer : Phrase, longer.ReadOff grammar (room + 1) floor items tree next ∧
        grammar.powerOf next.current ≤ floor

namespace Run

variable {grammar : Grammar} {limit : Nat} {task : Task} {result : Outcome Expr}

/-- What a run reads is a phrase that fits. -/
theorem phrased (hfinish : grammar.FinishBare) (hrun : Run grammar limit task result) :
    ∀ tree next, result = .ok tree next → task.Phrased grammar tree next := by
  induction hrun with
  | tooDeep | noPrefix | stuckPrefix | failed | noInfix | stuckInfix | endless =>
      intro tree next hresult
      contradiction
  | @read room floor cursor rule left result hrule hleft hfold ihleft ihfold =>
      intro tree next hresult hready
      cases left with
      | error failure after =>
          cases hfold
          contradiction
      | ok first after =>
          obtain ⟨phrase, hphrase⟩ := ihleft first after rfl hready hrule floor
          exact ihfold tree next hresult _ phrase hphrase
  | @atom room power cursor token after hshift =>
      intro tree next hresult hready hrule floor
      injection hresult with htree hnext
      subst hnext
      obtain ⟨rfl, hitems, hafter⟩ := hready.shift (hfinish.kind_ne_of_prefixOf? hrule) hshift
      exact ⟨.atom cursor.current, hitems, .atom hrule, htree, Nat.succ_le_succ (Nat.zero_le _),
        trivial, hafter⟩
  | @sign room power cursor token after operand hshift hoperand ih =>
      intro tree next hresult hready hrule floor
      obtain ⟨inner, rfl, rfl⟩ := Outcome.map_eq_ok hresult
      obtain ⟨rfl, hitems, hafter⟩ := hready.shift (hfinish.kind_ne_of_prefixOf? hrule) hshift
      obtain ⟨phrase, hphrase, hpower⟩ := ih inner next rfl hafter
      refine ⟨.sign cursor.current phrase, ?_⟩
      rw [hitems]
      exact hphrase.sign hrule hpower
  | @group room power cursor token after inner hshift hinner ih =>
      intro tree next hresult hready hrule floor
      obtain ⟨rfl, hitems, hafter⟩ := hready.shift (hfinish.kind_ne_of_prefixOf? hrule) hshift
      cases inner with
      | error failure closing => contradiction
      | ok first closing =>
          obtain ⟨phrase, hphrase, hpower⟩ := ih first closing rfl hafter
          rw [Cursor.close] at hresult
          split at hresult
          · next hcloses =>
              obtain ⟨closed, hclosed, rfl⟩ := Outcome.map_eq_ok hresult
              have hkind : closing.current.kind ≠ .finish := by
                intro hkind
                simp [Parser.closesGroup, hkind] at hcloses
              obtain ⟨rfl, hrest, hnext⟩ := hphrase.ready.shift hkind hclosed
              refine ⟨.group cursor.current phrase closing.current, ?_⟩
              rw [hitems]
              exact hphrase.group hrule hpower hcloses hrest hnext
          · contradiction
  | @stop room floor left cursor hpower =>
      intro tree next hresult items phrase hphrase
      injection hresult with htree hnext
      subst htree hnext
      exact ⟨phrase, hphrase, hpower⟩
  | @join room floor left cursor rule token after right result hpower hrule hshift hright hpending
      hfold ihright ihfold =>
      intro tree next hresult items phrase hphrase
      obtain ⟨rfl, hitems, hafter⟩ :=
        hphrase.ready.shift (hfinish.kind_ne_of_infixOf? hrule) hshift
      cases right with
      | error failure further =>
          rw [Outcome.map_error] at hfold
          cases hfold
          contradiction
      | ok second further =>
          obtain ⟨operand, hoperand, hfloor⟩ := ihright second further rfl hafter
          exact ihfold tree next hresult items _
            (hphrase.join hrule hpower hitems hoperand hfloor)

end Run

/-! ## What fits is read -/

theorem Grammar.checkOperator_eq_ok {grammar : Grammar} {token : Token} {rule : Rule}
    (hrule : grammar.ruleOf? token = some rule) : grammar.checkOperator token = .ok () := by
  rw [checkOperator]
  by_cases hkind : token.kind = .operator
  · rw [ruleOf?_operator hkind] at hrule
    simp [contains, hrule]
  · simp [hkind]

theorem Grammar.checkOperator_of_prefixOf? {grammar : Grammar} {token : Token} {rule : PrefixRule}
    (hrule : grammar.prefixOf? token = some rule) : grammar.checkOperator token = .ok () := by
  obtain ⟨whole, hwhole, -⟩ := Option.bind_eq_some_iff.mp hrule
  exact checkOperator_eq_ok hwhole

theorem Grammar.checkOperator_of_infixOf? {grammar : Grammar} {token : Token} {rule : InfixRule}
    (hrule : grammar.infixOf? token = some rule) : grammar.checkOperator token = .ok () := by
  obtain ⟨whole, hwhole, -⟩ := Option.bind_eq_some_iff.mp hrule
  exact checkOperator_eq_ok hwhole

theorem Cursor.shift_of_items {grammar : Grammar} {cursor next : Cursor} {token : Token}
    (hitems : cursor.items = .ok token :: next.items)
    (hcheck : grammar.checkOperator next.current = .ok ()) :
    cursor.shift grammar = .ok token next := by
  obtain ⟨current, pending⟩ := cursor
  obtain ⟨hcurrent, hpending⟩ := List.cons.inj hitems
  obtain rfl : current = token := by simpa using hcurrent
  obtain rfl : pending = next.items := hpending
  simp only [Cursor.shift, Cursor.items, hcheck]

namespace Phrase

variable {grammar : Grammar} {limit : Nat}

theorem endsBefore_zero (grammar : Grammar) (phrase : Phrase) : phrase.EndsBefore grammar 0 := by
  induction phrase with
  | atom token => trivial
  | sign operator operand ih => exact ⟨fun _ _ => Nat.zero_le _, ih⟩
  | group opening inner closing => trivial
  | binary left operator right _ ih => exact ⟨fun _ _ => Nat.zero_le _, ih⟩

/-- What each token of a phrase is there for: it begins a prefix form, joins two operands, or closes
a group. -/
theorem Fits.serves {floor : Nat} {phrase : Phrase} (hfits : phrase.Fits grammar floor) :
    ∀ token ∈ phrase.tokens, (∃ rule, grammar.prefixOf? token = some rule) ∨
      (∃ rule, grammar.infixOf? token = some rule) ∨
      Parser.closesGroup token = true ∧ grammar.checkOperator token = .ok () := by
  induction hfits with
  | atom hrule =>
      intro token htoken
      obtain rfl := List.mem_singleton.mp htoken
      exact .inl ⟨_, hrule⟩
  | sign hrule hoperand ih =>
      intro token htoken
      rcases List.mem_cons.mp htoken with rfl | htoken
      · exact .inl ⟨_, hrule⟩
      · exact ih token htoken
  | group hrule hinner hclosing hcheck hpower ih =>
      intro token htoken
      simp only [tokens, List.mem_cons, List.mem_append, List.not_mem_nil, or_false] at htoken
      rcases htoken with rfl | htoken | rfl
      · exact .inl ⟨_, hrule⟩
      · exact ih token htoken
      · exact .inr (.inr ⟨hclosing, hcheck⟩)
  | binary hrule hpower hleft hends hright ihleft ihright =>
      intro token htoken
      simp only [tokens, List.mem_append, List.mem_cons] at htoken
      rcases htoken with htoken | rfl | htoken
      · exact ihleft token htoken
      · exact .inr (.inl ⟨_, hrule⟩)
      · exact ihright token htoken

theorem Fits.checked {floor : Nat} {phrase : Phrase} (hfits : phrase.Fits grammar floor) :
    ∀ token ∈ phrase.tokens, grammar.checkOperator token = .ok () := by
  intro token htoken
  rcases hfits.serves token htoken with ⟨rule, hrule⟩ | ⟨rule, hrule⟩ | ⟨-, hcheck⟩
  · exact Grammar.checkOperator_of_prefixOf? hrule
  · exact Grammar.checkOperator_of_infixOf? hrule
  · exact hcheck

/-- A parser can stand at the beginning of a phrase. -/
theorem exists_cursor (phrase : Phrase) (items : List Lexer.Item) :
    ∃ cursor : Cursor, cursor.items = phrase.tokens.map .ok ++ items ∧
      cursor.current ∈ phrase.tokens := by
  obtain ⟨first, others, htokens⟩ := List.exists_cons_of_ne_nil phrase.tokens_ne_nil
  exact ⟨⟨first, others.map .ok ++ items⟩, by simp [Cursor.items, htokens], by simp [htokens]⟩

/-- A phrase that fits is read to its end, from where the reading goes on as it will. -/
theorem Fits.read {floor : Nat} {phrase : Phrase} (hfits : phrase.Fits grammar floor) :
    ∀ {room : Nat} {cursor next : Cursor} {result : Outcome Expr},
      phrase.height ≤ room + 1 → cursor.items = phrase.tokens.map .ok ++ next.items →
      grammar.checkOperator next.current = .ok () →
      phrase.EndsBefore grammar (grammar.powerOf next.current) →
      Run grammar limit (.fold room floor (.ok phrase.tree next)) result →
      Run grammar limit (.read (room + 1) floor cursor) result := by
  induction hfits with
  | @atom floor power token hrule =>
      intro room cursor next result hheight hitems hcheck hends hfold
      have hshift := Cursor.shift_of_items hitems hcheck
      have hcurrent : cursor.current = token := (Cursor.shift_ok hshift).1.symm
      rw [← hcurrent] at hrule
      exact .read hrule (.atom hshift) hfold
  | @sign floor power operator operand hrule hoperand ih =>
      intro room cursor next result hheight hitems hcheck hends hfold
      obtain ⟨inner, hinner, hmem⟩ := operand.exists_cursor next.items
      have hcons : cursor.items = .ok operator :: inner.items := by rw [hitems, hinner]; rfl
      have hshift := Cursor.shift_of_items hcons (hoperand.checked _ hmem)
      have hcurrent : cursor.current = operator := (Cursor.shift_ok hshift).1.symm
      have hpositive := operand.height_pos
      rw [height] at hheight
      obtain ⟨room, rfl⟩ : ∃ less, room = less + 1 := ⟨room - 1, by omega⟩
      have hread : Run grammar limit (.read (room + 1) power inner) (.ok operand.tree next) :=
        ih (by omega) hinner hcheck hends.2 (.stop (hends.1 ⟨.sign, power⟩ hrule))
      rw [← hcurrent] at hrule
      exact .read hrule (.sign hshift hread) hfold
  | @group floor power opening closing inner hrule hinner hclosing hcheck hpower ih =>
      intro room cursor next result hheight hitems hchecked hends hfold
      have hclose : ∃ last : Cursor, last.items = .ok closing :: next.items ∧
          last.current = closing := ⟨⟨closing, next.items⟩, rfl, rfl⟩
      obtain ⟨last, hlast, rfl⟩ := hclose
      obtain ⟨first, hfirst, hmem⟩ := inner.exists_cursor last.items
      have hcons : cursor.items = .ok opening :: first.items := by
        rw [hitems, hfirst, hlast]
        simp [tokens]
      have hshift := Cursor.shift_of_items hcons (hinner.checked _ hmem)
      have hcurrent : cursor.current = opening := (Cursor.shift_ok hshift).1.symm
      have hpositive := inner.height_pos
      rw [height] at hheight
      obtain ⟨room, rfl⟩ : ∃ less, room = less + 1 := ⟨room - 1, by omega⟩
      have hbefore : inner.EndsBefore grammar (grammar.powerOf last.current) := by
        rw [Nat.le_zero.mp hpower]
        exact endsBefore_zero grammar inner
      have hread : Run grammar limit (.read (room + 1) Grammar.loosestPower first)
          (.ok inner.tree last) := ih (by omega) hfirst hcheck hbefore (.stop hpower)
      have hclosed : Cursor.close grammar (.ok inner.tree last) = .ok inner.tree next := by
        rw [Cursor.close, if_pos hclosing, Cursor.shift_of_items hlast hchecked]
        rfl
      rw [← hcurrent] at hrule
      have hgroup : Run grammar limit (.begin (room + 1) ⟨.group, power⟩ cursor)
          (.ok inner.tree next) := by
        rw [← hclosed]
        exact .group hshift hread
      exact .read hrule hgroup hfold
  | @binary floor rightPower left right operator hrule hpower hleft hends hright ihleft ihright =>
      intro room cursor next result hheight hitems hchecked hbefore hfold
      obtain ⟨operand, hoperand, hmem⟩ := right.exists_cursor next.items
      have hmiddle : ∃ middle : Cursor, middle.items = .ok operator :: operand.items ∧
          middle.current = operator := ⟨⟨operator, operand.items⟩, rfl, rfl⟩
      obtain ⟨middle, hmiddle, rfl⟩ := hmiddle
      have hshift := Cursor.shift_of_items hmiddle (hright.checked _ hmem)
      have hpositive := right.height_pos
      rw [height] at hheight
      obtain ⟨room, rfl⟩ : ∃ less, room = less + 1 := ⟨room - 1, by omega⟩
      have hread : Run grammar limit (.read (room + 1) rightPower operand) (.ok right.tree next) :=
        ihright (by omega) hoperand hchecked hbefore.2 (.stop (hbefore.1 ⟨rightPower⟩ hrule))
      have hpending : middle.pending ≠ [] := by
        rw [Cursor.items, List.cons.injEq] at hmiddle
        simp [hmiddle.2, Cursor.items]
      refine ihleft (by omega) ?_ (Grammar.checkOperator_of_infixOf? hrule) hends
        (.join hpower hrule hshift hread (fun _ _ _ => hpending) hfold)
      rw [hitems, hmiddle, hoperand]
      simp [tokens]

end Phrase

/-! ## Whole sources -/

namespace Grammar

variable {grammar : Grammar} {last : Token}

theorem checkOperator_finish (hlast : last.kind = .finish) :
    grammar.checkOperator last = .ok () := by
  simp [checkOperator, hlast]

theorem powerOf_finish (hpower : ∀ rule ∈ grammar.rule? .finish, rule.power = 0)
    (hlast : last.kind = .finish) : grammar.powerOf last = 0 := by
  rw [powerOf, ruleOf?_finish hlast]
  cases hrule : grammar.rule? .finish with
  | none => rfl
  | some rule => exact hpower rule hrule

end Grammar

/-- A phrase with the end of a source behind it is read up to that end. -/
theorem Phrase.Fits.read_sentence {grammar : Grammar} {limit room : Nat} {phrase : Phrase}
    {cursor : Cursor} {last : Token} (hfits : phrase.Fits grammar Grammar.loosestPower)
    (hpower : ∀ rule ∈ grammar.rule? .finish, rule.power = 0) (hheight : phrase.height ≤ room)
    (hitems : cursor.items = phrase.tokens.map .ok ++ [.ok last]) (hlast : last.kind = .finish) :
    Run grammar limit (.read room Grammar.loosestPower cursor) (.ok phrase.tree ⟨last, []⟩) := by
  have hpositive := phrase.height_pos
  obtain ⟨less, rfl⟩ : ∃ less, room = less + 1 := ⟨room - 1, by omega⟩
  have hlastPower := Grammar.powerOf_finish hpower hlast
  have hends : phrase.EndsBefore grammar (grammar.powerOf last) := by
    rw [hlastPower]
    exact phrase.endsBefore_zero grammar
  have hitems' : cursor.items = phrase.tokens.map .ok ++ (Cursor.mk last []).items := hitems
  apply hfits.read hheight hitems' (Grammar.checkOperator_finish hlast) hends
  exact .stop (Nat.le_of_eq hlastPower)

/-- The row of tokens of a whole source. -/
def tokenRow (source : String) (file : Option String) (tokens : List Token) : List Token :=
  .opening (Lexer.fileName file) ::
    (tokens ++ [.closing source.utf8ByteSize (Lexer.fileName file)])

section Source

variable {grammar : Grammar} {source : String} {file : Option String}

/-- The first step of a parser leads from the opening token to the items behind it. -/
theorem Cursor.Ready.of_opening {name : String} {tokens : List Token} {last : Lexer.Item}
    {token : Token} {next : Cursor}
    (hlast : last = .ok (.closing source.utf8ByteSize name) ∨
      ∃ c position, last = .error ⟨.unexpectedCharacter c, position⟩)
    (hshift : Cursor.shift grammar ⟨.opening name, tokens.map .ok ++ [last]⟩ = .ok token next) :
    next.items = tokens.map .ok ++ [last] ∧ next.Ready grammar := by
  rcases (Cursor.shift_ok hshift).2 with ⟨hnil, -⟩ | ⟨hcons, hcheck⟩
  · simp at hnil
  · have hitems : next.items = tokens.map .ok ++ [last] := hcons.symm
    refine ⟨hitems, hcheck, ?_⟩
    intro final hfinal
    rw [hitems, List.getLast?_concat, Option.some.injEq] at hfinal
    rcases hlast with hlast | ⟨c, position, hlast⟩
    · rw [hlast, Except.ok.injEq] at hfinal
      rw [← hfinal]
      rfl
    · rw [hlast] at hfinal
      contradiction

/-- A row of tokens in front of a last item that goes on with the end of the source has nothing
behind that end. -/
theorem row_eq_of_finish {tokens read : List Token} {last : Lexer.Item} {next : Cursor}
    (hkinds : ∀ token ∈ tokens, token.kind ≠ .start ∧ token.kind ≠ .finish)
    (hrow : tokens.map .ok ++ [last] = read.map .ok ++ next.items)
    (hfinish : next.current.kind = .finish) : read = tokens ∧ last = .ok next.current := by
  rcases List.append_eq_append_iff.mp hrow with ⟨more, hread, hlast⟩ | ⟨more, htokens, hnext⟩
  · cases more with
    | nil =>
        rw [List.append_nil] at hread
        rw [List.nil_append, Cursor.items] at hlast
        exact ⟨Lexer.eq_of_map_ok hread, (List.cons.inj hlast).1⟩
    | cons item more =>
        have hlength := congrArg List.length hlast
        simp [Cursor.items] at hlength
  · cases more with
    | nil =>
        rw [List.append_nil] at htokens
        rw [List.nil_append, Cursor.items] at hnext
        exact ⟨(Lexer.eq_of_map_ok htokens).symm, (List.cons.inj hnext).1.symm⟩
    | cons item more =>
        have hmem : Except.ok next.current ∈ tokens.map (Except.ok (ε := Error)) := by
          rw [htokens, (List.cons.inj hnext).1]
          simp
        obtain ⟨token, htoken, heq⟩ := List.mem_map.mp hmem
        rw [← Except.ok.inj heq] at hfinish
        exact absurd hfinish (hkinds token htoken).2

/-- What a run reads up to the end of a source is a phrase which takes up the whole source. -/
theorem exists_phrase_of_run (hbare : grammar.FinishBare) {limit room : Nat} {tokens : List Token}
    {last : Lexer.Item} {next after : Cursor} {tree : Expr}
    (hitems : (Lexer.ofSource source file).items =
      .ok (.opening (Lexer.fileName file)) :: (tokens.map .ok ++ [last]))
    (hkinds : ∀ token ∈ tokens, token.kind ≠ .start ∧ token.kind ≠ .finish)
    (hlast : last = .ok (.closing source.utf8ByteSize (Lexer.fileName file)) ∨
      ∃ c position, last = .error ⟨.unexpectedCharacter c, position⟩)
    (hnext : next.items = tokens.map .ok ++ [last]) (hready : next.Ready grammar)
    (hrun : Run grammar limit (.read room Grammar.loosestPower next) (.ok tree after))
    (hfinish : after.current.kind = .finish) :
    ∃ phrase : Phrase, tokenize source file = .ok (tokenRow source file phrase.tokens) ∧
      phrase.Fits grammar Grammar.loosestPower ∧ phrase.tree = tree ∧ phrase.height ≤ room := by
  obtain ⟨phrase, hphrase, -⟩ := hrun.phrased hbare tree after rfl hready
  have hrow := hphrase.items_eq
  rw [hnext] at hrow
  obtain ⟨rfl, hend⟩ := row_eq_of_finish hkinds hrow hfinish
  refine ⟨phrase, ?_, hphrase.fits, hphrase.tree_eq, hphrase.height_le⟩
  rw [tokenize_eq_ok_iff, hitems]
  rcases hlast with hlast | ⟨c, position, hlast⟩
  · simp [tokenRow, hlast]
  · rw [hlast] at hend
    contradiction

/-- A tree that a source is parsed into is that of a phrase which takes up the whole source. -/
theorem exists_phrase_of_parseWith (hbare : grammar.FinishBare) {tree : Expr}
    (hparse : parseWith grammar source file = .ok tree) :
    ∃ phrase : Phrase, tokenize source file = .ok (tokenRow source file phrase.tokens) ∧
      phrase.Fits grammar Grammar.loosestPower ∧ phrase.tree = tree ∧
      phrase.height ≤ Parser.standardLimit := by
  obtain ⟨tokens, last, hitems, hkinds, hlast⟩ := Lexer.items_ofSource source file
  cases hshift : Cursor.shift grammar
      ⟨.opening (Lexer.fileName file), tokens.map .ok ++ [last]⟩ with
  | error failure next =>
      rw [parseWith_of_shift_error hitems hshift] at hparse
      contradiction
  | ok token next =>
      obtain ⟨hnext, hready⟩ := Cursor.Ready.of_opening hlast hshift
      obtain ⟨result, hrun⟩ := Run.exists_read grammar Parser.standardLimit Parser.standardLimit
        Grammar.loosestPower next
      rw [parseWith_of_run hitems hshift hrun] at hparse
      cases result with
      | error failure after => contradiction
      | ok read after =>
          rw [Outcome.whole] at hparse
          split at hparse
          · next hfinish =>
              obtain rfl := Except.ok.inj hparse
              exact exists_phrase_of_run hbare hitems hkinds hlast hnext hready hrun hfinish
          · contradiction

/-- A source that a phrase takes up as a whole is parsed into the tree of the phrase. -/
theorem parseWith_of_phrase {phrase : Phrase}
    (hpower : ∀ rule ∈ grammar.rule? .finish, rule.power = 0)
    (htokenize : tokenize source file = .ok (tokenRow source file phrase.tokens))
    (hfits : phrase.Fits grammar Grammar.loosestPower)
    (hheight : phrase.height ≤ Parser.standardLimit) :
    parseWith grammar source file = .ok phrase.tree := by
  rw [tokenize_eq_ok_iff, tokenRow] at htokenize
  let last : Token := .closing source.utf8ByteSize (Lexer.fileName file)
  obtain ⟨first, hfirst, hmem⟩ := phrase.exists_cursor [.ok last]
  have hitems : (Lexer.ofSource source file).items =
      .ok (.opening (Lexer.fileName file)) :: first.items := by
    rw [htokenize, hfirst]
    simp [last]
  have hshift : Cursor.shift grammar ⟨.opening (Lexer.fileName file), first.items⟩ =
      .ok (.opening (Lexer.fileName file)) first :=
    Cursor.shift_of_items rfl (hfits.checked _ hmem)
  have hlast : last.kind = .finish := rfl
  have hrun : Run grammar Parser.standardLimit
      (.read Parser.standardLimit Grammar.loosestPower first) (.ok phrase.tree ⟨last, []⟩) :=
    hfits.read_sentence hpower hheight hfirst hlast
  rw [parseWith_of_run hitems hshift hrun]
  rfl

end Source

end Precedence
