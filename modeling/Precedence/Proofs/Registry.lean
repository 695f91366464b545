import Mathlib.Data.Finset.Card
import Mathlib.Data.List.Induction
import Precedence.Grammar

/-!
# What calls make of a grammar

A grammar is built by calls, each of which names one symbol.  Only the calls on a symbol matter for
its rule.  The first of them sets the binding power for good, and of those that attach a behaviour
the last one counts.  So calls on different symbols may be made in any order.
-/

namespace Precedence

namespace Grammar

/-- A call that builds on a grammar. -/
inductive Call where
  | introduce (symbol : Symbol) (power : Nat)
  | addPrefix (symbol : Symbol) (power : Nat) (form : PrefixForm)
  | addInfix (symbol : Symbol) (power : Nat) (side : Associativity)
  | addAtom (symbol : Symbol)
  deriving DecidableEq

namespace Call

/-- The symbol that the call names. -/
def symbol : Call → Symbol
  | .introduce symbol _ | .addPrefix symbol _ _ | .addInfix symbol _ _ | .addAtom symbol => symbol

/-- The left binding power that the call gives to a symbol without a rule. -/
def power : Call → Nat
  | .introduce _ power | .addInfix _ power _ => power
  | .addPrefix _ _ _ | .addAtom _ => 0

/-- What the call lets its symbol do at the beginning of an expression. -/
def prefixRule? : Call → Option PrefixRule
  | .addPrefix _ power form => some ⟨form, power⟩
  | .addAtom _ => some ⟨.atom, 0⟩
  | .introduce _ _ | .addInfix _ _ _ => none

/-- The side from which the call groups its symbol between operands. -/
def side? : Call → Option Associativity
  | .addInfix _ _ side => some side
  | .introduce _ _ | .addPrefix _ _ _ | .addAtom _ => none

/-- Makes the call. -/
def make (grammar : Grammar) : Call → Grammar
  | .introduce symbol power => grammar.introduce symbol power
  | .addPrefix symbol power form => grammar.addPrefix symbol power form
  | .addInfix symbol power side => grammar.addInfix symbol power side
  | .addAtom symbol => grammar.addAtom symbol

/-- What the call changes in the rule of its symbol. -/
def revise : Call → Rule → Rule
  | .introduce _ _, rule => rule
  | .addPrefix _ power form, rule => { rule with prefixRule := some ⟨form, power⟩ }
  | .addInfix _ _ side, rule => { rule with infixRule := some ⟨side.rightPower rule.power⟩ }
  | .addAtom _, rule => { rule with prefixRule := some ⟨.atom, 0⟩ }

@[simp]
theorem symbol_revise (call : Call) (rule : Rule) : (call.revise rule).symbol = rule.symbol := by
  cases call <;> rfl

end Call

/-- The grammar after some more calls. -/
def extend (grammar : Grammar) (calls : List Call) : Grammar := calls.foldl Call.make grammar

@[simp]
theorem extend_concat (grammar : Grammar) (calls : List Call) (call : Call) :
    grammar.extend (calls ++ [call]) = call.make (grammar.extend calls) := by
  rw [extend, extend, List.foldl_concat]

/-! ## One call -/

section Call

variable {grammar : Grammar} {symbol other : Symbol}

theorem symbol_of_rule? {rule : Rule} (hrule : grammar.rule? symbol = some rule) :
    rule.symbol = symbol := by
  have hfound := List.find?_some hrule
  simpa using hfound

theorem rule?_introduce (grammar : Grammar) (symbol other : Symbol) (power : Nat) :
    (grammar.introduce symbol power).rule? other =
      if symbol = other then some ((grammar.rule? other).getD ⟨other, power, none, none⟩)
      else grammar.rule? other := by
  rw [introduce, contains]
  cases hrule : grammar.rule? symbol with
  | some rule =>
      by_cases hother : symbol = other
      · subst hother
        simp [hrule]
      · simp [hother]
  | none =>
      have hconcat : Grammar.rule? ⟨grammar.rules ++ [⟨symbol, power, none, none⟩]⟩ other =
          (grammar.rule? other).or (if symbol = other then some ⟨symbol, power, none, none⟩
            else none) := by
        simp [rule?, List.find?_append, List.find?_singleton]
      by_cases hother : symbol = other
      · subst hother
        simp [hconcat, hrule]
      · simp [hconcat, hother]

theorem rule?_amend (grammar : Grammar) (symbol other : Symbol) {change : Rule → Rule}
    (hchange : ∀ rule, (change rule).symbol = rule.symbol) :
    (grammar.amend symbol change).rule? other =
      if symbol = other then (grammar.rule? other).map change else grammar.rule? other := by
  have hsymbol : ((fun rule : Rule => decide (rule.symbol = other)) ∘
      fun rule => if rule.symbol = symbol then change rule else rule) =
      fun rule => decide (rule.symbol = other) := by
    funext rule
    rw [Function.comp_apply]
    split <;> simp [hchange]
  have hmap : (grammar.amend symbol change).rule? other =
      (grammar.rule? other).map fun rule => if rule.symbol = symbol then change rule else rule := by
    rw [amend, rule?, List.find?_map, hsymbol, rule?]
  rw [hmap]
  cases hrule : grammar.rule? other with
  | none => simp
  | some rule =>
      obtain rfl := symbol_of_rule? hrule
      by_cases hother : symbol = rule.symbol <;> simp [hother, eq_comm]

theorem amend_eq_self (grammar : Grammar) (symbol : Symbol) :
    grammar.amend symbol (fun rule => rule) = grammar := by
  simp [amend]

/-- A call gives its symbol a rule, unless it has one, and revises the rule. -/
theorem Call.make_eq (grammar : Grammar) (call : Call) :
    call.make grammar =
      (grammar.introduce call.symbol call.power).amend call.symbol call.revise := by
  cases call with
  | introduce symbol power => exact (amend_eq_self _ symbol).symm
  | addPrefix | addInfix | addAtom => rfl

theorem Call.rule?_make (grammar : Grammar) (call : Call) (symbol : Symbol) :
    (call.make grammar).rule? symbol =
      if call.symbol = symbol then
        some (call.revise ((grammar.rule? symbol).getD ⟨symbol, call.power, none, none⟩))
      else grammar.rule? symbol := by
  rw [make_eq, rule?_amend _ _ _ call.symbol_revise, rule?_introduce]
  split <;> rfl

/-- Calls do not change the rules of symbols that they do not name. -/
theorem rule?_extend_of_ne {calls : List Call} (hne : ∀ call ∈ calls, call.symbol ≠ symbol) :
    (grammar.extend calls).rule? symbol = grammar.rule? symbol := by
  induction calls using List.reverseRecOn with
  | nil => rfl
  | append_singleton calls call ih =>
      rw [extend_concat, Call.rule?_make, if_neg (hne call (by simp))]
      exact ih fun earlier hearlier => hne earlier (by simp [hearlier])

end Call

/-! ## All calls on a symbol -/

/-- The calls that name the symbol. -/
def naming (symbol : Symbol) (calls : List Call) : List Call :=
  calls.filter fun call => call.symbol = symbol

/-- The rule that a row of calls on one symbol comes to.  The first call sets the power, and the
last that attaches a behaviour sets that behaviour.  Grouped from the right, the right operand is
read one below the power, if there is anything below. -/
def ruleMadeBy (symbol : Symbol) (row : List Call) : Option Rule :=
  row.head?.map fun first =>
    { symbol
      power := first.power
      prefixRule := (row.filterMap Call.prefixRule?).getLast?
      infixRule := (row.filterMap Call.side?).getLast?.map fun
        | .left => ⟨first.power⟩
        | .right => ⟨first.power - 1⟩ }

/-- The last of what a row yields is what its last member yields, if that yields anything. -/
theorem getLast?_filterMap_concat {β : Type} (yield : Call → Option β) (row : List Call)
    (call : Call) : ((row ++ [call]).filterMap yield).getLast? =
      (yield call).or (row.filterMap yield).getLast? := by
  rw [List.filterMap_append]
  cases hyield : yield call with
  | none => simp [hyield]
  | some value => simp [hyield]

theorem ruleMadeBy_concat (symbol : Symbol) (row : List Call) (call : Call) :
    ruleMadeBy symbol (row ++ [call]) =
      some (call.revise ((ruleMadeBy symbol row).getD ⟨symbol, call.power, none, none⟩)) := by
  cases row with
  | nil =>
      cases call with
      | introduce | addPrefix | addAtom => rfl
      | addInfix symbol power side => cases side <;> rfl
  | cons first row =>
      rw [ruleMadeBy, getLast?_filterMap_concat, getLast?_filterMap_concat]
      cases call with
      | introduce | addPrefix | addAtom => rfl
      | addInfix symbol power side => cases side <;> rfl

/-- The rule of a symbol is made by the calls that name it. -/
theorem rule?_extend_empty (calls : List Call) (symbol : Symbol) :
    (empty.extend calls).rule? symbol = ruleMadeBy symbol (naming symbol calls) := by
  induction calls using List.reverseRecOn with
  | nil => rfl
  | append_singleton calls call ih =>
      rw [extend_concat, Call.rule?_make, ih]
      by_cases hsymbol : call.symbol = symbol
      · have hnaming : naming symbol (calls ++ [call]) = naming symbol calls ++ [call] := by
          simp [naming, hsymbol]
        rw [if_pos hsymbol, hnaming, ruleMadeBy_concat]
      · have hnaming : naming symbol (calls ++ [call]) = naming symbol calls := by
          simp [naming, hsymbol]
        rw [if_neg hsymbol, hnaming]

/-- A sign that is given its form before its place between operands binds nothing there. -/
example : (empty.extend [.addPrefix (.operator "-") 100 .sign,
      .addInfix (.operator "-") 10 .right]).rule? (.operator "-") =
    some ⟨.operator "-", 0, some ⟨.sign, 100⟩, some ⟨0⟩⟩ := by
  decide

/-- The first call on a symbol gives the power that is kept. -/
theorem power_extend_empty (calls : List Call) (symbol : Symbol) :
    ((empty.extend calls).rule? symbol).map Rule.power =
      (naming symbol calls).head?.map Call.power := by
  rw [rule?_extend_empty, ruleMadeBy, Option.map_map]
  rfl

/-- A request for a power is set aside if the kept power is another, which an earlier call on the
symbol must have given. -/
theorem overrules_iff_ne {before after : List Call} {symbol : Symbol} {power : Nat}
    {side : Associativity} {rule : Rule}
    (hrule : (empty.extend (before ++ .addInfix symbol power side :: after)).rule? symbol =
      some rule) :
    (empty.extend before).overrules symbol power = true ↔ power ≠ rule.power := by
  have hpower := power_extend_empty (before ++ .addInfix symbol power side :: after) symbol
  have hbefore := power_extend_empty before symbol
  have hnaming : naming symbol (before ++ .addInfix symbol power side :: after) =
      naming symbol before ++ .addInfix symbol power side :: naming symbol after := by
    simp [naming, Call.symbol]
  rw [hrule, hnaming] at hpower
  rw [overrules]
  cases hnamed : naming symbol before with
  | nil =>
      rw [hnamed] at hbefore hpower
      have hkept : rule.power = power := by simpa [Call.power] using hpower
      have hnone : (empty.extend before).rule? symbol = none := by simpa using hbefore
      simp [hnone, hkept]
  | cons first row =>
      rw [hnamed] at hbefore hpower
      have hkept : rule.power = first.power := by simpa using hpower
      obtain ⟨earlier, hearlier, hfirst⟩ := Option.map_eq_some_iff.mp hbefore
      rw [hearlier, Option.any_some, decide_eq_true_iff, hfirst, hkept]
      exact ne_comm

/-! ## All rules of a grammar -/

section Distinct

variable {grammar : Grammar}

/-- No symbol has two rules. -/
def Distinct (grammar : Grammar) : Prop := (grammar.rules.map Rule.symbol).Nodup

theorem mem_symbols_iff {symbol : Symbol} :
    symbol ∈ grammar.rules.map Rule.symbol ↔ grammar.contains symbol = true := by
  simp [contains, rule?]

theorem symbols_amend (symbol : Symbol) {change : Rule → Rule}
    (hchange : ∀ rule, (change rule).symbol = rule.symbol) :
    (grammar.amend symbol change).rules.map Rule.symbol = grammar.rules.map Rule.symbol := by
  rw [amend, List.map_map]
  apply List.map_congr_left
  intro rule hrule
  rw [Function.comp_apply]
  split
  · exact hchange rule
  · rfl

theorem Distinct.introduce (hdistinct : grammar.Distinct) (symbol : Symbol) (power : Nat) :
    (grammar.introduce symbol power).Distinct := by
  rw [Grammar.introduce]
  split
  · exact hdistinct
  · next hnew =>
      rw [← mem_symbols_iff] at hnew
      rw [Distinct, List.map_append, List.map_singleton, ← List.concat_eq_append]
      exact List.Nodup.concat hnew hdistinct

theorem distinct_extend_empty (calls : List Call) : (empty.extend calls).Distinct := by
  induction calls using List.reverseRecOn with
  | nil => exact List.nodup_nil
  | append_singleton calls call ih =>
      rw [extend_concat, Call.make_eq, Distinct, symbols_amend _ call.symbol_revise]
      exact ih.introduce call.symbol call.power

/-- Where no symbol has two rules, a rule is the one that its symbol has. -/
theorem Distinct.mem_rules_iff (hdistinct : grammar.Distinct) {rule : Rule} :
    rule ∈ grammar.rules ↔ grammar.rule? rule.symbol = some rule := by
  constructor
  · intro hmem
    have hcontains := mem_symbols_iff.mp (List.mem_map_of_mem (f := Rule.symbol) hmem)
    obtain ⟨found, hfound⟩ := Option.isSome_iff_exists.mp hcontains
    have hsame : found = rule := List.inj_on_of_nodup_map hdistinct
      (List.mem_of_find?_eq_some hfound) hmem (symbol_of_rule? hfound)
    rw [hfound, hsame]
  · exact List.mem_of_find?_eq_some

/-- Grammars in which no symbol has two rules have the same rules if they give each symbol the
same. -/
theorem Distinct.perm {other : Grammar} (hdistinct : grammar.Distinct) (hother : other.Distinct)
    (hsame : ∀ symbol, grammar.rule? symbol = other.rule? symbol) :
    grammar.rules.Perm other.rules := by
  have hnodup := List.Nodup.of_map Rule.symbol hdistinct
  have hnodup' := List.Nodup.of_map Rule.symbol hother
  rw [List.perm_ext_iff_of_nodup hnodup hnodup']
  intro rule
  rw [hdistinct.mem_rules_iff, hother.mem_rules_iff, hsame]

end Distinct

theorem contains_extend_empty (calls : List Call) (symbol : Symbol) :
    (empty.extend calls).contains symbol = true ↔ ∃ call ∈ calls, call.symbol = symbol := by
  rw [contains, rule?_extend_empty, ruleMadeBy, Option.isSome_map, naming, List.head?_filter]
  simp

/-- The grammar is what the calls make when there are no rules before them. -/
structure SumsUp (grammar : Grammar) (calls : List Call) : Prop where
  contains_iff : ∀ symbol, grammar.contains symbol = true ↔ ∃ call ∈ calls, call.symbol = symbol
  rule_eq : ∀ symbol, grammar.rule? symbol = ruleMadeBy symbol (naming symbol calls)
  size_eq : grammar.size = (calls.map Call.symbol).toFinset.card
  /-- A request for a power is set aside exactly if another power is kept. -/
  overrules_iff : ∀ before symbol power side after,
    calls = before ++ .addInfix symbol power side :: after →
    ∃ rule, grammar.rule? symbol = some rule ∧
      ((empty.extend before).overrules symbol power = true ↔ power ≠ rule.power)
  /-- The order of the calls is of no matter but for the order of those on the same symbol. -/
  reordered : ∀ others, (∀ symbol, naming symbol others = naming symbol calls) →
    (empty.extend others).rules.Perm grammar.rules ∧
      ∀ symbol, (empty.extend others).rule? symbol = grammar.rule? symbol

/-- A grammar that is built up from nothing is told by the calls on each symbol. -/
theorem extend_empty_sumsUp (calls : List Call) : (empty.extend calls).SumsUp calls where
  contains_iff := contains_extend_empty calls
  rule_eq := rule?_extend_empty calls
  size_eq := by
    have hsymbols : ((empty.extend calls).rules.map Rule.symbol).Perm
        (calls.map Call.symbol).dedup := by
      rw [List.perm_ext_iff_of_nodup (distinct_extend_empty calls) (List.nodup_dedup _)]
      intro symbol
      rw [mem_symbols_iff, contains_extend_empty, List.mem_dedup, List.mem_map]
    rw [size, ← List.length_map Rule.symbol, hsymbols.length_eq, List.card_toFinset]
  overrules_iff := by
    rintro before symbol power side after rfl
    have hnamed := (contains_extend_empty (before ++ .addInfix symbol power side :: after)
      symbol).mpr ⟨.addInfix symbol power side, by simp, rfl⟩
    obtain ⟨rule, hrule⟩ := Option.isSome_iff_exists.mp hnamed
    exact ⟨rule, hrule, overrules_iff_ne hrule⟩
  reordered := by
    intro others hothers
    have hsame (symbol : Symbol) :
        (empty.extend others).rule? symbol = (empty.extend calls).rule? symbol := by
      rw [rule?_extend_empty, rule?_extend_empty, hothers]
    exact ⟨(distinct_extend_empty others).perm (distinct_extend_empty calls) hsame, hsame⟩

end Grammar

end Precedence
