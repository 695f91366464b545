import Precedence.Proofs.LongestMatch
import Precedence.Proofs.Rendering
import Precedence.Proofs.Respell
import Precedence.Proofs.Strata

/-!
# Reading a rendering back

A rendering is one flat text.  Names of operators, the words for the leaves and the texts of the
leaves all stand in it, and a text literal may hold blanks and any of these words.  Every node is
written between parentheses, though, and begins with a heading that ends at the first blank.  The
heading tells which node it is and with it where its parts begin; a part that is a node ends where
its own parts do, and the text of a leaf ends at the first parenthesis, as long as it holds none.
So a tree can be told from any text that begins with its rendering.
-/

namespace Precedence

open Text

namespace Text

/-- A text is cut in one way only at the first place of a character. -/
theorem cut_unique {c : Char} {front other rest more : List Char} (hfront : c ∉ front)
    (hother : c ∉ other) (heq : front ++ c :: rest = other ++ c :: more) :
    front = other ∧ rest = more := by
  induction front generalizing other with
  | nil =>
      cases other with
      | nil => exact ⟨rfl, (List.cons.inj heq).2⟩
      | cons d other => exact absurd (List.cons.inj heq).1 (List.ne_of_not_mem_cons hother)
  | cons d front ih =>
      cases other with
      | nil => exact absurd (List.cons.inj heq).1.symm (List.ne_of_not_mem_cons hfront)
      | cons e other =>
          obtain ⟨rfl, hbehind⟩ := List.cons.inj heq
          obtain ⟨rfl, hrest⟩ := ih (List.not_mem_of_not_mem_cons hfront)
            (List.not_mem_of_not_mem_cons hother) hbehind
          exact ⟨rfl, hrest⟩

end Text

/-! ## Headings -/

namespace Expr

/-- The operators of arithmetic. -/
def arithmeticOperators : List String := ["+", "-", "*", "/", "^", "%"]

/-- There is no parenthesis in the text. -/
def Unbracketed (text : List Char) : Prop := '(' ∉ text ∧ ')' ∉ text

/-- The leaves of the tree hold no parentheses, and its operators are those of arithmetic. -/
inductive Plain : Expr → Prop
  | literal {text : String} (htext : Unbracketed text.toList) : Plain (.literal text)
  | identifier {text : String} (htext : Unbracketed text.toList) : Plain (.identifier text)
  | unary {operator : String} {operand : Expr} (hoperator : operator ∈ arithmeticOperators)
      (hoperand : Plain operand) : Plain (.unary operator operand)
  | binary {operator : String} {left right : Expr} (hoperator : operator ∈ arithmeticOperators)
      (hleft : Plain left) (hright : Plain right) : Plain (.binary operator left right)

/-- What a node begins with. -/
def heading : Expr → String
  | .literal _ => "Const"
  | .identifier _ => "Name"
  | .unary operator _ => "Unary" ++ operatorLabel operator
  | .binary operator _ _ => operatorLabel operator

/-- What a node holds behind its heading. -/
def content : Expr → String
  | .literal text | .identifier text => text
  | .unary _ operand => operand.prefixForm
  | .binary _ left right => left.prefixForm ++ " " ++ right.prefixForm

theorem prefixForm_eq (tree : Expr) :
    tree.prefixForm = "(" ++ tree.heading ++ " " ++ tree.content ++ ")" := by
  cases tree <;> simp only [prefixForm, heading, content, String.append_assoc] <;> rfl

/-- The headings of arithmetic with the root that each of them stands for. -/
def headings : List (String × Form × Option String) :=
  [("Const", .literal, none), ("Name", .identifier, none)] ++
    arithmeticOperators.map
      (fun operator => ("Unary" ++ operatorLabel operator, .unary, some operator)) ++
    arithmeticOperators.map (fun operator => (operatorLabel operator, .binary, some operator))

theorem Plain.heading_mem {tree : Expr} (hplain : tree.Plain) :
    (tree.heading, tree.form, tree.operator?) ∈ headings := by
  cases hplain with
  | literal | identifier => simp [headings, heading, form, operator?]
  | unary hoperator =>
      refine List.mem_append_left _ (List.mem_append_right _ ?_)
      exact List.mem_map.mpr ⟨_, hoperator, rfl⟩
  | binary hoperator =>
      exact List.mem_append_right _ (List.mem_map.mpr ⟨_, hoperator, rfl⟩)

/-- No heading stands for two roots. -/
theorem root_eq_of_heading : ∀ left ∈ headings, ∀ right ∈ headings,
    left.1 = right.1 → left.2 = right.2 := by
  decide

theorem blank_not_mem_heading : ∀ entry ∈ headings, ' ' ∉ entry.1.toList := by
  decide

/-! ## Unique reading -/

section Reading

variable {left right : Expr} {rest more : List Char}

/-- Nodes at the beginning of one text have the same form and the same operator, and behind their
headings the text is the same as well. -/
theorem root_eq_of_append (hleft : left.Plain) (hright : right.Plain)
    (heq : left.prefixForm.toList ++ rest = right.prefixForm.toList ++ more) :
    left.form = right.form ∧ left.operator? = right.operator? ∧
      left.content.toList ++ ')' :: rest = right.content.toList ++ ')' :: more := by
  have hsplit (tree : Expr) (rest : List Char) : tree.prefixForm.toList ++ rest =
      '(' :: (tree.heading.toList ++ ' ' :: (tree.content.toList ++ ')' :: rest)) := by
    rw [prefixForm_eq]
    simp
  rw [hsplit, hsplit] at heq
  have hleft := hleft.heading_mem
  have hright := hright.heading_mem
  obtain ⟨hheading, hcontent⟩ := cut_unique (blank_not_mem_heading _ hleft)
    (blank_not_mem_heading _ hright) (List.cons.inj heq).2
  have hroot := root_eq_of_heading _ hleft _ hright (String.toList_inj.mp hheading)
  obtain ⟨hform, hoperator⟩ := Prod.mk.inj hroot
  exact ⟨hform, hoperator, hcontent⟩

/-- The tree at the beginning of a text can be told, and with it where the text goes on. -/
theorem prefixForm_append_inj (hleft : left.Plain) (hright : right.Plain)
    (heq : left.prefixForm.toList ++ rest = right.prefixForm.toList ++ more) :
    left = right ∧ rest = more := by
  induction hleft generalizing right rest more with
  | literal htext =>
      obtain ⟨hform, -, hcontent⟩ := root_eq_of_append (.literal htext) hright heq
      cases hright with
      | literal hother =>
          obtain ⟨hsame, hrest⟩ := cut_unique htext.2 hother.2 hcontent
          exact ⟨congrArg literal (String.toList_inj.mp hsame), hrest⟩
      | identifier | unary | binary => contradiction
  | identifier htext =>
      obtain ⟨hform, -, hcontent⟩ := root_eq_of_append (.identifier htext) hright heq
      cases hright with
      | identifier hother =>
          obtain ⟨hsame, hrest⟩ := cut_unique htext.2 hother.2 hcontent
          exact ⟨congrArg identifier (String.toList_inj.mp hsame), hrest⟩
      | literal | unary | binary => contradiction
  | unary hoperator hoperand ih =>
      obtain ⟨hform, hsame, hcontent⟩ := root_eq_of_append (.unary hoperator hoperand) hright heq
      cases hright with
      | unary hoperator' hother =>
          obtain ⟨rfl, hrest⟩ := ih hother hcontent
          exact ⟨congrArg (unary · _) (Option.some.inj hsame), (List.cons.inj hrest).2⟩
      | literal | identifier | binary => contradiction
  | @binary operator first second hoperator hfirst hsecond ihfirst ihsecond =>
      obtain ⟨hform, hsame, hcontent⟩ :=
        root_eq_of_append (.binary hoperator hfirst hsecond) hright heq
      cases hright with
      | @binary operator' first' second' hoperator' hfirst' hsecond' =>
          have hparts : first.prefixForm.toList ++ ' ' :: (second.prefixForm.toList ++ ')' :: rest) =
              first'.prefixForm.toList ++ ' ' :: (second'.prefixForm.toList ++ ')' :: more) := by
            simpa [content] using hcontent
          obtain ⟨rfl, hbehind⟩ := ihfirst hfirst' hparts
          obtain ⟨rfl, hrest⟩ := ihsecond hsecond' (List.cons.inj hbehind).2
          exact ⟨congrArg (binary · _ _) (Option.some.inj hsame), (List.cons.inj hrest).2⟩
      | literal | identifier | unary => contradiction

theorem Plain.eq_of_render (hleft : left.Plain) (hright : right.Plain)
    (hrender : left.render = right.render) : left = right := by
  rw [render_eq_prefixForm, render_eq_prefixForm] at hrender
  have hwhole : left.prefixForm.toList ++ [] = right.prefixForm.toList ++ [] := by rw [hrender]
  exact (prefixForm_append_inj hleft hright hwhole).1

/-- With parentheses in the leaves the seam between two operands is lost. -/
example : (binary "+" (literal "1") (literal "2) (Const 3")).prefixForm =
    (binary "+" (literal "1) (Const 2") (literal "3")).prefixForm := by
  decide

end Reading

end Expr

/-! ## Trees of sources -/

namespace Lexeme

/-- Names, numbers and text literals hold no parentheses. -/
theorem unbracketed_of_mem_lexemes {kind : TokenKind} {lexeme : List Char}
    (hkind : kind = .number ∨ kind = .string ∨ kind = .name) (hlexeme : lexeme ∈ lexemes kind) :
    Expr.Unbracketed lexeme := by
  have hapart : ∀ c ∈ ['(', ')'], isWord c = false ∧ isDigit c = false ∧ fillsString c = false ∧
      c ≠ '.' ∧ c ≠ '"' :=
    -- decided along the list, not over the type of all characters
    @of_decide_eq_true _ (List.decidableBAll _ _) (by decide +kernel)
  have habsent : ∀ c ∈ ['(', ')'], c ∉ lexeme := by
    intro c hc hmem
    obtain ⟨hword, hdigit, hfills, hpoint, hmark⟩ := hapart c hc
    rcases hkind with rfl | rfl | rfl
    · obtain ⟨head, digits, rfl, hhead, -, hdigits⟩ := mem_plainNumbers.mp hlexeme
      rcases List.mem_append.mp hmem with hmem | hmem
      · rcases hhead with rfl | ⟨whole, hwhole, rfl⟩
        · exact absurd hmem List.not_mem_nil
        · rcases List.mem_append.mp hmem with hmem | hmem
          · simp [hwhole c hmem] at hdigit
          · exact hpoint (List.mem_singleton.mp hmem)
      · simp [hdigits c hmem] at hdigit
    · obtain ⟨marks, filling, rfl, ⟨-, hmarks⟩, -, hfilling⟩ := mem_plainStrings.mp hlexeme
      rcases List.mem_append.mp hmem with hmem | hmem
      · exact hmark (hmarks c hmem)
      · rcases List.mem_append.mp hmem with hmem | hmem
        · simp [hfilling c hmem] at hfills
        · exact hmark (List.mem_singleton.mp hmem)
    · obtain ⟨first, letters, rfl, hfirst, hletters⟩ := mem_names.mp hlexeme
      rcases List.mem_cons.mp hmem with rfl | hmem
      · simp [(startsName_apart hfirst).1] at hword
      · simp [hletters c hmem] at hword
  exact ⟨habsent '(' (by simp), habsent ')' (by simp)⟩

end Lexeme

theorem Token.StandsAlone.mem_lexemes {token : Token} (halone : token.StandsAlone) :
    token.lexeme.toList ∈ Lexeme.lexemes token.kind :=
  Lexeme.classify?_mem_lexemes halone.found

/-- What is derived from lexemes that the lexer finds is plain. -/
theorem Derives.plain {stratum : Stratum} {tokens : List Token} {tree : Expr} {height : Nat}
    (hderives : Derives stratum tokens tree height)
    (halone : ∀ token ∈ tokens, token.StandsAlone) : tree.Plain := by
  have htiers : ["+", "-"] ⊆ Expr.arithmeticOperators ∧
      ["*", "/"] ⊆ Expr.arithmeticOperators ∧ ["^", "%"] ⊆ Expr.arithmeticOperators := by
    decide
  induction hderives with
  | sum hleft hoperator hright ihleft ihright =>
      obtain ⟨hbefore, hbehind⟩ := List.forall_mem_append.mp halone
      exact .binary (htiers.1 hoperator.2) (ihleft hbefore)
        (ihright (List.forall_mem_cons.mp hbehind).2)
  | product hleft hoperator hright ihleft ihright =>
      obtain ⟨hbefore, hbehind⟩ := List.forall_mem_append.mp halone
      exact .binary (htiers.2.1 hoperator.2) (ihleft hbefore)
        (ihright (List.forall_mem_cons.mp hbehind).2)
  | power hleft hoperator hright ihleft ihright =>
      obtain ⟨hbefore, hbehind⟩ := List.forall_mem_append.mp halone
      exact .binary (htiers.2.2 hoperator.2) (ihleft hbefore)
        (ihright (List.forall_mem_cons.mp hbehind).2)
  | sign hoperator hoperand ih =>
      exact .unary (htiers.1 hoperator.2) (ih (List.forall_mem_cons.mp halone).2)
  | term hpart ih | factor hpart ih | base hpart ih | atom hpart ih => exact ih halone
  | literal hkind =>
      have hlexeme := (halone _ List.mem_cons_self).mem_lexemes
      exact .literal (Lexeme.unbracketed_of_mem_lexemes (hkind.imp_right .inl) hlexeme)
  | identifier hkind =>
      have hlexeme := (halone _ List.mem_cons_self).mem_lexemes
      exact .identifier (Lexeme.unbracketed_of_mem_lexemes (.inr (.inr hkind)) hlexeme)
  | group hopening hinner hclosing ih =>
      obtain ⟨hinside, -⟩ := List.forall_mem_append.mp (List.forall_mem_cons.mp halone).2
      exact ih hinside

theorem plain_of_parse {source : String} {file : Option String} {tree : Expr}
    (hparse : parse source file = .ok tree) : tree.Plain := by
  obtain ⟨phrase, htokenize, hfits, rfl, -⟩ :=
    exists_phrase_of_parseWith Grammar.arithmetic_finishBare hparse
  obtain ⟨stop, left, hscan⟩ := exists_scan_of_tokenize htokenize
  have hderives : Derives .expression phrase.tokens phrase.tree phrase.height :=
    hfits.derives Stratum.noConfusion (Nat.le_refl _)
  exact hderives.plain hscan.standsAlone

/-- Plain trees are told apart by their renderings.  What sources are parsed into is plain, so two
sources show the same rendering exactly if they are parsed into the same tree. -/
theorem render_tells_apart :
    (∀ left right : Expr, left.Plain → right.Plain → left.render = right.render → left = right) ∧
      (∀ source file tree, parse source file = .ok tree → tree.Plain) ∧
      ∀ source file tree other name tree', parse source file = .ok tree →
        parse other name = .ok tree' → (tree.render = tree'.render ↔ tree = tree') := by
  refine ⟨fun left right hleft hright => hleft.eq_of_render hright,
    fun source file tree hparse => plain_of_parse hparse, ?_⟩
  intro source file tree other name tree' hparse hother
  constructor
  · exact (plain_of_parse hparse).eq_of_render (plain_of_parse hother)
  · exact congrArg Expr.render

/-- A text literal may hold a heading and the name of a variable. -/
theorem render_tells_apart_quoted :
    let quoted : Expr := .literal "\"Add Name\""
    let sum : Expr := .binary "+" (.literal "\"Add\"") (.identifier "Name")
    parse "\"Add Name\"" none = .ok quoted ∧ parse "\"Add\" + Name" none = .ok sum ∧
      quoted.Plain ∧ sum.Plain ∧ quoted.render ≠ sum.render := by
  intro quoted sum
  have hquoted : parse "\"Add Name\"" none = .ok quoted := by decide +kernel
  have hsum : parse "\"Add\" + Name" none = .ok sum := by decide +kernel
  obtain ⟨-, hplain, hiff⟩ := render_tells_apart
  refine ⟨hquoted, hsum, hplain _ _ _ hquoted, hplain _ _ _ hsum, ?_⟩
  intro hrender
  exact absurd ((hiff _ _ _ _ _ _ hquoted hsum).mp hrender) (by decide)

end Precedence
