import Precedence.Proofs.Splitting

/-!
# The longest match

The classes of lexemes are tried in order and the first that finds a lexeme decides.  The order
plays no part, though, but for one character: a colon is an operator wherever it stands, so the
numbers and the text literals that begin with one are never found.  Of the lexemes without them, no
two of different kinds begin with the same character, and every lexeme is found whole where it
stands alone.  A longer lexeme at the same place would therefore have been found in its own text,
where nothing but the shorter one was found.
-/

namespace Precedence.Lexeme

open Text
open scoped Computability

/-! ## The lexemes of a kind -/

/-- Digits, before which there may be more digits and a point. -/
def plainNumbers : Language Char :=
  perhaps ((one isDigit)∗ * one (· = '.')) * several (one isDigit)

/-- Quotation marks, a filling and a quotation mark. -/
def plainStrings : Language Char :=
  several (one (· = '"')) * several (one fillsString) * one (· = '"')

/-- The lexemes of a kind, without a colon in front of numbers and text literals. -/
def lexemes : TokenKind → Language Char
  | .statement => oneOf escapes
  | .name => names
  | .operator => oneOf operatorSpellings
  | .number => plainNumbers
  | .string => plainStrings
  | .start | .finish => 0

/-- The lexemes of all kinds. -/
def anyLexeme : Language Char :=
  oneOf escapes + names + oneOf operatorSpellings + plainNumbers + plainStrings

section Membership

variable {text : List Char}

theorem mem_plainNumbers : text ∈ plainNumbers ↔ ∃ head digits, text = head ++ digits ∧
    (head = [] ∨ ∃ whole, (∀ c ∈ whole, isDigit c = true) ∧ head = whole ++ ['.']) ∧
    digits ≠ [] ∧ ∀ c ∈ digits, isDigit c = true := by
  constructor
  · rintro ⟨head, hhead, digits, hdigits, rfl⟩
    refine ⟨head, digits, rfl, ?_, mem_several_one.mp hdigits⟩
    rcases hhead with hhead | ⟨whole, hwhole, _, ⟨c, hc, rfl⟩, rfl⟩
    · exact .inl hhead
    · obtain rfl : c = '.' := by simpa using hc
      exact .inr ⟨whole, mem_kstar_one.mp hwhole, rfl⟩
  · rintro ⟨head, digits, rfl, hhead, hdigits⟩
    refine ⟨head, ?_, digits, mem_several_one.mpr hdigits, rfl⟩
    rcases hhead with rfl | ⟨whole, hwhole, rfl⟩
    · exact .inl rfl
    · exact .inr ⟨whole, mem_kstar_one.mpr hwhole, ['.'], ⟨'.', by decide, rfl⟩, rfl⟩

theorem mem_plainStrings : text ∈ plainStrings ↔ ∃ marks filling,
    text = marks ++ (filling ++ ['"']) ∧ (marks ≠ [] ∧ ∀ c ∈ marks, c = '"') ∧
    filling ≠ [] ∧ ∀ c ∈ filling, fillsString c = true := by
  constructor
  · rintro ⟨_, ⟨marks, hmarks, filling, hfilling, rfl⟩, _, ⟨c, hc, rfl⟩, rfl⟩
    obtain rfl : c = '"' := by simpa using hc
    refine ⟨marks, filling, by simp, ?_, mem_several_one.mp hfilling⟩
    simpa using mem_several_one.mp hmarks
  · rintro ⟨marks, filling, rfl, hmarks, hfilling⟩
    have hmarks : marks ∈ several (one (· = '"')) := mem_several_one.mpr (by simpa using hmarks)
    have hfront := Language.append_mem_mul hmarks (mem_several_one.mpr hfilling)
    exact ⟨marks ++ filling, hfront, ['"'], ⟨'"', by decide, rfl⟩, by simp⟩

theorem mem_anyLexeme : text ∈ anyLexeme ↔ ∃ kind, text ∈ lexemes kind := by
  simp only [anyLexeme, Language.mem_add, or_assoc]
  constructor
  · rintro (hescape | hname | hoperator | hnumber | hstring)
    · exact ⟨.statement, hescape⟩
    · exact ⟨.name, hname⟩
    · exact ⟨.operator, hoperator⟩
    · exact ⟨.number, hnumber⟩
    · exact ⟨.string, hstring⟩
  · rintro ⟨kind, htext⟩
    cases kind with
    | statement => exact .inl htext
    | name => exact .inr (.inl htext)
    | operator => exact .inr (.inr (.inl htext))
    | number => exact .inr (.inr (.inr (.inl htext)))
    | string => exact .inr (.inr (.inr (.inr htext)))
    | start | finish => exact htext.elim

end Membership

/-! ## The first character decides the kind -/

/-- The kind of the lexemes that begin with the character. -/
def opens? (c : Char) : Option TokenKind :=
  if c = '\\' then some .statement
  else if startsName c then some .name
  else if operatorCharacters.contains c then some .operator
  else if isDigit c || c = '.' then some .number
  else if c = '"' then some .string
  else none

theorem digit_apart {c : Char} (hc : isDigit c = true) :
    c ≠ '\\' ∧ startsName c = false ∧ c ∉ operatorCharacters := by
  have hoperators : ∀ c ∈ operatorCharacters, isDigit c = false :=
    @of_decide_eq_true _ (List.decidableBAll _ _) (by decide)
  refine ⟨?_, ?_, ?_⟩
  · rintro rfl
    exact absurd hc (by decide)
  · rw [Bool.eq_false_iff]
    intro hname
    rw [(startsName_apart hname).2.1] at hc
    contradiction
  · intro hmem
    rw [hoperators c hmem] at hc
    contradiction

theorem opens?_digit {c : Char} (hc : isDigit c = true) : opens? c = some .number := by
  obtain ⟨hbackslash, hname, hoperator⟩ := digit_apart hc
  simp [opens?, hbackslash, hname, hoperator, hc]

/-- Every lexeme begins with a character that opens its kind. -/
theorem opens?_head {kind : TokenKind} {lexeme : List Char} (hlexeme : lexeme ∈ lexemes kind) :
    lexeme.head?.bind opens? = some kind := by
  cases kind with
  | statement =>
      have hescapes : ∀ word ∈ escapes, word.head?.bind opens? = some .statement := by decide
      exact hescapes lexeme hlexeme
  | name =>
      obtain ⟨first, letters, rfl, hfirst, -⟩ := mem_names.mp hlexeme
      have hbackslash : first ≠ '\\' := by
        rintro rfl
        exact absurd hfirst (by decide)
      simp [opens?, hbackslash, hfirst]
  | operator =>
      have hoperators : ∀ word ∈ operatorSpellings, word.head?.bind opens? = some .operator := by
        decide
      exact hoperators lexeme hlexeme
  | number =>
      obtain ⟨head, digits, rfl, hhead, hne, hdigits⟩ := mem_plainNumbers.mp hlexeme
      obtain ⟨first, digits, rfl⟩ := List.exists_cons_of_ne_nil hne
      rcases hhead with rfl | ⟨whole, hwhole, rfl⟩
      · exact opens?_digit (hdigits first (by simp))
      · cases whole with
        | nil =>
            have hpoint : opens? '.' = some .number := by decide
            exact hpoint
        | cons c whole => exact opens?_digit (hwhole c (by simp))
  | string =>
      obtain ⟨marks, filling, rfl, ⟨hne, hmarks⟩, -⟩ := mem_plainStrings.mp hlexeme
      obtain ⟨first, marks, rfl⟩ := List.exists_cons_of_ne_nil hne
      obtain rfl : first = '"' := hmarks first (by simp)
      have hmark : opens? '"' = some .string := by decide
      exact hmark
  | start | finish => exact hlexeme.elim

/-- Lexemes at the front of one text are of one kind. -/
theorem kind_eq_of_front {kind other : TokenKind} {lexeme word text : List Char}
    (hlexeme : lexeme ∈ lexemes kind) (hword : word ∈ lexemes other) (hfront : lexeme <+: text)
    (hfront' : word <+: text) : other = kind := by
  have htext {kind : TokenKind} {lexeme : List Char} (hlexeme : lexeme ∈ lexemes kind)
      (hfront : lexeme <+: text) : text.head?.bind opens? = some kind := by
    obtain ⟨rest, rfl⟩ := hfront
    have hopens := opens?_head hlexeme
    cases lexeme with
    | nil => contradiction
    | cons c lexeme => exact hopens
  have hkind := htext hlexeme hfront
  rw [htext hword hfront'] at hkind
  exact Option.some.inj hkind

/-! ## What is found is a lexeme of its kind -/

/-- A number or a text literal is only found where no operator is. -/
theorem classify?_eq_some_cases {text lexeme : List Char} {kind : TokenKind}
    (hfound : classify? text = some (kind, lexeme)) :
    kind = .statement ∧ escape? text = some lexeme ∨ kind = .name ∧ name? text = some lexeme ∨
      kind = .operator ∧ operator? text = some lexeme ∨
      operator? text = none ∧ (kind = .number ∧ number? text = some lexeme ∨
        kind = .string ∧ string? text = some lexeme) := by
  simp only [classify?, classes, List.findSome?_cons, List.findSome?_nil] at hfound
  cases hescape : escape? text with
  | some found => simp_all
  | none =>
      cases hname : name? text with
      | some found => simp_all
      | none =>
          cases hoperator : operator? text with
          | some found => simp_all
          | none =>
              cases hnumber : number? text with
              | some found => simp_all
              | none => cases hstring : string? text <;> simp_all

theorem head?_ne_colon {text : List Char} (hnone : operator? text = none) :
    text.head? ≠ some ':' := by
  intro hcolon
  obtain ⟨rest, rfl⟩ := List.head?_eq_some_iff.mp hcolon
  have hcharacter : ':' ∈ operatorCharacters := by decide
  exact operator?_ne_none hcharacter hnone

theorem number?_mem_plainNumbers {text number : List Char} (hcolon : text.head? ≠ some ':')
    (hfound : number? text = some number) : number ∈ plainNumbers := by
  rw [number?_eq, afterColon_of_ne hcolon] at hfound
  rcases Option.or_eq_some_iff.mp hfound with hfraction | ⟨-, hdigits⟩
  · obtain ⟨whole, digits, rest, -, rfl, hne, hwhole, hdigits, -⟩ :=
      fraction?_eq_some_iff.mp hfraction
    exact mem_plainNumbers.mpr
      ⟨whole ++ ['.'], digits, by simp, .inr ⟨whole, hwhole, rfl⟩, hne, hdigits⟩
  · obtain ⟨rest, -, hne, hdigits, -⟩ := digits?_eq_some_iff.mp hdigits
    exact mem_plainNumbers.mpr ⟨[], number, rfl, .inl rfl, hne, hdigits⟩

theorem string?_mem_plainStrings {text literal : List Char} (hcolon : text.head? ≠ some ':')
    (hfound : string? text = some literal) : literal ∈ plainStrings := by
  rw [string?_eq, afterColon_of_ne hcolon] at hfound
  obtain ⟨marks, filling, rest, -, rfl, hmarks, hfilling, hallMarks, hallFilling⟩ :=
    quoted?_eq_some_iff.mp hfound
  exact mem_plainStrings.mpr
    ⟨marks, filling, rfl, ⟨hmarks, hallMarks⟩, hfilling, hallFilling⟩

theorem classify?_mem_lexemes {text lexeme : List Char} {kind : TokenKind}
    (hfound : classify? text = some (kind, lexeme)) : lexeme ∈ lexemes kind := by
  rcases classify?_eq_some_cases hfound with ⟨rfl, hescape⟩ | ⟨rfl, hname⟩ | ⟨rfl, hoperator⟩ |
    ⟨hnone, ⟨rfl, hnumber⟩ | ⟨rfl, hstring⟩⟩
  · exact (firstOf_eq_some hescape).1
  · obtain ⟨first, letters, rest, -, rfl, hfirst, hletters, -⟩ := name?_eq_some_iff.mp hname
    exact mem_names.mpr ⟨first, letters, rfl, hfirst, hletters⟩
  · exact (firstOf_eq_some hoperator).1
  · exact number?_mem_plainNumbers (head?_ne_colon hnone) hnumber
  · exact string?_mem_plainStrings (head?_ne_colon hnone) hstring

/-! ## Every lexeme is found whole -/

theorem number?_of_mem {number : List Char} (hnumber : number ∈ plainNumbers) :
    number? number = some number := by
  have hopens : number.head?.bind opens? = some .number := opens?_head hnumber
  have hcolon : number.head? ≠ some ':' := by
    intro hcolon
    rw [hcolon] at hopens
    exact absurd hopens (by decide)
  rw [number?_eq, afterColon_of_ne hcolon]
  obtain ⟨head, digits, rfl, hhead, hne, hdigits⟩ := mem_plainNumbers.mp hnumber
  have hend : Stops isDigit [] := by simp [Stops]
  rcases hhead with rfl | ⟨whole, hwhole, rfl⟩
  · have hrest := hend.dropWhile hdigits
    rw [List.append_nil] at hrest
    have hnone : fraction? digits = none := by rw [fraction?, hrest]
    have hfound : digits? digits = some digits :=
      digits?_eq_some_iff.mpr ⟨[], by simp, hne, hdigits, hend⟩
    rw [List.nil_append, hnone, Option.none_or, hfound]
  · have hfound : fraction? (whole ++ ['.'] ++ digits) = some (whole ++ ['.'] ++ digits) :=
      fraction?_eq_some_iff.mpr ⟨whole, digits, [], by simp, by simp, hne, hwhole, hdigits, hend⟩
    rw [hfound, Option.some_or]

theorem string?_of_mem {literal : List Char} (hliteral : literal ∈ plainStrings) :
    string? literal = some literal := by
  obtain ⟨marks, filling, rfl, ⟨hmarks, hallMarks⟩, hfilling, hallFilling⟩ :=
    mem_plainStrings.mp hliteral
  have hcolon : (marks ++ (filling ++ ['"'])).head? ≠ some ':' := by
    obtain ⟨first, marks, rfl⟩ := List.exists_cons_of_ne_nil hmarks
    obtain rfl : first = '"' := hallMarks first (by simp)
    simp
  rw [string?_eq, afterColon_of_ne hcolon]
  exact quoted?_eq_some_iff.mpr
    ⟨marks, filling, [], rfl, rfl, hmarks, hfilling, hallMarks, hallFilling⟩

/-- The class of a kind finds the lexemes of that kind. -/
theorem exists_class {kind : TokenKind} {lexeme : List Char} (hlexeme : lexeme ∈ lexemes kind) :
    ∃ recognise, (kind, recognise) ∈ classes ∧ recognise lexeme = some lexeme := by
  cases kind with
  | statement =>
      have hescapes : ∀ word ∈ escapes, escape? word = some word := by decide
      exact ⟨escape?, by simp [classes], hescapes lexeme hlexeme⟩
  | name =>
      obtain ⟨first, letters, rfl, hfirst, hletters⟩ := mem_names.mp hlexeme
      refine ⟨name?, by simp [classes], name?_eq_some_iff.mpr ?_⟩
      exact ⟨first, letters, [], by simp, rfl, hfirst, hletters, by simp [Stops]⟩
  | operator =>
      have hoperators : ∀ word ∈ operatorSpellings, operator? word = some word := by decide
      exact ⟨operator?, by simp [classes], hoperators lexeme hlexeme⟩
  | number => exact ⟨number?, by simp [classes], number?_of_mem hlexeme⟩
  | string => exact ⟨string?, by simp [classes], string?_of_mem hlexeme⟩
  | start | finish => exact hlexeme.elim

/-- There is one class of each kind. -/
theorem class_unique {kind : TokenKind} {recognise other : List Char → Option (List Char)}
    (hclass : (kind, recognise) ∈ classes) (hother : (kind, other) ∈ classes) :
    other = recognise := by
  have hkinds : (classes.map Prod.fst).Nodup := by decide
  exact (Prod.mk.inj (List.inj_on_of_nodup_map hkinds hother hclass rfl)).2

theorem classify?_of_mem {kind : TokenKind} {lexeme : List Char} (hlexeme : lexeme ∈ lexemes kind) :
    classify? lexeme = some (kind, lexeme) := by
  obtain ⟨recognise, hclass, hown⟩ := exists_class hlexeme
  cases hfound : classify? lexeme with
  | none => exact absurd hfound (classify?_ne_none hclass hown)
  | some result =>
      obtain ⟨other, found⟩ := result
      have hfront := (classify?_front hfound).1
      obtain rfl : other = kind :=
        kind_eq_of_front hlexeme (classify?_mem_lexemes hfound) (List.prefix_refl _) hfront
      obtain ⟨earlier, recognise', later, hclasses, hlater, -⟩ := classify?_eq_some_iff.mp hfound
      have hclass' : (other, recognise') ∈ classes := by simp [hclasses]
      obtain rfl := class_unique hclass hclass'
      rw [hown] at hlater
      rw [Option.some.inj hlater]

/-- What is found at the front of a text is the longest of all lexemes there, and they are all of
its kind. -/
theorem prefix_of_classify? {kind other : TokenKind} {text lexeme word : List Char}
    (hfound : classify? text = some (kind, lexeme)) (hword : word ∈ lexemes other)
    (hfront : word <+: text) : other = kind ∧ word <+: lexeme := by
  have hlexeme := (classify?_front hfound).1
  refine ⟨kind_eq_of_front (classify?_mem_lexemes hfound) hword hlexeme hfront, ?_⟩
  rcases List.prefix_or_prefix_of_prefix hfront hlexeme with hshorter | ⟨kept, rfl⟩
  · exact hshorter
  · -- in its own text the longer lexeme is found, and so is the shorter one
    obtain ⟨more, rfl⟩ := hfront
    rw [List.append_assoc] at hfound
    have hcut := classify?_cut hfound
    rw [classify?_of_mem hword] at hcut
    rw [(Prod.mk.inj (Option.some.inj hcut)).2]

/-- Where a lexeme of some kind begins, a lexeme is found. -/
theorem classify?_ne_none_of_mem {text word : List Char} (hword : word ∈ anyLexeme)
    (hfront : word <+: text) : classify? text ≠ none := by
  obtain ⟨kind, hkind⟩ := mem_anyLexeme.mp hword
  obtain ⟨recognise, hclass, hown⟩ := exists_class hkind
  obtain ⟨rest, rfl⟩ := hfront
  intro hnone
  have hmissed := List.findSome?_eq_none_iff.mp hnone _ hclass
  have hlasting := (recogniser_of_mem_classes hclass).lasting hown rest
  simp [hlasting] at hmissed

/-- The lexeme is the longest that stands at the front of the text, and none of another kind stands
there. -/
structure LongestMatch (text : List Char) (kind : TokenKind) (lexeme : List Char) : Prop where
  front : lexeme <+: text
  member : lexeme ∈ lexemes kind
  longest : ∀ word ∈ anyLexeme, word <+: text → word.length ≤ lexeme.length
  alone : ∀ other, other ≠ kind → ∀ word ∈ lexemes other, ¬ word <+: text

theorem longestMatch_of_classify? {kind : TokenKind} {text lexeme : List Char}
    (hfound : classify? text = some (kind, lexeme)) : LongestMatch text kind lexeme where
  front := (classify?_front hfound).1
  member := classify?_mem_lexemes hfound
  longest := by
    intro word hword hfront
    obtain ⟨other, hother⟩ := mem_anyLexeme.mp hword
    exact (prefix_of_classify? hfound hother hfront).2.length_le
  alone := by
    intro other hne word hword hfront
    exact hne (prefix_of_classify? hfound hword hfront).1

namespace LongestMatch

variable {text lexeme : List Char} {kind : TokenKind}

theorem head?_ne_colon (hmatch : LongestMatch text kind lexeme)
    (hkind : kind = .number ∨ kind = .string) : lexeme.head? ≠ some ':' := by
  intro hcolon
  have hopens := opens?_head hmatch.member
  rw [hcolon, Option.bind_some] at hopens
  have hoperator : opens? ':' = some .operator := by decide
  rw [hoperator, Option.some.injEq] at hopens
  rcases hkind with rfl | rfl <;> contradiction

theorem operator (hmatch : LongestMatch text .operator lexeme) :
    ∃ symbol ∈ operators, symbol.toList = lexeme ∧
      ∀ other ∈ operators, other.toList <+: text → other.length ≤ symbol.length := by
  obtain ⟨symbol, hsymbol, rfl⟩ := List.mem_map.mp hmatch.member
  refine ⟨symbol, hsymbol, rfl, ?_⟩
  intro other hother hfront
  have hword : other.toList ∈ lexemes .operator := List.mem_map_of_mem hother
  exact hmatch.longest _ (mem_anyLexeme.mpr ⟨_, hword⟩) hfront

end LongestMatch

end Precedence.Lexeme

namespace Precedence

open Text Lexeme

/-- In front of the text behind it, every token of a scan was found as a lexeme. -/
theorem Scan.exists_classified {file : String} {offset stop : Nat} {text left : List Char}
    {tokens : List Token} (hscan : Scan file offset text tokens stop left) :
    ∀ before, width before = offset → ∀ token ∈ tokens, ∃ passed rest,
      before ++ text = passed ++ rest ∧ token.span.start = width passed ∧
        classify? rest = some (token.kind, token.lexeme.toList) := by
  induction hscan with
  | gap => simp
  | @token offset stop gap lexeme rest left kind tokens hgap hlexeme hfound hrest ih =>
      intro before hbefore token htoken
      rcases List.mem_cons.mp htoken with rfl | htoken
      · refine ⟨before ++ gap, lexeme ++ rest, by simp, by simp [Token.cut, hbefore], ?_⟩
        simpa [Token.cut] using hfound
      · have hpassed : width (before ++ gap ++ lexeme) = offset + width gap + width lexeme := by
          simp [hbefore, Nat.add_assoc]
        obtain ⟨passed, behind, hsplit, hplace⟩ := ih (before ++ gap ++ lexeme) hpassed token htoken
        exact ⟨passed, behind, by rw [← hsplit]; simp, hplace⟩

/-- What a token is to the text from its beginning on: the longest lexeme there, whatever its kind.
No number and no text literal begins with a colon, and an operator is the longest symbol that
fits. -/
structure Token.Longest (token : Token) (rest : List Char) : Prop where
  longestMatch : LongestMatch rest token.kind token.lexeme.toList
  plain : token.kind = .number ∨ token.kind = .string → token.lexeme.toList.head? ≠ some ':'
  operator : token.kind = .operator → token.lexeme ∈ operators ∧
    ∀ symbol ∈ operators, symbol.toList <+: rest → symbol.length ≤ token.lexeme.length

/-- The lexer yields an opening token and then, at each place where one begins, the longest lexeme
there.  It ends with a closing token, or with an error where no lexeme of any kind begins. -/
theorem items_longest (source : String) (file : Option String) :
    ∃ (tokens : List Token) (last : Lexer.Item),
      (Lexer.ofSource source file).items =
        .ok (.opening (Lexer.fileName file)) :: (tokens.map .ok ++ [last]) ∧
      (∀ token ∈ tokens, ∃ before rest, source.toList = before ++ rest ∧
        token.span.start = width before ∧ token.Longest rest) ∧
      (last = .ok (.closing source.utf8ByteSize (Lexer.fileName file)) ∨
        ∃ before c rest, source.toList = before ++ c :: rest ∧
          last = .error ⟨.unexpectedCharacter c, ⟨width before, Lexer.fileName file⟩⟩ ∧
          ∀ word ∈ anyLexeme, ¬ word <+: c :: rest) := by
  obtain ⟨tokens, stop, left, hscan, hend⟩ :=
    Scan.exists_scan (Lexer.fileName file) 0 source.toList
  refine ⟨tokens, _, Lexer.items_of_scan hscan hend, ?_, ?_⟩
  · intro token htoken
    obtain ⟨before, rest, hsplit, hstart, hfound⟩ := hscan.exists_classified [] rfl token htoken
    have hmatch := longestMatch_of_classify? hfound
    refine ⟨before, rest, hsplit, hstart, hmatch, hmatch.head?_ne_colon, ?_⟩
    intro hkind
    rw [hkind] at hmatch
    obtain ⟨symbol, hsymbol, hlexeme, hlongest⟩ := hmatch.operator
    obtain rfl : symbol = token.lexeme := String.toList_inj.mp hlexeme
    exact ⟨hsymbol, hlongest⟩
  · obtain ⟨done, hsource, rfl, -⟩ := hscan.cut
    cases left with
    | nil => exact .inl rfl
    | cons c left =>
        refine .inr ⟨done, c, left, hsource, by rw [Nat.zero_add]; rfl, ?_⟩
        intro word hword hfront
        exact classify?_ne_none_of_mem hword hfront hend

/-- A colon may stand before the numbers and the text literals that the recognisers find, but it
does not get that far. -/
example : number? [':', '.', '5'] = some [':', '.', '5'] ∧
    classify? [':', '.', '5'] = some (.operator, [':']) := by
  decide

end Precedence
