import Mathlib.Computability.Language
import Precedence.Proofs.Scan

/-!
# Splitting a text into lexemes

The lexer never goes back: it takes the lexeme of the first class that finds one, as long as that
class can make it.  A text may be split into gaps and lexemes in other ways, but where any such way
exists the lexer succeeds too.  The lexemes of all classes are languages here, and the texts that
can be split are the words over their union.

Two splits of a text are compared through a third, the finest.  In it digits and the characters of
operators stand alone, and no colon belongs to the number or the text literal behind it.
-/

namespace Precedence.Lexeme

open Text
open scoped Computability

/-! ## The languages of lexemes -/

/-- The characters that have the property. -/
def one (property : Char → Bool) : Language Char := {text | ∃ c, property c = true ∧ text = [c]}

/-- The words of a list. -/
def oneOf (words : List (List Char)) : Language Char := {text | text ∈ words}

/-- The words of a language and the empty text. -/
def perhaps (language : Language Char) : Language Char := 1 + language

/-- One or more words of a language in a row. -/
def several (language : Language Char) : Language Char := language * language∗

/-- A letter or an underscore, then word characters. -/
def names : Language Char := one startsName * (one isWord)∗

/-- Digits, before which a fraction may have a point, more digits and a colon. -/
def numbers : Language Char :=
  perhaps (perhaps (one (· = ':')) * (one isDigit)∗ * one (· = '.')) * several (one isDigit)

/-- Quotation marks, a filling and a quotation mark, before which there may be a colon. -/
def strings : Language Char :=
  perhaps (one (· = ':')) * several (one (· = '"')) * several (one fillsString) * one (· = '"')

/-- The characters of gaps and the lexemes of all classes. -/
def pieces : Language Char :=
  one isGap + oneOf escapes + names + oneOf operatorSpellings + numbers + strings

section Membership

variable {property : Char → Bool} {language : Language Char} {text rest : List Char}

@[simp]
theorem singleton_mem_one {c : Char} : [c] ∈ one property ↔ property c = true := by
  constructor
  · rintro ⟨d, hd, heq⟩
    rwa [List.cons.inj heq |>.1]
  · intro hc
    exact ⟨c, hc, rfl⟩

theorem append_mem_kstar (htext : text ∈ language) (hrest : rest ∈ language∗) :
    text ++ rest ∈ language∗ := by
  have hmul : text ++ rest ∈ language * language∗ := Language.append_mem_mul htext hrest
  rw [← Language.one_add_self_mul_kstar_eq_kstar]
  exact .inr hmul

theorem mem_kstar_one : text ∈ (one property)∗ ↔ ∀ c ∈ text, property c = true := by
  constructor
  · intro htext
    obtain ⟨words, rfl, hwords⟩ := Language.mem_kstar.mp htext
    intro c hc
    obtain ⟨word, hword, hmem⟩ := List.mem_flatten.mp hc
    obtain ⟨d, hd, rfl⟩ := hwords word hword
    rwa [List.mem_singleton.mp hmem]
  · intro htext
    induction text with
    | nil => exact Language.nil_mem_kstar _
    | cons c text ih =>
        obtain ⟨hc, htext⟩ := List.forall_mem_cons.mp htext
        exact append_mem_kstar (singleton_mem_one.mpr hc) (ih htext)

theorem mem_several_one :
    text ∈ several (one property) ↔ text ≠ [] ∧ ∀ c ∈ text, property c = true := by
  constructor
  · rintro ⟨_, ⟨c, hc, rfl⟩, rest, hrest, rfl⟩
    exact ⟨List.cons_ne_nil c rest, List.forall_mem_cons.mpr ⟨hc, mem_kstar_one.mp hrest⟩⟩
  · rintro ⟨hne, htext⟩
    obtain ⟨c, rest, rfl⟩ := List.exists_cons_of_ne_nil hne
    obtain ⟨hc, hrest⟩ := List.forall_mem_cons.mp htext
    exact ⟨[c], ⟨c, hc, rfl⟩, rest, mem_kstar_one.mpr hrest, rfl⟩

theorem mem_names : text ∈ names ↔ ∃ first letters, text = first :: letters ∧
    startsName first = true ∧ ∀ c ∈ letters, isWord c = true := by
  constructor
  · rintro ⟨_, ⟨first, hfirst, rfl⟩, letters, hletters, rfl⟩
    exact ⟨first, letters, rfl, hfirst, mem_kstar_one.mp hletters⟩
  · rintro ⟨first, letters, rfl, hfirst, hletters⟩
    exact ⟨[first], ⟨first, hfirst, rfl⟩, letters, mem_kstar_one.mpr hletters, rfl⟩

theorem mem_colon : text ∈ perhaps (one (· = ':')) ↔ text = [] ∨ text = [':'] := by
  constructor
  · rintro (htext | ⟨c, hc, rfl⟩)
    · exact .inl htext
    · exact .inr (by simpa using hc)
  · rintro (rfl | rfl)
    · exact .inl rfl
    · exact .inr ⟨':', by decide, rfl⟩

theorem mem_numbers : text ∈ numbers ↔ ∃ head digits, text = head ++ digits ∧
    (head = [] ∨ ∃ colon whole, (colon = [] ∨ colon = [':']) ∧ (∀ c ∈ whole, isDigit c = true) ∧
      head = colon ++ (whole ++ ['.'])) ∧
    digits ≠ [] ∧ ∀ c ∈ digits, isDigit c = true := by
  constructor
  · rintro ⟨head, hhead, digits, hdigits, rfl⟩
    refine ⟨head, digits, rfl, ?_, mem_several_one.mp hdigits⟩
    rcases hhead with hhead | ⟨_, ⟨colon, hcolon, whole, hwhole, rfl⟩, _, ⟨c, hc, rfl⟩, rfl⟩
    · exact .inl hhead
    · obtain rfl : c = '.' := by simpa using hc
      exact .inr ⟨colon, whole, mem_colon.mp hcolon, mem_kstar_one.mp hwhole, by simp⟩
  · rintro ⟨head, digits, rfl, hhead, hdigits⟩
    refine ⟨head, ?_, digits, mem_several_one.mpr hdigits, rfl⟩
    rcases hhead with rfl | ⟨colon, whole, hcolon, hwhole, rfl⟩
    · exact .inl rfl
    · have hfront : colon ++ whole ∈ perhaps (one (· = ':')) * (one isDigit)∗ :=
        Language.append_mem_mul (mem_colon.mpr hcolon) (mem_kstar_one.mpr hwhole)
      exact .inr ⟨colon ++ whole, hfront, ['.'], ⟨'.', by decide, rfl⟩, by simp⟩

theorem mem_strings : text ∈ strings ↔ ∃ colon marks filling,
    text = colon ++ (marks ++ (filling ++ ['"'])) ∧ (colon = [] ∨ colon = [':']) ∧
    (marks ≠ [] ∧ ∀ c ∈ marks, c = '"') ∧ filling ≠ [] ∧ ∀ c ∈ filling, fillsString c = true := by
  constructor
  · rintro ⟨_, ⟨_, ⟨colon, hcolon, marks, hmarks, rfl⟩, filling, hfilling, rfl⟩, _, hlast, rfl⟩
    obtain ⟨c, hc, rfl⟩ := hlast
    obtain rfl : c = '"' := by simpa using hc
    refine ⟨colon, marks, filling, by simp, mem_colon.mp hcolon, ?_, mem_several_one.mp hfilling⟩
    simpa using mem_several_one.mp hmarks
  · rintro ⟨colon, marks, filling, rfl, hcolon, hmarks, hfilling⟩
    have hmarks : marks ∈ several (one (· = '"')) := mem_several_one.mpr (by simpa using hmarks)
    have hfront := Language.append_mem_mul
      (Language.append_mem_mul (mem_colon.mpr hcolon) hmarks) (mem_several_one.mpr hfilling)
    exact ⟨colon ++ marks ++ filling, hfront, ['"'], ⟨'"', by decide, rfl⟩, by simp⟩

theorem mem_pieces : text ∈ pieces ↔ text ∈ one isGap ∨ text ∈ escapes ∨ text ∈ names ∨
    text ∈ operatorSpellings ∨ text ∈ numbers ∨ text ∈ strings := by
  simp only [pieces, Language.mem_add, or_assoc]
  exact Iff.rfl

end Membership

/-! ## The finest split -/

/-- The characters of all operators. -/
def operatorCharacters : List Char := operatorSpellings.flatten

/-- Characters that stand alone in the finest split. -/
def isSingle (c : Char) : Bool := isGap c || isDigit c || operatorCharacters.contains c

/-- The text is split as finely as it can be. -/
inductive Divided : List Char → Prop
  | nil : Divided []
  | single {c : Char} {rest : List Char} (hc : isSingle c = true) (hrest : Divided rest) :
      Divided (c :: rest)
  | escape {c : Char} {rest : List Char} (hc : c = 'n' ∨ c = 't') (hrest : Divided rest) :
      Divided ('\\' :: c :: rest)
  | name {first : Char} {letters rest : List Char} (hfirst : startsName first = true)
      (hletters : ∀ c ∈ letters, isWord c = true) (hrest : Divided rest) :
      Divided (first :: (letters ++ rest))
  | fraction {c : Char} {rest : List Char} (hc : isDigit c = true) (hrest : Divided rest) :
      Divided ('.' :: c :: rest)
  | string {marks filling rest : List Char} (hmarks : ∀ c ∈ marks, c = '"')
      (hne : filling ≠ []) (hfilling : ∀ c ∈ filling, fillsString c = true) (hrest : Divided rest) :
      Divided ('"' :: (marks ++ (filling ++ '"' :: rest)))

namespace Divided

variable {text rest : List Char}

theorem singles {row : List Char} (hrow : ∀ c ∈ row, isSingle c = true) (hrest : Divided rest) :
    Divided (row ++ rest) := by
  induction row with
  | nil => exact hrest
  | cons c row ih =>
      obtain ⟨hc, hrow⟩ := List.forall_mem_cons.mp hrow
      exact .single hc (ih hrow)

theorem isSingle_digit {c : Char} (hc : isDigit c = true) : isSingle c = true := by
  simp [isSingle, hc]

theorem isSingle_operator {c : Char} (hc : c ∈ operatorCharacters) : isSingle c = true := by
  simp [isSingle, hc]

theorem colon {colon : List Char} (hcolon : colon = [] ∨ colon = [':']) (hrest : Divided rest) :
    Divided (colon ++ rest) := by
  rcases hcolon with rfl | rfl
  · exact hrest
  · exact .single (by decide) hrest

/-- The finest split goes through the pieces of every other split. -/
theorem piece {piece : List Char} (hpiece : piece ∈ pieces) (hrest : Divided rest) :
    Divided (piece ++ rest) := by
  rcases mem_pieces.mp hpiece with hgap | hescape | hname | hoperator | hnumber | hstring
  · obtain ⟨c, hc, rfl⟩ := hgap
    exact .single (by simp [isSingle, hc]) hrest
  · simp only [escapes, List.mem_cons, List.not_mem_nil, or_false] at hescape
    rcases hescape with rfl | rfl | rfl
    · exact .escape (.inl rfl) (.escape (.inr rfl) hrest)
    · exact .escape (.inl rfl) hrest
    · exact .escape (.inr rfl) hrest
  · obtain ⟨first, letters, rfl, hfirst, hletters⟩ := mem_names.mp hname
    exact .name hfirst hletters hrest
  · refine singles ?_ hrest
    intro c hc
    exact isSingle_operator (List.mem_flatten.mpr ⟨piece, hoperator, hc⟩)
  · obtain ⟨head, digits, rfl, hhead, hne, hdigits⟩ := mem_numbers.mp hnumber
    rcases hhead with rfl | ⟨colon, whole, hcolon, hwhole, rfl⟩
    · exact singles (fun c hc => isSingle_digit (hdigits c hc)) hrest
    · obtain ⟨first, digits, rfl⟩ := List.exists_cons_of_ne_nil hne
      obtain ⟨hfirst, hdigits⟩ := List.forall_mem_cons.mp hdigits
      have hfraction := fraction hfirst (singles (fun c hc => isSingle_digit (hdigits c hc)) hrest)
      simpa using hfraction.singles (fun c hc => isSingle_digit (hwhole c hc)) |>.colon hcolon
  · obtain ⟨colon, marks, filling, rfl, hcolon, ⟨hne, hmarks⟩, hfilling⟩ := mem_strings.mp hstring
    obtain ⟨first, marks, rfl⟩ := List.exists_cons_of_ne_nil hne
    obtain ⟨rfl, hmore⟩ := List.forall_mem_cons.mp hmarks
    simpa using (string hmore hfilling.1 hfilling.2 hrest).colon hcolon

theorem of_mem_kstar (htext : text ∈ pieces∗) : Divided text := by
  obtain ⟨words, rfl, hwords⟩ := Language.mem_kstar.mp htext
  induction words with
  | nil => exact .nil
  | cons word words ih =>
      obtain ⟨hword, hwords⟩ := List.forall_mem_cons.mp hwords
      exact piece hword (ih hwords (Language.join_mem_kstar hwords))

end Divided

/-! ## Taking a lexeme away -/

/-- Characters that can be swept from the front of a divided text: where a name begins with one of
them, it consists of them. -/
structure Sweeps (property : Char → Bool) : Prop where
  marks : property '\\' = false ∧ property '.' = false ∧ property '"' = false
  names : ∀ first, startsName first = true → property first = true →
    ∀ c, isWord c = true → property c = true

/-- What is left of a divided text behind all characters with a property is divided. -/
theorem Divided.dropWhile {property : Char → Bool} {text : List Char} (htext : Divided text)
    (hsweeps : Sweeps property) : Divided (text.dropWhile property) := by
  obtain ⟨hbackslash, hpoint, hquote⟩ := hsweeps.marks
  induction htext with
  | nil => exact .nil
  | @single c rest hc hrest ih =>
      by_cases hsweep : property c = true
      · rwa [List.dropWhile_cons_of_pos hsweep]
      · rw [List.dropWhile_cons_of_neg hsweep]
        exact .single hc hrest
  | escape hc hrest =>
      rw [List.dropWhile_cons_of_neg (by simp [hbackslash])]
      exact .escape hc hrest
  | @name first letters rest hfirst hletters hrest ih =>
      by_cases hsweep : property first = true
      · have hall : ∀ c ∈ letters, property c = true :=
          fun c hc => hsweeps.names first hfirst hsweep c (hletters c hc)
        rwa [List.dropWhile_cons_of_pos hsweep, List.dropWhile_append_of_pos hall]
      · rw [List.dropWhile_cons_of_neg hsweep]
        exact .name hfirst hletters hrest
  | fraction hc hrest =>
      rw [List.dropWhile_cons_of_neg (by simp [hpoint])]
      exact .fraction hc hrest
  | string hmarks hne hfilling hrest =>
      rw [List.dropWhile_cons_of_neg (by simp [hquote])]
      exact .string hmarks hne hfilling hrest

/-- What stands behind swept characters in a divided text is divided. -/
theorem Divided.of_stops {property : Char → Bool} {kept rest : List Char}
    (htext : Divided (kept ++ rest)) (hsweeps : Sweeps property)
    (hkept : ∀ c ∈ kept, property c = true) (hstops : Stops property rest) : Divided rest := by
  have hdropped := htext.dropWhile hsweeps
  rwa [hstops.dropWhile hkept] at hdropped

theorem sweeps_isGap : Sweeps isGap where
  marks := by decide
  names := by
    intro first hfirst hgap
    rw [(startsName_apart hfirst).2.2] at hgap
    contradiction

theorem sweeps_isDigit : Sweeps isDigit where
  marks := by decide
  names := by
    intro first hfirst hdigit
    rw [(startsName_apart hfirst).2.1] at hdigit
    contradiction

theorem sweeps_isWord : Sweeps isWord where
  marks := by decide
  names := fun _ _ _ _ hc => hc

/-- The characters of operators begin nothing but operators. -/
theorem operatorCharacters_apart : ∀ c ∈ operatorCharacters,
    [c] ∈ operatorSpellings ∧ startsName c = false ∧ c ∉ ['\\', '.', '"'] :=
  -- decided along the list, not over the type of all characters
  @of_decide_eq_true _ (List.decidableBAll _ _) (by decide)

theorem Divided.operator {c : Char} {rest : List Char} (htext : Divided (c :: rest))
    (hc : c ∈ operatorCharacters) : Divided rest := by
  obtain ⟨-, hname, hmarks⟩ := operatorCharacters_apart c hc
  cases htext with
  | single hsingle hrest => exact hrest
  | escape | fraction | string => simp at hmarks
  | name hfirst =>
      rw [hname] at hfirst
      contradiction

theorem marks_apart :
    ∀ c ∈ ['\\', '.', '"'], isSingle c = false ∧ startsName c = false :=
  @of_decide_eq_true _ (List.decidableBAll _ _) (by decide)

theorem Divided.behind_escape {c : Char} {rest : List Char}
    (htext : Divided ('\\' :: c :: rest)) : Divided rest := by
  obtain ⟨hsingle, hname⟩ := marks_apart '\\' (by simp)
  generalize htail : c :: rest = tail at htext
  cases htext with
  | single hc hrest => simp [hsingle] at hc
  | escape hc hrest => rwa [(List.cons.inj htail).2]
  | name hfirst => simp [hname] at hfirst

theorem Divided.behind_point {tail : List Char} (htext : Divided ('.' :: tail)) :
    ∃ c rest, tail = c :: rest ∧ isDigit c = true ∧ Divided rest := by
  obtain ⟨hsingle, hname⟩ := marks_apart '.' (by simp)
  cases htext with
  | single hc hrest => simp [hsingle] at hc
  | name hfirst => simp [hname] at hfirst
  | fraction hc hrest => exact ⟨_, _, rfl, hc, hrest⟩

theorem Divided.behind_quote {tail : List Char} (htext : Divided ('"' :: tail)) :
    ∃ literal rest, '"' :: tail = literal ++ rest ∧ quoted? ('"' :: tail) = some literal ∧
      Divided rest := by
  obtain ⟨hsingle, hname⟩ := marks_apart '"' (by simp)
  cases htext with
  | single hc hrest => simp [hsingle] at hc
  | name hfirst => simp [hname] at hfirst
  | @string marks filling rest hmarks hne hfilling hrest =>
      refine ⟨'"' :: (marks ++ (filling ++ ['"'])), rest, by simp, ?_, hrest⟩
      exact quoted?_eq_some_iff.mpr ⟨'"' :: marks, filling, rest, rfl, rfl, List.cons_ne_nil _ _,
        hne, List.forall_mem_cons.mpr ⟨rfl, hmarks⟩, hfilling⟩

/-- What the recogniser leaves of a divided text is divided. -/
def Spares (recognise : List Char → Option (List Char)) : Prop :=
  ∀ {lexeme rest}, recognise (lexeme ++ rest) = some lexeme → Divided (lexeme ++ rest) →
    Divided rest

theorem spares_escape? : Spares escape? := by
  intro lexeme rest hfound htext
  have hescape := (firstOf_eq_some hfound).1
  simp only [escapes, List.mem_cons, List.not_mem_nil, or_false] at hescape
  rcases hescape with rfl | rfl | rfl
  · exact htext.behind_escape.behind_escape
  · exact htext.behind_escape
  · exact htext.behind_escape

theorem spares_name? : Spares name? := by
  intro lexeme rest hfound htext
  obtain ⟨first, letters, after, heq, rfl, hfirst, hletters, hstops⟩ := name?_eq_some_iff.mp hfound
  obtain rfl : rest = after := by simpa using heq
  apply htext.of_stops sweeps_isWord _ hstops
  exact List.forall_mem_cons.mpr ⟨(startsName_apart hfirst).1, hletters⟩

theorem spares_operator? : Spares operator? := by
  intro lexeme rest hfound htext
  have hlexeme := (firstOf_eq_some hfound).1
  have hall : ∀ c ∈ lexeme, c ∈ operatorCharacters :=
    fun c hc => List.mem_flatten.mpr ⟨lexeme, hlexeme, hc⟩
  clear hfound hlexeme
  induction lexeme with
  | nil => exact htext
  | cons c lexeme ih =>
      obtain ⟨hc, hall⟩ := List.forall_mem_cons.mp hall
      exact ih (htext.operator hc) hall

theorem spares_digits? : Spares digits? := by
  intro lexeme rest hfound htext
  obtain ⟨after, heq, -, hdigits, hstops⟩ := digits?_eq_some_iff.mp hfound
  obtain rfl : rest = after := List.append_cancel_left heq
  exact htext.of_stops sweeps_isDigit hdigits hstops

theorem spares_fraction? : Spares fraction? := by
  intro lexeme rest hfound htext
  obtain ⟨whole, digits, after, heq, rfl, -, hwhole, hdigits, hstops⟩ :=
    fraction?_eq_some_iff.mp hfound
  obtain rfl : rest = after := by simpa using heq
  have hpoint : Divided ('.' :: (digits ++ rest)) := by
    have hwholeText : Divided (whole ++ '.' :: (digits ++ rest)) := by simpa using htext
    exact hwholeText.of_stops sweeps_isDigit hwhole (by simp [Stops, isDigit_point])
  obtain ⟨c, after, heq, hc, hafter⟩ := hpoint.behind_point
  have hdivided : Divided (digits ++ rest) := heq ▸ .single (Divided.isSingle_digit hc) hafter
  exact hdivided.of_stops sweeps_isDigit hdigits hstops

theorem spares_quoted? : Spares quoted? := by
  intro lexeme rest hfound htext
  obtain ⟨tail, heq⟩ : ∃ tail, lexeme ++ rest = '"' :: tail := by
    obtain ⟨marks, filling, after, heq, -, hmarks, -, hallMarks, -⟩ :=
      quoted?_eq_some_iff.mp hfound
    obtain ⟨first, marks, rfl⟩ := List.exists_cons_of_ne_nil hmarks
    obtain ⟨rfl, -⟩ := List.forall_mem_cons.mp hallMarks
    exact ⟨_, heq⟩
  rw [heq] at hfound htext
  obtain ⟨literal, behind, hsplit, hliteral, hbehind⟩ := htext.behind_quote
  obtain rfl : lexeme = literal := Option.some.inj (hfound.symm.trans hliteral)
  rw [← heq] at hsplit
  obtain rfl : rest = behind := List.append_cancel_left hsplit
  exact hbehind

theorem Spares.orElse {first second : List Char → Option (List Char)} (hfirst : Spares first)
    (hsecond : Spares second) : Spares fun text => (first text).or (second text) := by
  intro lexeme rest hfound
  rcases Option.or_eq_some_iff.mp hfound with hfound | ⟨-, hfound⟩
  · exact hfirst hfound
  · exact hsecond hfound

theorem Spares.afterColon {behind plain : List Char → Option (List Char)} (hbehind : Spares behind)
    (hplain : Spares plain) : Spares (afterColon behind plain) := by
  intro lexeme rest hfound htext
  by_cases hcolon : (lexeme ++ rest).head? = some ':'
  · obtain ⟨tail, heq⟩ := List.head?_eq_some_iff.mp hcolon
    rw [heq] at hfound
    obtain ⟨found, hbehindFound, rfl⟩ := Option.map_eq_some_iff.mp hfound
    obtain rfl : found ++ rest = tail := by simpa using heq
    have hcharacter : ':' ∈ operatorCharacters := by decide
    exact hbehind hbehindFound (htext.operator hcharacter)
  · rw [afterColon_of_ne hcolon] at hfound
    exact hplain hfound htext

theorem spares_number? : Spares number? := by
  rw [number?_eq]
  exact spares_fraction?.afterColon (spares_fraction?.orElse spares_digits?)

theorem spares_string? : Spares string? := by
  rw [string?_eq]
  exact spares_quoted?.afterColon spares_quoted?

theorem classify?_cases {text lexeme : List Char} {kind : TokenKind}
    (hfound : classify? text = some (kind, lexeme)) :
    escape? text = some lexeme ∨ name? text = some lexeme ∨ operator? text = some lexeme ∨
      number? text = some lexeme ∨ string? text = some lexeme := by
  obtain ⟨earlier, recognise, later, hclasses, hlexeme, -⟩ := classify?_eq_some_iff.mp hfound
  have hmem : (kind, recognise) ∈ classes := by simp [hclasses]
  simp only [classes, List.mem_cons, Prod.mk.injEq, List.not_mem_nil, or_false] at hmem
  rcases hmem with ⟨-, rfl⟩ | ⟨-, rfl⟩ | ⟨-, rfl⟩ | ⟨-, rfl⟩ | ⟨-, rfl⟩ <;>
    simp only [hlexeme, true_or, or_true]

/-- Taking the lexeme at the front away leaves a divided text divided. -/
theorem Divided.behind_lexeme {lexeme rest : List Char} {kind : TokenKind}
    (htext : Divided (lexeme ++ rest))
    (hfound : classify? (lexeme ++ rest) = some (kind, lexeme)) : Divided rest := by
  rcases classify?_cases hfound with hescape | hname | hoperator | hnumber | hstring
  · exact spares_escape? hescape htext
  · exact spares_name? hname htext
  · exact spares_operator? hoperator htext
  · exact spares_number? hnumber htext
  · exact spares_string? hstring htext

/-! ## A lexeme is found -/

theorem classify?_ne_none {text lexeme : List Char} {kind : TokenKind}
    {recognise : List Char → Option (List Char)} (hclass : (kind, recognise) ∈ classes)
    (hfound : recognise text = some lexeme) : classify? text ≠ none := by
  intro hnone
  have hmissed := List.findSome?_eq_none_iff.mp hnone _ hclass
  simp [hfound] at hmissed

theorem operator?_ne_none {c : Char} {rest : List Char} (hc : c ∈ operatorCharacters) :
    operator? (c :: rest) ≠ none := by
  intro hnone
  have hmissed := List.find?_eq_none.mp hnone [c] (operatorCharacters_apart c hc).1
  simp at hmissed

theorem number?_ne_none {c : Char} {rest : List Char} (hc : isDigit c = true) :
    number? (c :: rest) ≠ none := by
  have hcolon : c ≠ ':' := by
    rintro rfl
    exact absurd hc (by decide)
  rw [number?_eq, afterColon_of_ne (by simpa using hcolon)]
  simp [digits?, nonempty?, hc]

theorem number?_ne_none_of_point {c : Char} {rest : List Char} (hc : isDigit c = true) :
    number? ('.' :: c :: rest) ≠ none := by
  rw [number?_eq, afterColon_of_ne (by simp)]
  simp [fraction?, isDigit_point, nonempty?, hc]

/-- In front of a divided text there is a gap or a lexeme. -/
theorem Divided.eq_nil {text : List Char} (htext : Divided text) (hstops : Stops isGap text)
    (hnone : classify? text = none) : text = [] := by
  have hmissed : ∀ kind recognise, (kind, recognise) ∈ classes → recognise text = none := by
    intro kind recognise hclass
    cases hfound : recognise text with
    | none => rfl
    | some lexeme => exact absurd hnone (classify?_ne_none hclass hfound)
  cases htext with
  | nil => rfl
  | @single c rest hc hrest =>
      have hgap : isGap c = false := hstops c rfl
      simp only [isSingle, hgap, Bool.false_or, Bool.or_eq_true, List.contains_iff_mem] at hc
      rcases hc with hdigit | hoperator
      · exact absurd (hmissed .number number? (by simp [classes])) (number?_ne_none hdigit)
      · exact absurd (hmissed .operator operator? (by simp [classes])) (operator?_ne_none hoperator)
  | escape hc hrest =>
      have hescape := hmissed .statement escape? (by simp [classes])
      rcases hc with rfl | rfl <;>
        simp [escape?, firstOf, escapes, List.find?_eq_none] at hescape
  | name hfirst hletters hrest =>
      have hname := hmissed .name name? (by simp [classes])
      simp [name?, hfirst] at hname
  | fraction hc hrest =>
      exact absurd (hmissed .number number? (by simp [classes])) (number?_ne_none_of_point hc)
  | @string marks filling rest hmarks hne hfilling hrest =>
      obtain ⟨literal, -, -, hliteral, -⟩ := (string hmarks hne hfilling hrest).behind_quote
      have hstring := hmissed .string string? (by simp [classes])
      rw [string?_eq, afterColon_of_ne (by simp), hliteral] at hstring
      contradiction

/-! ## Every lexeme belongs to its language -/

theorem fraction_mem_numbers {text fraction colon : List Char} (hcolon : colon = [] ∨ colon = [':'])
    (hfound : fraction? text = some fraction) : colon ++ fraction ∈ numbers := by
  obtain ⟨whole, digits, rest, -, rfl, hne, hwhole, hdigits, -⟩ := fraction?_eq_some_iff.mp hfound
  refine mem_numbers.mpr ⟨colon ++ (whole ++ ['.']), digits, by simp, .inr ?_, hne, hdigits⟩
  exact ⟨colon, whole, hcolon, hwhole, rfl⟩

theorem quoted_mem_strings {text literal colon : List Char} (hcolon : colon = [] ∨ colon = [':'])
    (hfound : quoted? text = some literal) : colon ++ literal ∈ strings := by
  obtain ⟨marks, filling, rest, -, rfl, hmarks, hfilling, hallMarks, hallFilling⟩ :=
    quoted?_eq_some_iff.mp hfound
  exact mem_strings.mpr ⟨colon, marks, filling, rfl, hcolon, ⟨hmarks, hallMarks⟩, hfilling,
    hallFilling⟩

theorem afterColon_eq_some {behind plain : List Char → Option (List Char)}
    {text lexeme : List Char} (hfound : afterColon behind plain text = some lexeme) :
    (∃ rest found, behind rest = some found ∧ lexeme = ':' :: found) ∨
      plain text = some lexeme := by
  unfold afterColon at hfound
  split at hfound
  · next rest =>
      obtain ⟨found, hbehind, rfl⟩ := Option.map_eq_some_iff.mp hfound
      exact .inl ⟨rest, found, hbehind, rfl⟩
  · exact .inr hfound

theorem number?_mem {text number : List Char} (hfound : number? text = some number) :
    number ∈ numbers := by
  rw [number?_eq] at hfound
  rcases afterColon_eq_some hfound with ⟨rest, fraction, hfraction, rfl⟩ | hfound
  · exact fraction_mem_numbers (.inr rfl) hfraction
  · rcases Option.or_eq_some_iff.mp hfound with hfraction | ⟨-, hdigits⟩
    · exact fraction_mem_numbers (.inl rfl) hfraction
    · obtain ⟨rest, -, hne, hdigits, -⟩ := digits?_eq_some_iff.mp hdigits
      exact mem_numbers.mpr ⟨[], number, rfl, .inl rfl, hne, hdigits⟩

theorem string?_mem {text literal : List Char} (hfound : string? text = some literal) :
    literal ∈ strings := by
  rw [string?_eq] at hfound
  rcases afterColon_eq_some hfound with ⟨rest, quoted, hquoted, rfl⟩ | hquoted
  · exact quoted_mem_strings (.inr rfl) hquoted
  · exact quoted_mem_strings (.inl rfl) hquoted

theorem classify?_mem_pieces {text lexeme : List Char} {kind : TokenKind}
    (hfound : classify? text = some (kind, lexeme)) : lexeme ∈ pieces := by
  rw [mem_pieces]
  rcases classify?_cases hfound with hescape | hname | hoperator | hnumber | hstring
  · exact .inr (.inl (firstOf_eq_some hescape).1)
  · obtain ⟨first, letters, rest, -, rfl, hfirst, hletters, -⟩ := name?_eq_some_iff.mp hname
    exact .inr (.inr (.inl (mem_names.mpr ⟨first, letters, rfl, hfirst, hletters⟩)))
  · exact .inr (.inr (.inr (.inl (firstOf_eq_some hoperator).1)))
  · exact .inr (.inr (.inr (.inr (.inl (number?_mem hnumber)))))
  · exact .inr (.inr (.inr (.inr (.inr (string?_mem hstring)))))

end Precedence.Lexeme

namespace Precedence

open Lexeme
open scoped Computability

namespace Scan

variable {file : String} {offset stop : Nat} {text left : List Char} {tokens : List Token}

/-- A scan of a text that can be split leaves a text that can be split. -/
theorem divided (hscan : Scan file offset text tokens stop left) (htext : Divided text) :
    Divided left := by
  induction hscan with
  | gap hgap hleft => exact htext.of_stops sweeps_isGap hgap hleft
  | @token offset stop gap lexeme rest left kind tokens hgap hlexeme hfound hrest ih =>
      have hbody : Text.Stops isGap (lexeme ++ rest) := hlexeme.append (classify?_front hfound).2.1
      exact ih ((htext.of_stops sweeps_isGap hgap hbody).behind_lexeme hfound)

/-- A scan that leaves nothing over is a split. -/
theorem mem_kstar (hscan : Scan file offset text tokens stop []) : text ∈ pieces∗ := by
  have hgaps {gap rest : List Char} (hgap : ∀ c ∈ gap, isGap c = true) (hrest : rest ∈ pieces∗) :
      gap ++ rest ∈ pieces∗ := by
    induction gap with
    | nil => exact hrest
    | cons c gap ih =>
        obtain ⟨hc, hgap⟩ := List.forall_mem_cons.mp hgap
        have hpiece : [c] ∈ pieces := mem_pieces.mpr (.inl (singleton_mem_one.mpr hc))
        have hrow : [c] ++ (gap ++ rest) ∈ pieces∗ := append_mem_kstar hpiece (ih hgap)
        exact hrow
  generalize hleft : ([] : List Char) = left at hscan
  induction hscan with
  | gap hgap =>
      subst hleft
      exact hgaps hgap (Language.nil_mem_kstar pieces)
  | token hgap hlexeme hfound hrest ih =>
      exact hgaps hgap (append_mem_kstar (classify?_mem_pieces hfound) (ih hleft))

end Scan

/-- A source can be tokenized exactly if it can be split into gaps and lexemes in some way. -/
theorem exists_tokenize_iff_mem_kstar (source : String) (file : Option String) :
    (∃ row, tokenize source file = .ok row) ↔ source.toList ∈ pieces∗ := by
  obtain ⟨tokens, stop, left, hscan, hend⟩ :=
    Scan.exists_scan (Lexer.fileName file) 0 source.toList
  have hitems := Lexer.items_of_scan hscan hend
  constructor
  · rintro ⟨row, hrow⟩
    rw [tokenize_eq_ok_iff, hitems] at hrow
    cases left with
    | nil => exact hscan.mem_kstar
    | cons c left =>
        have hmem : Lexer.lastItem source.utf8ByteSize (Lexer.fileName file) stop (c :: left) ∈
            row.map .ok := by
          rw [← hrow]
          simp
        obtain ⟨token, -, heq⟩ := List.mem_map.mp hmem
        contradiction
  · intro hsource
    have hdivided := hscan.divided (Divided.of_mem_kstar hsource)
    obtain rfl : left = [] := hdivided.eq_nil hscan.stops hend
    refine ⟨.opening (Lexer.fileName file) ::
      (tokens ++ [.closing source.utf8ByteSize (Lexer.fileName file)]), ?_⟩
    rw [tokenize_eq_ok_iff, hitems]
    simp [Lexer.lastItem]

end Precedence
