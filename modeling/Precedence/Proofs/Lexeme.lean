import Precedence.Lexeme

/-!
# What a recogniser looks at

A lexeme stands at the front of the text it was found in, and the recognisers look past it only to
see that it cannot be continued.  So more text never hides a lexeme, and cutting the text anywhere
behind a lexeme leaves the lexeme as it is.  `Recogniser` collects these facts for one class, and
`classify?` inherits them from its classes.
-/

namespace Precedence.Text

/-- The text does not begin with a character that has the property. -/
def Stops (property : Char → Bool) (text : List Char) : Prop :=
  ∀ c ∈ text.head?, property c = false

variable {property : Char → Bool} {kept rest more : List Char}

theorem stops_dropWhile (property : Char → Bool) (text : List Char) :
    Stops property (text.dropWhile property) := by
  intro c hc
  have hhead := List.head?_dropWhile_not property text
  rw [Option.mem_def.mp hc] at hhead
  simpa using hhead

theorem forall_takeWhile (property : Char → Bool) (text : List Char) :
    ∀ c ∈ text.takeWhile property, property c = true :=
  List.all_eq_true.mp List.all_takeWhile

/-- Where a text goes on with another character, a shorter text goes on with it too or ends. -/
theorem Stops.cut (hstops : Stops property (kept ++ more)) : Stops property kept := by
  cases kept with
  | nil => simp [Stops]
  | cons c kept => exact hstops

theorem Stops.append (hstops : Stops property kept) (hne : kept ≠ []) :
    Stops property (kept ++ more) := by
  obtain ⟨c, kept, rfl⟩ := List.exists_cons_of_ne_nil hne
  exact hstops

theorem Stops.takeWhile (hstops : Stops property rest) (hkept : ∀ c ∈ kept, property c = true) :
    (kept ++ rest).takeWhile property = kept := by
  rw [List.takeWhile_append_of_pos hkept]
  cases rest with
  | nil => simp
  | cons c rest =>
      have hc : property c = false := hstops c rfl
      simp [hc]

theorem Stops.dropWhile (hstops : Stops property rest) (hkept : ∀ c ∈ kept, property c = true) :
    (kept ++ rest).dropWhile property = rest := by
  rw [List.dropWhile_append_of_pos hkept]
  cases rest with
  | nil => rfl
  | cons c rest =>
      have hc : property c = false := hstops c rfl
      simp [hc]

end Precedence.Text

namespace Precedence.Lexeme

open Text

/-! ## Classes of characters -/

theorem exists_of_covers {ranges : CodeRanges} {code : Nat}
    (hcovers : ranges.covers code = true) :
    ∃ range ∈ ranges, range.1 ≤ code ∧ code ≤ range.2 := by
  induction ranges with
  | nil => contradiction
  | cons range ranges ih =>
      obtain ⟨first, last⟩ := range
      rw [CodeRanges.covers] at hcovers
      split at hcovers
      · next hlast => exact ⟨(first, last), List.mem_cons_self, of_decide_eq_true hcovers, hlast⟩
      · obtain ⟨range, hrange, hcode⟩ := ih hcovers
        exact ⟨range, List.mem_cons_of_mem _ hrange, hcode⟩

/-- Blanks are neither word characters nor digits. -/
theorem blankCodes_apart : ∀ range ∈ blankCodes,
    ∀ code ∈ List.range' range.1 (range.2 + 1 - range.1),
      wordCodes.covers code = false ∧ digitCodes.covers code = false := by
  decide +kernel

theorem isGap_apart {c : Char} (hc : isGap c = true) : isWord c = false ∧ isDigit c = false := by
  rcases (Bool.or_eq_true _ _).mp hc with hblank | hsemicolon
  · obtain ⟨range, hrange, hfirst, hlast⟩ := exists_of_covers hblank
    apply blankCodes_apart range hrange
    rw [List.mem_range'_1]
    omega
  · rw [of_decide_eq_true hsemicolon]
    decide +kernel

/-- Nothing that stands between lexemes stands inside a name or a number. -/
theorem isGap_eq_false {c : Char} (hc : isWord c = true ∨ isDigit c = true) : isGap c = false := by
  rw [Bool.eq_false_iff]
  intro hgap
  obtain ⟨hword, hdigit⟩ := isGap_apart hgap
  simp [hword, hdigit] at hc

/-- The codes of the Latin letters and the underscore. -/
def BeginsName (code : Nat) : Prop :=
  0x41 ≤ code ∧ code ≤ 0x5a ∨ code = 0x5f ∨ 0x61 ≤ code ∧ code ≤ 0x7a

theorem beginsName_of_startsName {c : Char} (hc : startsName c = true) : BeginsName c.toNat := by
  rcases (Bool.or_eq_true _ _).mp hc with hletter | hunderscore
  · rcases (Bool.or_eq_true _ _).mp hletter with hupper | hlower
    · exact .inl (of_decide_eq_true hupper)
    · obtain ⟨hfrom, hto⟩ := (Bool.and_eq_true _ _).mp hlower
      exact .inr (.inr ⟨of_decide_eq_true hfrom, of_decide_eq_true hto⟩)
  · obtain rfl : c = '_' := of_decide_eq_true hunderscore
    exact .inr (.inl rfl)

instance (code : Nat) : Decidable (BeginsName code) := by
  unfold BeginsName
  infer_instance

theorem BeginsName.covers : ∀ code < 0x7b, BeginsName code →
    wordCodes.covers code = true ∧ digitCodes.covers code = false ∧
      blankCodes.covers code = false ∧ code ≠ ';'.toNat := by
  decide

theorem startsName_apart {c : Char} (hc : startsName c = true) :
    isWord c = true ∧ isDigit c = false ∧ isGap c = false := by
  have hcode := beginsName_of_startsName hc
  have hbound : c.toNat < 0x7b := by
    unfold BeginsName at hcode
    omega
  obtain ⟨hword, hdigit, hblank, hsemicolon⟩ := BeginsName.covers _ hbound hcode
  have hne : c ≠ ';' := by
    rintro rfl
    exact hsemicolon rfl
  exact ⟨hword, hdigit, by simp [isGap, isBlank, hblank, hne]⟩

/-- What the recogniser of a class keeps to. -/
structure Recogniser (recognise : List Char → Option (List Char)) : Prop where
  /-- A lexeme stands at the front of the text and is not empty. -/
  front : ∀ {text lexeme}, recognise text = some lexeme → lexeme <+: text ∧ lexeme ≠ []
  /-- More text does not hide a lexeme, though it may continue it. -/
  lasting : ∀ {text lexeme}, recognise text = some lexeme →
    ∀ more, recognise (text ++ more) ≠ none
  /-- Of the text behind a lexeme any part may be cut off. -/
  cut : ∀ {lexeme kept more}, recognise (lexeme ++ (kept ++ more)) = some lexeme →
    recognise (lexeme ++ kept) = some lexeme

/-! ## Symbols and names -/

theorem firstOf_eq_some {choices : List (List Char)} {text lexeme : List Char}
    (hfound : firstOf choices text = some lexeme) : lexeme ∈ choices ∧ lexeme <+: text := by
  rw [firstOf] at hfound
  have hfits := List.find?_some hfound
  exact ⟨List.mem_of_find?_eq_some hfound, List.isPrefixOf_iff_prefix.mp hfits⟩

theorem recogniser_firstOf (choices : List (List Char)) (hchoices : [] ∉ choices) :
    Recogniser (firstOf choices) where
  front := by
    intro text lexeme hfound
    obtain ⟨hmem, hfront⟩ := firstOf_eq_some hfound
    refine ⟨hfront, ?_⟩
    rintro rfl
    exact hchoices hmem
  lasting := by
    intro text lexeme hfound more hnone
    obtain ⟨hmem, hfront⟩ := firstOf_eq_some hfound
    have hmissed := List.find?_eq_none.mp hnone lexeme hmem
    exact hmissed (List.isPrefixOf_iff_prefix.mpr (hfront.trans (List.prefix_append text more)))
  cut := by
    intro lexeme kept more hfound
    obtain ⟨_, earlier, later, hsplit, hearlier⟩ := List.find?_eq_some_iff_append.mp hfound
    refine List.find?_eq_some_iff_append.mpr ⟨?_, earlier, later, hsplit, ?_⟩
    · exact List.isPrefixOf_iff_prefix.mpr (List.prefix_append lexeme kept)
    · intro choice hchoice
      have hmissed := hearlier choice hchoice
      simp only [Bool.not_eq_true', ← Bool.not_eq_true, List.isPrefixOf_iff_prefix] at hmissed ⊢
      intro hfront
      apply hmissed
      rw [← List.append_assoc]
      exact hfront.trans (List.prefix_append _ more)

theorem recogniser_escape? : Recogniser escape? := recogniser_firstOf escapes (by decide)

theorem recogniser_operator? : Recogniser operator? :=
  recogniser_firstOf operatorSpellings (by decide)

theorem name?_eq_some_iff {text name : List Char} :
    name? text = some name ↔
      ∃ first letters rest, text = first :: (letters ++ rest) ∧ name = first :: letters ∧
        startsName first = true ∧ (∀ c ∈ letters, isWord c = true) ∧ Stops isWord rest := by
  constructor
  · intro hfound
    cases text with
    | nil => simp [name?] at hfound
    | cons first text =>
        by_cases hfirst : startsName first = true
        · rw [name?, if_pos hfirst, Option.some.injEq] at hfound
          exact ⟨first, text.takeWhile isWord, text.dropWhile isWord, by simp, hfound.symm, hfirst,
            forall_takeWhile isWord text, stops_dropWhile isWord text⟩
        · simp [name?, hfirst] at hfound
  · rintro ⟨first, letters, rest, rfl, rfl, hfirst, hletters, hstops⟩
    rw [name?, if_pos hfirst, hstops.takeWhile hletters]

theorem recogniser_name? : Recogniser name? where
  front := by
    intro text lexeme hfound
    obtain ⟨first, letters, rest, rfl, rfl, -⟩ := name?_eq_some_iff.mp hfound
    exact ⟨List.prefix_append (first :: letters) rest, by simp⟩
  lasting := by
    intro text lexeme hfound more
    obtain ⟨first, letters, rest, rfl, -, hfirst, -⟩ := name?_eq_some_iff.mp hfound
    simp [name?, hfirst]
  cut := by
    intro lexeme kept more hfound
    obtain ⟨first, letters, rest, htext, rfl, hfirst, hletters, hstops⟩ :=
      name?_eq_some_iff.mp hfound
    obtain rfl : kept ++ more = rest := by simpa using htext
    exact name?_eq_some_iff.mpr ⟨first, letters, kept, rfl, rfl, hfirst, hletters, hstops.cut⟩

/-! ## Numbers -/

theorem isDigit_point : isDigit '.' = false := by decide

theorem nonempty?_eq_some_iff {text kept : List Char} :
    nonempty? text = some kept ↔ text = kept ∧ kept ≠ [] := by
  cases text with
  | nil =>
      simp only [nonempty?, List.isEmpty_nil, if_true, reduceCtorEq, ne_eq, false_iff, not_and,
        Decidable.not_not]
      exact Eq.symm
  | cons c text =>
      simp only [nonempty?, List.isEmpty_cons, Bool.false_eq_true, if_false, Option.some.injEq,
        ne_eq]
      constructor
      · rintro rfl
        simp
      · exact And.left

/-- Finds one or more digits. -/
def digits? (text : List Char) : Option (List Char) := nonempty? (text.takeWhile isDigit)

theorem digits?_eq_some_iff {text digits : List Char} :
    digits? text = some digits ↔
      ∃ rest, text = digits ++ rest ∧ digits ≠ [] ∧ (∀ c ∈ digits, isDigit c = true) ∧
        Stops isDigit rest := by
  rw [digits?, nonempty?_eq_some_iff]
  constructor
  · rintro ⟨rfl, hdigits⟩
    exact ⟨text.dropWhile isDigit, by simp, hdigits, forall_takeWhile isDigit text,
      stops_dropWhile isDigit text⟩
  · rintro ⟨rest, rfl, hne, hdigits, hstops⟩
    exact ⟨hstops.takeWhile hdigits, hne⟩

theorem recogniser_digits? : Recogniser digits? where
  front := by
    intro text lexeme hfound
    obtain ⟨rest, rfl, hne, -⟩ := digits?_eq_some_iff.mp hfound
    exact ⟨List.prefix_append lexeme rest, hne⟩
  lasting := by
    intro text lexeme hfound more hnone
    obtain ⟨rest, rfl, hne, hdigits, -⟩ := digits?_eq_some_iff.mp hfound
    obtain ⟨first, digits, rfl⟩ := List.exists_cons_of_ne_nil hne
    have hfirst : isDigit first = true := hdigits first (by simp)
    simp [digits?, nonempty?, hfirst] at hnone
  cut := by
    intro lexeme kept more hfound
    obtain ⟨rest, htext, hne, hdigits, hstops⟩ := digits?_eq_some_iff.mp hfound
    obtain rfl : kept ++ more = rest := List.append_cancel_left htext
    exact digits?_eq_some_iff.mpr ⟨kept, rfl, hne, hdigits, hstops.cut⟩

theorem fraction?_eq_some_iff {text fraction : List Char} :
    fraction? text = some fraction ↔
      ∃ whole digits rest, text = whole ++ '.' :: (digits ++ rest) ∧
        fraction = whole ++ '.' :: digits ∧ digits ≠ [] ∧ (∀ c ∈ whole, isDigit c = true) ∧
        (∀ c ∈ digits, isDigit c = true) ∧ Stops isDigit rest := by
  constructor
  · intro hfound
    rw [fraction?] at hfound
    split at hfound
    · next rest hrest =>
        obtain ⟨digits, hdigits, rfl⟩ := Option.map_eq_some_iff.mp hfound
        obtain ⟨after, rfl, hne, hall, hstops⟩ := digits?_eq_some_iff.mp hdigits
        refine ⟨text.takeWhile isDigit, digits, after, ?_, rfl, hne, forall_takeWhile isDigit text,
          hall, hstops⟩
        rw [← hrest, List.takeWhile_append_dropWhile]
    · contradiction
  · rintro ⟨whole, digits, rest, rfl, rfl, hne, hwhole, hdigits, hstops⟩
    have hpoint : Stops isDigit ('.' :: (digits ++ rest)) := by
      intro c hc
      obtain rfl : '.' = c := by simpa using hc
      exact isDigit_point
    have hfound : nonempty? ((digits ++ rest).takeWhile isDigit) = some digits :=
      digits?_eq_some_iff.mpr ⟨rest, rfl, hne, hdigits, hstops⟩
    rw [fraction?, hpoint.dropWhile hwhole, hpoint.takeWhile hwhole]
    simp only [hfound, Option.map_some]

theorem recogniser_fraction? : Recogniser fraction? where
  front := by
    intro text lexeme hfound
    obtain ⟨whole, digits, rest, rfl, rfl, -⟩ := fraction?_eq_some_iff.mp hfound
    exact ⟨⟨rest, by simp⟩, by simp⟩
  lasting := by
    intro text lexeme hfound more
    obtain ⟨whole, digits, rest, rfl, -, hne, hwhole, hdigits, -⟩ := fraction?_eq_some_iff.mp hfound
    have htext : whole ++ '.' :: (digits ++ rest) ++ more =
        whole ++ '.' :: (((digits ++ rest ++ more).takeWhile isDigit) ++
          (digits ++ rest ++ more).dropWhile isDigit) := by
      simp
    have hlonger : (digits ++ rest ++ more).takeWhile isDigit ≠ [] := by
      rw [List.append_assoc, List.takeWhile_append_of_pos hdigits]
      simp [hne]
    have hfound := fraction?_eq_some_iff.mpr ⟨whole, _, _, htext, rfl, hlonger, hwhole,
      forall_takeWhile isDigit _, stops_dropWhile isDigit _⟩
    rw [hfound]
    simp
  cut := by
    intro lexeme kept more hfound
    obtain ⟨whole, digits, rest, htext, rfl, hne, hwhole, hdigits, hstops⟩ :=
      fraction?_eq_some_iff.mp hfound
    obtain rfl : kept ++ more = rest := by simpa using htext
    exact fraction?_eq_some_iff.mpr ⟨whole, digits, kept, by simp, rfl, hne, hwhole, hdigits,
      hstops.cut⟩

/-! ## Text literals -/

theorem fillsString_mark : fillsString '"' = false := by decide

theorem quoted?_eq_some_iff {text literal : List Char} :
    quoted? text = some literal ↔
      ∃ marks filling rest, text = marks ++ (filling ++ '"' :: rest) ∧
        literal = marks ++ (filling ++ ['"']) ∧ marks ≠ [] ∧ filling ≠ [] ∧
        (∀ c ∈ marks, c = '"') ∧ ∀ c ∈ filling, fillsString c = true := by
  constructor
  · intro hfound
    simp only [quoted?] at hfound
    split at hfound
    · next rest hrest =>
        split at hfound
        · contradiction
        · next hfull =>
            rw [Option.some.injEq] at hfound
            simp only [Bool.or_eq_true, List.isEmpty_iff, not_or] at hfull
            refine ⟨_, _, rest, ?_, by rw [← hfound, List.append_assoc], hfull.1, hfull.2, ?_,
              forall_takeWhile fillsString _⟩
            · rw [← hrest, List.takeWhile_append_dropWhile, List.takeWhile_append_dropWhile]
            · intro c hc
              simpa using forall_takeWhile (· = '"') text c hc
    · contradiction
  · rintro ⟨marks, filling, rest, rfl, rfl, hmarks, hfilling, hallMarks, hallFilling⟩
    have hinside : Stops (· = '"') (filling ++ '"' :: rest) := by
      obtain ⟨first, filling, rfl⟩ := List.exists_cons_of_ne_nil hfilling
      intro c hc
      obtain rfl : first = c := by simpa using hc
      have hfirst := hallFilling first (by simp)
      simp only [decide_eq_false_iff_not]
      rintro rfl
      rw [fillsString_mark] at hfirst
      contradiction
    have hclosing : Stops fillsString ('"' :: rest) := by
      intro c hc
      obtain rfl : '"' = c := by simpa using hc
      exact fillsString_mark
    have hopening : ∀ c ∈ marks, decide (c = '"') = true := by simpa using hallMarks
    simp only [quoted?]
    rw [hinside.dropWhile hopening, hinside.takeWhile hopening, hclosing.dropWhile hallFilling,
      hclosing.takeWhile hallFilling]
    simp [hmarks, hfilling]

theorem recogniser_quoted? : Recogniser quoted? where
  front := by
    intro text lexeme hfound
    obtain ⟨marks, filling, rest, rfl, rfl, hmarks, -⟩ := quoted?_eq_some_iff.mp hfound
    exact ⟨⟨rest, by simp⟩, by simp⟩
  lasting := by
    intro text lexeme hfound more
    obtain ⟨marks, filling, rest, rfl, -, hfull⟩ := quoted?_eq_some_iff.mp hfound
    have hlonger := quoted?_eq_some_iff.mpr ⟨marks, filling, rest ++ more, rfl, rfl, hfull⟩
    simp only [List.append_assoc, List.cons_append, hlonger, ne_eq, reduceCtorEq, not_false_eq_true]
  cut := by
    intro lexeme kept more hfound
    obtain ⟨marks, filling, rest, htext, rfl, hfull⟩ := quoted?_eq_some_iff.mp hfound
    exact quoted?_eq_some_iff.mpr ⟨marks, filling, kept, by simp, rfl, hfull⟩

/-! ## Recognisers put together -/

/-- Tries a recogniser and, where it finds nothing, another. -/
theorem Recogniser.orElse {first second : List Char → Option (List Char)}
    (hfirst : Recogniser first) (hsecond : Recogniser second) :
    Recogniser fun text => (first text).or (second text) where
  front := by
    intro text lexeme hfound
    rcases Option.or_eq_some_iff.mp hfound with hfound | ⟨-, hfound⟩
    · exact hfirst.front hfound
    · exact hsecond.front hfound
  lasting := by
    intro text lexeme hfound more hnone
    obtain ⟨hnoFirst, hnoSecond⟩ := Option.or_eq_none_iff.mp hnone
    rcases Option.or_eq_some_iff.mp hfound with hfound | ⟨-, hfound⟩
    · exact hfirst.lasting hfound more hnoFirst
    · exact hsecond.lasting hfound more hnoSecond
  cut := by
    intro lexeme kept more hfound
    rcases Option.or_eq_some_iff.mp hfound with hfound | ⟨hnone, hfound⟩
    · exact Option.or_eq_some_iff.mpr (.inl (hfirst.cut hfound))
    · refine Option.or_eq_some_iff.mpr (.inr ⟨?_, hsecond.cut hfound⟩)
      cases hshort : first (lexeme ++ kept) with
      | none => rfl
      | some other =>
          rw [← List.append_assoc] at hnone
          exact absurd hnone (hfirst.lasting hshort more)

/-- Uses one recogniser behind a colon and another where there is none. -/
def afterColon (behind plain : List Char → Option (List Char)) : List Char → Option (List Char)
  | ':' :: rest => (behind rest).map (':' :: ·)
  | text => plain text

theorem afterColon_of_ne {behind plain : List Char → Option (List Char)} {text : List Char}
    (hcolon : text.head? ≠ some ':') : afterColon behind plain text = plain text := by
  unfold afterColon
  split
  · simp at hcolon
  · rfl

theorem Recogniser.afterColon {behind plain : List Char → Option (List Char)}
    (hbehind : Recogniser behind) (hplain : Recogniser plain) :
    Recogniser (afterColon behind plain) where
  front := by
    intro text lexeme hfound
    unfold Lexeme.afterColon at hfound
    split at hfound
    · next rest =>
        obtain ⟨number, hnumber, rfl⟩ := Option.map_eq_some_iff.mp hfound
        exact ⟨List.prefix_cons_inj ':' |>.mpr (hbehind.front hnumber).1, by simp⟩
    · exact hplain.front hfound
  lasting := by
    intro text lexeme hfound more
    by_cases hcolon : text.head? = some ':'
    · obtain ⟨rest, rfl⟩ := List.head?_eq_some_iff.mp hcolon
      obtain ⟨number, hnumber, -⟩ := Option.map_eq_some_iff.mp hfound
      simpa [Lexeme.afterColon] using hbehind.lasting hnumber more
    · rw [afterColon_of_ne hcolon] at hfound
      obtain ⟨⟨rest, rfl⟩, hne⟩ := hplain.front hfound
      obtain ⟨first, lexeme, rfl⟩ := List.exists_cons_of_ne_nil hne
      rw [afterColon_of_ne (by simpa using hcolon)]
      exact hplain.lasting hfound more
  cut := by
    intro lexeme kept more hfound
    by_cases hcolon : (lexeme ++ (kept ++ more)).head? = some ':'
    · obtain ⟨rest, htext⟩ := List.head?_eq_some_iff.mp hcolon
      rw [htext] at hfound
      obtain ⟨number, hnumber, rfl⟩ := Option.map_eq_some_iff.mp hfound
      obtain rfl : number ++ (kept ++ more) = rest := by simpa using htext
      simp [Lexeme.afterColon, hbehind.cut hnumber]
    · rw [afterColon_of_ne hcolon] at hfound
      obtain ⟨-, hne⟩ := hplain.front hfound
      obtain ⟨first, lexeme, rfl⟩ := List.exists_cons_of_ne_nil hne
      rw [afterColon_of_ne (by simpa using hcolon)]
      exact hplain.cut hfound

theorem number?_eq :
    number? = afterColon fraction? fun text => (fraction? text).or (digits? text) := by
  funext text
  unfold number? afterColon digits?
  split
  · rfl
  · cases hfraction : fraction? _ <;> simp [hfraction]

theorem string?_eq : string? = afterColon quoted? quoted? := by
  funext text
  cases text with
  | nil => rfl
  | cons c rest =>
      by_cases hcolon : c = ':'
      · subst hcolon
        rfl
      · simp [string?, afterColon, hcolon]

theorem recogniser_number? : Recogniser number? := by
  rw [number?_eq]
  exact recogniser_fraction?.afterColon (recogniser_fraction?.orElse recogniser_digits?)

theorem recogniser_string? : Recogniser string? := by
  rw [string?_eq]
  exact recogniser_quoted?.afterColon recogniser_quoted?

/-! ## All classes -/

theorem recogniser_of_mem_classes {kind : TokenKind}
    {recognise : List Char → Option (List Char)} (hmem : (kind, recognise) ∈ classes) :
    Recogniser recognise := by
  simp only [classes, List.mem_cons, Prod.mk.injEq, List.not_mem_nil, or_false] at hmem
  rcases hmem with ⟨-, rfl⟩ | ⟨-, rfl⟩ | ⟨-, rfl⟩ | ⟨-, rfl⟩ | ⟨-, rfl⟩
  · exact recogniser_escape?
  · exact recogniser_name?
  · exact recogniser_operator?
  · exact recogniser_number?
  · exact recogniser_string?

/-- A lexeme is found by the first class that finds any. -/
theorem classify?_eq_some_iff {text lexeme : List Char} {kind : TokenKind} :
    classify? text = some (kind, lexeme) ↔
      ∃ earlier recognise later, classes = earlier ++ (kind, recognise) :: later ∧
        recognise text = some lexeme ∧ ∀ other ∈ earlier, other.2 text = none := by
  rw [classify?, List.findSome?_eq_some_iff]
  constructor
  · rintro ⟨earlier, ⟨kind', recognise⟩, later, hclasses, hfound, hearlier⟩
    obtain ⟨lexeme', hlexeme, heq⟩ := Option.map_eq_some_iff.mp hfound
    obtain ⟨rfl, rfl⟩ := Prod.mk.inj heq
    refine ⟨earlier, recognise, later, hclasses, hlexeme, ?_⟩
    intro other hother
    simpa using hearlier other hother
  · rintro ⟨earlier, recognise, later, hclasses, hfound, hearlier⟩
    refine ⟨earlier, (kind, recognise), later, hclasses, by simp [hfound], ?_⟩
    intro other hother
    simpa using hearlier other hother

/-- A lexeme stands at the front of the text, is not empty, and is of none of the kinds that open
and end a source. -/
theorem classify?_front {text lexeme : List Char} {kind : TokenKind}
    (hfound : classify? text = some (kind, lexeme)) :
    lexeme <+: text ∧ lexeme ≠ [] ∧ kind ≠ .start ∧ kind ≠ .finish := by
  obtain ⟨earlier, recognise, later, hclasses, hlexeme, -⟩ := classify?_eq_some_iff.mp hfound
  have hmem : (kind, recognise) ∈ classes := by simp [hclasses]
  obtain ⟨hfront, hne⟩ := (recogniser_of_mem_classes hmem).front hlexeme
  refine ⟨hfront, hne, ?_⟩
  simp only [classes, List.mem_cons, Prod.mk.injEq, List.not_mem_nil, or_false] at hmem
  rcases hmem with ⟨rfl, -⟩ | ⟨rfl, -⟩ | ⟨rfl, -⟩ | ⟨rfl, -⟩ | ⟨rfl, -⟩ <;> simp

/-- Cutting the text behind a lexeme leaves the lexeme and its kind as they are. -/
theorem classify?_cut {lexeme kept more : List Char} {kind : TokenKind}
    (hfound : classify? (lexeme ++ (kept ++ more)) = some (kind, lexeme)) :
    classify? (lexeme ++ kept) = some (kind, lexeme) := by
  obtain ⟨earlier, recognise, later, hclasses, hlexeme, hearlier⟩ := classify?_eq_some_iff.mp hfound
  have hmem : (kind, recognise) ∈ classes := by simp [hclasses]
  refine classify?_eq_some_iff.mpr
    ⟨earlier, recognise, later, hclasses, (recogniser_of_mem_classes hmem).cut hlexeme, ?_⟩
  intro other hother
  have hmem : (other.1, other.2) ∈ classes := by simp [hclasses, hother]
  cases hshort : other.2 (lexeme ++ kept) with
  | none => rfl
  | some found =>
      have hnone := hearlier other hother
      rw [← List.append_assoc] at hnone
      exact absurd hnone ((recogniser_of_mem_classes hmem).lasting hshort more)

theorem classify?_nil : classify? [] = none := by decide

end Precedence.Lexeme
