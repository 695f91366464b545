import Precedence.Proofs.Phrase

/-!
# Texts put together

Where the text behind a seam begins with a gap or a parenthesis, the text in front of the seam is
scanned as if nothing followed.  Only text literals contain blanks, and they are closed by a
quotation mark.  The lexemes of all other classes end at a gap or a parenthesis at the latest, so
such a class finds the same with or without the text behind the seam.  What stands behind the seam
is scanned as it would be on its own, but at other offsets.
-/

namespace Precedence

open Text

namespace Lexeme

/-! ## Lexemes in front of a break -/

/-- Gaps and parentheses.  No lexeme but a text literal goes on with one of them. -/
def isBreak (c : Char) : Bool := isGap c || c = '(' || c = ')'

/-- The text begins with a gap or is empty. -/
def OpensGap (text : List Char) : Prop := ∀ c ∈ text.head?, isGap c = true

/-- The text begins with a gap or a parenthesis or is empty. -/
def OpensBreak (text : List Char) : Prop := ∀ c ∈ text.head?, isBreak c = true

theorem OpensGap.opensBreak {text : List Char} (htext : OpensGap text) : OpensBreak text := by
  intro c hc
  simp [isBreak, htext c hc]

theorem isBreak_eq_false {c : Char} (hc : isWord c = true ∨ isDigit c = true) :
    isBreak c = false := by
  have hparenthesis : ∀ d ∈ ['(', ')'], isWord d = false ∧ isDigit d = false :=
    -- decided along the list, not over the type of all characters
    @of_decide_eq_true _ (List.decidableBAll _ _) (by decide)
  have hne {d : Char} (hd : d ∈ ['(', ')']) : c ≠ d := by
    rintro rfl
    obtain ⟨hword, hdigit⟩ := hparenthesis c hd
    simp [hword, hdigit] at hc
  simp [isBreak, isGap_eq_false hc, hne]

/-- The lexemes that the recogniser finds contain no gaps and no parentheses. -/
def Solid (recognise : List Char → Option (List Char)) : Prop :=
  ∀ ⦃text lexeme⦄, recognise text = some lexeme → ∀ c ∈ lexeme, isBreak c = false

theorem solid_escape? : Solid escape? := by
  intro text lexeme hfound c hc
  have hescapes : ∀ c ∈ escapes.flatten, isBreak c = false :=
    @of_decide_eq_true _ (List.decidableBAll _ _) (by decide)
  exact hescapes c (List.mem_flatten.mpr ⟨lexeme, (firstOf_eq_some hfound).1, hc⟩)

theorem solid_name? : Solid name? := by
  intro text lexeme hfound
  obtain ⟨first, letters, rest, -, rfl, hfirst, hletters, -⟩ := name?_eq_some_iff.mp hfound
  refine List.forall_mem_cons.mpr ⟨isBreak_eq_false (.inl (startsName_apart hfirst).1), ?_⟩
  intro c hc
  exact isBreak_eq_false (.inl (hletters c hc))

theorem solid_digits? : Solid digits? := by
  intro text lexeme hfound c hc
  obtain ⟨rest, -, -, hdigits, -⟩ := digits?_eq_some_iff.mp hfound
  exact isBreak_eq_false (.inr (hdigits c hc))

theorem solid_fraction? : Solid fraction? := by
  intro text lexeme hfound c hc
  obtain ⟨whole, digits, rest, -, rfl, -, hwhole, hdigits, -⟩ := fraction?_eq_some_iff.mp hfound
  rcases List.mem_append.mp hc with hc | hc
  · exact isBreak_eq_false (.inr (hwhole c hc))
  · rcases List.mem_cons.mp hc with rfl | hc
    · decide
    · exact isBreak_eq_false (.inr (hdigits c hc))

theorem Solid.orElse {first second : List Char → Option (List Char)} (hfirst : Solid first)
    (hsecond : Solid second) : Solid fun text => (first text).or (second text) := by
  intro text lexeme hfound
  rcases Option.or_eq_some_iff.mp hfound with hfound | ⟨-, hfound⟩
  · exact hfirst hfound
  · exact hsecond hfound

theorem Solid.afterColon {behind plain : List Char → Option (List Char)} (hbehind : Solid behind)
    (hplain : Solid plain) : Solid (afterColon behind plain) := by
  intro text lexeme hfound
  unfold Lexeme.afterColon at hfound
  split at hfound
  · obtain ⟨rest, hrest, rfl⟩ := Option.map_eq_some_iff.mp hfound
    exact List.forall_mem_cons.mpr ⟨by decide, hbehind hrest⟩
  · exact hplain hfound

theorem solid_number? : Solid number? := by
  rw [number?_eq]
  exact solid_fraction?.afterColon (solid_fraction?.orElse solid_digits?)

/-- The lexemes that the recogniser finds may begin with a parenthesis, but do not go on with a gap
or a parenthesis. -/
def Compact (recognise : List Char → Option (List Char)) : Prop :=
  ∀ ⦃text lexeme⦄, recognise text = some lexeme → ∀ c ∈ lexeme.tail, isBreak c = false

theorem Solid.compact {recognise : List Char → Option (List Char)} (hsolid : Solid recognise) :
    Compact recognise :=
  fun _ _ hfound c hc => hsolid hfound c (List.mem_of_mem_tail hc)

theorem compact_operator? : Compact operator? := by
  intro text lexeme hfound c hc
  have hoperators : ∀ c ∈ (operatorSpellings.map List.tail).flatten, isBreak c = false :=
    @of_decide_eq_true _ (List.decidableBAll _ _) (by decide)
  have hmem : lexeme.tail ∈ operatorSpellings.map List.tail :=
    List.mem_map_of_mem (firstOf_eq_some hfound).1
  exact hoperators c (List.mem_flatten.mpr ⟨lexeme.tail, hmem, hc⟩)

/-- All classes are compact, but for the text literals, which are tried last. -/
theorem compact_of_mem_dropLast {kind : TokenKind} {recognise : List Char → Option (List Char)}
    (hmem : (kind, recognise) ∈ classes.dropLast) : Compact recognise := by
  simp only [classes, List.dropLast, List.mem_cons, Prod.mk.injEq, List.not_mem_nil,
    or_false] at hmem
  rcases hmem with ⟨-, rfl⟩ | ⟨-, rfl⟩ | ⟨-, rfl⟩ | ⟨-, rfl⟩
  · exact solid_escape?.compact
  · exact solid_name?.compact
  · exact compact_operator?
  · exact solid_number?.compact

section Break

variable {text lexeme rest : List Char}

/-- A lexeme that does not go on with a break does not reach into one. -/
theorem prefix_of_opensBreak (hlexeme : ∀ c ∈ lexeme.tail, isBreak c = false) (htext : text ≠ [])
    (hrest : OpensBreak rest) (hfront : lexeme <+: text ++ rest) : lexeme <+: text := by
  obtain ⟨behind, hsplit⟩ := hfront
  rcases List.append_eq_append_iff.mp hsplit with ⟨kept, rfl, -⟩ | ⟨beyond, rfl, rfl⟩
  · exact List.prefix_append lexeme kept
  · cases beyond with
    | nil => simp
    | cons c beyond =>
        obtain ⟨first, text, rfl⟩ := List.exists_cons_of_ne_nil htext
        have hc : isBreak c = true := hrest c rfl
        rw [hlexeme c (by simp)] at hc
        contradiction

/-- A compact recogniser finds in front of a break what it finds in front of nothing. -/
theorem Compact.append {recognise : List Char → Option (List Char)} (hcompact : Compact recognise)
    (hrecogniser : Recogniser recognise) (htext : text ≠ []) (hrest : OpensBreak rest) :
    recognise (text ++ rest) = recognise text := by
  cases hlong : recognise (text ++ rest) with
  | none =>
      cases hshort : recognise text with
      | none => rfl
      | some lexeme => exact absurd hlong (hrecogniser.lasting hshort rest)
  | some lexeme =>
      obtain ⟨kept, rfl⟩ :=
        prefix_of_opensBreak (hcompact hlong) htext hrest (hrecogniser.front hlong).1
      rw [List.append_assoc] at hlong
      exact (hrecogniser.cut hlong).symm

/-- Whatever stands behind a text literal, the literal ends with its last quotation mark. -/
theorem quoted?_append (hfound : quoted? text = some lexeme) :
    quoted? (text ++ rest) = some lexeme := by
  obtain ⟨marks, filling, behind, rfl, rfl, hfull⟩ := quoted?_eq_some_iff.mp hfound
  exact quoted?_eq_some_iff.mpr ⟨marks, filling, behind ++ rest, by simp, rfl, hfull⟩

theorem string?_append (hfound : string? text = some lexeme) :
    string? (text ++ rest) = some lexeme := by
  rw [string?_eq] at hfound ⊢
  by_cases hcolon : text.head? = some ':'
  · obtain ⟨literal, rfl⟩ := List.head?_eq_some_iff.mp hcolon
    obtain ⟨found, hquoted, rfl⟩ := Option.map_eq_some_iff.mp hfound
    simp [afterColon, quoted?_append hquoted]
  · have hne : text ≠ [] := by
      rintro rfl
      contradiction
    rw [afterColon_of_ne hcolon] at hfound
    rw [afterColon_of_ne (by rwa [List.head?_append_of_ne_nil _ hne])]
    exact quoted?_append hfound

/-- What is found in a text is found in it in front of a break. -/
theorem classify?_append {kind : TokenKind} (hfound : classify? text = some (kind, lexeme))
    (hrest : OpensBreak rest) : classify? (text ++ rest) = some (kind, lexeme) := by
  have htext : text ≠ [] := by
    rintro rfl
    rw [classify?_nil] at hfound
    contradiction
  obtain ⟨earlier, recognise, later, hclasses, hlexeme, hearlier⟩ := classify?_eq_some_iff.mp hfound
  have hfront : classes.dropLast = earlier ++ ((kind, recognise) :: later).dropLast := by
    rw [hclasses, List.dropLast_append_of_ne_nil (by simp)]
  have happend {other : TokenKind} {find : List Char → Option (List Char)}
      (hmem : (other, find) ∈ classes.dropLast) : find (text ++ rest) = find text :=
    have hrecogniser := recogniser_of_mem_classes (List.dropLast_subset classes hmem)
    (compact_of_mem_dropLast hmem).append hrecogniser htext hrest
  refine classify?_eq_some_iff.mpr ⟨earlier, recognise, later, hclasses, ?_, ?_⟩
  · cases later with
    | nil =>
        have hlast : classes.getLast? = some (kind, recognise) := by simp [hclasses]
        obtain ⟨rfl, rfl⟩ := Prod.mk.inj (Option.some.inj hlast)
        exact string?_append hlexeme
    | cons next later =>
        have hmem : (kind, recognise) ∈ classes.dropLast := by simp [hfront]
        exact (happend hmem).trans hlexeme
  · rintro ⟨other, find⟩ hother
    have hmem : (other, find) ∈ classes.dropLast := by simp [hfront, hother]
    exact (happend hmem).trans (hearlier _ hother)

end Break

end Lexeme

/-! ## Scans put together -/

/-- The token, moved on by a count of bytes. -/
def Token.shifted (bytes : Nat) (token : Token) : Token :=
  { token with
    span := ⟨token.span.start + bytes, token.span.stop + bytes, token.span.file⟩ }

theorem Token.cut_shifted (file : String) (bytes start : Nat) (kind : TokenKind)
    (lexeme : List Char) :
    (Token.cut file start kind lexeme).shifted bytes =
      Token.cut file (bytes + start) kind lexeme := by
  simp only [Token.cut, Token.shifted, Token.mk.injEq, Span.mk.injEq, true_and, and_true]
  omega

/-- The offset at which the last token of a row ends; an empty row ends where it begins. -/
def endOf (offset : Int) (tokens : List Token) : Int :=
  (tokens.getLast?.map fun token => token.span.stop).getD offset

namespace Scan

variable {file : String} {offset stop : Nat} {text left : List Char} {tokens : List Token}

/-- The text may stand elsewhere in the source. -/
theorem shifted (hscan : Scan file offset text tokens stop left) (bytes : Nat) :
    Scan file (bytes + offset) text (tokens.map (Token.shifted bytes)) (bytes + stop) left := by
  induction hscan with
  | @gap offset gap left hgap hleft =>
      rw [← Nat.add_assoc]
      exact .gap hgap hleft
  | @token offset stop gap lexeme rest left kind tokens hgap hlexeme hfound hrest ih =>
      rw [List.map_cons, Token.cut_shifted, ← Nat.add_assoc]
      rw [← Nat.add_assoc, ← Nat.add_assoc] at ih
      exact .token hgap hlexeme hfound ih

/-- More of a gap may stand in front of the text. -/
theorem prepend_gap {gap : List Char} (hgap : ∀ c ∈ gap, Lexeme.isGap c = true)
    (hscan : Scan file (offset + width gap) text tokens stop left) :
    Scan file offset (gap ++ text) tokens stop left := by
  have hwider (more : List Char) : offset + width gap + width more =
      offset + width (gap ++ more) := by
    rw [width_append, Nat.add_assoc]
  generalize hplace : offset + width gap = place at hscan
  cases hscan with
  | @gap _ more left hmore hleft =>
      rw [← hplace, hwider, ← List.append_assoc]
      exact .gap (List.forall_mem_append.mpr ⟨hgap, hmore⟩) hleft
  | @token _ _ more lexeme rest left kind tokens hmore hlexeme hfound hrest =>
      subst hplace
      rw [hwider] at hrest ⊢
      rw [← List.append_assoc]
      exact .token (List.forall_mem_append.mpr ⟨hgap, hmore⟩) hlexeme hfound hrest

/-- Behind a text that is scanned to its end the scan goes on with what follows, where that begins
with a break. -/
theorem append {more : List Char} {others : List Token} {final : Nat}
    (hscan : Scan file offset text tokens stop []) (hbreak : Lexeme.OpensBreak more)
    (hmore : Scan file stop more others final left) :
    Scan file offset (text ++ more) (tokens ++ others) final left := by
  generalize hnil : ([] : List Char) = behind at hscan
  induction hscan with
  | gap hgap hleft =>
      subst hnil
      rw [List.append_nil]
      exact prepend_gap hgap hmore
  | token hgap hlexeme hfound hrest ih =>
      have hfound' := Lexeme.classify?_append hfound hbreak
      simp only [List.append_assoc] at hfound' ⊢
      exact .token hgap hlexeme hfound' (ih hmore hnil)

/-- A scan can be taken apart behind any of its tokens. -/
theorem split_behind {earlier later : List Token}
    (hscan : Scan file offset text (earlier ++ later) stop left) :
    ∃ front rest place, text = front ++ rest ∧ place = offset + width front ∧
      endOf offset earlier = place ∧
      Scan file offset front earlier place [] ∧ Scan file place rest later stop left := by
  induction earlier generalizing offset text with
  | nil =>
      have hnil : Scan file offset [] [] offset [] :=
        @Scan.gap file offset [] [] (by simp) (by simp [Stops])
      exact ⟨[], text, offset, rfl, rfl, rfl, hnil, hscan⟩
  | cons token earlier ih =>
      rw [List.cons_append] at hscan
      cases hscan with
      | @token _ _ gap lexeme body left kind tokens hgap hlexeme hfound hrest =>
          obtain ⟨front, rest, place, rfl, rfl, hplace, hfront, hbehind⟩ := ih hrest
          refine ⟨gap ++ (lexeme ++ front), rest, _, by simp, ?_, ?_, ?_, hbehind⟩
          · simp only [width_append]
            omega
          · rw [← hplace, endOf, endOf, List.getLast?_cons]
            cases earlier.getLast? <;> rfl
          · exact .token hgap hlexeme (Lexeme.classify?_cut hfound) hfront

/-- A scan can be taken apart in front of any of its tokens. -/
theorem split_before {earlier later : List Token} {token : Token}
    (hscan : Scan file offset text (earlier ++ token :: later) stop left) :
    ∃ front rest place, text = front ++ rest ∧ place = offset + width front ∧
      token.span.start = place ∧ Scan file offset front earlier place [] ∧
      Scan file place rest (token :: later) stop left := by
  obtain ⟨front, body, place, rfl, rfl, -, hfront, hbehind⟩ := hscan.split_behind
  cases hbehind with
  | @token _ _ gap lexeme rest left kind tokens hgap hlexeme hfound hrest =>
      have hopens : Lexeme.OpensGap gap := fun c hc => hgap c (List.mem_of_mem_head? hc)
      have hgapScan : Scan file (offset + width front) (gap ++ []) []
          (offset + width front + width gap) [] := .gap hgap (by simp [Stops])
      rw [List.append_nil] at hgapScan
      have hwhole := hfront.append hopens.opensBreak hgapScan
      rw [List.append_nil] at hwhole
      have htoken := @Scan.token file (offset + width front + width gap) _ [] lexeme rest _ kind _
        (by simp) hlexeme hfound (by simpa using hrest)
      exact ⟨front ++ gap, lexeme ++ rest, _, by simp, by simp [Nat.add_assoc], rfl, hwhole,
        by simpa using htoken⟩

end Scan

section Source

variable {source : String} {file : Option String} {tokens : List Token} {stop : Nat}
variable {left : List Char}

theorem tokenize_of_scan (hscan : Scan (Lexer.fileName file) 0 source.toList tokens stop left)
    (hend : Lexeme.classify? left = none) :
    tokenize source file =
      (Lexer.lastItem source.utf8ByteSize (Lexer.fileName file) stop left).map fun last =>
        .opening (Lexer.fileName file) :: (tokens ++ [last]) :=
  Lexer.tokenize_of_items (Lexer.items_of_scan hscan hend)

/-- Where all tokens of a source are listed, they are those of a scan up to its end. -/
theorem scan_of_tokenize {row : List Token} (htokenize : tokenize source file = .ok row) :
    ∃ tokens, row = tokenRow source file tokens ∧
      Scan (Lexer.fileName file) 0 source.toList tokens source.utf8ByteSize [] := by
  obtain ⟨tokens, stop, left, hscan, hend⟩ :=
    Scan.exists_scan (Lexer.fileName file) 0 source.toList
  rw [tokenize_of_scan hscan hend] at htokenize
  cases left with
  | nil =>
      obtain ⟨done, hdone, rfl, -⟩ := hscan.cut
      have hwidth : source.utf8ByteSize = 0 + width done := by
        rw [utf8ByteSize_eq_width, hdone, List.append_nil, Nat.zero_add]
      rw [hwidth]
      exact ⟨tokens, (Except.ok.inj htokenize).symm, hscan⟩
  | cons c left => contradiction

/-- The tokens of a source are those of the scan of its text. -/
theorem scan_of_row (htokenize : tokenize source file = .ok (tokenRow source file tokens)) :
    Scan (Lexer.fileName file) 0 source.toList tokens source.utf8ByteSize [] := by
  obtain ⟨scanned, hrow, hscan⟩ := scan_of_tokenize htokenize
  obtain ⟨rfl, -⟩ := List.append_inj' (List.cons.inj hrow).2 rfl
  exact hscan

/-- A text that is read to its end may be followed by another that begins with a gap.  The tokens of
the other come behind its own, moved on by its length, and a character of the other that begins no
lexeme is reported where it then stands. -/
theorem tokenize_append {first second : String} {row : List Token}
    (hfirst : tokenize first file = .ok row) (hseam : Lexeme.OpensGap second.toList) :
    ∃ tokens, row = tokenRow first file tokens ∧
      match tokenize second file with
      | .ok row => ∃ others, row = tokenRow second file others ∧
          tokenize (first ++ second) file = .ok (.opening (Lexer.fileName file) ::
            (tokens ++ others.map (Token.shifted first.utf8ByteSize) ++
              [.closing (first.utf8ByteSize + second.utf8ByteSize) (Lexer.fileName file)]))
      | .error error => ∃ (c : Char) (offset : Nat),
          error = ⟨.unexpectedCharacter c, ⟨offset, Lexer.fileName file⟩⟩ ∧
          tokenize (first ++ second) file = .error
            ⟨.unexpectedCharacter c,
              ⟨(first.utf8ByteSize + offset : Nat), Lexer.fileName file⟩⟩ := by
  obtain ⟨tokens, rfl, hscan⟩ := scan_of_tokenize hfirst
  obtain ⟨others, stop, left, hothers, hend⟩ :=
    Scan.exists_scan (Lexer.fileName file) 0 second.toList
  have hboth := hscan.append hseam.opensBreak (hothers.shifted first.utf8ByteSize)
  rw [← String.toList_append] at hboth
  rw [tokenize_of_scan hothers hend, tokenize_of_scan hboth hend, String.utf8ByteSize_append]
  refine ⟨tokens, rfl, ?_⟩
  cases left with
  | nil => exact ⟨others, rfl, rfl⟩
  | cons c left => exact ⟨c, stop, rfl, rfl⟩

end Source

/-- Behind "x<" stands a space of three bytes, an equals sign that does not become part of an
operator, and a character that begins no lexeme. -/
theorem tokenize_append_foreign :
    tokenize ("x<" ++ "\u2003= $") none =
      .error ⟨.unexpectedCharacter '$', ⟨7, "shell"⟩⟩ := by
  have hfirst : tokenize "x<" none = .ok (tokenRow "x<" none
      [⟨.name, "x", ⟨0, 1, "shell"⟩⟩, ⟨.operator, "<", ⟨1, 2, "shell"⟩⟩]) := by
    decide +kernel
  have hsecond : tokenize "\u2003= $" none =
      .error ⟨.unexpectedCharacter '$', ⟨5, "shell"⟩⟩ := by
    decide +kernel
  have hseam : Lexeme.OpensGap "\u2003= $".toList := by
    intro c hc
    obtain rfl : '\u2003' = c := by simpa using hc
    decide +kernel
  obtain ⟨tokens, -, hboth⟩ := tokenize_append hfirst hseam
  rw [hsecond] at hboth
  obtain ⟨c, offset, herror, hboth⟩ := hboth
  obtain ⟨hc, hoffset, -⟩ : '$' = c ∧ 5 = (offset : Int) ∧ "shell" = Lexer.fileName none := by
    simpa using herror
  obtain rfl : offset = 5 := by omega
  rw [← hc] at hboth
  exact hboth

end Precedence
