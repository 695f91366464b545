import Precedence.Proofs.Seam

/-!
# Spelling tokens out again

The lexemes of a source can be written down anew with other gaps around them.  In the source each of
them was cut out of a context of its own, and there no class that is tried earlier found anything.
In its new place it is found again, because the context plays no part: what stands in front is
passed before, and what stands behind begins with a character of a gap.
-/

namespace Precedence

open Text

/-! ## Tokens in new places -/

/-- The token, put behind the text `before` in a source that is named `file`. -/
def Token.behind (file : String) (before : List Char) (token : Token) : Token :=
  { token with span := ⟨width before, width (before ++ token.lexeme.toList), file⟩ }

theorem Token.cut_eq_behind (file : String) (before : List Char) (token : Token) :
    Token.cut file (width before) token.kind token.lexeme.toList = token.behind file before := by
  simp [Token.cut, Token.behind]

/-- The lexeme of the token can be found outside of its source. -/
structure Token.StandsAlone (token : Token) : Prop where
  stops : Stops Lexeme.isGap token.lexeme.toList
  found : Lexeme.classify? token.lexeme.toList = some (token.kind, token.lexeme.toList)

theorem Scan.standsAlone {file : String} {offset stop : Nat} {text left : List Char}
    {tokens : List Token} (hscan : Scan file offset text tokens stop left) :
    ∀ token ∈ tokens, token.StandsAlone := by
  induction hscan with
  | gap => simp
  | @token offset stop gap lexeme rest left kind tokens hgap hlexeme hfound hrest ih =>
      refine List.forall_mem_cons.mpr ⟨⟨?_, ?_⟩, ih⟩
      · simpa [Token.cut] using hlexeme
      · have hshort : Lexeme.classify? (lexeme ++ []) = some (kind, lexeme) :=
          @Lexeme.classify?_cut lexeme [] rest kind hfound
        simpa [Token.cut] using hshort

/-- The lexemes of the tokens, written down with separators in front of, between and behind them. -/
def respelling (separators : List (List Char)) (tokens : List Token) : List Char :=
  interleave separators (tokens.map fun token => token.lexeme.toList)

/-- What a respelling has in front of the token at an index. -/
def spelledBefore (separators : List (List Char)) (tokens : List Token) (index : Nat) :
    List Char :=
  respelling (separators.take (index + 1)) (tokens.take index)

/-- Texts that keep `count` lexemes apart: one in front, one behind and one between any two, all of
them made of characters of gaps. -/
structure Separates (count : Nat) (separators : List (List Char)) : Prop where
  length_eq : separators.length = count + 1
  isGap : ∀ separator ∈ separators, ∀ c ∈ separator, Lexeme.isGap c = true
  /-- Only the first and the last text may be empty. -/
  between : ∀ separator ∈ separators.tail.dropLast, separator ≠ []

section Respelling

variable {tokens : List Token} {separator : List Char} {separators : List (List Char)}

theorem respelling_nil (separators : List (List Char)) :
    respelling separators [] = separators.flatten := by
  cases separators <;> rfl

theorem respelling_cons (token : Token) :
    respelling (separator :: separators) (token :: tokens) =
      separator ++ (token.lexeme.toList ++ respelling separators tokens) := rfl

theorem spelledBefore_zero : spelledBefore (separator :: separators) tokens 0 = separator := by
  simp [spelledBefore, respelling_nil]

theorem spelledBefore_succ (token : Token) (index : Nat) :
    spelledBefore (separator :: separators) (token :: tokens) (index + 1) =
      separator ++ (token.lexeme.toList ++ spelledBefore separators tokens index) := rfl

namespace Separates

theorem tail {count : Nat} (hseparators : Separates (count + 1) (separator :: separators)) :
    Separates count separators where
  length_eq := by simpa using hseparators.length_eq
  isGap := (List.forall_mem_cons.mp hseparators.isGap).2
  between := by
    intro other hother
    rw [← List.tail_dropLast] at hother
    exact hseparators.between other (List.mem_of_mem_tail hother)

/-- Behind a lexeme that is written down a gap follows, unless it is the last one. -/
theorem opensGap (hseparators : Separates (tokens.length + 1) (separator :: separators)) :
    Lexeme.OpensGap (respelling separators tokens) := by
  obtain ⟨next, separators, rfl⟩ : ∃ next more, separators = next :: more :=
    List.exists_cons_of_length_eq_add_one hseparators.tail.length_eq
  cases next with
  | nil =>
      cases separators with
      | nil =>
          obtain rfl : tokens = [] := by simpa using hseparators.length_eq
          simp [Lexeme.OpensGap, respelling_nil]
      | cons last separators => exact absurd rfl (hseparators.between [] (by simp))
  | cons c next =>
      have hc : Lexeme.isGap c = true := hseparators.isGap (c :: next) (by simp) c (by simp)
      cases tokens <;> simpa [Lexeme.OpensGap, respelling_nil, respelling_cons] using hc

/-- A respelling is scanned into the tokens that it was made of, each in its new place. -/
theorem scan (file : String) (hseparators : Separates tokens.length separators)
    (htokens : ∀ token ∈ tokens, token.StandsAlone) (before : List Char) :
    Scan file (width before) (respelling separators tokens)
      (tokens.mapIdx fun index =>
        Token.behind file (before ++ spelledBefore separators tokens index))
      (width (before ++ respelling separators tokens)) [] := by
  induction tokens generalizing separators before with
  | nil =>
      obtain ⟨separator, rfl⟩ := List.length_eq_one_iff.mp hseparators.length_eq
      have hgap := hseparators.isGap separator (by simp)
      have hscan : Scan file (width before) (separator ++ []) [] (width before + width separator)
          [] := .gap hgap (by simp [Stops])
      simpa [respelling_nil] using hscan
  | cons token tokens ih =>
      obtain ⟨separator, separators, rfl⟩ :=
        List.exists_cons_of_length_eq_add_one hseparators.length_eq
      obtain ⟨htoken, htokens⟩ := List.forall_mem_cons.mp htokens
      have hgap := hseparators.isGap separator (by simp)
      have hfound := Lexeme.classify?_append htoken.found hseparators.opensGap.opensBreak
      have hrest := ih hseparators.tail htokens (before ++ separator ++ token.lexeme.toList)
      have hoffset : width (before ++ separator ++ token.lexeme.toList) =
          width before + width separator + width token.lexeme.toList := by
        simp [Nat.add_assoc]
      rw [hoffset] at hrest
      have hscan := Scan.token hgap htoken.stops hfound hrest
      rw [← width_append, Token.cut_eq_behind] at hscan
      simpa [respelling_cons, spelledBefore_zero, spelledBefore_succ] using hscan

end Separates

end Respelling

section Source

variable {source : String} {file : Option String} {tokens : List Token}

theorem exists_scan_of_tokenize
    (htokenize : tokenize source file = .ok (tokenRow source file tokens)) :
    ∃ stop left, Scan (Lexer.fileName file) 0 source.toList tokens stop left :=
  ⟨_, _, scan_of_row htokenize⟩

/-- A source in which the lexemes of another are spelled out has the tokens of the other, each of
them where its lexeme was put. -/
theorem tokenize_respelling {separators : List (List Char)} (name : Option String)
    (htokenize : tokenize source file = .ok (tokenRow source file tokens))
    (hseparators : Separates tokens.length separators) :
    tokenize (String.ofList (respelling separators tokens)) name =
      .ok (tokenRow (String.ofList (respelling separators tokens)) name
        (tokens.mapIdx fun index =>
          Token.behind (Lexer.fileName name) (spelledBefore separators tokens index))) := by
  obtain ⟨stop, left, hsource⟩ := exists_scan_of_tokenize htokenize
  have hscan := hseparators.scan (Lexer.fileName name) hsource.standsAlone []
  simp only [List.nil_append] at hscan
  rw [tokenize_eq_ok_iff, Lexer.items_of_scan (by simpa using hscan) Lexeme.classify?_nil]
  simp [tokenRow, Lexer.lastItem]

end Source

/-- Five lexemes without a gap between them. -/
def crowded : List Token :=
  [⟨.name, "x", ⟨0, 1, "shell"⟩⟩, ⟨.operator, "<=", ⟨1, 3, "shell"⟩⟩,
    ⟨.string, "\"a b\"", ⟨3, 8, "shell"⟩⟩, ⟨.number, "1.5", ⟨8, 11, "shell"⟩⟩,
    ⟨.statement, "\\n\\t", ⟨11, 15, "shell"⟩⟩]

/-- Separators for five lexemes, of which one is a semicolon and a space of three bytes. -/
def loosening : List (List Char) := [[], [' '], [';', '\u2003'], ['\t'], ['\n'], []]

theorem tokenize_respelling_crowded :
    tokenize "x <=;\u2003\"a b\"\t1.5\n\\n\\t" (some "copy") =
      .ok (tokenRow "x <=;\u2003\"a b\"\t1.5\n\\n\\t" (some "copy")
        [⟨.name, "x", ⟨0, 1, "copy"⟩⟩, ⟨.operator, "<=", ⟨2, 4, "copy"⟩⟩,
          ⟨.string, "\"a b\"", ⟨8, 13, "copy"⟩⟩, ⟨.number, "1.5", ⟨14, 17, "copy"⟩⟩,
          ⟨.statement, "\\n\\t", ⟨18, 22, "copy"⟩⟩]) := by
  have hcrowded : tokenize "x<=\"a b\"1.5\\n\\t" none =
      .ok (tokenRow "x<=\"a b\"1.5\\n\\t" none crowded) := by
    decide +kernel
  have hgaps : ∀ c ∈ loosening.flatten, Lexeme.isGap c = true :=
    @of_decide_eq_true _ (List.decidableBAll _ _) (by decide +kernel)
  have hloosening : Separates crowded.length loosening := by
    refine ⟨rfl, ?_, by decide⟩
    intro separator hseparator c hc
    exact hgaps c (List.mem_flatten.mpr ⟨separator, hseparator, hc⟩)
  have hrow := tokenize_respelling (some "copy") hcrowded hloosening
  have htext : String.ofList (respelling loosening crowded) =
      "x <=;\u2003\"a b\"\t1.5\n\\n\\t" := by
    decide +kernel
  rw [htext] at hrow
  rw [hrow]
  decide +kernel

end Precedence
