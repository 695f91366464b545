import Precedence.Proofs.Limit
import Precedence.Proofs.Replay
import Precedence.Proofs.Seam
import Precedence.Proofs.Yield

/-!
# Parentheses that change nothing

A pair of parentheses may be put around any part of an expression that the parser reads as a whole.
In a phrase the part becomes a group, which fits wherever the part did: a group is read above every
floor, and nothing that follows it could be folded into the part instead.  One more level is opened.
In the text of a source the parentheses may stand right beside the lexemes, since every lexeme but a
text literal ends in front of a parenthesis at the latest.
-/

namespace Precedence

open Text

/-! ## Nodes and parts -/

namespace Expr

/-- A step from a node to one of its operands. -/
inductive Branch where
  | operand
  | left
  | right
  deriving DecidableEq

/-- The node at the end of a path. -/
def at? : Expr → List Branch → Option Expr
  | tree, [] => some tree
  | .unary _ operand, .operand :: path => operand.at? path
  | .binary _ left _, .left :: path => left.at? path
  | .binary _ _ right, .right :: path => right.at? path
  | _, _ :: _ => none

theorem at?_nil (tree : Expr) : tree.at? [] = some tree := by
  cases tree <;> rfl

end Expr

namespace Phrase

/-- A phrase from which one part is left out. -/
inductive Context where
  | hole
  | sign (operator : Token) (context : Context)
  | group (opening : Token) (context : Context) (closing : Token)
  | leftOf (context : Context) (operator : Token) (right : Phrase)
  | rightOf (left : Phrase) (operator : Token) (context : Context)

namespace Context

/-- The phrase with the part put in. -/
def fill : Context → Phrase → Phrase
  | .hole, part => part
  | .sign operator context, part => .sign operator (context.fill part)
  | .group opening context closing, part => .group opening (context.fill part) closing
  | .leftOf context operator right, part => .binary (context.fill part) operator right
  | .rightOf left operator context, part => .binary left operator (context.fill part)

/-- The tokens in front of the part. -/
def before : Context → List Token
  | .hole => []
  | .sign operator context => operator :: context.before
  | .group opening context _ => opening :: context.before
  | .leftOf context _ _ => context.before
  | .rightOf left operator context => left.tokens ++ operator :: context.before

/-- The tokens behind the part. -/
def behind : Context → List Token
  | .hole => []
  | .sign _ context => context.behind
  | .group _ context closing => context.behind ++ [closing]
  | .leftOf context operator right => context.behind ++ operator :: right.tokens
  | .rightOf _ _ context => context.behind

/-- The way from the root of the tree to the node that the part stands for.  Groups have no nodes of
their own. -/
def path : Context → List Expr.Branch
  | .hole => []
  | .sign _ context => .operand :: context.path
  | .group _ context _ => context.path
  | .leftOf context _ _ => .left :: context.path
  | .rightOf _ _ context => .right :: context.path

variable {context : Context} {part other : Phrase} {grammar : Grammar} {floor : Nat}

theorem tokens_fill (context : Context) (part : Phrase) :
    (context.fill part).tokens = context.before ++ (part.tokens ++ context.behind) := by
  induction context with
  | hole => simp [fill, before, behind]
  | sign operator context ih => simp [fill, before, behind, tokens, ih]
  | group opening context closing ih => simp [fill, before, behind, tokens, ih]
  | leftOf context operator right ih => simp [fill, before, behind, tokens, ih]
  | rightOf left operator context ih => simp [fill, before, behind, tokens, ih]

theorem at?_fill (context : Context) (part : Phrase) :
    (context.fill part).tree.at? context.path = some part.tree := by
  induction context with
  | hole => exact part.tree.at?_nil
  | sign operator context ih => exact ih
  | group opening context closing ih => exact ih
  | leftOf context operator right ih => exact ih
  | rightOf left operator context ih => exact ih

theorem tree_fill (context : Context) (htree : part.tree = other.tree) :
    (context.fill part).tree = (context.fill other).tree := by
  induction context with
  | hole => exact htree
  | sign operator context ih => simp only [fill, tree, ih]
  | group opening context closing ih => simp only [fill, tree, ih]
  | leftOf context operator right ih => simp only [fill, tree, ih]
  | rightOf left operator context ih => simp only [fill, tree, ih]

theorem height_fill (context : Context) {more : Nat} (hheight : part.height ≤ other.height + more) :
    (context.fill part).height ≤ (context.fill other).height + more := by
  induction context with
  | hole => exact hheight
  | sign operator context ih => simp only [fill, height]; omega
  | group opening context closing ih => simp only [fill, height]; omega
  | leftOf context operator right ih => simp only [fill, height]; omega
  | rightOf left operator context ih => simp only [fill, height]; omega

/-- Every node stands for some part, which is not a group. -/
theorem exists_of_at? (phrase : Phrase) {path : List Expr.Branch} {node : Expr}
    (hnode : phrase.tree.at? path = some node) :
    ∃ (context : Context) (part : Phrase), context.fill part = phrase ∧ context.path = path ∧
      part.tree = node ∧ part.form? ≠ some .group := by
  have hroot {phrase : Phrase} (hnode : phrase.tree.at? [] = some node)
      (hform : phrase.form? ≠ some .group) :
      ∃ (context : Context) (part : Phrase), context.fill part = phrase ∧ context.path = [] ∧
        part.tree = node ∧ part.form? ≠ some .group := by
    rw [Expr.at?_nil, Option.some.injEq] at hnode
    exact ⟨.hole, phrase, rfl, rfl, hnode, hform⟩
  induction phrase generalizing path with
  | atom token =>
      cases path with
      | nil => exact hroot hnode (by simp [form?])
      | cons branch path =>
          rw [tree, Token.leaf] at hnode
          split at hnode <;> simp [Expr.at?] at hnode
  | sign operator operand ih =>
      cases path with
      | nil => exact hroot hnode (by simp [form?])
      | cons branch path =>
          cases branch with
          | operand =>
              obtain ⟨context, part, rfl, rfl, hpart⟩ := ih hnode
              exact ⟨.sign operator context, part, rfl, rfl, hpart⟩
          | left | right => simp [tree, Expr.at?] at hnode
  | group opening inner closing ih =>
      obtain ⟨context, part, rfl, rfl, hpart⟩ := ih hnode
      exact ⟨.group opening context closing, part, rfl, rfl, hpart⟩
  | binary left operator right ihleft ihright =>
      cases path with
      | nil => exact hroot hnode (by simp [form?])
      | cons branch path =>
          cases branch with
          | operand => simp [tree, Expr.at?] at hnode
          | left =>
              obtain ⟨context, part, rfl, rfl, hpart⟩ := ihleft hnode
              exact ⟨.leftOf context operator right, part, rfl, rfl, hpart⟩
          | right =>
              obtain ⟨context, part, rfl, rfl, hpart⟩ := ihright hnode
              exact ⟨.rightOf left operator context, part, rfl, rfl, hpart⟩

/-- A group ends before every operator, so a phrase ends before no fewer with a group in it. -/
theorem endsBefore_fill_group {power : Nat} (opening closing : Token)
    (hends : (context.fill part).EndsBefore grammar power) :
    (context.fill (.group opening part closing)).EndsBefore grammar power := by
  induction context with
  | hole => trivial
  | sign operator context ih => exact ⟨hends.1, ih hends.2⟩
  | group outer context outer' ih => trivial
  | leftOf context operator right ih => exact hends
  | rightOf left operator context ih => exact ⟨hends.1, ih hends.2⟩

/-- A part may be made a group wherever it stands. -/
theorem fits_fill_group {filler opening closing : Token} {power : Nat}
    (hcompletes : grammar.Completes filler closing)
    (hopening : grammar.prefixOf? opening = some ⟨.group, power⟩)
    (hfits : (context.fill part).Fits grammar floor) :
    (context.fill (.group opening part closing)).Fits grammar floor := by
  induction context generalizing floor with
  | hole => exact hcompletes.fits_group hopening (hfits.mono (Nat.zero_le _))
  | sign operator context ih =>
      cases hfits with
      | sign hrule hoperand => exact .sign hrule (ih hoperand)
  | group outer context outer' ih =>
      cases hfits with
      | group hrule hinner hcloses hcheck hpower =>
          exact .group hrule (ih hinner) hcloses hcheck hpower
  | leftOf context operator right ih =>
      cases hfits with
      | binary hrule hpower hleft hends hright =>
          have hends' := endsBefore_fill_group opening closing hends
          exact .binary hrule hpower (ih hleft) hends' hright
  | rightOf left operator context ih =>
      cases hfits with
      | binary hrule hpower hleft hends hright => exact .binary hrule hpower hleft hends (ih hright)

end Context

end Phrase

/-! ## Parsing without places -/

section Words

variable {grammar : Grammar} {source : String} {file : Option String}

/-- A source whose tokens are those of a phrase, but for the places, is parsed into the tree of the
phrase. -/
theorem parseWith_of_words {phrase : Phrase} {tokens : List Token}
    (hpower : ∀ rule ∈ grammar.rule? .finish, rule.power = 0)
    (hfits : phrase.Fits grammar Grammar.loosestPower)
    (hheight : phrase.height ≤ Parser.standardLimit)
    (htokenize : tokenize source file = .ok (tokenRow source file tokens))
    (hwords : tokens.map Token.word = phrase.tokens.map Token.word) :
    parseWith grammar source file = .ok phrase.tree := by
  let name := Lexer.fileName file
  let last : Token := .closing source.utf8ByteSize name
  obtain ⟨first, hfirst, hmem⟩ := phrase.exists_cursor [.ok last]
  have hshift : Cursor.shift grammar ⟨.opening name, first.items⟩ = .ok (.opening name) first :=
    Cursor.shift_of_items rfl (hfits.checked _ hmem)
  have hlast : last.kind = .finish := rfl
  have hrun : Run grammar Parser.standardLimit
      (.read Parser.standardLimit Grammar.loosestPower first) (.ok phrase.tree ⟨last, []⟩) :=
    hfits.read_sentence hpower hheight hfirst hlast
  have hreads : Cursor.Reads grammar ⟨.opening name, first.items⟩
      (.ok (.unary Token.openingLexeme phrase.tree) ⟨last, []⟩) := .sign hshift hrun
  have hitems : (Lexer.ofSource source file).items =
      .ok (.opening name) :: (tokens ++ [last]).map .ok := by
    rw [tokenize_eq_ok_iff.mp htokenize]
    rfl
  obtain ⟨outcome, hreads'⟩ :=
    Cursor.exists_reads grammar ⟨.opening name, (tokens ++ [last]).map .ok⟩
  have hrow : first.items = (phrase.tokens ++ [last]).map .ok := by
    rw [hfirst, List.map_append]
    rfl
  have hunplaced : (first.items).map Lexer.unplaced =
      ((tokens ++ [last]).map Except.ok).map Lexer.unplaced := by
    rw [hrow]
    apply Lexer.map_unplaced
    rw [List.map_append, List.map_append, hwords]
  have hsame := hreads.unplaced_eq hreads' (Cursor.unplaced_opening hunplaced)
  have hresult : (Except.ok phrase.tree).mapError Failure.unplaced =
      (parseWith grammar source file).mapError Failure.unplaced :=
    mapError_eq_of_unplaced rfl (hreads'.parseWith_map hitems) hsame
  exact eq_ok_of_mapError hresult

end Words

/-! ## Parentheses in the text -/

namespace Lexeme

/-- A parenthesis is a lexeme, whatever stands behind it. -/
theorem classify?_parenthesis {c : Char} (hc : c = '(' ∨ c = ')') (rest : List Char) :
    classify? (c :: rest) = some (.operator, [c]) := by
  rcases hc with rfl | rfl
  · rfl
  · rfl

theorem opensBreak_parenthesis {c : Char} (hc : c = '(' ∨ c = ')') (rest : List Char) :
    OpensBreak (c :: rest) := by
  intro d hd
  obtain rfl : c = d := by simpa using hd
  rcases hc with rfl | rfl <;> decide

end Lexeme

theorem Token.word_shifted (bytes : Nat) (token : Token) :
    (token.shifted bytes).word = token.word := rfl

/-- The row with two parentheses around its middle part, without places. -/
def enclosedWords (before middle behind : List Token) : List (TokenKind × String) :=
  before.map Token.word ++ (.operator, "(") ::
    (middle.map Token.word ++ (.operator, ")") :: behind.map Token.word)

/-- A text with two places in it, one where the first of some tokens begins and one where the last
of them ends. -/
structure Flanked (text front inside rest : List Char) (tokens : List Token) : Prop where
  text_eq : text = front ++ (inside ++ rest)
  start_eq : ∀ first ∈ tokens.head?, first.span.start = width front
  stop_eq : ∀ last ∈ tokens.getLast?, last.span.stop = width (front ++ inside)

/-- The text with two parentheses put in. -/
def enclosed (front inside rest : List Char) : List Char :=
  front ++ '(' :: (inside ++ ')' :: rest)

namespace Scan

variable {file : String} {offset stop : Nat} {text left : List Char} {tokens : List Token}

/-- A parenthesis in front of a text is scanned as a token of its own. -/
theorem parenthesis {c : Char} (hc : c = '(' ∨ c = ')')
    (hscan : Scan file (offset + 1) text tokens stop left) :
    Scan file offset (c :: text) (Token.cut file offset .operator [c] :: tokens) stop left := by
  have hgap : Stops Lexeme.isGap [c] := by
    intro d hd
    obtain rfl : c = d := by simpa using hd
    rcases hc with rfl | rfl <;> decide
  have hwidth : width [c] = 1 := by
    rcases hc with rfl | rfl <;> rfl
  have hrest : Scan file (offset + width [] + width [c]) text tokens stop left := by
    rw [hwidth]
    exact hscan
  have hempty : ∀ d ∈ ([] : List Char), Lexeme.isGap d = true := List.forall_mem_nil _
  exact .token hempty hgap (Lexeme.classify?_parenthesis hc text) hrest

/-- With parentheses put beside some of its tokens, a text is scanned into the same tokens and the
parentheses. -/
theorem enclose {before middle behind : List Token}
    (hscan : Scan file 0 text (before ++ (middle ++ behind)) stop left) (hmiddle : middle ≠ []) :
    ∃ front inside rest row, Flanked text front inside rest middle ∧
      Scan file 0 (enclosed front inside rest) row (2 + stop) left ∧
      row.map Token.word = enclosedWords before middle behind := by
  obtain ⟨first, more, rfl⟩ := List.exists_cons_of_ne_nil hmiddle
  obtain ⟨front, body, start, rfl, hstart, hfirst, hbefore, hbody⟩ := hscan.split_before
  obtain ⟨inside, rest, finish, rfl, hfinish, hend, hinside, hbehind⟩ :=
    @split_behind _ _ _ _ _ (first :: more) _ hbody
  -- the opening parenthesis moves on what follows it by a byte, the closing one by another
  have hlater := hbehind.shifted 2
  have hplace : 2 + finish = 1 + finish + 1 := by omega
  rw [hplace] at hlater
  have hclosed := parenthesis (.inr rfl) hlater
  have hmoved := (hinside.shifted 1).append (Lexeme.opensBreak_parenthesis (.inr rfl) _) hclosed
  rw [Nat.add_comm] at hmoved
  have hopened := parenthesis (.inl rfl) hmoved
  have hwhole := hbefore.append (Lexeme.opensBreak_parenthesis (.inl rfl) _) hopened
  refine ⟨front, inside, rest, _, ⟨rfl, ?_, ?_⟩, hwhole, ?_⟩
  · intro token htoken
    obtain rfl : first = token := by simpa using htoken
    rw [hfirst, hstart, Nat.zero_add]
  · intro token htoken
    rw [endOf, htoken, Option.map_some, Option.getD_some] at hend
    rw [hend, hfinish, hstart, Nat.zero_add, width_append]
  · simp only [List.map_append, List.map_cons, List.map_map, Function.comp_def,
      Token.word_shifted, enclosedWords]
    rfl

end Scan

/-! ## Whole sources -/

section Source

variable {source : String} {file : Option String} {parser : Parser} {tree : Expr}

/-- What a parser reads with a given limit, up to the end of its source, is a phrase that takes up
the whole source and opens no more levels than that. -/
theorem exists_phrase_of_expression {grammar : Grammar} {limit : Nat} {after : Parser}
    (hbare : grammar.FinishBare)
    (hfresh : Parser.ofLexer (.ofSource source file) grammar = .ok parser)
    (hread : Parser.expression Grammar.loosestPower (parser.withLimit limit) = .ok tree after)
    (hend : after.current.kind = .finish) :
    ∃ phrase : Phrase, tokenize source file = .ok (tokenRow source file phrase.tokens) ∧
      phrase.Fits grammar Grammar.loosestPower ∧ phrase.tree = tree ∧ phrase.height ≤ limit := by
  obtain ⟨tokens, last, hitems, hkinds, hlast⟩ := Lexer.items_ofSource source file
  obtain ⟨rfl, hparser, hcursor⟩ := Parser.of_ofLexer hitems (by simp) hfresh
  have hready : parser.cursor.Ready parser.grammar := by
    rw [ofLexer_eq hitems] at hfresh
    split at hfresh
    · next token next hshift =>
        obtain ⟨-, hready⟩ := Cursor.Ready.of_opening hlast hshift
        rw [← Except.ok.inj hfresh]
        exact hready
    · contradiction
  obtain ⟨result, hrun⟩ :=
    Run.exists_read parser.grammar limit limit Grammar.loosestPower parser.cursor
  rw [Parser.expression_withLimit hparser hrun] at hread
  cases result with
  | error failure next => contradiction
  | ok read next =>
      injection hread with htree hafter
      subst htree hafter
      exact exists_phrase_of_run hbare hitems hkinds hlast hcursor hready hrun hend

/-- With a group put around a part of it, a phrase of arithmetic is parsed into the same tree. -/
theorem parse_of_enclosedWords {context : Phrase.Context} {part : Phrase} {tokens : List Token}
    (hfits : (context.fill part).Fits .arithmetic Grammar.loosestPower)
    (hheight : (context.fill part).height < Parser.standardLimit)
    (htokenize : tokenize source file = .ok (tokenRow source file tokens))
    (hwords : tokens.map Token.word =
      enclosedWords context.before part.tokens context.behind) :
    parse source file = .ok (context.fill part).tree := by
  let opening : Token := ⟨.operator, "(", ⟨0, 0, ""⟩⟩
  let closing : Token := ⟨.operator, ")", ⟨0, 0, ""⟩⟩
  have hopening : Grammar.arithmetic.prefixOf? opening = some ⟨.group, Grammar.loosestPower⟩ :=
    Grammar.arithmetic_prefixOf?_iff.mpr (.inr (.inr ⟨by decide, rfl⟩))
  have hgroup := Phrase.Context.fits_fill_group Grammar.arithmetic_completes hopening hfits
  have htree : (context.fill (.group opening part closing)).tree = (context.fill part).tree :=
    context.tree_fill rfl
  have hlevels := calc
    (context.fill (.group opening part closing)).height
      ≤ (context.fill part).height + 1 :=
        context.height_fill (Nat.le_of_eq (Nat.add_comm 1 part.height))
    _ ≤ Parser.standardLimit := hheight
  have hrow : enclosedWords context.before part.tokens context.behind =
      (context.fill (.group opening part closing)).tokens.map Token.word := by
    rw [context.tokens_fill]
    simp [enclosedWords, Phrase.tokens, Token.word, opening, closing]
  rw [← htree]
  apply parseWith_of_words Grammar.arithmetic_finish_power hgroup hlevels htokenize
  rw [hwords, hrow]

/-- Parentheses around the middle one of three rows of tokens, which make up a source, change
nothing: sources with those tokens are parsed into the tree, and the one in which the parentheses
are written down right beside the middle row is such a source. -/
structure Redundant (source : String) (file : Option String) (tree : Expr)
    (before middle behind : List Token) : Prop where
  parse_eq : ∀ other name tokens, tokenize other name = .ok (tokenRow other name tokens) →
    tokens.map Token.word = enclosedWords before middle behind → parse other name = .ok tree
  written : ∃ front inside rest tokens, Flanked source.toList front inside rest middle ∧
    tokenize (String.ofList (enclosed front inside rest)) file =
      .ok (tokenRow (String.ofList (enclosed front inside rest)) file tokens) ∧
    tokens.map Token.word = enclosedWords before middle behind ∧
    parse (String.ofList (enclosed front inside rest)) file = .ok tree

/-- The phrase is the only one that takes up the source, all nodes of the tree come from parts of
it, and parentheses around any of its parts, be it a group or not, change nothing. -/
structure Phrase.Enclosable (source : String) (file : Option String) (tree : Expr)
    (phrase : Phrase) : Prop where
  tokenize_eq : tokenize source file = .ok (tokenRow source file phrase.tokens)
  fits : phrase.Fits .arithmetic Grammar.loosestPower
  tree_eq : phrase.tree = tree
  unique : ∀ other : Phrase, other.Fits .arithmetic Grammar.loosestPower →
    other.tokens = phrase.tokens → other = phrase
  nodes : ∀ path node, tree.at? path = some node →
    ∃ (context : Context) (part : Phrase), context.fill part = phrase ∧ context.path = path ∧
      part.tree = node ∧ part.form? ≠ some .group
  parts : ∀ (context : Context) (part : Phrase), context.fill part = phrase →
    phrase.tokens = context.before ++ (part.tokens ++ context.behind) ∧
      tree.at? context.path = some part.tree ∧
      Redundant source file tree context.before part.tokens context.behind

/-- Parentheses can be written down beside the tokens of a source, and become tokens there. -/
theorem tokenize_enclosed {before middle behind : List Token} (hmiddle : middle ≠ [])
    (htokenize : tokenize source file =
      .ok (tokenRow source file (before ++ (middle ++ behind)))) :
    ∃ front inside rest tokens, Flanked source.toList front inside rest middle ∧
      tokenize (String.ofList (enclosed front inside rest)) file =
        .ok (tokenRow (String.ofList (enclosed front inside rest)) file tokens) ∧
      tokens.map Token.word = enclosedWords before middle behind := by
  obtain ⟨front, inside, rest, tokens, hflanked, henclosed, hwords⟩ :=
    (scan_of_row htokenize).enclose hmiddle
  rw [← @String.toList_ofList (enclosed front inside rest)] at henclosed
  exact ⟨front, inside, rest, tokens, hflanked,
    tokenize_of_scan henclosed Lexeme.classify?_nil, hwords⟩

/-- Where the parser reads a whole source without using up its last level, parentheses may be put
around everything that a node of the tree was read from. -/
theorem expression_enclosable {after : Parser}
    (hfresh : Parser.ofLexer (.ofSource source file) .arithmetic = .ok parser)
    (hread : Parser.expression Grammar.loosestPower
      (parser.withLimit (Parser.standardLimit - 1)) = .ok tree after)
    (hend : after.current.kind = .finish) :
    ∃ phrase : Phrase, phrase.Enclosable source file tree := by
  obtain ⟨phrase, htokenize, hfits, rfl, hheight⟩ :=
    exists_phrase_of_expression Grammar.arithmetic_finishBare hfresh hread hend
  have hlower : phrase.height < Parser.standardLimit := Nat.lt_of_le_of_lt hheight (by decide)
  refine ⟨phrase, htokenize, hfits, rfl, ?_, ?_, ?_⟩
  · intro other hother htokens
    exact hother.eq_of_tokens hfits htokens
  · intro path node hnode
    exact Phrase.Context.exists_of_at? phrase hnode
  · rintro context part rfl
    rw [context.tokens_fill] at htokenize
    obtain ⟨front, inside, rest, tokens, hflanked, henclosed, hwords⟩ :=
      tokenize_enclosed part.tokens_ne_nil htokenize
    refine ⟨context.tokens_fill part, context.at?_fill part, ?_, ?_⟩
    · intro other name tokens hother hwords
      exact parse_of_enclosedWords hfits hlower hother hwords
    · have hparse := parse_of_enclosedWords hfits hlower henclosed hwords
      exact ⟨front, inside, rest, tokens, hflanked, henclosed, hwords, hparse⟩

/-- A sign before a group, and an operator behind it. -/
theorem expression_enclosable_sign : ∃ phrase : Phrase, phrase.Enclosable "-(1+ x)^y" none
    (.binary "^" (.unary "-" (.binary "+" (.literal "1") (.identifier "x"))) (.identifier "y")) := by
  let parser : Parser :=
    { grammar := .arithmetic
      current := ⟨.operator, "-", ⟨0, 1, "shell"⟩⟩
      pending := [.ok ⟨.operator, "(", ⟨1, 2, "shell"⟩⟩, .ok ⟨.number, "1", ⟨2, 3, "shell"⟩⟩,
        .ok ⟨.operator, "+", ⟨3, 4, "shell"⟩⟩, .ok ⟨.name, "x", ⟨5, 6, "shell"⟩⟩,
        .ok ⟨.operator, ")", ⟨6, 7, "shell"⟩⟩, .ok ⟨.operator, "^", ⟨7, 8, "shell"⟩⟩,
        .ok ⟨.name, "y", ⟨8, 9, "shell"⟩⟩, .ok (.closing 9 "shell")]
      depth := 0
      limit := Parser.standardLimit }
  have hfresh : Parser.ofLexer (.ofSource "-(1+ x)^y" none) .arithmetic = .ok parser := by
    decide +kernel
  let after : Parser :=
    { grammar := .arithmetic
      current := .closing 9 "shell"
      pending := []
      depth := 0
      limit := Parser.standardLimit - 1 }
  have hread : Parser.expression Grammar.loosestPower
      (parser.withLimit (Parser.standardLimit - 1)) =
      .ok (.binary "^" (.unary "-" (.binary "+" (.literal "1") (.identifier "x")))
        (.identifier "y")) after := by
    decide +kernel
  exact expression_enclosable hfresh hread rfl

end Source

end Precedence
