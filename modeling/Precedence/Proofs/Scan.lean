import Mathlib.Data.List.Forall2
import Precedence.Lexer
import Precedence.Proofs.Lexeme

/-!
# Scanning a source

A scan takes a text apart into gaps and lexemes until no lexeme is found any more.  Every text has a
scan, the items of a lexer are read off the scan of its source, and a scan can be cut where it
stops: the text in front of that place is scanned into the same tokens.
-/

namespace Precedence

open Text

namespace Text

@[simp]
theorem utf8ByteSize_ofList (text : List Char) :
    (String.ofList text).utf8ByteSize = width text := by
  induction text with
  | nil => rfl
  | cons c rest ih =>
      rw [← List.singleton_append, String.ofList_append, String.utf8ByteSize_append, ih,
        width_append, ← String.singleton_eq_ofList, String.utf8ByteSize_singleton]
      simp

theorem utf8ByteSize_eq_width (source : String) : source.utf8ByteSize = width source.toList := by
  rw [← utf8ByteSize_ofList, String.ofList_toList]

theorem width_pos {text : List Char} (hne : text ≠ []) : 0 < width text := by
  obtain ⟨c, rest, rfl⟩ := List.exists_cons_of_ne_nil hne
  have hc := c.utf8Size_pos
  rw [width_cons]
  omega

end Text

/-- The token of a lexeme that begins at the offset `start` of a source. -/
def Token.cut (file : String) (start : Nat) (kind : TokenKind) (lexeme : List Char) : Token :=
  ⟨kind, String.ofList lexeme, ⟨start, (start + width lexeme : Nat), file⟩⟩

/-- The text, which begins at an offset of its source, is scanned into tokens.  The scan stops at
another offset with some text left over, at which no gap is ahead. -/
inductive Scan (file : String) : Nat → List Char → List Token → Nat → List Char → Prop
  | gap {offset : Nat} {gap left : List Char} (hgap : ∀ c ∈ gap, Lexeme.isGap c = true)
      (hleft : Stops Lexeme.isGap left) :
      Scan file offset (gap ++ left) [] (offset + width gap) left
  | token {offset stop : Nat} {gap lexeme rest left : List Char} {kind : TokenKind}
      {tokens : List Token} (hgap : ∀ c ∈ gap, Lexeme.isGap c = true)
      (hlexeme : Stops Lexeme.isGap lexeme)
      (hfound : Lexeme.classify? (lexeme ++ rest) = some (kind, lexeme))
      (hrest : Scan file (offset + width gap + width lexeme) rest tokens stop left) :
      Scan file offset (gap ++ (lexeme ++ rest))
        (Token.cut file (offset + width gap) kind lexeme :: tokens) stop left

namespace Scan

variable {file : String} {offset stop : Nat} {text left : List Char} {tokens : List Token}

/-- Every text can be scanned until no lexeme is found. -/
theorem exists_scan (file : String) (offset : Nat) (text : List Char) :
    ∃ tokens stop left, Scan file offset text tokens stop left ∧ Lexeme.classify? left = none := by
  induction hlength : text.length using Nat.strongRecOn generalizing offset text with
  | ind length ih =>
      have hgap := forall_takeWhile Lexeme.isGap text
      have hleft := stops_dropWhile Lexeme.isGap text
      have htext := List.takeWhile_append_dropWhile (p := Lexeme.isGap) (l := text)
      generalize text.takeWhile Lexeme.isGap = gap at hgap htext
      generalize text.dropWhile Lexeme.isGap = body at hleft htext
      subst htext
      cases hfound : Lexeme.classify? body with
      | none => exact ⟨[], _, body, .gap hgap hleft, hfound⟩
      | some found =>
          obtain ⟨kind, lexeme⟩ := found
          obtain ⟨⟨rest, rfl⟩, hne, -⟩ := Lexeme.classify?_front hfound
          have hshorter : rest.length < length := by
            have hlexeme := List.length_pos_iff.mpr hne
            simp only [List.length_append] at hlength
            omega
          obtain ⟨tokens, stop, left, hscan, hend⟩ :=
            ih rest.length hshorter (offset + width gap + width lexeme) rest rfl
          exact ⟨_, stop, left, .token hgap hleft.cut hfound hscan, hend⟩

/-- The text in front of the place where a scan stops is scanned into the same tokens. -/
theorem cut (hscan : Scan file offset text tokens stop left) :
    ∃ done, text = done ++ left ∧ stop = offset + width done ∧
      Scan file offset done tokens stop [] := by
  induction hscan with
  | @gap offset gap left hgap hleft =>
      refine ⟨gap, rfl, rfl, ?_⟩
      have hdone : Scan file offset (gap ++ []) [] (offset + width gap) [] :=
        .gap hgap (by simp [Stops])
      simpa using hdone
  | @token offset stop gap lexeme rest left kind tokens hgap hlexeme hfound hrest ih =>
      obtain ⟨done, rfl, rfl, hdone⟩ := ih
      refine ⟨gap ++ (lexeme ++ done), by simp, by simp only [width_append]; omega, ?_⟩
      exact .token hgap hlexeme (Lexeme.classify?_cut hfound) hdone

theorem stops (hscan : Scan file offset text tokens stop left) : Stops Lexeme.isGap left := by
  induction hscan with
  | gap hgap hleft => exact hleft
  | token hgap hlexeme hfound hrest ih => exact ih

theorem kind_ne (hscan : Scan file offset text tokens stop left) :
    ∀ token ∈ tokens, token.kind ≠ .start ∧ token.kind ≠ .finish := by
  induction hscan with
  | gap => simp
  | token hgap hlexeme hfound hrest ih =>
      intro token htoken
      rcases List.mem_cons.mp htoken with rfl | htoken
      · exact (Lexeme.classify?_front hfound).2.2
      · exact ih token htoken

end Scan

/-! ## Where tokens and gaps lie -/

/-- The piece of a text that lies between two byte offsets. -/
def Slice (text : List Char) (start stop : Int) (piece : List Char) : Prop :=
  ∃ before after, text = before ++ (piece ++ after) ∧ start = width before ∧
    stop = width (before ++ piece)

/-- The bounds of the gaps between `start` and `stop`: in front of the first token, between each
token and the next, and behind the last. -/
def gapBounds (start stop : Int) : List Token → List (Int × Int)
  | [] => [(start, stop)]
  | token :: tokens => (start, token.span.start) :: gapBounds token.span.stop stop tokens

/-- Gaps and lexemes in turn, beginning with a gap. -/
def interleave : List (List Char) → List (List Char) → List Char
  | gap :: gaps, lexeme :: lexemes => gap ++ (lexeme ++ interleave gaps lexemes)
  | gaps, _ => gaps.flatten

/-- What the tokens that were cut out of a text have to do with it. -/
structure SpanLaw (file : String) (text : List Char) (tokens : List Token) : Prop where
  kinds : ∀ token ∈ tokens, token.kind ≠ .start ∧ token.kind ≠ .finish
  files : ∀ token ∈ tokens, token.span.file = file
  bounds : ∀ token ∈ tokens, 0 ≤ token.span.start ∧ token.span.start < token.span.stop ∧
    token.span.stop ≤ width text
  /-- A lexeme is the text between the bounds of its span. -/
  lexemes : ∀ token ∈ tokens, Slice text token.span.start token.span.stop token.lexeme.toList
  /-- The spans do not overlap and go from left to right. -/
  ordered : tokens.Pairwise fun earlier later => earlier.span.stop ≤ later.span.start
  /-- What lies outside the spans is gaps, which together with the lexemes make up the text. -/
  gaps : ∃ gaps, List.Forall₂
      (fun gap bounds => Slice text bounds.1 bounds.2 gap ∧ ∀ c ∈ gap, Lexeme.isGap c = true)
      gaps (gapBounds 0 (width text) tokens) ∧
    interleave gaps (tokens.map fun token => token.lexeme.toList) = text

namespace Scan

variable {file : String} {offset stop : Nat} {text left : List Char} {tokens : List Token}

theorem span_file (hscan : Scan file offset text tokens stop left) :
    ∀ token ∈ tokens, token.span.file = file := by
  induction hscan with
  | gap => simp
  | token hgap hlexeme hfound hrest ih =>
      intro token htoken
      rcases List.mem_cons.mp htoken with rfl | htoken
      · rfl
      · exact ih token htoken

theorem offset_le_start (hscan : Scan file offset text tokens stop left) :
    ∀ token ∈ tokens, (offset : Int) ≤ token.span.start := by
  induction hscan with
  | gap => simp
  | token hgap hlexeme hfound hrest ih =>
      intro token htoken
      rcases List.mem_cons.mp htoken with rfl | htoken
      · simp only [Token.cut]
        omega
      · have hstart := ih token htoken
        omega

theorem start_lt_stop (hscan : Scan file offset text tokens stop left) :
    ∀ token ∈ tokens, token.span.start < token.span.stop := by
  induction hscan with
  | gap => simp
  | token hgap hlexeme hfound hrest ih =>
      intro token htoken
      rcases List.mem_cons.mp htoken with rfl | htoken
      · have hwidth := width_pos (Lexeme.classify?_front hfound).2.1
        simp only [Token.cut]
        omega
      · exact ih token htoken

theorem ordered (hscan : Scan file offset text tokens stop left) :
    tokens.Pairwise fun earlier later => earlier.span.stop ≤ later.span.start := by
  induction hscan with
  | gap => exact .nil
  | token hgap hlexeme hfound hrest ih =>
      refine List.pairwise_cons.mpr ⟨?_, ih⟩
      intro later hlater
      exact hrest.offset_le_start later hlater

/-- A token of a scan is a slice of the whole source, of which `before` was passed already. -/
theorem slice_lexeme (hscan : Scan file offset text tokens stop left) :
    ∀ before, width before = offset → ∀ token ∈ tokens,
      Slice (before ++ text) token.span.start token.span.stop token.lexeme.toList := by
  induction hscan with
  | gap => simp
  | @token offset stop gap lexeme rest left kind tokens hgap hlexeme hfound hrest ih =>
      intro before hbefore token htoken
      rcases List.mem_cons.mp htoken with rfl | htoken
      · refine ⟨before ++ gap, rest, by simp [Token.cut], ?_, ?_⟩
        · simp [Token.cut, hbefore]
        · simp [Token.cut, hbefore, Nat.add_assoc]
      · have hpassed : width (before ++ gap ++ lexeme) = offset + width gap + width lexeme := by
          simp [hbefore, Nat.add_assoc]
        simpa using ih (before ++ gap ++ lexeme) hpassed token htoken

theorem exists_gaps (hscan : Scan file offset text tokens stop []) :
    ∀ before, width before = offset → ∃ gaps, List.Forall₂
      (fun gap bounds =>
        Slice (before ++ text) bounds.1 bounds.2 gap ∧ ∀ c ∈ gap, Lexeme.isGap c = true)
      gaps (gapBounds offset (width (before ++ text)) tokens) ∧
      interleave gaps (tokens.map fun token => token.lexeme.toList) = text := by
  generalize hleft : ([] : List Char) = left at hscan
  induction hscan with
  | @gap offset gap left hgap _ =>
      subst hleft
      intro before hbefore
      refine ⟨[gap], .cons ⟨⟨before, [], by simp, ?_, ?_⟩, hgap⟩ .nil, by simp [interleave]⟩
      · simp [hbefore]
      · simp
  | @token offset stop gap lexeme rest left kind tokens hgap hlexeme hfound hrest ih =>
      intro before hbefore
      have hpassed : width (before ++ gap ++ lexeme) = offset + width gap + width lexeme := by
        simp [hbefore, Nat.add_assoc]
      obtain ⟨gaps, hgaps, hinterleave⟩ := ih hleft (before ++ gap ++ lexeme) hpassed
      refine ⟨gap :: gaps, .cons ⟨⟨before, lexeme ++ rest, rfl, ?_, ?_⟩, hgap⟩ ?_, ?_⟩
      · simp [hbefore]
      · simp [Token.cut, hbefore]
      · simpa [Token.cut] using hgaps
      · simp [interleave, Token.cut, hinterleave]

/-- A scan that leaves nothing over obeys the law of spans. -/
theorem spanLaw (hscan : Scan file 0 text tokens stop []) : SpanLaw file text tokens where
  kinds := hscan.kind_ne
  files := hscan.span_file
  bounds := by
    intro token htoken
    obtain ⟨before, after, htext, hstart, hstop⟩ := hscan.slice_lexeme [] rfl token htoken
    have hwidth : width text = width (before ++ token.lexeme.toList) + width after := by
      simp only [List.nil_append] at htext
      rw [htext, ← List.append_assoc, width_append]
    have hlt := hscan.start_lt_stop token htoken
    omega
  lexemes := hscan.slice_lexeme [] rfl
  ordered := hscan.ordered
  gaps := hscan.exists_gaps [] rfl

end Scan

/-! ## The items of a lexer -/

namespace Lexer

theorem eq_of_map_ok {tokens others : List Token}
    (hmap : tokens.map (Except.ok (ε := Error)) = others.map Except.ok) : tokens = others :=
  List.map_injective_iff.mpr (fun _ _ => Except.ok.inj) hmap

/-- The name that the tokens of a source give to it. -/
def fileName (file : Option String) : String := file.getD defaultFile

/-- What a walk over a source of `length` bytes ends with, where no lexeme is found in the text
left over at the offset `stop`. -/
def lastItem (length : Nat) (file : String) (stop : Nat) : List Char → Item
  | [] => .ok (.closing length file)
  | c :: _ => .error ⟨.unexpectedCharacter c, ⟨stop, file⟩⟩

theorem collect_finished {lexer : Lexer} (hphase : lexer.phase = .finished) (count : Nat)
    (found : List Item) : (lexer.collect count found).1 = found := by
  cases count with
  | zero => rfl
  | succ count => simp [collect, next, hphase]

theorem scan_token {lexer : Lexer} {lexeme rest : List Char} {kind : TokenKind}
    (hahead : lexer.ahead = lexeme ++ rest)
    (hfound : Lexeme.classify? (lexeme ++ rest) = some (kind, lexeme)) :
    lexer.scan = (.ok (Token.cut lexer.file lexer.offset kind lexeme),
      { lexer with offset := lexer.offset + width lexeme, ahead := rest }) := by
  have hne := (Lexeme.classify?_front hfound).2.1
  rw [scan]
  split
  · next hnil => simp [hahead, hne] at hnil
  · rw [hahead, hfound]
    simp [Token.cut]

theorem scan_last {lexer : Lexer} (hend : Lexeme.classify? lexer.ahead = none) :
    lexer.scan = (lastItem lexer.length lexer.file lexer.offset lexer.ahead,
      { lexer with phase := .finished }) := by
  rw [scan]
  split
  · next hnil => simp [hnil, lastItem]
  · next c rest hcons =>
      rw [hend]
      simp [hcons, lastItem]

/-- A lexer at a text that a scan takes apart yields the tokens of the scan and a last item. -/
theorem collect_of_scan {file : String} {length offset stop : Nat} {text left : List Char}
    {tokens : List Token} (hscan : Scan file offset text tokens stop left)
    (hend : Lexeme.classify? left = none) :
    ∀ count found, text.length < count →
      (collect count ⟨file, length, offset, text, 0, .scanning⟩ found).1 =
        lastItem length file stop left :: ((tokens.map .ok).reverse ++ found) := by
  induction hscan with
  | @gap offset gap left hgap hleft =>
      intro count found hcount
      obtain ⟨count, rfl⟩ := Nat.exists_eq_succ_of_ne_zero (Nat.ne_zero_of_lt hcount)
      have hnext : next ⟨file, length, offset, gap ++ left, 0, .scanning⟩ =
          (.item (lastItem length file (offset + width gap) left),
            ⟨file, length, offset + width gap, left, 0, .finished⟩) := by
        simp only [next, skipGap, if_true, hleft.takeWhile hgap, hleft.dropWhile hgap]
        rw [scan_last hend]
      rw [collect, hnext]
      exact collect_finished rfl count _
  | @token offset stop gap lexeme rest left kind tokens hgap hlexeme hfound hrest ih =>
      intro count found hcount
      obtain ⟨count, rfl⟩ := Nat.exists_eq_succ_of_ne_zero (Nat.ne_zero_of_lt hcount)
      have hbody : Stops Lexeme.isGap (lexeme ++ rest) :=
        hlexeme.append (Lexeme.classify?_front hfound).2.1
      have hnext : next ⟨file, length, offset, gap ++ (lexeme ++ rest), 0, .scanning⟩ =
          (.item (.ok (Token.cut file (offset + width gap) kind lexeme)),
            ⟨file, length, offset + width gap + width lexeme, rest, 0, .scanning⟩) := by
        simp only [next, skipGap, if_true, hbody.takeWhile hgap, hbody.dropWhile hgap]
        rw [scan_token rfl hfound]
      have hshorter : rest.length < count := by
        have hpositive := List.length_pos_iff.mpr (Lexeme.classify?_front hfound).2.1
        simp only [List.length_append] at hcount
        omega
      rw [collect, hnext]
      dsimp only
      rw [ih hend count _ hshorter]
      simp

/-- The items of a lexer are the tokens of the scan of its source, between an opening token and a
closing token or an error. -/
theorem items_of_scan {source : String} {file : Option String} {stop : Nat} {left : List Char}
    {tokens : List Token} (hscan : Scan (fileName file) 0 source.toList tokens stop left)
    (hend : Lexeme.classify? left = none) :
    (ofSource source file).items = .ok (.opening (fileName file)) ::
      (tokens.map .ok ++ [lastItem source.utf8ByteSize (fileName file) stop left]) := by
  have hstart : collect (source.toList.length + 2) (ofSource source file) [] =
      collect (source.toList.length + 1)
        ⟨fileName file, source.utf8ByteSize, 0, source.toList, 0, .scanning⟩
        [.ok (.opening (fileName file))] := rfl
  have hahead : (ofSource source file).ahead = source.toList := rfl
  simp only [items, drain, hahead, hstart]
  rw [collect_of_scan hscan hend _ _ (Nat.lt_succ_self _)]
  simp

/-- A lexer yields an opening token, tokens that neither open nor end a source, and then the closing
token or an error. -/
theorem items_ofSource (source : String) (file : Option String) :
    ∃ (tokens : List Token) (last : Item),
      (ofSource source file).items = .ok (.opening (fileName file)) :: (tokens.map .ok ++ [last]) ∧
      (∀ token ∈ tokens, token.kind ≠ .start ∧ token.kind ≠ .finish) ∧
      (last = .ok (.closing source.utf8ByteSize (fileName file)) ∨
        ∃ c position, last = .error ⟨.unexpectedCharacter c, position⟩) := by
  obtain ⟨tokens, stop, left, hscan, hend⟩ := Scan.exists_scan (fileName file) 0 source.toList
  refine ⟨tokens, _, items_of_scan hscan hend, hscan.kind_ne, ?_⟩
  cases left with
  | nil => exact .inl rfl
  | cons c left => exact .inr ⟨c, _, rfl⟩

/-- Tokens begin one behind the other. -/
def StartsBefore (earlier later : Item) : Prop :=
  ∀ first second, earlier = .ok first → later = .ok second →
    first.span.start < second.span.start

theorem eq_closing_of_lastItem {length stop : Nat} {file : String} {left : List Char}
    {token : Token} (hlast : lastItem length file stop left = .ok token) :
    left = [] ∧ token = .closing length file := by
  cases left with
  | nil => exact ⟨rfl, (Except.ok.inj hlast).symm⟩
  | cons c left => contradiction

theorem pairwise_startsBefore (source : String) (file : Option String) :
    (ofSource source file).items.Pairwise StartsBefore := by
  obtain ⟨tokens, stop, left, hscan, hend⟩ := Scan.exists_scan (fileName file) 0 source.toList
  rw [items_of_scan hscan hend, List.pairwise_cons, List.pairwise_append, List.pairwise_map]
  refine ⟨?_, ?_, List.pairwise_singleton _ _, ?_⟩
  · intro item hitem first second hfirst hsecond
    rw [hsecond, List.mem_append, List.mem_singleton] at hitem
    have hsecondStart : 0 ≤ second.span.start := by
      rcases hitem with hitem | hitem
      · obtain ⟨token, htoken, heq⟩ := List.mem_map.mp hitem
        rw [← Except.ok.inj heq]
        exact hscan.offset_le_start token htoken
      · rw [(eq_closing_of_lastItem hitem.symm).2]
        exact Int.natCast_nonneg _
    have hfirstStart : first.span.start = -1 := by
      rw [← Except.ok.inj hfirst]
      rfl
    omega
  · apply hscan.ordered.imp_of_mem
    intro earlier later hearlier hlater hle first second hfirst hsecond
    rw [← Except.ok.inj hfirst, ← Except.ok.inj hsecond]
    exact Int.lt_of_lt_of_le (hscan.start_lt_stop earlier hearlier) hle
  · intro item hitem last hlast first second hfirst hsecond
    rw [hsecond, List.mem_singleton] at hlast
    obtain ⟨rfl, rfl⟩ := eq_closing_of_lastItem hlast.symm
    obtain ⟨token, htoken, rfl⟩ := List.mem_map.mp hitem
    rw [← Except.ok.inj hfirst]
    obtain ⟨-, hlt, hle⟩ := hscan.spanLaw.bounds token htoken
    rw [← utf8ByteSize_eq_width] at hle
    exact Int.lt_of_lt_of_le hlt hle

theorem start_lt_start {before between after : List Item} {first second : Token}
    (hpair : (before ++ .ok first :: (between ++ .ok second :: after)).Pairwise StartsBefore) :
    first.span.start < second.span.start := by
  have hrest := (List.pairwise_append.mp hpair).2.1
  have hmem : Except.ok second ∈ between ++ Except.ok second :: after := by simp
  exact (List.pairwise_cons.mp hrest).1 _ hmem first second rfl rfl

/-- A token can be told by its place. -/
theorem eq_of_start_eq {before before' after after' : List Item} {first second : Token}
    (hpair : (before ++ .ok first :: after).Pairwise StartsBefore)
    (hitems : before ++ .ok first :: after = before' ++ .ok second :: after')
    (hstart : first.span.start = second.span.start) : before = before' ∧ first = second := by
  rcases List.append_eq_append_iff.mp hitems with
    ⟨between, hbefore, hrest⟩ | ⟨between, hbefore, hrest⟩
  · cases between with
    | nil =>
        rw [List.append_nil] at hbefore
        exact ⟨hbefore.symm, Except.ok.inj (List.cons.inj hrest).1⟩
    | cons item between =>
        rw [(List.cons.inj hrest).2] at hpair
        exact absurd hstart (Int.ne_of_lt (start_lt_start hpair))
  · cases between with
    | nil =>
        rw [List.append_nil] at hbefore
        exact ⟨hbefore, Except.ok.inj (List.cons.inj hrest).1.symm⟩
    | cons item between =>
        rw [hitems, (List.cons.inj hrest).2] at hpair
        exact absurd hstart.symm (Int.ne_of_lt (start_lt_start hpair))

end Lexer

theorem mapM_map_ok (row : List Token) :
    (row.map (Except.ok (ε := Error))).mapM id = .ok row := by
  induction row with
  | nil => rfl
  | cons token row ih =>
      rw [List.map_cons, List.mapM_cons, ih]
      rfl

theorem mapM_map_ok_append_error (row : List Token) (error : Error) :
    (row.map Except.ok ++ [Except.error error]).mapM id = .error error := by
  induction row with
  | nil => rfl
  | cons token row ih =>
      rw [List.map_cons, List.cons_append, List.mapM_cons, ih]
      rfl

/-- The listing of the tokens of a source, where it yields one last item behind them. -/
theorem Lexer.tokenize_of_items {source : String} {file : Option String} {tokens : List Token}
    {first : Token} {last : Lexer.Item}
    (hitems : (Lexer.ofSource source file).items = .ok first :: (tokens.map .ok ++ [last])) :
    tokenize source file = last.map fun final => first :: (tokens ++ [final]) := by
  cases last with
  | ok final =>
      rw [tokenize, hitems]
      have hmap := mapM_map_ok (first :: (tokens ++ [final]))
      simp only [List.map_cons, List.map_append, List.map_nil] at hmap
      exact hmap
  | error cause =>
      rw [tokenize, hitems]
      exact mapM_map_ok_append_error (first :: tokens) cause

/-- A source that begins with a gap and a character that begins no lexeme is refused there. -/
theorem tokenize_foreign {source : String} {gap rest : List Char} {c : Char}
    (hsource : source.toList = gap ++ c :: rest) (hgap : ∀ d ∈ gap, Lexeme.isGap d = true)
    (hc : Lexeme.isGap c = false) (hnone : Lexeme.classify? (c :: rest) = none)
    (file : Option String) :
    tokenize source file = .error ⟨.unexpectedCharacter c, ⟨width gap, Lexer.fileName file⟩⟩ := by
  have hscan : Scan (Lexer.fileName file) 0 source.toList [] (0 + width gap) (c :: rest) := by
    rw [hsource]
    exact .gap hgap (by simpa [Stops] using hc)
  rw [Lexer.tokenize_of_items (Lexer.items_of_scan hscan hnone), Nat.zero_add]
  rfl

/-- Tokens are listed exactly if the lexer yields them all and no error. -/
theorem tokenize_eq_ok_iff {source : String} {file : Option String} {row : List Token} :
    tokenize source file = .ok row ↔ (Lexer.ofSource source file).items = row.map .ok := by
  constructor
  · intro hrow
    obtain ⟨tokens, stop, left, hscan, hend⟩ :=
      Scan.exists_scan (Lexer.fileName file) 0 source.toList
    rw [tokenize, Lexer.items_of_scan hscan hend] at hrow
    rw [Lexer.items_of_scan hscan hend]
    cases left with
    | nil =>
        have hmap := mapM_map_ok
          (.opening (Lexer.fileName file) ::
            (tokens ++ [.closing source.utf8ByteSize (Lexer.fileName file)]))
        simp only [List.map_cons, List.map_append, List.map_nil] at hmap
        rw [Lexer.lastItem, hmap, Except.ok.injEq] at hrow
        simp [← hrow, Lexer.lastItem]
    | cons c left =>
        have hmap := mapM_map_ok_append_error (.opening (Lexer.fileName file) :: tokens)
          ⟨.unexpectedCharacter c, ⟨stop, Lexer.fileName file⟩⟩
        simp only [List.map_cons, List.cons_append] at hmap
        rw [Lexer.lastItem, hmap] at hrow
        contradiction
  · intro hitems
    rw [tokenize, hitems, mapM_map_ok]

/-- Tokenizing a source cuts it into gaps and lexemes.  Where that fails, the text in front of the
offending character is cut into the tokens that were found before it. -/
theorem tokenize_spanLaw (source : String) (file : Option String) :
    match tokenize source file with
    | .ok row => ∃ tokens,
        row = .opening (Lexer.fileName file) ::
          (tokens ++ [.closing source.utf8ByteSize (Lexer.fileName file)]) ∧
        SpanLaw (Lexer.fileName file) source.toList tokens
    | .error error => ∃ tokens done c rest,
        source.toList = done ++ c :: rest ∧
        error = ⟨.unexpectedCharacter c, ⟨width done, Lexer.fileName file⟩⟩ ∧
        (Lexer.ofSource source file).items =
          .ok (.opening (Lexer.fileName file)) :: (tokens.map .ok ++ [.error error]) ∧
        SpanLaw (Lexer.fileName file) done tokens ∧
        tokenize (String.ofList done) file = .ok (.opening (Lexer.fileName file) ::
          (tokens ++ [.closing (width done) (Lexer.fileName file)])) := by
  obtain ⟨tokens, stop, left, hscan, hend⟩ :=
    Scan.exists_scan (Lexer.fileName file) 0 source.toList
  have hitems := Lexer.items_of_scan hscan hend
  cases left with
  | nil =>
      have htokenize : tokenize source file = .ok (.opening (Lexer.fileName file) ::
          (tokens ++ [.closing source.utf8ByteSize (Lexer.fileName file)])) := by
        rw [tokenize_eq_ok_iff, hitems]
        simp [Lexer.lastItem]
      rw [htokenize]
      exact ⟨tokens, rfl, hscan.spanLaw⟩
  | cons c rest =>
      obtain ⟨done, hsource, hstop, hdone⟩ := hscan.cut
      have hstop : stop = width done := by omega
      subst hstop
      rw [Lexer.lastItem] at hitems
      have htokenize : tokenize source file =
          .error ⟨.unexpectedCharacter c, ⟨width done, Lexer.fileName file⟩⟩ := by
        rw [tokenize, hitems]
        exact mapM_map_ok_append_error (.opening (Lexer.fileName file) :: tokens) _
      have hshort : tokenize (String.ofList done) file = .ok (.opening (Lexer.fileName file) ::
          (tokens ++ [.closing (width done) (Lexer.fileName file)])) := by
        rw [tokenize_eq_ok_iff, Lexer.items_of_scan (by simpa using hdone) Lexeme.classify?_nil]
        simp [Lexer.lastItem]
      rw [htokenize]
      exact ⟨tokens, done, c, rest, hsource, rfl, hitems, hdone.spanLaw, hshort⟩

end Precedence
