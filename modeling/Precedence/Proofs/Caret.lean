import Precedence.Diagnostic
import Precedence.Proofs.SourceLine

/-!
# Where the caret stands

A diagnostic ends with the source line of its error and a caret below it.  The place is given in
bytes, the line is shown without its indentation and the blanks at its end, and the caret is moved
by characters; all the same it stands below the character that the error is about, or behind the
last line where the error is about the end of the source.

A diagnostic can be written unless its caret stands too far to the right, for which the source must
have no fewer bytes than a field is wide.
-/

namespace Precedence

namespace Text

theorem charsWithin?_append (front rest : List Char) :
    charsWithin? (front ++ rest) (width front) = some front.length := by
  suffices hloop : ∀ seen, charsWithin?.loop (front ++ rest) (width front) seen =
      some (seen + front.length) by
    rw [charsWithin?, hloop, Nat.zero_add]
  induction front with
  | nil =>
      intro seen
      rw [width_nil, charsWithin?.loop]
      rfl
  | cons c front ih =>
      intro seen
      have hc := c.utf8Size_pos
      have hrest : c.utf8Size + width front - c.utf8Size = width front := by omega
      rw [width_cons, List.cons_append, charsWithin?.loop.eq_3 _ _ _ _ (by omega),
        if_pos (Nat.le_add_right _ _), hrest, ih, List.length_cons]
      congr 1
      omega

/-- There are no more characters than bytes. -/
theorem charsWithin?_le {text : List Char} {bytes count : Nat}
    (hcount : charsWithin? text bytes = some count) : count ≤ bytes := by
  have hloop : ∀ seen, charsWithin?.loop text bytes seen = some count → count ≤ seen + bytes := by
    clear hcount
    intro seen hseen
    fun_induction charsWithin?.loop text bytes seen with
    | case1 text seen => exact Nat.le_of_eq (Option.some.inj hseen).symm
    | case2 => contradiction
    | case3 c rest bytes seen hpositive hfits ih =>
        have hc := c.utf8Size_pos
        have hrest := ih hseen
        omega
    | case4 => contradiction
  have hall := hloop 0 hcount
  rwa [Nat.zero_add] at hall

end Text

namespace Diagnostic

open Text

/-- What stands on the line of a place before it. -/
def lineBefore (before : List Char) : List Char := before.rtakeWhile staysOnLine

/-- What stands on the line of a place behind it. -/
def lineBehind (after : List Char) : List Char := after.takeWhile staysOnLine

/-- The line around a place without its indentation and the blanks at its end. -/
def shownAround (before after : List Char) : List Char :=
  trimEnd ((lineBefore before ++ lineBehind after).dropWhile isIndent)

/-- The number of the line that a place behind the text is on, and a bar. -/
def label (before : List Char) : List Char :=
  (toString (before.count '\n' + 1)).toList ++ [' ', '|', ' ']

/-- The numbered line and the line below it point at the place between two parts of a text. -/
structure PointsAt (before after numbered pointer : List Char) : Prop where
  numbered_eq : numbered = label before ++ shownAround before after
  /-- Each of the two is one line. -/
  unbroken : '\n' ∉ numbered ∧ '\n' ∉ pointer
  /-- The bars stand in the same column. -/
  bars : '|' ∈ pointer ∧ pointer.idxOf '|' = numbered.idxOf '|'
  /-- The column of the caret counts the characters between the indentation and the place. -/
  caret : '^' ∈ pointer ∧
    pointer.idxOf '^' = (label before ++ (lineBefore before).dropWhile isIndent).length
  /-- In the column of the caret the numbered line has the character behind the place. -/
  above : ∀ c rest, after = c :: rest →
    label before ++ (lineBefore before).dropWhile isIndent ++ [c] <+: numbered

variable {before after : List Char}

theorem not_isIndent_of_not_isBlank {c : Char} (hc : isBlank c = false) : isIndent c = false := by
  rw [isIndent, decide_eq_false_iff_not]
  rintro rfl
  exact absurd hc (by decide)

theorem isBlank_of_isReturn {c : Char} (hc : decide (c = '\r') = true) : isBlank c = true := by
  rw [of_decide_eq_true hc]
  decide

theorem lineBehind_cons {c : Char} (hc : isBlank c = false) (rest : List Char) :
    lineBehind (c :: rest) = c :: lineBehind rest := by
  apply List.takeWhile_cons_of_pos
  rw [staysOnLine, decide_eq_true_iff]
  rintro rfl
  exact absurd hc (by decide)

/-- The line of a place, as it is looked up. -/
theorem lineAt?_width {source : String} (hsource : source.toList = before ++ after) :
    lineAt? source (width before) = some ⟨before.count '\n' + 1,
      if after = [] then lineBefore before else dropReturns (lineBefore before ++ lineBehind after),
      width (lineBefore before)⟩ := by
  obtain ⟨lines, hlines, hbefore, hcount⟩ := exists_ended before
  have hsplit : source.toList = ended lines ++ (lineBefore before ++ after) := by
    rw [hsource, ← List.append_assoc]
    exact congrArg (· ++ after) hbefore
  have hstays : ∀ c ∈ lineBefore before, staysOnLine c = true := fun c => List.mem_rtakeWhile_imp
  have hline : (lineBefore before ++ after).takeWhile staysOnLine =
      lineBefore before ++ lineBehind after := by
    rw [List.takeWhile_append_of_pos hstays, lineBehind]
  have hahead : width (lineBefore before) ≤
      width ((lineBefore before ++ after).takeWhile staysOnLine) := by
    rw [hline, width_append]
    exact Nat.le_add_right _ _
  have hoffset : width before = width (ended lines) + width (lineBefore before) := by
    rw [← width_append]
    exact congrArg width hbefore
  have hend : width (lineBefore before) = width (lineBefore before ++ after) ↔ after = [] := by
    rw [width_append, ← width_eq_zero_iff]
    omega
  rw [hoffset, lineAt?_eq hlines hsplit hahead, hcount, hline]
  by_cases hnil : after = []
  · rw [if_pos (hend.mpr hnil), if_pos hnil, hnil, List.append_nil]
  · rw [if_neg (mt hend.mp hnil), if_neg hnil]

/-- The text of the line goes on behind the place with something that is not indentation, and that
looks the same as the line does once the blanks at the end are gone. -/
theorem exists_tail (hplace : Stops isBlank after) :
    ∃ tail, (if after = [] then lineBefore before
        else dropReturns (lineBefore before ++ lineBehind after)) = lineBefore before ++ tail ∧
      Stops isIndent tail ∧ Stops isIndent (lineBehind after) ∧
      ∀ front, trimEnd (front ++ tail) = trimEnd (front ++ lineBehind after) := by
  cases after with
  | nil => exact ⟨[], by simp, by simp [Stops], by simp [Stops, lineBehind], fun front => rfl⟩
  | cons c rest =>
      have hblank : isBlank c = false := hplace c rfl
      have hindent := not_isIndent_of_not_isBlank hblank
      have hreturn : decide (c = '\r') = false := by
        rw [decide_eq_false_iff_not]
        rintro rfl
        exact absurd hblank (by decide)
      rw [lineBehind_cons hblank, if_neg (List.cons_ne_nil c rest)]
      refine ⟨c :: dropReturns (lineBehind rest), dropTrailing_append_cons hreturn _ _,
        stops_cons hindent, stops_cons hindent, ?_⟩
      intro front
      calc trimEnd (front ++ c :: dropReturns (lineBehind rest))
          = front ++ c :: trimEnd (dropReturns (lineBehind rest)) :=
            dropTrailing_append_cons hblank _ _
        _ = front ++ c :: trimEnd (lineBehind rest) := by
            rw [trimEnd, dropReturns, dropTrailing_dropTrailing fun c => isBlank_of_isReturn,
              trimEnd]
        _ = trimEnd (front ++ c :: lineBehind rest) :=
            (dropTrailing_append_cons hblank _ _).symm

theorem length_dropWhile (property : Char → Bool) (text : List Char) :
    text.length - (text.takeWhile property).length = (text.dropWhile property).length := by
  have hsplit := congrArg List.length (List.takeWhile_append_dropWhile (p := property) (l := text))
  rw [List.length_append] at hsplit
  omega

/-- The line that is shown for a place, and how far into it the caret is moved. -/
theorem exists_line {source : String} (hsource : source.toList = before ++ after)
    (hplace : Stops isBlank after) : ∃ line, lineAt? source (width before) = some line ∧
      line.number = before.count '\n' + 1 ∧
      shownText line = String.ofList (shownAround before after) ∧
      caretOffset line = ((lineBefore before).dropWhile isIndent).length := by
  obtain ⟨tail, htext, htail, hbehind, hlook⟩ := @exists_tail before after hplace
  refine ⟨_, lineAt?_width hsource, rfl, ?_, ?_⟩
  · rw [shownText, htext, shownAround, htail.dropWhile_append, hbehind.dropWhile_append, hlook]
  · rw [caretOffset, htext, charsWithin?_append, Option.getD_some, htail.takeWhile_append,
      length_dropWhile]

/-- In front of the caret the numbered line shows what stands before the place, and below the caret
the character behind it. -/
theorem shownAround_cons {c : Char} {rest : List Char} (hblank : isBlank c = false) :
    (lineBefore before).dropWhile isIndent ++ [c] <+: shownAround before (c :: rest) := by
  rw [shownAround, lineBehind_cons hblank,
    (stops_cons (not_isIndent_of_not_isBlank hblank)).dropWhile_append, trimEnd,
    dropTrailing_append_cons hblank]
  exact ⟨dropTrailing isBlank (lineBehind rest), by simp⟩

theorem not_mem_shownAround (before after : List Char) : '\n' ∉ shownAround before after := by
  intro hmem
  have hstays : staysOnLine '\n' = true := by
    have hline := (List.dropWhile_suffix isIndent).subset (mem_of_mem_dropTrailing hmem)
    rcases List.mem_append.mp hline with hbefore | hbehind
    · exact List.mem_rtakeWhile_imp hbefore
    · exact forall_takeWhile staysOnLine after _ hbehind
  exact absurd hstays (by decide)

/-! ## The column of the caret -/

theorem width_le_of_mem_cutLines {text line : List Char} (hline : line ∈ cutLines text) :
    width line ≤ width text := by
  induction text generalizing line with
  | nil => simp_all [cutLines]
  | cons c text ih =>
      obtain ⟨first, rest, hcut⟩ := List.exists_cons_of_ne_nil (cutLines_ne_nil text)
      rw [cutLines, List.foldr_cons, ← cutLines, hcut, putBefore] at hline
      rw [hcut] at ih
      rw [width_cons]
      split at hline
      · rcases List.mem_cons.mp hline with rfl | hmem
        · exact Nat.zero_le _
        · exact Nat.le_add_left_of_le (ih hmem)
      · rcases List.mem_cons.mp hline with rfl | hmem
        · rw [width_cons]
          exact Nat.add_le_add_left (ih List.mem_cons_self) _
        · exact Nat.le_add_left_of_le (ih (List.mem_cons_of_mem _ hmem))

theorem exists_column_le {number offset : Nat} {lines : List (List Char)} {line : Line}
    (hline : lineAmong number offset lines = some line) :
    ∃ whole ∈ lines, line.column ≤ width whole := by
  fun_induction lineAmong number offset lines with
  | case1 => contradiction
  | case2 number offset last hinside =>
      rw [← Option.some.inj hline]
      exact ⟨last, List.mem_cons_self, Nat.le_of_lt hinside⟩
  | case3 number last hbeyond =>
      rw [← Option.some.inj hline]
      exact ⟨last, List.mem_cons_self, Nat.le_refl _⟩
  | case4 => contradiction
  | case5 number offset whole next rest hinside =>
      rw [← Option.some.inj hline]
      exact ⟨whole, List.mem_cons_self, hinside⟩
  | case6 number offset whole next rest hbeyond ih =>
      obtain ⟨found, hfound, hcolumn⟩ := ih hline
      exact ⟨found, List.mem_cons_of_mem _ hfound, hcolumn⟩

theorem caretOffset_le (line : Line) : caretOffset line ≤ line.column := by
  rw [caretOffset]
  cases hcount : charsWithin? line.text line.column with
  | none => exact Nat.sub_le _ _
  | some count => exact Nat.le_trans (Nat.sub_le _ _) (charsWithin?_le hcount)

/-! ## The two lines -/

/-- The line with the caret, behind a count of characters. -/
def pointerLine (number count : Nat) : List Char :=
  (margin number).toList ++ ' ' :: (List.replicate count '-' ++ ['^'])

theorem toList_excerpt (line : Line) : (excerpt line).toList =
    (margin line.number).toList ++ '\n' ::
      ((toString line.number).toList ++ [' ', '|', ' '] ++ (shownText line).toList ++
        '\n' :: (pointerLine line.number (caretOffset line) ++ ['\n'])) := by
  simp [excerpt, pointerLine, repeated]

theorem not_mem_digits {c : Char} (hc : c.isDigit = false) (number : Nat) :
    c ∉ (toString number).toList := by
  intro hmem
  rw [Nat.toString_eq_repr, Nat.toList_repr] at hmem
  rw [Nat.isDigit_of_mem_toDigits (by decide) (by decide) hmem] at hc
  contradiction

theorem toList_margin (number : Nat) :
    (margin number).toList = List.replicate ((toString number).length + 1) ' ' ++ ['|'] := by
  simp [margin, repeated]

theorem not_mem_pointerLine (number count : Nat) : '\n' ∉ pointerLine number count := by
  simp [pointerLine, toList_margin]

theorem idxOf_bar_pointerLine (number count : Nat) :
    (pointerLine number count).idxOf '|' = (toString number).length + 1 := by
  rw [pointerLine, toList_margin, List.append_assoc, List.idxOf_append_of_notMem (by simp)]
  simp

theorem idxOf_caret_pointerLine (number count : Nat) :
    (pointerLine number count).idxOf '^' = (toString number).length + 3 + count := by
  have hfront : '^' ∉ (margin number).toList ++ ' ' :: List.replicate count '-' := by
    simp [toList_margin]
  have hline : pointerLine number count =
      (margin number).toList ++ ' ' :: List.replicate count '-' ++ ['^'] := by
    simp [pointerLine]
  rw [hline, List.idxOf_append_of_notMem hfront, List.idxOf_cons_self]
  simp [toList_margin]
  omega

theorem idxOf_bar_label (before text : List Char) :
    (label before ++ text).idxOf '|' = (toString (before.count '\n' + 1)).length + 1 := by
  have hdigits := not_mem_digits (c := '|') (by decide) (before.count '\n' + 1)
  have hbar : ([' ', '|', ' '] ++ text).idxOf '|' = 1 := by simp
  rw [label, List.append_assoc, List.idxOf_append_of_notMem hdigits, String.length_toList, hbar]

theorem length_label (before : List Char) :
    (label before).length = (toString (before.count '\n' + 1)).length + 3 := by
  rw [label, List.length_append, String.length_toList]
  rfl

/-- The numbered line and the caret line of a place point at it. -/
theorem pointsAt_pointerLine (hplace : Stops isBlank after) :
    PointsAt before after (label before ++ shownAround before after)
      (pointerLine (before.count '\n' + 1) ((lineBefore before).dropWhile isIndent).length) where
  numbered_eq := rfl
  unbroken := by
    refine ⟨?_, not_mem_pointerLine _ _⟩
    have hdigits := not_mem_digits (c := '\n') (by decide) (before.count '\n' + 1)
    rw [label, List.mem_append, List.mem_append]
    rintro ((hnumber | hbar) | hshown)
    · exact hdigits hnumber
    · exact absurd hbar (by decide)
    · exact not_mem_shownAround before after hshown
  bars := by
    refine ⟨by simp [pointerLine, margin], ?_⟩
    rw [idxOf_bar_pointerLine, idxOf_bar_label]
  caret := by
    refine ⟨by simp [pointerLine], ?_⟩
    rw [idxOf_caret_pointerLine, List.length_append, length_label]
  above := by
    rintro c rest rfl
    rw [List.append_assoc, List.prefix_append_right_inj]
    exact shownAround_cons (hplace c rfl)

end Diagnostic

open Diagnostic Text

/-! ## Diagnostics that can be written -/

section Written

variable {error : Error} {source : String}

theorem Error.diagnostic?_eq_some_iff :
    error.diagnostic? source = some (error.diagnostic source) ↔
      ∀ column ∈ error.caretColumn? source, column ≤ fieldLimit := by
  rw [diagnostic?]
  cases error.caretColumn? source <;> simp

theorem Error.diagnostic?_eq_none_iff : error.diagnostic? source = none ↔
    ∃ column ∈ error.caretColumn? source, fieldLimit < column := by
  rw [diagnostic?]
  cases error.caretColumn? source <;> simp

/-- The caret stands at most one place behind as many characters as the source has bytes. -/
theorem Error.caretColumn?_le {column : Nat} (hcolumn : column ∈ error.caretColumn? source) :
    column ≤ width source.toList + 1 := by
  obtain ⟨line, hline, rfl⟩ := Option.map_eq_some_iff.mp hcolumn
  obtain ⟨whole, hwhole, hwidth⟩ := exists_column_le hline
  have hsource := width_le_of_mem_cutLines hwhole
  have hcaret := caretOffset_le line
  omega

/-- Behind the indentation of its line, the caret comes behind all characters before its place. -/
theorem Error.caretColumn?_eq {before after : List Char} (hsource : source.toList = before ++ after)
    (hposition : error.position.offset = width before) (hplace : Stops isBlank after) :
    error.caretColumn? source = some (((lineBefore before).dropWhile isIndent).length + 1) := by
  obtain ⟨line, hline, -, -, hcaret⟩ := exists_line hsource hplace
  rw [caretColumn?, hposition, Int.toNat_natCast, hline, Option.map_some, hcaret]

end Written

/-- A diagnostic ends with two lines that point at the place of its error: at a character that is
not blank, or at the end of the source.  It can be written exactly if the column of the caret, which
comes behind all characters between the indentation and the place, does not exceed the width of a
field. -/
theorem Error.diagnostic_pointsAt {source : String} {error : Error} {before after : List Char}
    (hsource : source.toList = before ++ after) (hposition : error.position.offset = width before)
    (hplace : Stops isBlank after) :
    (∃ front numbered pointer : List Char,
      (error.diagnostic source).toList =
        front ++ '\n' :: (numbered ++ '\n' :: (pointer ++ ['\n'])) ∧
      PointsAt before after numbered pointer) ∧
    (error.diagnostic? source = some (error.diagnostic source) ↔
      ((lineBefore before).dropWhile isIndent).length + 1 ≤ fieldLimit) := by
  constructor
  · obtain ⟨line, hline, hnumber, hshown, hcaret⟩ := exists_line hsource hplace
    refine ⟨(header error.fault.name error.tip ++ origin error.position.file ++
      margin (before.count '\n' + 1)).toList, _, _, ?_, pointsAt_pointerLine hplace⟩
    rw [Error.diagnostic, hposition, Int.toNat_natCast, hline]
    simp only [String.toList_append, toList_excerpt, hnumber, hshown, hcaret,
      String.toList_ofList, label, List.append_assoc]
  · rw [Error.diagnostic?_eq_some_iff, Error.caretColumn?_eq hsource hposition hplace]
    simp

/-- Behind an indentation, characters of more than one byte and the end of a line in two
characters. -/
theorem Error.diagnostic_pointsAt_indented :
    let error : Error := ⟨.unexpectedCharacter '@', ⟨11, "input"⟩⟩
    let source := "é\r\n  \"ñ\" @ 1 \r\n2"
    (∃ front numbered pointer : List Char,
      (error.diagnostic source).toList =
        front ++ '\n' :: (numbered ++ '\n' :: (pointer ++ ['\n'])) ∧
      PointsAt "é\r\n  \"ñ\" ".toList "@ 1 \r\n2".toList numbered pointer) ∧
    error.diagnostic? source = some (error.diagnostic source) := by
  intro error source
  have hcolumn : ((lineBefore "é\r\n  \"ñ\" ".toList).dropWhile isIndent).length + 1 ≤
      fieldLimit := by
    decide +kernel
  obtain ⟨hpoints, hwritten⟩ := @Error.diagnostic_pointsAt source error "é\r\n  \"ñ\" ".toList
    "@ 1 \r\n2".toList (by decide +kernel) (by decide +kernel) (stops_cons (by decide))
  exact ⟨hpoints, hwritten.mpr hcolumn⟩

end Precedence
