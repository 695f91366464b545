import Precedence.Proofs.Session

/-!
# Looking up a line

Offsets of a source count its bytes, while its lines are cut from its characters.  The byte of a line
feed occurs in no other character, so what is found for an offset can be said by the bytes alone:
the line feeds before the offset number the line, the last of them is where the line begins, and the
line goes on up to the next one.  This holds of every offset up to the end of the source, on a line
feed and inside a character too, and from what is found the offset can be told.
-/

namespace Precedence

open Text

namespace Text

/-- What would be dropped anyway may as well not be there. -/
theorem rdropWhile_append {α : Type} {property : α → Bool} {back : List α}
    (hback : ∀ value ∈ back, property value = true) (front : List α) :
    (front ++ back).rdropWhile property = front.rdropWhile property := by
  have hreverse : ∀ value ∈ back.reverse, property value = true :=
    fun value hvalue => hback value (List.mem_reverse.mp hvalue)
  rw [List.rdropWhile, List.reverse_append, List.dropWhile_append_of_pos hreverse, List.rdropWhile]

theorem width_takeWhile_le (property : Char → Bool) (text : List Char) :
    width (text.takeWhile property) ≤ width text := by
  have hsplit := List.takeWhile_append_dropWhile (p := property) (l := text)
  rw [← congrArg width hsplit, width_append]
  exact Nat.le_add_right _ _

end Text

namespace Diagnostic

open Command.Console

/-- Whether a byte is none that ends a line. -/
def byteStays (byte : UInt8) : Bool := byte ≠ 10

/-- The offset just behind the last line feed before an offset, or the beginning if there is none. -/
def lineStart (bytes : List UInt8) (offset : Nat) : Nat :=
  ((bytes.take offset).rdropWhile byteStays).length

/-- The line is the one that holds the offset in a text of the given bytes. -/
structure Line.Locates (line : Line) (bytes : List UInt8) (offset : Nat) : Prop where
  number_eq : line.number = 1 + (bytes.take offset).count 10
  column_eq : lineStart bytes offset + line.column = offset
  /-- The text goes up to the next line feed, but for carriage returns at its end. -/
  text_eq : ∃ count, Command.Console.bytes (line.text ++ List.replicate count '\r') =
    (bytes.drop (lineStart bytes offset)).takeWhile byteStays

/-! ## Line feeds among the bytes -/

section Bytes

variable {text : List Char} {lines : List (List Char)}

/-- Bytes that stay on the line are those among which there is no line feed. -/
theorem forall_byteStays_iff {inside : List UInt8} :
    (∀ byte ∈ inside, byteStays byte = true) ↔ inside.count 10 = 0 := by
  rw [List.count_eq_zero]
  constructor
  · intro hstays hmem
    exact absurd (hstays 10 hmem) (by decide)
  · intro hfeed byte hbyte
    rw [byteStays, decide_eq_true_iff]
    rintro rfl
    exact hfeed hbyte

theorem bytes_append (front back : List Char) : bytes (front ++ back) = bytes front ++ bytes back :=
  List.flatMap_append

theorem length_bytes (text : List Char) : (bytes text).length = width text := by
  induction text with
  | nil => rfl
  | cons c rest ih => rw [bytes_cons, List.length_append, String.length_utf8EncodeChar, ih, width_cons]

theorem forall_byteStays (hfeed : '\n' ∉ text) : ∀ byte ∈ bytes text, byteStays byte = true := by
  intro byte hbyte
  obtain ⟨c, hc, hbyte⟩ := List.mem_flatMap.mp hbyte
  rw [byteStays, decide_eq_true_iff]
  rintro rfl
  have hline : c = '\n' := eq_of_mem_utf8EncodeChar hbyte rfl (by decide)
  rw [hline] at hc
  exact hfeed hc

theorem bytes_feed : bytes ['\n'] = [10] := by decide

/-- The bytes up to the first line feed are those of the characters up to it. -/
theorem takeWhile_bytes (text : List Char) :
    (bytes text).takeWhile byteStays = bytes (text.takeWhile staysOnLine) := by
  by_cases hfeed : '\n' ∈ text
  · obtain ⟨line, more, rfl, hline⟩ := List.eq_append_cons_of_mem hfeed
    have hstops : Stops staysOnLine ('\n' :: more) := stops_cons (by decide)
    have hbytes : bytes (line ++ '\n' :: more) = bytes line ++ 10 :: bytes more := by
      rw [bytes_append, ← List.singleton_append, bytes_append, bytes_feed, List.singleton_append]
    rw [hstops.takeWhile (forall_staysOnLine hline), hbytes,
      List.takeWhile_append_of_pos (forall_byteStays hline),
      List.takeWhile_cons_of_neg (by decide), List.append_nil]
  · rw [List.takeWhile_eq_self_iff.mpr (forall_staysOnLine hfeed),
      List.takeWhile_eq_self_iff.mpr (forall_byteStays hfeed)]

theorem ended_concat (lines : List (List Char)) (line : List Char) :
    ended (lines ++ [line]) = ended lines ++ line ++ ['\n'] := by
  simp [ended]

theorem count_bytes_ended (hlines : ∀ line ∈ lines, '\n' ∉ line) :
    (bytes (ended lines)).count 10 = lines.length := by
  induction lines using List.reverseRecOn with
  | nil => rfl
  | append_singleton lines line ih =>
      obtain ⟨hlines, hline⟩ := List.forall_mem_append.mp hlines
      have hnone : (bytes line).count 10 = 0 :=
        forall_byteStays_iff.mp (forall_byteStays (hline line (List.mem_singleton_self _)))
      rw [ended_concat, bytes_append, bytes_append, bytes_feed, List.count_append, List.count_append,
        ih hlines, hnone, List.length_append]
      rfl

theorem rdropWhile_bytes_ended (lines : List (List Char)) :
    (bytes (ended lines)).rdropWhile byteStays = bytes (ended lines) := by
  rcases List.eq_nil_or_concat' lines with rfl | ⟨lines, line, rfl⟩
  · rfl
  · rw [ended_concat, bytes_append, bytes_feed]
    exact List.rdropWhile_concat_neg _ _ _ (by decide)

end Bytes

/-- Every text is lines that have ended and the beginning of another. -/
theorem exists_lines (text : List Char) : ∃ lines last, (∀ line ∈ lines, '\n' ∉ line) ∧
    '\n' ∉ last ∧ text = ended lines ++ last := by
  obtain ⟨lines, hlines, htext, -⟩ := exists_ended text
  exact ⟨lines, text.rtakeWhile staysOnLine, hlines, not_mem_rtakeWhile text, htext⟩

/-- What is dropped at the end of a line are carriage returns. -/
theorem exists_dropReturns (text : List Char) :
    ∃ count, dropReturns text ++ List.replicate count '\r' = text := by
  have hreturns : ∀ c ∈ text.rtakeWhile (· = '\r'), c = '\r' := by
    intro c hc
    simpa using List.mem_rtakeWhile_imp hc
  refine ⟨(text.rtakeWhile (· = '\r')).length, ?_⟩
  rw [← List.eq_replicate_of_mem hreturns]
  exact List.rdropWhile_append_rtakeWhile

/-! ## Every offset has its place -/

/-- The offset lies behind lines that have ended, so many bytes into the line that follows. -/
structure Place (text : List Char) (offset : Nat) (lines : List (List Char)) (rest : List Char)
    (ahead : Nat) : Prop where
  text_eq : text = ended lines ++ rest
  line_feeds : ∀ line ∈ lines, '\n' ∉ line
  offset_eq : offset = width (ended lines) + ahead
  ahead_le : ahead ≤ width (rest.takeWhile staysOnLine)

section Place

variable {text rest : List Char} {offset ahead : Nat} {lines : List (List Char)}

theorem exists_place_among {last : List Char} (hlines : ∀ line ∈ lines, '\n' ∉ line)
    (hlast : '\n' ∉ last) (hoffset : offset ≤ width (ended lines ++ last)) :
    ∃ before rest ahead, Place (ended lines ++ last) offset before rest ahead := by
  induction lines generalizing offset with
  | nil =>
      refine ⟨[], last, offset, rfl, List.forall_mem_nil _, (Nat.zero_add _).symm, ?_⟩
      rw [List.takeWhile_eq_self_iff.mpr (forall_staysOnLine hlast)]
      exact hoffset
  | cons line lines ih =>
      obtain ⟨hline, hlines⟩ := List.forall_mem_cons.mp hlines
      have hrow : ended (line :: lines) ++ last = line ++ '\n' :: (ended lines ++ last) := by
        simp [ended]
      have hfeed : '\n'.utf8Size = 1 := by decide
      by_cases hinside : offset ≤ width line
      · refine ⟨[], ended (line :: lines) ++ last, offset, rfl, List.forall_mem_nil _,
          (Nat.zero_add _).symm, ?_⟩
        have hstops : Stops staysOnLine ('\n' :: (ended lines ++ last)) := stops_cons (by decide)
        rw [hrow, hstops.takeWhile (forall_staysOnLine hline)]
        exact hinside
      · have hbehind : offset - (width line + 1) ≤ width (ended lines ++ last) := by
          rw [hrow, width_append, width_cons, hfeed] at hoffset
          omega
        obtain ⟨before, rest, ahead, hplace⟩ := ih hlines hbehind
        refine ⟨line :: before, rest, ahead, ?_,
          List.forall_mem_cons.mpr ⟨hline, hplace.line_feeds⟩, ?_, hplace.ahead_le⟩
        · rw [hrow, hplace.text_eq]
          simp [ended]
        · have hwidth : width (ended (line :: before)) = width line + 1 + width (ended before) := by
            simp [ended, hfeed, Nat.add_assoc]
          have hplace := hplace.offset_eq
          omega

/-- Every offset up to the end of a text has its place. -/
theorem exists_place (hoffset : offset ≤ width text) :
    ∃ lines rest ahead, Place text offset lines rest ahead := by
  obtain ⟨lines, last, hlines, hlast, rfl⟩ := exists_lines text
  exact exists_place_among hlines hlast hoffset

/-- The bytes before a place are those of the lines that have ended and some others, among which
there is no line feed. -/
theorem Place.take_bytes (hplace : Place text offset lines rest ahead) :
    ∃ inside, (bytes text).take offset = bytes (ended lines) ++ inside ∧
      ∀ byte ∈ inside, byteStays byte = true := by
  have hfront : (bytes rest).take ahead <+: (bytes rest).takeWhile byteStays := by
    apply List.prefix_of_prefix_length_le (List.take_prefix _ _) (List.takeWhile_prefix _)
    rw [takeWhile_bytes, length_bytes]
    exact Nat.le_trans (List.length_take_le _ _) hplace.ahead_le
  refine ⟨(bytes rest).take ahead, ?_, ?_⟩
  · rw [hplace.text_eq, hplace.offset_eq, bytes_append, ← length_bytes, List.take_length_add_append]
  · exact fun byte hbyte => List.mem_takeWhile_imp (hfront.subset hbyte)

theorem Place.lineStart_eq (hplace : Place text offset lines rest ahead) :
    lineStart (bytes text) offset = width (ended lines) := by
  obtain ⟨inside, htake, hinside⟩ := hplace.take_bytes
  rw [lineStart, htake, rdropWhile_append hinside, rdropWhile_bytes_ended, length_bytes]

/-- At the end of the text nothing stands behind the line. -/
theorem Place.takeWhile_eq (hplace : Place text offset lines rest ahead)
    (hend : ahead = width rest) : rest.takeWhile staysOnLine = rest := by
  have hsplit := List.takeWhile_append_dropWhile (p := staysOnLine) (l := rest)
  have hnone : rest.dropWhile staysOnLine = [] := by
    have hwidth := congrArg width hsplit
    have hahead := hplace.ahead_le
    rw [width_append] at hwidth
    rw [← width_eq_zero_iff]
    omega
  rwa [hnone, List.append_nil] at hsplit

/-- At the end of the text the line is shown as it is, elsewhere without the carriage returns at its
end. -/
theorem Place.exists_returns (hplace : Place text offset lines rest ahead) :
    ∃ count, (if ahead = width rest then rest else dropReturns (rest.takeWhile staysOnLine)) ++
      List.replicate count '\r' = rest.takeWhile staysOnLine := by
  split
  · next hend =>
      exact ⟨0, by rw [hplace.takeWhile_eq hend, List.replicate_zero, List.append_nil]⟩
  · exact exists_dropReturns _

theorem Place.drop_bytes (hplace : Place text offset lines rest ahead) :
    (bytes text).drop (width (ended lines)) = bytes rest := by
  rw [hplace.text_eq, bytes_append, ← length_bytes, List.drop_left]

/-- What is found for an offset is the line that holds it. -/
theorem Place.exists_locates {source : String}
    (hplace : Place source.toList offset lines rest ahead) :
    ∃ line, lineAt? source offset = some line ∧ line.Locates (bytes source.toList) offset := by
  have hstart := hplace.lineStart_eq
  obtain ⟨inside, htake, hinside⟩ := hplace.take_bytes
  have hfound := lineAt?_eq hplace.line_feeds hplace.text_eq hplace.ahead_le
  rw [← hplace.offset_eq] at hfound
  refine ⟨_, hfound, ?_, ?_, ?_⟩
  · rw [htake, List.count_append, count_bytes_ended hplace.line_feeds,
      forall_byteStays_iff.mp hinside, Nat.add_zero]
    exact Nat.add_comm _ _
  · rw [hstart, ← hplace.offset_eq]
  · obtain ⟨count, hreturns⟩ := hplace.exists_returns
    exact ⟨count, by rw [hreturns, hstart, hplace.drop_bytes, takeWhile_bytes]⟩

end Place

/-! ## The lookup is exact -/

theorem lineAt?_eq_none {source : String} {offset : Nat} (hoffset : width source.toList < offset) :
    lineAt? source offset = none := by
  obtain ⟨lines, last, hlines, hlast, htext⟩ := exists_lines source.toList
  rw [htext, width_append] at hoffset
  obtain ⟨ahead, rfl⟩ := Nat.exists_eq_add_of_le (Nat.le_of_lt (Nat.lt_of_add_right_lt hoffset))
  rw [lineAt?, htext, cutLines_ended hlines, cutLines_of_not_mem hlast,
    lineAmong_append (List.cons_ne_nil _ _), lineAmong, if_neg (by omega), if_neg (by omega)]

/-- Without a line feed between two offsets both lie on one line. -/
theorem lineStart_eq_of_count_eq {bytes : List UInt8} {offset other : Nat} (hle : offset ≤ other)
    (hcount : (bytes.take offset).count 10 = (bytes.take other).count 10) :
    lineStart bytes offset = lineStart bytes other := by
  have hsplit : bytes.take other = bytes.take offset ++ (bytes.drop offset).take (other - offset) := by
    rw [← List.take_add, Nat.add_sub_of_le hle]
  have hbetween : ∀ byte ∈ (bytes.drop offset).take (other - offset), byteStays byte = true := by
    rw [hsplit, List.count_append, Nat.left_eq_add] at hcount
    exact forall_byteStays_iff.mpr hcount
  rw [lineStart, lineStart, hsplit, rdropWhile_append hbetween]

/-- An offset can be told from the number and the column. -/
theorem Line.Locates.offset_inj {line other : Line} {bytes : List UInt8} {offset offset' : Nat}
    (hline : line.Locates bytes offset) (hother : other.Locates bytes offset')
    (hnumber : line.number = other.number) (hcolumn : line.column = other.column) :
    offset = offset' := by
  have hcount : (bytes.take offset).count 10 = (bytes.take offset').count 10 := by
    have hline := hline.number_eq
    have hother := hother.number_eq
    omega
  have hstart : lineStart bytes offset = lineStart bytes offset' := by
    rcases Nat.le_total offset offset' with hle | hle
    · exact lineStart_eq_of_count_eq hle hcount
    · exact (lineStart_eq_of_count_eq hle hcount.symm).symm
  rw [← hline.column_eq, ← hother.column_eq, hstart, hcolumn]

theorem toUTF8_eq_bytes (source : String) : source.toUTF8.data.toList = bytes source.toList :=
  calc
    source.toUTF8.data.toList = source.toList.utf8Encode.data.toList := by
      rw [String.utf8Encode_toList]
      rfl
    _ = bytes source.toList := List.toList_data_toByteArray

/-- There is a line for every offset up to the end of a source and for no other.  It is the one that
holds the offset, and no other offset has the same number and column. -/
theorem lineAt?_exact (source : String) :
    (∀ offset, lineAt? source offset = none ↔ source.utf8ByteSize < offset) ∧
      (∀ offset line, lineAt? source offset = some line →
        line.Locates source.toUTF8.data.toList offset) ∧
      ∀ offset line offset' line', lineAt? source offset = some line →
        lineAt? source offset' = some line' → line.number = line'.number →
        line.column = line'.column → offset = offset' := by
  have hnone (offset : Nat) : lineAt? source offset = none ↔ source.utf8ByteSize < offset := by
    rw [utf8ByteSize_eq_width]
    refine ⟨fun hfound => ?_, lineAt?_eq_none⟩
    by_contra hwithin
    obtain ⟨lines, rest, ahead, hplace⟩ := exists_place (Nat.le_of_not_lt hwithin)
    obtain ⟨line, hline, -⟩ := hplace.exists_locates
    rw [hline] at hfound
    contradiction
  have hlocates (offset : Nat) (line : Line) (hfound : lineAt? source offset = some line) :
      line.Locates source.toUTF8.data.toList offset := by
    have hwithin : ¬ source.utf8ByteSize < offset := by
      rw [← hnone, hfound]
      exact Option.some_ne_none line
    rw [utf8ByteSize_eq_width, Nat.not_lt] at hwithin
    obtain ⟨lines, rest, ahead, hplace⟩ := exists_place hwithin
    obtain ⟨line', hline', hplaced⟩ := hplace.exists_locates
    obtain rfl : line' = line := Option.some.inj (hline'.symm.trans hfound)
    rw [toUTF8_eq_bytes]
    exact hplaced
  refine ⟨hnone, hlocates, ?_⟩
  intro offset line offset' line' hfound hfound'
  exact (hlocates offset line hfound).offset_inj (hlocates offset' line' hfound')

/-- An offset inside a character, the line feed behind a carriage return, which no other offset is
taken for, the end and what is beyond it. -/
theorem lineAt?_exact_inside :
    let source := "\u00e9\r\nx\r"
    (lineAt? source 1 = some ⟨1, ['\u00e9'], 1⟩ ∧
        Line.Locates ⟨1, ['\u00e9'], 1⟩ source.toUTF8.data.toList 1) ∧
      (lineAt? source 3 = some ⟨1, ['\u00e9'], 3⟩ ∧
        Line.Locates ⟨1, ['\u00e9'], 3⟩ source.toUTF8.data.toList 3) ∧
      (∀ offset line, lineAt? source offset = some line → line.number = 1 → line.column = 3 →
        offset = 3) ∧
      (lineAt? source 6 = some ⟨2, ['x', '\r'], 2⟩ ∧
        Line.Locates ⟨2, ['x', '\r'], 2⟩ source.toUTF8.data.toList 6) ∧
      lineAt? source 7 = none := by
  intro source
  obtain ⟨hnone, hlocates, htold⟩ := lineAt?_exact source
  have hinside : lineAt? source 1 = some ⟨1, ['\u00e9'], 1⟩ := by decide
  have hfeed : lineAt? source 3 = some ⟨1, ['\u00e9'], 3⟩ := by decide
  have hend : lineAt? source 6 = some ⟨2, ['x', '\r'], 2⟩ := by decide
  exact ⟨⟨hinside, hlocates _ _ hinside⟩, ⟨hfeed, hlocates _ _ hfeed⟩,
    fun offset line hline => htold offset line _ _ hline hfeed,
    ⟨hend, hlocates _ _ hend⟩, (hnone 7).mpr (by decide)⟩

/-! ## Offsets on one line -/

section Shared

variable {text rest : List Char} {offset other ahead : Nat} {lines : List (List Char)}

/-- An offset in front of a place is on the same line, if no line feed comes between. -/
theorem Place.exists_earlier (hplace : Place text other lines rest ahead) (hle : offset ≤ other)
    (hfeed : 10 ∉ ((bytes text).drop offset).take (other - offset)) :
    ∃ before, Place text offset lines rest before ∧ ahead = before + (other - offset) := by
  have hcount : ((bytes text).take offset).count 10 = ((bytes text).take other).count 10 := by
    have hother : offset + (other - offset) = other := Nat.add_sub_of_le hle
    rw [← hother, List.take_add, List.count_append, List.count_eq_zero.mpr hfeed, Nat.add_zero]
  have hstart : width (ended lines) ≤ offset := by
    rw [← hplace.lineStart_eq, ← lineStart_eq_of_count_eq hle hcount, lineStart]
    exact (List.rdropWhile_prefix byteStays _).length_le.trans (List.length_take_le _ _)
  have hother := hplace.offset_eq
  have hahead := hplace.ahead_le
  refine ⟨offset - width (ended lines), ⟨hplace.text_eq, hplace.line_feeds, ?_, ?_⟩, ?_⟩ <;> omega

theorem dropReturns_dropReturns (text : List Char) :
    dropReturns (dropReturns text) = dropReturns text :=
  dropTrailing_dropTrailing (fun _ hreturn => hreturn) text

theorem dropReturns_eq_self_iff : dropReturns text = text ↔ text.getLast? ≠ some '\r' := by
  have hdrop : dropReturns text = text.rdropWhile (· = '\r') := rfl
  rw [hdrop, List.rdropWhile_eq_self_iff]
  cases text with
  | nil => simp
  | cons c text => simp [List.getLast?_eq_getLast_of_ne_nil]

/-- The text of the line is the same for all offsets on it, but that at the end of a text the
carriage returns at its end are kept. -/
theorem Place.exists_shared {source : String} {before : Nat}
    (hplace : Place source.toList other lines rest ahead)
    (hearlier : Place source.toList offset lines rest before) (hlt : before < ahead) :
    ∃ line line', lineAt? source offset = some line ∧ lineAt? source other = some line' ∧
      line.number = line'.number ∧ line.text = dropReturns line'.text ∧
      (line.text = line'.text ↔
        ¬ (other = width source.toList ∧ source.toList.getLast? = some '\r')) := by
  have hfound := lineAt?_eq hearlier.line_feeds hearlier.text_eq hearlier.ahead_le
  have hfound' := lineAt?_eq hplace.line_feeds hplace.text_eq hplace.ahead_le
  rw [← hearlier.offset_eq] at hfound
  rw [← hplace.offset_eq] at hfound'
  refine ⟨_, _, hfound, hfound', rfl, ?_⟩
  have hsize : width source.toList = width (ended lines) + width rest := by
    rw [hplace.text_eq, width_append]
  have hother := hplace.offset_eq
  have hahead := hplace.ahead_le.trans (width_takeWhile_le staysOnLine rest)
  rw [if_neg (by omega : before ≠ width rest)]
  by_cases hend : ahead = width rest
  · have hne : rest ≠ [] := by
      rintro rfl
      rw [width_nil] at hend
      omega
    have hlast : source.toList.getLast? = rest.getLast? := by
      rw [hplace.text_eq, List.getLast?_append_of_ne_nil _ hne]
    rw [if_pos hend, hplace.takeWhile_eq hend, dropReturns_eq_self_iff, hlast]
    have hplaced : other = width source.toList := by omega
    exact ⟨rfl, by simp [hplaced]⟩
  · have hplaced : other ≠ width source.toList := by omega
    rw [if_neg hend]
    exact ⟨(dropReturns_dropReturns _).symm, by simp [hplaced]⟩

/-- Two offsets without a line feed between them have the same line.  The number is the same, and so
is the text, unless the second offset is the end of a source with a carriage return there: the text
found for the end then has the carriage returns that the other is without. -/
theorem lineAt?_shared {source : String} (hle : offset ≤ other)
    (hend : other ≤ source.utf8ByteSize)
    (hfeed : 10 ∉ (source.toUTF8.data.toList.drop offset).take (other - offset)) :
    ∃ line line', lineAt? source offset = some line ∧ lineAt? source other = some line' ∧
      line.number = line'.number ∧
      (∃ count, line.text ++ List.replicate count '\r' = line'.text) ∧
      (line.text = line'.text ↔ ¬ (offset < other ∧ other = source.utf8ByteSize ∧
        source.toList.getLast? = some '\r')) := by
  rw [utf8ByteSize_eq_width] at hend ⊢
  rw [toUTF8_eq_bytes] at hfeed
  obtain ⟨lines, rest, ahead, hplace⟩ := exists_place hend
  rcases Nat.eq_or_lt_of_le hle with rfl | hlt
  · obtain ⟨line, hline, -⟩ := hplace.exists_locates
    exact ⟨line, line, hline, hline, rfl, ⟨0, by simp⟩, by simp⟩
  · obtain ⟨before, hearlier, hahead⟩ := hplace.exists_earlier hle hfeed
    obtain ⟨line, line', hline, hline', hnumber, htext, hsame⟩ :=
      hplace.exists_shared hearlier (by omega)
    obtain ⟨count, hreturns⟩ := exists_dropReturns line'.text
    refine ⟨line, line', hline, hline', hnumber, ⟨count, by rw [htext, hreturns]⟩, ?_⟩
    rw [hsame]
    simp only [hlt, true_and]

/-- In front of the line feed all offsets find the first line without its carriage return.  On the
second line, which nothing ends, the last offset finds the carriage return as well. -/
theorem lineAt?_shared_returns :
    let source := "x\r\n\u00e9\r"
    (∃ line line', lineAt? source 0 = some line ∧ lineAt? source 2 = some line' ∧
        line.number = line'.number ∧ line.text = line'.text) ∧
      ∃ line line', lineAt? source 4 = some line ∧ lineAt? source 6 = some line' ∧
        line.number = line'.number ∧ line.text ≠ line'.text ∧
        ∃ count, line.text ++ List.replicate count '\r' = line'.text := by
  intro source
  obtain ⟨line, line', hline, hline', hnumber, -, hsame⟩ :=
    @lineAt?_shared 0 2 source (by decide) (by decide) (by decide)
  obtain ⟨last, last', hlast, hlast', hnumber', hreturns, hdiffer⟩ :=
    @lineAt?_shared 4 6 source (by decide) (by decide) (by decide)
  have hshort : 2 ≠ source.utf8ByteSize := by decide
  have hreturn : 4 < 6 ∧ 6 = source.utf8ByteSize ∧ source.toList.getLast? = some '\r' := by decide
  exact ⟨⟨line, line', hline, hline', hnumber, hsame.mpr fun hlate => hshort hlate.2.1⟩,
    last, last', hlast, hlast', hnumber', fun htext => hdiffer.mp htext hreturn, hreturns⟩

/-- There is no line feed between the two offsets, but the line has one text for the first and
another for the second. -/
theorem lineAt?_text_ne_at_end :
    10 ∉ ("a\r".toUTF8.data.toList.drop 1).take (2 - 1) ∧
      lineAt? "a\r" 1 = some ⟨1, ['a'], 1⟩ ∧ lineAt? "a\r" 2 = some ⟨1, ['a', '\r'], 2⟩ ∧
      ¬ (lineAt? "a\r" 1).map Line.text = (lineAt? "a\r" 2).map Line.text := by
  decide

end Shared

end Diagnostic

end Precedence
