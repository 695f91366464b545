import Mathlib.Data.List.DropRight
import Precedence.Diagnostic.Line
import Precedence.Proofs.Lexeme

/-!
# The line that holds a place

A source is lines that a line feed ends, and one more line, which has none behind it.  The line that
holds an offset is found by the line feeds before the offset, and the column is what is left of the
offset behind them.
-/

namespace Precedence

namespace Text

variable {property other : Char → Bool} {front rest text : List Char}

theorem Stops.takeWhile_append (hstops : Stops property rest) (front : List Char) :
    (front ++ rest).takeWhile property = front.takeWhile property := by
  have hrest : rest.takeWhile property = [] :=
    @Stops.takeWhile _ [] _ hstops (List.forall_mem_nil _)
  rw [List.takeWhile_append, hrest, List.append_nil]
  split
  · next hlength => exact (List.takeWhile_prefix property).eq_of_length hlength |>.symm
  · rfl

theorem Stops.dropWhile_append (hstops : Stops property rest) (front : List Char) :
    (front ++ rest).dropWhile property = front.dropWhile property ++ rest := by
  have hrest : rest.dropWhile property = rest :=
    @Stops.dropWhile _ [] _ hstops (List.forall_mem_nil _)
  rw [List.dropWhile_append, hrest]
  split
  · next hempty => rw [List.isEmpty_iff.mp hempty, List.nil_append]
  · rfl

theorem stops_cons {c : Char} (hc : property c = false) : Stops property (c :: rest) := by
  intro first hfirst
  rw [List.head?_cons, Option.mem_some_iff] at hfirst
  rwa [← hfirst]

/-- Nothing is dropped before a character that stays. -/
theorem dropTrailing_append_cons {c : Char} (hc : property c = false) (front rest : List Char) :
    dropTrailing property (front ++ c :: rest) = front ++ c :: dropTrailing property rest := by
  have hreverse : (front ++ c :: rest).reverse = rest.reverse ++ c :: front.reverse := by simp
  rw [dropTrailing, dropTrailing, hreverse, (stops_cons hc).dropWhile_append]
  simp

/-- What is dropped first would be dropped anyway. -/
theorem dropTrailing_dropTrailing (hproperty : ∀ c, other c = true → property c = true)
    (text : List Char) : dropTrailing property (dropTrailing other text) =
      dropTrailing property text := by
  have hsplit := List.takeWhile_append_dropWhile (p := other) (l := text.reverse)
  have hdropped : ∀ c ∈ text.reverse.takeWhile other, property c = true :=
    fun c hc => hproperty c (forall_takeWhile other _ c hc)
  rw [dropTrailing, dropTrailing, dropTrailing, List.reverse_reverse]
  rw [← hsplit, List.dropWhile_append_of_pos hdropped, hsplit]

theorem mem_of_mem_dropTrailing {c : Char} (hc : c ∈ dropTrailing property text) : c ∈ text := by
  rw [dropTrailing, List.mem_reverse] at hc
  exact List.mem_reverse.mp ((List.dropWhile_suffix property).subset hc)

theorem width_eq_zero_iff : width text = 0 ↔ text = [] := by
  constructor
  · intro hwidth
    cases text with
    | nil => rfl
    | cons c rest =>
        have hc := c.utf8Size_pos
        rw [width_cons] at hwidth
        omega
  · rintro rfl
    rfl

end Text

namespace Diagnostic

open Text

/-- Whether a character is none that ends a line. -/
def staysOnLine (c : Char) : Bool := c ≠ '\n'

/-- Lines with the line feed behind each of them. -/
def ended (lines : List (List Char)) : List Char := lines.flatMap (· ++ ['\n'])

variable {lines : List (List Char)} {rest : List Char}

theorem forall_staysOnLine {line : List Char} (hline : '\n' ∉ line) :
    ∀ c ∈ line, staysOnLine c = true := by
  intro c hc
  rw [staysOnLine, decide_eq_true_iff]
  rintro rfl
  exact hline hc

theorem cutLines_ne_nil (text : List Char) : cutLines text ≠ [] := by
  cases text with
  | nil => simp [cutLines]
  | cons c rest =>
      rw [cutLines, List.foldr_cons, putBefore]
      split <;> simp

/-- The first line ends at the first line feed. -/
theorem cutLines_append_cons {line : List Char} (hline : '\n' ∉ line) (rest : List Char) :
    cutLines (line ++ '\n' :: rest) = line :: cutLines rest := by
  induction line with
  | nil => simp [cutLines, putBefore]
  | cons c line ih =>
      rw [List.mem_cons, not_or] at hline
      obtain ⟨hc, hline⟩ := hline
      rw [cutLines, List.cons_append, List.foldr_cons, ← cutLines, ih hline, putBefore,
        if_neg (Ne.symm hc)]
      rfl

theorem cutLines_of_not_mem {line : List Char} (hline : '\n' ∉ line) : cutLines line = [line] := by
  induction line with
  | nil => rfl
  | cons c line ih =>
      rw [List.mem_cons, not_or] at hline
      obtain ⟨hc, hline⟩ := hline
      rw [cutLines, List.foldr_cons, ← cutLines, ih hline, putBefore, if_neg (Ne.symm hc)]
      rfl

theorem cutLines_ended (hlines : ∀ line ∈ lines, '\n' ∉ line) (rest : List Char) :
    cutLines (ended lines ++ rest) = lines ++ cutLines rest := by
  induction lines with
  | nil => rfl
  | cons line lines ih =>
      obtain ⟨hline, hlines⟩ := List.forall_mem_cons.mp hlines
      have hrow : ended (line :: lines) ++ rest = line ++ '\n' :: (ended lines ++ rest) := by
        simp [ended]
      rw [hrow, cutLines_append_cons hline, ih hlines, List.cons_append]

/-- A place behind lines that have ended is looked up among the lines that follow. -/
theorem lineAmong_append {others : List (List Char)} (hothers : others ≠ [])
    (lines : List (List Char)) (number ahead : Nat) :
    lineAmong number (width (ended lines) + ahead) (lines ++ others) =
      lineAmong (number + lines.length) ahead others := by
  induction lines generalizing number with
  | nil => simp [ended]
  | cons line lines ih =>
      have hrow : lines ++ others ≠ [] := by simp [hothers]
      obtain ⟨next, more, hnext⟩ := List.exists_cons_of_ne_nil hrow
      have hwidth : width (ended (line :: lines)) = width line + 1 + width (ended lines) := by
        have hfeed : '\n'.utf8Size = 1 := by decide
        simp [ended, hfeed, Nat.add_assoc]
      have hbehind : ¬ width (ended (line :: lines)) + ahead ≤ width line := by omega
      have hoffset : width (ended (line :: lines)) + ahead - (width line + 1) =
          width (ended lines) + ahead := by omega
      rw [List.cons_append, hnext, lineAmong, if_neg hbehind, hoffset, ← hnext, ih]
      rw [List.length_cons]
      congr 1
      omega

/-- The line of a place is numbered by the line feeds before it.  It is shown without the carriage
returns at its end, unless the place is the end of the source. -/
theorem lineAt?_eq {source : String} {ahead : Nat} (hlines : ∀ line ∈ lines, '\n' ∉ line)
    (hsource : source.toList = ended lines ++ rest)
    (hahead : ahead ≤ width (rest.takeWhile staysOnLine)) :
    lineAt? source (width (ended lines) + ahead) =
      some ⟨lines.length + 1,
        if ahead = width rest then rest else dropReturns (rest.takeWhile staysOnLine), ahead⟩ := by
  rw [lineAt?, hsource, cutLines_ended hlines, lineAmong_append (cutLines_ne_nil rest),
    Nat.add_comm 1]
  by_cases hfeed : '\n' ∈ rest
  · obtain ⟨line, more, rfl, hline⟩ := List.eq_append_cons_of_mem hfeed
    have hstops : Stops staysOnLine ('\n' :: more) := stops_cons (by decide)
    rw [hstops.takeWhile (forall_staysOnLine hline)] at hahead ⊢
    have hinside : ahead ≠ width (line ++ '\n' :: more) := by
      have hfeed : '\n'.utf8Size = 1 := by decide
      simp only [width_append, width_cons]
      omega
    obtain ⟨next, others, hnext⟩ := List.exists_cons_of_ne_nil (cutLines_ne_nil more)
    rw [cutLines_append_cons hline, hnext, lineAmong, if_pos hahead, if_neg hinside]
  · rw [List.takeWhile_eq_self_iff.mpr (forall_staysOnLine hfeed)] at hahead ⊢
    rw [cutLines_of_not_mem hfeed, lineAmong]
    by_cases hend : ahead = width rest
    · rw [if_neg (by omega), if_pos hend, if_pos hend]
    · rw [if_pos (by omega), if_neg hend]

/-- There is no line feed in the line that a text breaks off in. -/
theorem not_mem_rtakeWhile (text : List Char) : '\n' ∉ text.rtakeWhile staysOnLine := by
  intro hmem
  exact absurd (List.mem_rtakeWhile_imp hmem) (by decide)

/-- Every text is lines that have ended, one for each line feed, and the beginning of another. -/
theorem exists_ended (text : List Char) : ∃ lines : List (List Char),
    (∀ line ∈ lines, '\n' ∉ line) ∧ text = ended lines ++ text.rtakeWhile staysOnLine ∧
      lines.length = text.count '\n' := by
  induction text using List.reverseRecOn with
  | nil => exact ⟨[], by simp, rfl, rfl⟩
  | append_singleton text c ih =>
      obtain ⟨lines, hlines, htext, hlength⟩ := ih
      by_cases hfeed : c = '\n'
      · subst hfeed
        refine ⟨lines ++ [text.rtakeWhile staysOnLine], ?_, ?_, ?_⟩
        · intro line hline
          rcases List.mem_append.mp hline with hline | hline
          · exact hlines line hline
          · rw [List.mem_singleton.mp hline]
            exact not_mem_rtakeWhile text
        · have hrow : ended (lines ++ [text.rtakeWhile staysOnLine]) =
              ended lines ++ text.rtakeWhile staysOnLine ++ ['\n'] := by
            simp [ended]
          rw [List.rtakeWhile_concat_neg staysOnLine text '\n' (by decide), hrow, ← htext,
            List.append_nil]
        · simp [hlength]
      · have hstays : staysOnLine c = true := by simpa [staysOnLine] using hfeed
        refine ⟨lines, hlines, ?_, ?_⟩
        · rw [List.rtakeWhile_concat_pos staysOnLine text c hstays, ← List.append_assoc, ← htext]
        · simp [hlength, hfeed]

end Diagnostic

end Precedence
