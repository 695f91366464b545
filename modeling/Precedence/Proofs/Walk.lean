import Precedence.Proofs.Scan

/-!
# Walking over a source

A walk over a source is any row of calls that ask for the next item or move the scan offset on.  How
far the walk has come and where the scan offset lies go their own ways: the offset may be moved
before the opening token is taken, between two tokens, past the end and after the walk is over.  A
walk keeps to one protocol all the same, and what bounds it is that every token takes up bytes that
lie between the offset before and the offset after it.
-/

namespace Precedence

open Text

namespace Text

variable {text : List Char}

/-- Bytes can be skipped in two goes. -/
theorem skipBytes_add (first second : Nat) (text : List Char) :
    skipBytes (first + second) text =
      skipBytes ((skipBytes first text).2 + second) (skipBytes first text).1 := by
  induction text generalizing first with
  | nil => simp [skipBytes]
  | cons c rest ih =>
      by_cases hc : c.utf8Size ≤ first
      · have hsum : c.utf8Size ≤ first + second := by omega
        have hless : first + second - c.utf8Size = first - c.utf8Size + second := by omega
        rw [skipBytes, skipBytes, if_pos hc, if_pos hsum, hless]
        exact ih (first - c.utf8Size)
      · have hfirst : skipBytes first (c :: rest) = (c :: rest, first) := by
          rw [skipBytes, if_neg hc]
        rw [hfirst]

theorem skipBytes_zero (text : List Char) : skipBytes 0 text = (text, 0) := by
  cases text with
  | nil => rfl
  | cons c rest =>
      have hc : ¬ c.utf8Size ≤ 0 := Nat.not_le.mpr c.utf8Size_pos
      rw [skipBytes, if_neg hc]

theorem skipBytes_width_append (front rest : List Char) :
    skipBytes (width front) (front ++ rest) = (rest, 0) := by
  induction front with
  | nil => exact skipBytes_zero rest
  | cons c front ih =>
      have hc : c.utf8Size ≤ width (c :: front) := by simp
      rw [List.cons_append, skipBytes, if_pos hc, width_cons, Nat.add_sub_cancel_left]
      exact ih

theorem skipBytes_of_width_le {bytes : Nat} (hbytes : width text ≤ bytes) :
    skipBytes bytes text = ([], 0) := by
  have hwhole := skipBytes_width_append text []
  rw [List.append_nil] at hwhole
  rw [← Nat.add_sub_cancel' hbytes, skipBytes_add, hwhole]
  rfl

/-- What is skipped stands in front of what is left. -/
theorem exists_skipped (bytes : Nat) (text : List Char) :
    ∃ passed, text = passed ++ (skipBytes bytes text).1 ∧
      width passed + (skipBytes bytes text).2 ≤ bytes ∧
      ((skipBytes bytes text).1 ≠ [] → width passed + (skipBytes bytes text).2 = bytes) := by
  induction text generalizing bytes with
  | nil => exact ⟨[], by simp [skipBytes]⟩
  | cons c rest ih =>
      by_cases hc : c.utf8Size ≤ bytes
      · obtain ⟨passed, hrest, hle, heq⟩ := ih (bytes - c.utf8Size)
        rw [skipBytes, if_pos hc]
        refine ⟨c :: passed, by rw [List.cons_append, ← hrest], ?_, fun hleft => ?_⟩
        · rw [width_cons]
          omega
        · have hsum := heq hleft
          rw [width_cons]
          omega
      · rw [skipBytes, if_neg hc]
        exact ⟨[], by simp⟩

end Text

theorem Slice.stop_le {text piece : List Char} {start stop : Int}
    (hslice : Slice text start stop piece) : stop ≤ width text := by
  obtain ⟨before, after, rfl, -, rfl⟩ := hslice
  simp only [width_append]
  omega

namespace Lexer

/-! ## Calls and events -/

/-- A call to a lexer. -/
inductive Call where
  | next
  | moveOn (bytes : Nat)

/-- What happens when the next item is asked for: where the scan offset lies before, what is
answered, and where the offset lies after. -/
structure Event where
  before : Nat
  pull : Pull
  after : Nat

/-- What happens to a lexer that is called in a row. -/
def events : Lexer → List Call → List Event
  | _, [] => []
  | lexer, .moveOn bytes :: calls => events (lexer.moveOn bytes) calls
  | lexer, .next :: calls =>
    ⟨lexer.offset, lexer.next.1, lexer.next.2.offset⟩ :: events lexer.next.2 calls

namespace Event

/-- Whether an item is yielded. -/
def yields (event : Event) : Bool :=
  match event.pull with
  | .item _ => true
  | .done | .astray => false

/-- The token that is yielded, if there is one. -/
def token? (event : Event) : Option Token :=
  match event.pull with
  | .item (.ok token) => some token
  | .item (.error _) | .done | .astray => none

/-- Whether the closing token or an error is yielded. -/
def ends (event : Event) : Bool :=
  match event.pull with
  | .item (.ok token) => token.kind = .finish
  | .item (.error _) => true
  | .done | .astray => false

end Event

/-- An offset from which the text of a source can be read: it lies between two characters, or the
text is over there. -/
def Readable (source : String) (offset : Nat) : Prop :=
  source.utf8ByteSize ≤ offset ∨
    ∃ passed rest, source.toList = passed ++ rest ∧ offset = width passed

/-- What may happen between the opening token and the end of a walk. -/
inductive Event.Scanned (source file : String) : Event → Prop
  /-- A lexeme is cut out of the source, no part of which is passed before and all of which is
  passed after. -/
  | token {before after : Nat} {token : Token}
      (hkind : token.kind ≠ .start ∧ token.kind ≠ .finish) (hfile : token.span.file = file)
      (hbefore : before ≤ token.span.start) (hlexeme : token.span.start < token.span.stop)
      (hafter : token.span.stop = after)
      (hslice : Slice source.toList token.span.start token.span.stop token.lexeme.toList) :
      Scanned source file ⟨before, .item (.ok token), after⟩
  /-- The text is over, and it may have been over long before. -/
  | closing {before after : Nat} (hbefore : before ≤ after) (hend : source.utf8ByteSize ≤ after) :
      Scanned source file ⟨before, .item (.ok (.closing source.utf8ByteSize file)), after⟩
  /-- No lexeme begins with the character at the scan offset. -/
  | error {before : Nat} {passed rest : List Char} {c : Char} (hbefore : before ≤ width passed)
      (hsource : source.toList = passed ++ c :: rest)
      (hnone : Lexeme.classify? (c :: rest) = none) :
      Scanned source file
        ⟨before, .item (.error ⟨.unexpectedCharacter c, ⟨width passed, file⟩⟩), width passed⟩
  /-- Nothing can be read. -/
  | astray {before : Nat} (hbefore : ¬ Readable source before) :
      Scanned source file ⟨before, .astray, before⟩

/-- What may happen in a phase, and the phase that follows. -/
inductive Step (source file : String) : Phase → Event → Phase → Prop
  | opening {before : Nat} :
      Step source file .start ⟨before, .item (.ok (.opening file)), before⟩ .scanning
  | scanned {event : Event} (hscanned : event.Scanned source file) :
      Step source file .scanning event (if event.ends then .finished else .scanning)
  | done {before : Nat} : Step source file .finished ⟨before, .done, before⟩ .finished

/-- Events that follow one another, the first of them in a phase and at no smaller scan offset. -/
inductive Walk (source file : String) : Phase → Nat → List Event → Prop
  | nil {phase : Phase} {offset : Nat} : Walk source file phase offset []
  | cons {phase next : Phase} {offset : Nat} {event : Event} {events : List Event}
      (hmoved : offset ≤ event.before) (hstep : Step source file phase event next)
      (hrest : Walk source file next event.after events) :
      Walk source file phase offset (event :: events)

/-! ## One call -/

section Next

variable {lexer : Lexer}

theorem next_of_start (hphase : lexer.phase = .start) :
    lexer.next = (.item (.ok (.opening lexer.file)), { lexer with phase := .scanning }) := by
  rw [next, hphase]

theorem next_of_finished (hphase : lexer.phase = .finished) : lexer.next = (.done, lexer) := by
  rw [next, hphase]

theorem next_of_inside_eq (hphase : lexer.phase = .scanning) (hinside : lexer.inside = 0) :
    lexer.next = (.item lexer.skipGap.scan.1, lexer.skipGap.scan.2) := by
  simp only [next, hphase, hinside, if_true]

theorem next_of_inside_ne (hphase : lexer.phase = .scanning) (hinside : lexer.inside ≠ 0) :
    lexer.next = (.astray, lexer) := by
  simp only [next, hphase, hinside, if_false]

end Next

/-- The lexer walks over the source: what it has ahead is what the scan offset leaves of it. -/
structure Over (source file : String) (lexer : Lexer) : Prop where
  file_eq : lexer.file = file
  length_eq : lexer.length = source.utf8ByteSize
  ahead_eq : skipBytes lexer.offset source.toList = (lexer.ahead, lexer.inside)

theorem over_ofSource (source : String) (file : Option String) :
    (ofSource source file).Over source (fileName file) :=
  ⟨rfl, rfl, skipBytes_zero source.toList⟩

namespace Over

variable {source file : String} {lexer : Lexer}

theorem setPhase (hover : lexer.Over source file) (phase : Phase) :
    Over source file { lexer with phase } :=
  ⟨hover.file_eq, hover.length_eq, hover.ahead_eq⟩

theorem moveOn (hover : lexer.Over source file) (bytes : Nat) :
    (lexer.moveOn bytes).Over source file where
  file_eq := hover.file_eq
  length_eq := hover.length_eq
  ahead_eq := by
    simp only [Lexer.moveOn]
    rw [skipBytes_add, hover.ahead_eq]

/-- Passing some of the text ahead moves the scan offset on by its width. -/
theorem pass (hover : lexer.Over source file) (hinside : lexer.inside = 0) {front rest : List Char}
    (hahead : lexer.ahead = front ++ rest) :
    Over source file { lexer with offset := lexer.offset + width front, ahead := rest } where
  file_eq := hover.file_eq
  length_eq := hover.length_eq
  ahead_eq := by
    simp only
    rw [skipBytes_add, hover.ahead_eq]
    simp only [hinside, hahead, Nat.zero_add]
    exact skipBytes_width_append front rest

theorem skipGap (hover : lexer.Over source file) (hinside : lexer.inside = 0) :
    lexer.skipGap.Over source file :=
  hover.pass hinside List.takeWhile_append_dropWhile.symm

theorem inside_eq_zero (hover : lexer.Over source file) (hreadable : Readable source lexer.offset) :
    lexer.inside = 0 := by
  have hahead := hover.ahead_eq
  rcases hreadable with hend | ⟨passed, rest, hsource, hoffset⟩
  · rw [utf8ByteSize_eq_width] at hend
    rw [skipBytes_of_width_le hend] at hahead
    exact (Prod.mk.inj hahead).2.symm
  · rw [hsource, hoffset, skipBytes_width_append] at hahead
    exact (Prod.mk.inj hahead).2.symm

theorem exists_passed (hover : lexer.Over source file) (hinside : lexer.inside = 0)
    (hne : lexer.ahead ≠ []) :
    ∃ passed, source.toList = passed ++ lexer.ahead ∧ width passed = lexer.offset := by
  obtain ⟨passed, hsource, -, hwidth⟩ := exists_skipped lexer.offset source.toList
  rw [hover.ahead_eq, hinside] at hwidth
  rw [hover.ahead_eq] at hsource
  exact ⟨passed, hsource, hwidth hne⟩

theorem size_le_offset (hover : lexer.Over source file) (hnil : lexer.ahead = []) :
    source.utf8ByteSize ≤ lexer.offset := by
  obtain ⟨passed, hsource, hwidth, -⟩ := exists_skipped lexer.offset source.toList
  rw [hover.ahead_eq, hnil, List.append_nil] at hsource
  rw [utf8ByteSize_eq_width, hsource]
  omega

theorem scanned_last (hover : lexer.Over source file) (hinside : lexer.inside = 0) {before : Nat}
    (hbefore : before ≤ lexer.offset) (hnone : Lexeme.classify? lexer.ahead = none) :
    Event.Scanned source file
      ⟨before, .item (lastItem lexer.length lexer.file lexer.offset lexer.ahead), lexer.offset⟩ := by
  rw [hover.length_eq, hover.file_eq]
  cases hahead : lexer.ahead with
  | nil => exact .closing hbefore (hover.size_le_offset hahead)
  | cons c rest =>
      have hne : lexer.ahead ≠ [] := by
        rw [hahead]
        exact List.cons_ne_nil c rest
      obtain ⟨passed, hsource, hwidth⟩ := hover.exists_passed hinside hne
      rw [hahead] at hsource hnone
      rw [← hwidth] at hbefore ⊢
      exact .error hbefore hsource hnone

theorem scanned_token (hover : lexer.Over source file) (hinside : lexer.inside = 0) {before : Nat}
    (hbefore : before ≤ lexer.offset) {lexeme rest : List Char} {kind : TokenKind}
    (hahead : lexer.ahead = lexeme ++ rest)
    (hfound : Lexeme.classify? lexer.ahead = some (kind, lexeme)) :
    Event.Scanned source file
      ⟨before, .item (.ok (Token.cut lexer.file lexer.offset kind lexeme)),
        lexer.offset + width lexeme⟩ := by
  obtain ⟨-, hne, hkind⟩ := Lexeme.classify?_front hfound
  have hpositive := width_pos hne
  obtain ⟨passed, hsource, hwidth⟩ := hover.exists_passed hinside
    (by rw [hahead]; exact List.append_ne_nil_of_left_ne_nil hne rest)
  rw [hahead] at hsource
  refine .token hkind hover.file_eq ?_ ?_ rfl ⟨passed, rest, ?_, ?_, ?_⟩
  · exact Int.ofNat_le.mpr hbefore
  · simp only [Token.cut]
    omega
  · simpa [Token.cut] using hsource
  · simp [Token.cut, hwidth]
  · simp [Token.cut, hwidth]

/-- What stands at the scan offset is cut out or reported, or the text is over. -/
theorem scan (hover : lexer.Over source file) (hphase : lexer.phase = .scanning)
    (hinside : lexer.inside = 0) {before : Nat} (hbefore : before ≤ lexer.offset) {event : Event}
    (hevent : event = ⟨before, .item lexer.scan.1, lexer.scan.2.offset⟩) :
    event.Scanned source file ∧ lexer.scan.2.Over source file ∧
      lexer.scan.2.phase = if event.ends then .finished else .scanning := by
  cases hfound : Lexeme.classify? lexer.ahead with
  | none =>
      have hends : event.ends = true := by
        rw [hevent, scan_last hfound]
        cases lexer.ahead <;> rfl
      rw [hends]
      rw [scan_last hfound] at hevent ⊢
      rw [hevent]
      exact ⟨hover.scanned_last hinside hbefore hfound, hover.setPhase _, rfl⟩
  | some found =>
      obtain ⟨kind, lexeme⟩ := found
      obtain ⟨⟨rest, hahead⟩, -, hkind⟩ := Lexeme.classify?_front hfound
      have hscan := scan_token hahead.symm (by rw [hahead]; exact hfound)
      have hends : event.ends = false := by
        rw [hevent, hscan]
        simp [Event.ends, Token.cut, hkind.2]
      rw [hends]
      rw [hscan] at hevent ⊢
      rw [hevent]
      exact ⟨hover.scanned_token hinside hbefore hahead.symm hfound,
        hover.pass hinside hahead.symm, hphase⟩

/-- Asking for the next item is a step. -/
theorem next (hover : lexer.Over source file) :
    Step source file lexer.phase ⟨lexer.offset, lexer.next.1, lexer.next.2.offset⟩
      lexer.next.2.phase ∧ lexer.next.2.Over source file := by
  cases hphase : lexer.phase with
  | start =>
      rw [next_of_start hphase, hover.file_eq]
      exact ⟨.opening, rfl, hover.length_eq, hover.ahead_eq⟩
  | finished =>
      rw [next_of_finished hphase, hphase]
      exact ⟨.done, hover⟩
  | scanning =>
      by_cases hinside : lexer.inside = 0
      · -- the scan begins behind the gap, the event in front of it
        have hgap : lexer.offset ≤ lexer.skipGap.offset := Nat.le_add_right _ _
        obtain ⟨hscanned, hafter, hends⟩ := (hover.skipGap hinside).scan hphase hinside hgap rfl
        rw [next_of_inside_eq hphase hinside, hends]
        exact ⟨.scanned hscanned, hafter⟩
      · have hastray : ¬ Readable source lexer.offset :=
          fun hreadable => hinside (hover.inside_eq_zero hreadable)
        rw [next_of_inside_ne hphase hinside, hphase]
        exact ⟨.scanned (.astray hastray), hover⟩

end Over

/-! ## What one step can do -/

namespace Phase

/-- The offset behind which all further tokens of a source of `size` bytes lie. -/
def reach (size offset : Nat) : Phase → Int
  | .start => -1
  | .scanning | .finished => min offset size

/-- How many more items a source of `size` bytes can yield. -/
def budget (size offset : Nat) : Phase → Nat
  | .start => size - offset + 2
  | .scanning => size - offset + 1
  | .finished => 0

/-- How many more times a walk can end. -/
def endings : Phase → Nat
  | .start | .scanning => 1
  | .finished => 0

theorem reach_mono {first second : Nat} (size : Nat) (phase : Phase) (hle : first ≤ second) :
    phase.reach size first ≤ phase.reach size second := by
  cases phase with
  | start => exact Int.le_refl _
  | scanning | finished =>
      simp only [reach]
      omega

theorem budget_anti {first second : Nat} (size : Nat) (phase : Phase) (hle : first ≤ second) :
    phase.budget size second ≤ phase.budget size first := by
  cases phase with
  | start | scanning =>
      simp only [budget]
      omega
  | finished => exact Nat.le_refl _

end Phase

section Step

variable {source file : String} {phase next : Phase} {event : Event}

theorem Event.Scanned.before_le_after (hscanned : event.Scanned source file) :
    event.before ≤ event.after := by
  cases hscanned with
  | token hkind hfile hbefore hlexeme hafter hslice =>
      simp only
      omega
  | closing hbefore hend => exact hbefore
  | error hbefore hsource hnone => exact hbefore
  | astray hbefore => exact Nat.le_refl _

namespace Step

theorem before_le_after (hstep : Step source file phase event next) :
    event.before ≤ event.after := by
  cases hstep with
  | opening | done => exact Nat.le_refl _
  | scanned hscanned => exact hscanned.before_le_after

theorem eq_finished_of_ends (hstep : Step source file phase event next)
    (hends : event.ends = true) : next = .finished := by
  cases hstep with
  | opening => contradiction
  | scanned hscanned => rw [if_pos hends]
  | done => rfl

theorem of_scanning (hstep : Step source file .scanning event next) :
    event.Scanned source file ∧ (event.ends = false → next = .scanning) := by
  cases hstep with
  | scanned hscanned => exact ⟨hscanned, fun hends => by rw [hends]; rfl⟩

theorem of_finished (hstep : Step source file .finished event next) :
    event.pull = .done ∧ next = .finished := by
  cases hstep with
  | done => exact ⟨rfl, rfl⟩

/-- A token lies between what is behind the walk before and after the step. -/
theorem token_between (hstep : Step source file phase event next) {token : Token}
    (htoken : event.token? = some token) :
    phase.reach source.utf8ByteSize event.before ≤ token.span.start ∧
      token.span.start ≤ token.span.stop ∧
      token.span.stop ≤ next.reach source.utf8ByteSize event.after := by
  cases hstep with
  | opening =>
      obtain rfl := Option.some.inj htoken
      simp only [Phase.reach, Token.opening]
      omega
  | done => contradiction
  | scanned hscanned =>
      cases hscanned with
      | token hkind hfile hbefore hlexeme hafter hslice =>
          obtain rfl := Option.some.inj htoken
          have hstop := hslice.stop_le
          rw [← utf8ByteSize_eq_width] at hstop
          simp only [Event.ends, hkind.2, decide_false, Bool.false_eq_true, if_false, Phase.reach]
          omega
      | closing hbefore hend =>
          obtain rfl := Option.some.inj htoken
          simp only [Event.ends, Token.closing, decide_true, if_true, Phase.reach]
          omega
      | error | astray => contradiction

theorem reach_le (hstep : Step source file phase event next) :
    phase.reach source.utf8ByteSize event.before ≤ next.reach source.utf8ByteSize event.after := by
  have hoffset := hstep.before_le_after
  cases hstep with
  | opening | done =>
      simp only [Phase.reach]
      omega
  | scanned hscanned =>
      split
      all_goals
        simp only [Phase.reach]
        omega

/-- Every lexeme takes up a byte. -/
theorem budget_le (hstep : Step source file phase event next) :
    next.budget source.utf8ByteSize event.after + (if event.yields then 1 else 0) ≤
      phase.budget source.utf8ByteSize event.before := by
  cases hstep with
  | opening | done => exact Nat.le_refl _
  | scanned hscanned =>
      cases hscanned with
      | token hkind hfile hbefore hlexeme hafter hslice =>
          have hstop := hslice.stop_le
          rw [← utf8ByteSize_eq_width] at hstop
          simp only [Event.ends, Event.yields, hkind.2, decide_false, Bool.false_eq_true, if_false,
            if_true, Phase.budget]
          omega
      | closing | error => exact Nat.le_add_left _ _
      | astray => exact Nat.le_refl _

theorem endings_le (hstep : Step source file phase event next) :
    next.endings + (if event.ends then 1 else 0) ≤ phase.endings := by
  cases hstep with
  | opening | done => exact Nat.le_refl _
  | scanned hscanned => cases event.ends <;> exact Nat.le_refl _

end Step

end Step

/-! ## What a walk can do -/

namespace Walk

variable {source file : String} {phase : Phase} {offset : Nat} {events past future : List Event}

theorem of_le (hwalk : Walk source file phase offset events) {earlier : Nat}
    (hle : earlier ≤ offset) : Walk source file phase earlier events := by
  cases hwalk with
  | nil => exact .nil
  | cons hmoved hstep hrest => exact .cons (Nat.le_trans hle hmoved) hstep hrest

/-- A lexer keeps to the protocol whatever the calls are. -/
theorem of_calls {lexer : Lexer} (hover : lexer.Over source file) (calls : List Call) :
    Walk source file lexer.phase lexer.offset (lexer.events calls) := by
  induction calls generalizing lexer with
  | nil => exact .nil
  | cons call calls ih =>
      cases call with
      | next =>
          obtain ⟨hstep, hafter⟩ := hover.next
          exact .cons (Nat.le_refl _) hstep (ih hafter)
      | moveOn bytes => exact (ih (hover.moveOn bytes)).of_le (Nat.le_add_right _ _)

theorem offset_le_before (hwalk : Walk source file phase offset events) :
    ∀ event ∈ events, offset ≤ event.before := by
  induction hwalk with
  | nil => simp
  | cons hmoved hstep hrest ih =>
      have hnext := Nat.le_trans hmoved hstep.before_le_after
      exact List.forall_mem_cons.mpr
        ⟨hmoved, fun event hevent => Nat.le_trans hnext (ih event hevent)⟩

theorem pairwise_offsets (hwalk : Walk source file phase offset events) :
    events.Pairwise fun earlier later => earlier.after ≤ later.before := by
  induction hwalk with
  | nil => exact .nil
  | cons hmoved hstep hrest ih => exact ih.cons hrest.offset_le_before

theorem pull_eq_done (hwalk : Walk source file .finished offset events) :
    ∀ event ∈ events, event.pull = .done := by
  generalize hphase : Phase.finished = phase at hwalk
  induction hwalk with
  | nil => simp
  | cons hmoved hstep hrest ih =>
      subst hphase
      obtain ⟨hpull, hnext⟩ := hstep.of_finished
      exact List.forall_mem_cons.mpr ⟨hpull, ih hnext.symm⟩

/-- An ending is followed by nothing. -/
theorem pairwise_ends (hwalk : Walk source file phase offset events) :
    events.Pairwise fun earlier later => earlier.ends → later.pull = .done := by
  induction hwalk with
  | nil => exact .nil
  | cons hmoved hstep hrest ih =>
      refine ih.cons fun later hlater hends => ?_
      rw [hstep.eq_finished_of_ends hends] at hrest
      exact hrest.pull_eq_done later hlater

/-- What comes behind the opening token and before an ending is scanned. -/
theorem scanned_of_append {event : Event}
    (hwalk : Walk source file .scanning offset (past ++ event :: future))
    (hpast : ∀ earlier ∈ past, earlier.ends = false) : event.Scanned source file := by
  induction past generalizing offset with
  | nil =>
      cases hwalk with
      | cons hmoved hstep hrest => exact hstep.of_scanning.1
  | cons first past ih =>
      obtain ⟨hfirst, hpast⟩ := List.forall_mem_cons.mp hpast
      cases hwalk with
      | cons hmoved hstep hrest =>
          rw [hstep.of_scanning.2 hfirst] at hrest
          exact ih hrest hpast

theorem reach_le_start (hwalk : Walk source file phase offset events) :
    ∀ token ∈ events.filterMap Event.token?,
      phase.reach source.utf8ByteSize offset ≤ token.span.start := by
  induction hwalk with
  | nil => simp
  | @cons phase next offset event events hmoved hstep hrest ih =>
      have hreach := Int.le_trans (phase.reach_mono source.utf8ByteSize hmoved) hstep.reach_le
      intro token htoken
      rw [List.filterMap_cons] at htoken
      cases hevent : event.token? with
      | none =>
          rw [hevent] at htoken
          exact Int.le_trans hreach (ih token htoken)
      | some first =>
          rw [hevent] at htoken
          rcases List.mem_cons.mp htoken with rfl | htoken
          · exact Int.le_trans (phase.reach_mono _ hmoved) (hstep.token_between hevent).1
          · exact Int.le_trans hreach (ih token htoken)

/-- Tokens do not overlap and go from left to right. -/
theorem ordered (hwalk : Walk source file phase offset events) :
    (events.filterMap Event.token?).Pairwise fun earlier later =>
      earlier.span.stop ≤ later.span.start := by
  induction hwalk with
  | nil => exact .nil
  | @cons phase next offset event events hmoved hstep hrest ih =>
      rw [List.filterMap_cons]
      cases hevent : event.token? with
      | none => exact ih
      | some token =>
          have hstop := (hstep.token_between hevent).2.2
          exact ih.cons fun later hlater => Int.le_trans hstop (hrest.reach_le_start later hlater)

/-- Events of a sort that each step has to pay for are at most as many as can be paid for. -/
theorem countP_le (property : Event → Bool) (budget : Phase → Nat → Nat)
    (hmove : ∀ phase first second, first ≤ second → budget phase second ≤ budget phase first)
    (hpay : ∀ phase event next, Step source file phase event next →
      budget next event.after + (if property event then 1 else 0) ≤ budget phase event.before)
    (hwalk : Walk source file phase offset events) :
    events.countP property ≤ budget phase offset := by
  induction hwalk with
  | nil => exact Nat.zero_le _
  | @cons phase next offset event events hmoved hstep hrest ih =>
      rw [List.countP_cons]
      exact Nat.le_trans (Nat.add_le_add_right ih _)
        (Nat.le_trans (hpay _ _ _ hstep) (hmove _ _ _ hmoved))

theorem countP_yields (hwalk : Walk source file phase offset events) :
    events.countP Event.yields ≤ phase.budget source.utf8ByteSize offset :=
  countP_le Event.yields (fun phase => phase.budget source.utf8ByteSize)
    (fun phase _ _ hle => phase.budget_anti _ hle) (fun _ _ _ hstep => hstep.budget_le) hwalk

theorem countP_ends (hwalk : Walk source file phase offset events) :
    events.countP Event.ends ≤ phase.endings :=
  countP_le Event.ends (fun phase _ => phase.endings) (fun _ _ _ _ => Nat.le_refl _)
    (fun _ _ _ hstep => hstep.endings_le) hwalk

end Walk

/-- What the events of a walk that begins with a source have to do with the source and with each
other. -/
structure Protocol (source file : String) (events : List Event) : Prop where
  /-- The opening token comes first. -/
  opens : ∀ event ∈ events.head?, event.pull = .item (.ok (.opening file))
  /-- Behind it everything is scanned, until the walk ends. -/
  scans : ∀ past event future, events = past ++ event :: future → past ≠ [] →
    (∀ earlier ∈ past, earlier.ends = false) → event.Scanned source file
  /-- After that nothing is yielded. -/
  silent : events.Pairwise fun earlier later => earlier.ends → later.pull = .done
  ends_le : events.countP Event.ends ≤ 1
  /-- The scan offset does not go back. -/
  offsets : events.Pairwise fun earlier later => earlier.after ≤ later.before
  /-- Tokens do not overlap and go from left to right. -/
  ordered : (events.filterMap Event.token?).Pairwise fun earlier later =>
    earlier.span.stop ≤ later.span.start
  yields_le : events.countP Event.yields ≤ source.utf8ByteSize + 2

/-- A walk keeps to the protocol, whatever the calls are. -/
theorem events_protocol (source : String) (file : Option String) (calls : List Call) :
    Protocol source (fileName file) ((ofSource source file).events calls) := by
  have hwalk : Walk source (fileName file) .start 0 ((ofSource source file).events calls) :=
    Walk.of_calls (over_ofSource source file) calls
  refine ⟨?_, ?_, hwalk.pairwise_ends, hwalk.countP_ends, hwalk.pairwise_offsets, hwalk.ordered,
    hwalk.countP_yields⟩
  · generalize (ofSource source file).events calls = events at hwalk
    cases hwalk with
    | nil => simp
    | cons hmoved hstep hrest =>
        cases hstep with
        | opening => simp
  · intro past event future hevents hne hpast
    rw [hevents] at hwalk
    obtain ⟨first, past, rfl⟩ := List.exists_cons_of_ne_nil hne
    cases hwalk with
    | cons hmoved hstep hrest =>
        cases hstep with
        | opening => exact hrest.scanned_of_append (List.forall_mem_cons.mp hpast).2

example : ((ofSource "1 + 2" none).events [.moveOn 1, .next, .next, .moveOn 9, .next, .next]).map
    (fun event => (event.before, event.after)) = [(1, 1), (1, 3), (12, 12), (12, 12)] := by
  cbv

end Lexer

end Precedence
