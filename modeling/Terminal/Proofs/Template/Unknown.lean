import Terminal.Proofs.Template.Scope
import Terminal.Proofs.Template.Spelling

/-!
# Characters outside the language

A character has no meaning behind a `%` if it names no directive, and in a format that a letter ends
if it neither belongs to the specification nor is such a letter (`Mode.Lacks`).  Only there does the
reader ask what becomes of directives that it does not know, so two runs that differ in nothing else
are the same up to the first such character (`complete_cases`).  One of them passes over it and the
other one fails there.  `refines` says where in the template that is.
-/

namespace Terminal.Template

/-! ## Directives -/

/-- The characters that are instructions behind a `%`. -/
def instructionNames : List Char :=
  ['%', 'c', 'l', '!', '~', 'i', '+', '-', '*', '/', 'm', '&', '|', '^', '=', '<', '>', 'A', 'O',
    'd', 'o', 'x', 'X', 's']

/-- The characters that begin something or belong to a conditional. -/
def openingNames : List Char := ['p', 'P', 'g', '\x27', '\x7b', ':', '?', ';', 't', 'e']

/-- The characters that begin a format without a colon. -/
def bareNames : List Char := ['#', ' ', '.', '0', '1', '2', '3', '4', '5', '6', '7', '8', '9']

/-- All directives, by the character behind the `%`. -/
def directives : FormatEnd → List Char
  | .percent => instructionNames ++ openingNames
  | .conversion => instructionNames ++ openingNames ++ bareNames

/-- A comparison is named by its own letter only. -/
theorem Comparison.eq_symbol_of_ofChar? {c : Char} {op : Comparison} (h : ofChar? c = some op) :
    c = op.symbol := by
  unfold ofChar? at h
  split at h <;> cases h <;> rfl

/-- A conversion is named by its own letter only. -/
theorem Conversion.eq_symbol_of_ofChar? {c : Char} {k : Conversion} (h : ofChar? c = some k) :
    c = k.symbol := by
  unfold ofChar? at h
  split at h <;> cases h <;> rfl

/-- A directive of one character is one of the listed names. -/
theorem mem_instructionNames {c : Char} {i : Instruction} (h : Instruction.ofChar? c = some i) :
    c ∈ instructionNames := by
  unfold Instruction.ofChar? at h
  split at h
  · next op hop =>
    rw [Arithmetic.eq_symbol_of_ofChar? hop]
    cases op <;> simp [instructionNames, Arithmetic.symbol]
  · next op _ hop =>
    rw [Comparison.eq_symbol_of_ofChar? hop]
    cases op <;> simp [instructionNames, Comparison.symbol]
  · next k _ _ hk =>
    rw [Conversion.eq_symbol_of_ofChar? hk]
    cases k <;> simp [instructionNames, Conversion.symbol]
  · split at h
    case h_7 => cases h
    all_goals simp [instructionNames]

/-- A directive is an instruction, opens something, or begins a format where letters end formats. -/
theorem mem_directives_iff {fe : FormatEnd} {c : Char} :
    c ∈ directives fe ↔
      (Instruction.ofChar? c).isSome ∨ c ∈ openingNames ∨
        fe = .conversion ∧ Format.isBareStart c = true := by
  have hinstruction : c ∈ instructionNames ↔ (Instruction.ofChar? c).isSome := by
    constructor
    · have hall : instructionNames.all (fun c => (Instruction.ofChar? c).isSome) = true := rfl
      exact List.all_eq_true.mp hall c
    · intro h
      obtain ⟨i, hi⟩ := Option.isSome_iff_exists.mp h
      exact mem_instructionNames hi
  have hbare : c ∈ bareNames ↔ Format.isBareStart c = true := by
    constructor
    · have hall : bareNames.all Format.isBareStart = true := rfl
      exact List.all_eq_true.mp hall c
    · exact Format.mem_of_isBareStart
  cases fe with
  | percent => simp [directives, hinstruction]
  | conversion => simp [directives, hinstruction, hbare]

namespace Mode

/-! ## Where a character has no meaning -/

/-- The reader stands where the character has no meaning: it is no directive behind a `%`, or in a
format that a letter ends it is neither a part of the specification nor a conversion letter. -/
inductive Lacks (fe : FormatEnd) : Mode → Char → Prop where
  | directive {c} (h : c ∉ directives fe) : Lacks fe .percent c
  | format {c} (spec k) (he : fe = .conversion) (hspec : Format.isSpec c = false)
    (hk : Conversion.ofChar? c = none) : Lacks fe (.format spec k) c

section Reading

variable {o : Options} {mode : Mode} {c : Char} {b : UInt8}

/-- The directives are read in the same way, whatever becomes of other characters. -/
theorem readDirective_of_mem (h : c ∈ directives o.formatEnd) (u : Unknown) :
    readDirective { o with unknown := u } c = readDirective o c := by
  unfold readDirective
  split
  · rfl
  · next hi =>
    split
    case h_11 hp hP hg hquote hbrace hcolon hopening hclosing ht he =>
      have hother : c ∉ openingNames := by
        simp only [openingNames, List.mem_cons, List.not_mem_nil, or_false, not_or]
        exact ⟨hp, hP, hg, hquote, hbrace, hcolon, hopening, hclosing, ht, he⟩
      rcases mem_directives_iff.mp h with hsome | hmem | hbare
      · simp [hi] at hsome
      · exact absurd hmem hother
      · exact (if_pos hbare).trans (if_pos hbare).symm
    all_goals rfl

/-- A character that no directive begins with is unknown. -/
theorem readDirective_of_notMem (h : c ∉ directives o.formatEnd) :
    readDirective o c = readUnknown o c := by
  rw [mem_directives_iff, not_or, not_or] at h
  obtain ⟨hi, hother, hbare⟩ := h
  unfold readDirective
  split
  · next i hi' => simp [hi'] at hi
  · split
    case h_11 => exact if_neg hbare
    all_goals simp [openingNames] at hother

/-- A character without a meaning is passed over or refused. -/
theorem read_of_lacks (h : mode.Lacks o.formatEnd (Char.ofUInt8 b)) :
    mode.read o b = readUnknown o (Char.ofUInt8 b) := by
  cases h with
  | directive h => exact readDirective_of_notMem h
  | format spec k he hspec hk => simp [read, readFormat, he, hspec, hk]

/-- Every other one is read in the same way, whatever becomes of those. -/
theorem read_of_not_lacks (h : ¬mode.Lacks o.formatEnd (Char.ofUInt8 b)) (u : Unknown) :
    mode.read { o with unknown := u } b = mode.read o b := by
  cases mode with
  | percent =>
    have hmem : Char.ofUInt8 b ∈ directives o.formatEnd := by
      by_contra hc
      exact h (.directive hc)
    exact readDirective_of_mem hmem u
  | format spec k =>
    simp only [read, readFormat]
    by_cases hspec : Format.isSpec (Char.ofUInt8 b) = true
    · simp only [if_pos hspec]
    · simp only [if_neg hspec]
      split
      case h_4 he hk => exact absurd (.format spec k he (by simpa using hspec) hk) h
      all_goals rfl
  | skip part depth behind => cases behind <;> rfl
  | _ => rfl

end Reading

end Mode

/-! ## Errors -/

/-- The result is no refusal of a directive. -/
def IsAccepted {α : Type} (r : Except Error α) : Prop := ∀ c, r ≠ .error (.unrecognizedDirective c)

namespace IsAccepted

variable {α β : Type}

/-- A result is no refusal. -/
theorem ok (a : α) : IsAccepted (.ok a : Except Error α) := by
  rintro c ⟨⟩

/-- Computations without refusals make one without. -/
theorem bind {r : Except Error α} {k : α → Except Error β} (hr : IsAccepted r)
    (hk : ∀ a, IsAccepted (k a)) : IsAccepted (r >>= k) := by
  cases r with
  | error e =>
    intro c he
    cases he
    exact hr c rfl
  | ok a => exact hk a

/-- Mapping a result brings no refusal. -/
theorem map {r : Except Error α} (hr : IsAccepted r) (f : α → β) : IsAccepted (r.map f) := by
  cases r with
  | error e =>
    intro c he
    cases he
    exact hr c rfl
  | ok a => exact ok (f a)

end IsAccepted

section Accepted

variable {o : Options}

/-- Popping refuses no character. -/
theorem isAccepted_pop (s : State) (operator : Char) : IsAccepted (s.pop operator) := by
  unfold State.pop
  split <;> rintro c ⟨⟩

/-- Popping an integer refuses no character. -/
theorem isAccepted_popInteger (s : State) (operator : Char) :
    IsAccepted (s.popInteger operator) := by
  unfold State.popInteger
  split <;> rintro c ⟨⟩

/-- An instruction is a directive already. -/
theorem isAccepted_exec (order : OperandOrder) (i : Instruction) (s : State) :
    IsAccepted (i.exec order s) := by
  -- The errors of an instruction are about values, never about a character.
  cases i with
  | emit | constant | fetch => exact .ok _
  | emitByte | store | isZero | complement =>
    exact (isAccepted_popInteger s _).bind fun _ => .ok _
  | print format k =>
    refine (isAccepted_pop s k.symbol).bind fun r => ?_
    cases hprint : format.print? k r.1 with
    | none =>
      simp only [hprint]
      rintro c ⟨⟩
    | some text =>
      simp only [hprint]
      exact .ok _
  | argument index =>
    simp only [Instruction.exec]
    split <;> rintro c ⟨⟩
  | length => exact (isAccepted_pop s 'l').bind fun _ => .ok _
  | arithmetic op | comparison op =>
    exact (isAccepted_popInteger s op.symbol).bind fun r =>
      (isAccepted_popInteger r.2 op.symbol).bind fun _ => .ok _
  | increment =>
    simp only [Instruction.exec]
    split <;> rintro c ⟨⟩

/-- Carrying out an action refuses no character. -/
theorem isAccepted_action (order : OperandOrder) (action : Action) (next : Mode) (s : State) :
    IsAccepted (action.exec order next s) := by
  cases action with
  | run i => exact (isAccepted_exec order i s).bind fun _ => .ok _
  | test => exact (isAccepted_popInteger s 't').bind fun _ => .ok _

/-- Closing a format refuses no character. -/
theorem isAccepted_printed (spec : List Char) (k : Option Conversion) :
    IsAccepted (Mode.printed spec k) := by
  unfold Mode.printed
  split <;> rintro c ⟨⟩

/-- An ignored character is not refused. -/
theorem isAccepted_readUnknown (h : o.unknown = .ignore) (c : Char) :
    IsAccepted (Mode.readUnknown o c) := by
  rw [Mode.readUnknown, h]
  exact .ok _

/-- Where unknown characters are ignored, none behind a percent sign is refused. -/
theorem isAccepted_readDirective (h : o.unknown = .ignore) (c : Char) :
    IsAccepted (Mode.readDirective o c) := by
  unfold Mode.readDirective
  split
  · exact .ok _
  · split
    case h_11 =>
      split
      · exact .ok _
      · exact isAccepted_readUnknown h c
    all_goals exact .ok _

/-- Where unknown characters are ignored, none within a format is refused. -/
theorem isAccepted_readFormat (h : o.unknown = .ignore) (spec : List Char) (k : Option Conversion)
    (c : Char) : IsAccepted (Mode.readFormat o spec k c) := by
  unfold Mode.readFormat
  split
  · exact .ok _
  · split
    · exact .ok _
    · split
      · exact (isAccepted_printed spec k).map _
      · exact .ok _
    · exact (isAccepted_printed spec _).map _
    · exact isAccepted_readUnknown h c

/-- A literal refuses no character by name. -/
theorem isAccepted_readNumber (value : Option Nat) (c : Char) :
    IsAccepted (Mode.readNumber value c) := by
  unfold Mode.readNumber
  split
  · split <;> rintro c ⟨⟩
  · split <;> rintro c ⟨⟩
  · rintro c ⟨⟩

/-- A reader that passes over unknown directives refuses none. -/
theorem isAccepted_read (h : o.unknown = .ignore) (mode : Mode) (b : UInt8) :
    IsAccepted (mode.read o b) := by
  cases mode with
  | text | dollar | padding | charOpen => exact .ok _
  | percent => exact isAccepted_readDirective h _
  | argument =>
    simp only [Mode.read, Mode.readArgument]
    split
    · split <;> rintro c ⟨⟩
    · rintro c ⟨⟩
  | store | fetch =>
    simp only [Mode.read, Mode.readVariable]
    split <;> rintro c ⟨⟩
  | charClose value =>
    simp only [Mode.read]
    split <;> rintro c ⟨⟩
  | number value => exact isAccepted_readNumber value _
  | format spec k => exact isAccepted_readFormat h spec k _
  | skip part depth behind => cases behind <;> exact .ok _

/-- The end of a template refuses no character. -/
theorem isAccepted_finish (m : Machine) : IsAccepted (m.finish o) := by
  have hmode : IsAccepted (m.mode.finish o) := by
    unfold Mode.finish
    split
    case h_8 =>
      split
      · exact isAccepted_printed _ _
      · exact .ok _
    all_goals rintro c ⟨⟩
  exact hmode.bind fun action => (isAccepted_action _ action _ _).bind fun _ => .ok _

/-- Where unknown characters are ignored, a run refuses none. -/
theorem isAccepted_feed (h : o.unknown = .ignore) (m : Machine) (t : Bytes) :
    IsAccepted (m.feed o t) := by
  induction t generalizing m with
  | nil => exact .ok _
  | cons b bs ih =>
    rw [Machine.feed_cons]
    have hstep : IsAccepted (m.step o b) :=
      (isAccepted_read h m.mode b).bind fun r => isAccepted_action o.operands r.1 r.2 m.state
    exact hstep.bind fun r => (ih r.2).bind fun _ => .ok _

/-- Where unknown characters are ignored, a run to the end refuses none. -/
theorem isAccepted_complete (h : o.unknown = .ignore) (m : Machine) (t : Bytes) :
    IsAccepted (m.complete o t) :=
  (isAccepted_feed h m t).bind fun r => (isAccepted_finish r.2).bind fun _ => .ok _

end Accepted

/-! ## The first character without a meaning -/

section Runs

variable {o : Options} {m : Machine}

/-- A step on a known character is the same under either treatment. -/
theorem step_of_not_lacks {b : UInt8} (h : ¬m.mode.Lacks o.formatEnd (Char.ofUInt8 b))
    (u : Unknown) : m.step { o with unknown := u } b = m.step o b := by
  rw [Machine.step, Machine.step, Mode.read_of_not_lacks h]

/-- The end of a template is the same under either treatment. -/
theorem finish_unknown (u : Unknown) (m : Machine) :
    m.finish { o with unknown := u } = m.finish o := by
  have hfinish : m.mode.finish { o with unknown := u } = m.mode.finish o := by
    cases m.mode <;> rfl
  rw [Machine.finish, Machine.finish, hfinish]

/-- A run through a text comes to a character without a meaning: up to it the run is the same,
whatever becomes of such characters. -/
structure Meets (o : Options) (m : Machine) (front : Bytes) (c : Char) (m' : Machine) : Prop where
  run : ∃ out, ∀ u, m.feed { o with unknown := u } front = .ok (out, m')
  lacks : m'.mode.Lacks o.formatEnd c

/-- Either a run does not depend on what becomes of unknown directives, or it comes to a first one
that makes a difference. -/
theorem complete_cases (o : Options) (m : Machine) (t : Bytes) :
    (∀ u, m.complete { o with unknown := u } t = m.complete o t) ∨
      ∃ front b rest m', t = front ++ b :: rest ∧ Meets o m front (Char.ofUInt8 b) m' := by
  -- Along the run until the first byte on which the two treatments differ.
  induction t generalizing m with
  | nil =>
    left
    intro u
    simp only [Machine.complete, Machine.feed_nil, bind, Except.bind, finish_unknown]
  | cons b bs ih =>
    by_cases hlacks : m.mode.Lacks o.formatEnd (Char.ofUInt8 b)
    · exact .inr ⟨[], b, bs, m, rfl, ⟨[], fun u => rfl⟩, hlacks⟩
    · have hsame := step_of_not_lacks hlacks
      cases hstep : m.step o b with
      | error e =>
        left
        intro u
        rw [complete_cons, complete_cons, hsame u, hstep]
        rfl
      | ok r =>
        rcases ih r.2 with hrest | ⟨front, b', rest, m', rfl, ⟨out, hrun⟩, hlacks'⟩
        · left
          intro u
          rw [complete_cons, complete_cons, hsame u, hstep]
          simp only [bind, Except.bind, hrest u]
        · refine .inr ⟨b :: front, b', rest, m', rfl, ⟨r.1 ++ out, fun u => ?_⟩, hlacks'⟩
          rw [Machine.feed_cons, hsame u, hstep]
          simp only [bind, Except.bind, hrun u]
          rfl

/-- There the run fails if such characters are refused. -/
theorem Meets.complete_reject {front : Bytes} {b : UInt8} {m' : Machine}
    (h : Meets o m front (Char.ofUInt8 b) m') (rest : Bytes) :
    m.complete { o with unknown := .reject } (front ++ b :: rest) =
      .error (.unrecognizedDirective (Char.ofUInt8 b)) := by
  obtain ⟨out, hrun⟩ := h.run
  have hread : m'.mode.read { o with unknown := .reject } b =
      .error (.unrecognizedDirective (Char.ofUInt8 b)) := Mode.read_of_lacks h.lacks
  rw [complete_append, hrun .reject]
  simp only [bind, Except.bind, Machine.complete, feed_error hread]

end Runs

/-! ## Where that is in the template -/

/-- The text ends with the beginning of a format and the specification behind it.  Where letters end
formats, a colon can be left out in front of some specifications. -/
def EndsInFormat (front : Bytes) (spec : List Char) : Prop :=
  Bytes.ofAscii ('%' :: ':' :: spec) <:+ front ∨
    spec.head?.any Format.isBareStart = true ∧ Bytes.ofAscii ('%' :: spec) <:+ front

/-- What the text behind which a reader stands ends with, as far as the mode tells. -/
def Mode.Ends (fe : FormatEnd) (front : Bytes) : Mode → Prop
  | percent => [0x25] <:+ front
  | format spec _ => fe = .conversion → spec.all Format.isSpec = true ∧ EndsInFormat front spec
  | _ => True

/-- A specification at the end of a text grows with it. -/
theorem isSuffix_append_byte {front : Bytes} {spec : List Char} {b : UInt8}
    (h : Bytes.ofAscii spec <:+ front) :
    Bytes.ofAscii (spec ++ [Char.ofUInt8 b]) <:+ front ++ [b] := by
  obtain ⟨before, rfl⟩ := h
  refine ⟨before, ?_⟩
  rw [Bytes.ofAscii_append, List.append_assoc, Bytes.ofAscii, Bytes.ofAscii, List.map_singleton,
    toUInt8_ofUInt8]

/-- A text that ends within a format still does after one more byte of it. -/
theorem EndsInFormat.append_byte {front : Bytes} {spec : List Char} (h : EndsInFormat front spec)
    (b : UInt8) : EndsInFormat (front ++ [b]) (spec ++ [Char.ofUInt8 b]) := by
  rcases h with hcolon | ⟨hstart, hbare⟩
  · exact .inl (isSuffix_append_byte hcolon)
  · refine .inr ⟨?_, isSuffix_append_byte hbare⟩
    cases spec with
    | nil => simp at hstart
    | cons c cs => exact hstart

/-- A skipped part asks nothing of the text before it. -/
theorem Mode.ends_skipDirective (fe : FormatEnd) (front : Bytes) (part : Part) (depth : Nat)
    (c : Char) : (skipDirective part depth c).Ends fe front := by
  unfold skipDirective
  split
  case h_3 => split <;> trivial
  all_goals trivial

section Ends

variable {o : Options} {front : Bytes} {mode next : Mode} {b : UInt8} {action : Action}

/-- The mode after a byte describes how the longer text ends. -/
theorem ends_of_read (hmode : mode.Ends o.formatEnd front)
    (h : mode.read o b = .ok (action, next)) : next.Ends o.formatEnd (front ++ [b]) := by
  -- Only `%`, the beginning of a format and the rest of one say how the text ends.
  cases reads_of_read h with
  | percent => exact List.suffix_append front [0x25]
  | openFormat hc =>
    intro _
    have hpercent : Bytes.ofAscii ['%'] <:+ front := hmode
    have hcolon : Bytes.ofAscii ['%', Char.ofUInt8 b] <:+ front ++ [b] :=
      isSuffix_append_byte hpercent
    rw [hc] at hcolon
    exact ⟨rfl, .inl hcolon⟩
  | bareFormat he hb =>
    intro _
    have hspec := Format.isSpec_of_isBareStart hb
    have hpercent : Bytes.ofAscii ['%'] <:+ front := hmode
    have hbare : Bytes.ofAscii ['%', Char.ofUInt8 b] <:+ front ++ [b] :=
      isSuffix_append_byte hpercent
    exact ⟨by simpa using hspec, .inr ⟨by simpa using hb, hbare⟩⟩
  | spec spec k hb =>
    intro he
    obtain ⟨hspec, hends⟩ := hmode he
    exact ⟨by simpa [hb] using hspec, hends.append_byte b⟩
  | letter spec k he | passed spec k he =>
    intro he'
    cases he.symm.trans he'
  | skipDirective part depth => exact Mode.ends_skipDirective _ _ part depth _
  | _ => trivial

/-- The mode after a step describes how the longer text ends. -/
theorem ends_of_step {m m' : Machine} {out : Bytes} (hmode : m.mode.Ends o.formatEnd front)
    (h : m.step o b = .ok (out, m')) : m'.mode.Ends o.formatEnd (front ++ [b]) := by
  obtain ⟨⟨action, next⟩, hread, hexec⟩ := exists_of_bind_eq_ok h
  rcases mode_of_exec hexec with hnext | hskip
  · rw [hnext]
    exact ends_of_read hmode hread
  · rw [hskip]
    trivial

/-- A reader that began in plain text stands behind a `%`, or in the format that its mode holds. -/
theorem ends_of_feed {m m' : Machine} {out : Bytes} (hm : m.mode = .text)
    (h : m.feed o front = .ok (out, m')) : m'.mode.Ends o.formatEnd front := by
  have hstart : m.mode.Ends o.formatEnd [] := by
    rw [hm]
    trivial
  exact holds_of_feed (P := fun t m => m.mode.Ends o.formatEnd t)
    (fun _ _ _ _ _ hmode hstep => ends_of_step hmode hstep) hstart h

end Ends

/-- A character that its options give no meaning to, behind a part of a template: right behind a
`%` it is no directive, and in a format it is neither a part of the specification nor a conversion
letter. -/
inductive IsUnknown (fe : FormatEnd) (front : Bytes) (c : Char) : Prop where
  | directive (hfront : [0x25] <:+ front) (hc : c ∉ directives fe)
  | format (spec : List Char) (he : fe = .conversion) (hspec : spec.all Format.isSpec = true)
    (hfront : EndsInFormat front spec) (hflag : Format.isSpec c = false)
    (hletter : Conversion.ofChar? c = none)

/-- A character met from plain text is unknown where it stands. -/
theorem Meets.isUnknown {o : Options} {m m' : Machine} {front : Bytes} {c : Char}
    (h : Meets o m front c m') (hm : m.mode = .text) : IsUnknown o.formatEnd front c := by
  obtain ⟨out, hrun⟩ := h.run
  obtain ⟨mode, s⟩ := m'
  have hends : mode.Ends o.formatEnd front := ends_of_feed hm (hrun o.unknown)
  have hlacks : mode.Lacks o.formatEnd c := h.lacks
  cases hlacks with
  | directive hc => exact .directive hends hc
  | format spec k he hspec hk => exact .format spec he (hends he).1 (hends he).2 hspec hk

/-! ## Expansions -/

namespace Context

/-- The outcome of an expansion under some treatment of unknown directives. -/
def treating (c : Context) (u : Unknown) (t : Bytes) (arguments : List Value) :
    Except Error (Bytes × Bank) :=
  (c.under { c.options with unknown := u }).outcome t arguments

/-- An expansion under a given treatment, as a run of the machine. -/
theorem treating_eq (c : Context) (u : Unknown) (t : Bytes) (arguments : List Value) :
    c.treating u t arguments =
      ((c.machine arguments).complete { c.options with unknown := u } t).map
        fun r => (r.1, r.2.vars.statics) :=
  outcome_eq _ t arguments

/-- Refusing unknown directives and passing over them comes to the same, but for the templates that
are refused. -/
structure Refines (c : Context) (t : Bytes) (arguments : List Value) : Prop where
  /-- The output and the static variables, or the error, are the same. -/
  same : (∀ d, c.treating .reject t arguments ≠ .error (.unrecognizedDirective d)) →
    c.treating .reject t arguments = c.treating .ignore t arguments
  /-- A template is refused for a character that the expansion comes to, and that has no meaning
  there.  Up to that character there is no difference. -/
  refused_iff : ∀ d, c.treating .reject t arguments = .error (.unrecognizedDirective d) ↔
    ∃ front b rest m, t = front ++ b :: rest ∧ Char.ofUInt8 b = d ∧
      IsUnknown c.options.formatEnd front d ∧ Meets c.options (c.machine arguments) front d m
  ignored : ∀ d, c.treating .ignore t arguments ≠ .error (.unrecognizedDirective d)

/-- Under `reject` an expansion ends at the first unknown character, with its name. -/
theorem treating_reject_of_meets {c : Context} {arguments : List Value} {front : Bytes} {b : UInt8}
    {m : Machine} (h : Meets c.options (c.machine arguments) front (Char.ofUInt8 b) m)
    (rest : Bytes) :
    c.treating .reject (front ++ b :: rest) arguments =
      .error (.unrecognizedDirective (Char.ofUInt8 b)) := by
  rw [treating_eq, h.complete_reject rest]
  rfl

/-- Under `ignore` no expansion is refused. -/
theorem isAccepted_treating_ignore (c : Context) (t : Bytes) (arguments : List Value) :
    IsAccepted (c.treating .ignore t arguments) := by
  rw [treating_eq]
  exact (isAccepted_complete rfl _ t).map _

/-- Whatever the template, the arguments, the static variables and the other options are, refusing
unknown directives differs from passing over them in nothing but the refusals. -/
theorem refines (c : Context) (t : Bytes) (arguments : List Value) : c.Refines t arguments := by
  have hignored := c.isAccepted_treating_ignore t arguments
  -- Either no unknown character is met and the treatments agree, or the first one decides.
  rcases complete_cases c.options (c.machine arguments) t with
    hsame | ⟨front, b, rest, m, rfl, hmeets⟩
  · have heq : c.treating .reject t arguments = c.treating .ignore t arguments := by
      rw [treating_eq, treating_eq, hsame .reject, hsame .ignore]
    refine ⟨fun _ => heq, fun d => ⟨fun h => ?_, ?_⟩, hignored⟩
    · exact absurd (heq.symm.trans h) (hignored d)
    · rintro ⟨front, b, rest, m, rfl, rfl, -, hmeets⟩
      exact treating_reject_of_meets hmeets rest
  · have hrefused := treating_reject_of_meets hmeets rest
    refine ⟨fun h => absurd hrefused (h _), fun d => ⟨fun h => ?_, ?_⟩, hignored⟩
    · obtain rfl : Char.ofUInt8 b = d := by
        have herror := Except.error.inj (hrefused.symm.trans h)
        cases herror
        rfl
      exact ⟨front, b, rest, m, rfl, rfl, hmeets.isUnknown rfl, hmeets⟩
    · rintro ⟨front', b', rest', m', hsplit, rfl, -, hmeets'⟩
      rw [hsplit]
      exact treating_reject_of_meets hmeets' rest'

/-- A character in a part that is passed over is not refused. -/
example : ({} : Context).treating .reject
    (Bytes.ofAscii ['%', '{', '0', '}', '%', 't', '%', 'Y', '%', ';', 'a']) [] =
      .ok (Bytes.ofAscii ['a'], Bank.zero) := rfl

end Context

end Terminal.Template
