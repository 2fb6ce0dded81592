import Terminal.Proofs.Template.Run
import Terminal.Proofs.Text.Ascii

/-!
# What a reader can do

`Reads` lists everything that one byte can ask for and where it can lead, one rule for each case of
`Mode.read`.  `reads_of_read` is the only place where the reader is taken apart; what holds of every
byte is proved by cases on `Reads`.
-/

namespace Terminal.Template

/-- The text that a reader holds back outside directives. -/
inductive Mode.Holds : Mode → Bytes → Prop where
  | text : Holds .text []
  | dollar : Holds .dollar [0x24]

/-- A byte that is read without an error, what it asks for, and the modes before and behind it. -/
inductive Reads (o : Options) : Mode → UInt8 → Action → Mode → Prop where
  -- plain text
  | plain {mode held b} (h : mode.Holds held) (hb : b ≠ 0x25) :
    Reads o mode b (.run (.emit (held ++ [b]))) .text
  | percent {mode held} (h : mode.Holds held) : Reads o mode 0x25 (.run (.emit held)) .percent
  | dollar {mode held} (h : mode.Holds held) (hp : o.padding = .strip) :
    Reads o mode 0x24 (.run (.emit held)) .dollar
  -- padding that is left out
  | openPadding : Reads o .dollar 0x3c .idle .padding
  | padding {b} (hb : b ≠ 0x3e) : Reads o .padding b .idle .padding
  | closePadding : Reads o .padding 0x3e .idle .text
  -- behind a `%`
  | instruction {b i} (hi : Instruction.ofChar? (Char.ofUInt8 b) = some i) :
    Reads o .percent b (.run i) .text
  | openArgument {b} (hc : Char.ofUInt8 b = 'p') : Reads o .percent b .idle .argument
  | openStore {b} (hc : Char.ofUInt8 b = 'P') : Reads o .percent b .idle .store
  | openFetch {b} (hc : Char.ofUInt8 b = 'g') : Reads o .percent b .idle .fetch
  | openCharacter {b} (hc : Char.ofUInt8 b = '\x27') : Reads o .percent b .idle .charOpen
  | openNumber {b} (hc : Char.ofUInt8 b = '\x7b') : Reads o .percent b .idle (.number none)
  | openFormat {b} (hc : Char.ofUInt8 b = ':') : Reads o .percent b .idle (.format [] none)
  | bareFormat {b} (he : o.formatEnd = .conversion)
    (hb : Format.isBareStart (Char.ofUInt8 b) = true) :
    Reads o .percent b .idle (.format [Char.ofUInt8 b] none)
  | opening {b} (hc : Char.ofUInt8 b = '?') : Reads o .percent b .idle .text
  | closing {b} (hc : Char.ofUInt8 b = ';') : Reads o .percent b .idle .text
  | test {b} (hc : Char.ofUInt8 b = 't') : Reads o .percent b .test .text
  | otherwise {b} (hc : Char.ofUInt8 b = 'e') : Reads o .percent b .idle (.skip .alternative 0 false)
  | unknown {b} (hu : o.unknown = .ignore) : Reads o .percent b .idle .text
  -- names and literals
  | argument {b d} (hd : Numeral.digit? (Char.ofUInt8 b) = some (d + 1)) (h : d < 9) :
    Reads o .argument b (.run (.argument ⟨d, h⟩)) .text
  | store {b v} (hv : Variable.ofChar? (Char.ofUInt8 b) = some v) :
    Reads o .store b (.run (.store v)) .text
  | fetch {b v} (hv : Variable.ofChar? (Char.ofUInt8 b) = some v) :
    Reads o .fetch b (.run (.fetch v)) .text
  | character (b) : Reads o .charOpen b .idle (.charClose b)
  | closeCharacter {b} (value) (hc : Char.ofUInt8 b = '\x27') :
    Reads o (.charClose value) b (.run (.constant (Int32.ofNat value.toNat))) .text
  | digit {value b d n} (hd : Numeral.digit? (Char.ofUInt8 b) = some d)
    (hn : Numeral.append? Numeral.greatest (value.getD 0) d = some n) :
    Reads o (.number value) b .idle (.number (some n))
  | closeNumber {b} (n) (hc : Char.ofUInt8 b = '\x7d') :
    Reads o (.number (some n)) b (.run (.constant (Int32.ofNat n))) .text
  -- formats
  | spec {b} (spec k) (hb : Format.isSpec (Char.ofUInt8 b) = true) :
    Reads o (.format spec k) b .idle (.format (spec ++ [Char.ofUInt8 b]) k)
  | letter {b k'} (spec k) (he : o.formatEnd = .percent)
    (hk : Conversion.ofChar? (Char.ofUInt8 b) = some k') :
    Reads o (.format spec k) b .idle (.format spec (some k'))
  | passed {b} (spec k) (he : o.formatEnd = .percent) :
    Reads o (.format spec k) b .idle (.format spec k)
  | closeFormat {b spec f} (k) (he : o.formatEnd = .percent) (hc : Char.ofUInt8 b = '%')
    (hf : Format.ofSpec? spec = some f) :
    Reads o (.format spec k) b (.run (.print f (k.getD .decimal))) .text
  | print {b spec k' f} (k) (he : o.formatEnd = .conversion)
    (hk : Conversion.ofChar? (Char.ofUInt8 b) = some k') (hf : Format.ofSpec? spec = some f) :
    Reads o (.format spec k) b (.run (.print f k')) .text
  | dropFormat {b} (spec k) (he : o.formatEnd = .conversion) (hu : o.unknown = .ignore) :
    Reads o (.format spec k) b .idle .text
  -- parts that are passed over
  | skip (part depth b) : Reads o (.skip part depth false) b .idle (.skip part depth (b = 0x25))
  | skipDirective (part depth b) :
    Reads o (.skip part depth true) b .idle (Mode.skipDirective part depth (Char.ofUInt8 b))

section Reading

variable {o : Options} {mode next : Mode} {b : UInt8} {action : Action}

/-- An unknown character is accepted only where unknown characters are ignored. -/
theorem readUnknown_eq_ok {c : Char} (h : Mode.readUnknown o c = .ok (action, next)) :
    o.unknown = .ignore ∧ action = .idle ∧ next = .text := by
  unfold Mode.readUnknown at h
  split at h
  · next hu =>
    cases h
    exact ⟨hu, rfl, rfl⟩
  · cases h

/-- A format that can be printed is one instruction. -/
theorem printed_eq_ok {spec : List Char} {k : Option Conversion}
    (h : Mode.printed spec k = .ok action) :
    ∃ f, Format.ofSpec? spec = some f ∧ action = .run (.print f (k.getD .decimal)) := by
  unfold Mode.printed at h
  split at h
  · next f hf =>
    cases h
    exact ⟨f, hf, rfl⟩
  · cases h

/-- A format that prints was read from its specification. -/
theorem printed_map_eq_ok {spec : List Char} {k : Option Conversion}
    (h : (Mode.printed spec k).map (·, Mode.text) = .ok (action, next)) :
    ∃ f, Format.ofSpec? spec = some f ∧ action = .run (.print f (k.getD .decimal)) ∧
      next = .text := by
  cases hprinted : Mode.printed spec k with
  | error e =>
    rw [hprinted] at h
    cases h
  | ok printed =>
    rw [hprinted] at h
    cases h
    obtain ⟨f, hf, haction⟩ := printed_eq_ok hprinted
    exact ⟨f, hf, haction, rfl⟩

/-- What a byte of plain text does is one of the cases of `Reads`. -/
theorem reads_of_readText {held : Bytes} (hmode : mode.Holds held)
    (h : Mode.readText o held b = (action, next)) : Reads o mode b action next := by
  unfold Mode.readText at h
  split at h
  · next hb =>
    cases h
    subst hb
    exact .percent hmode
  · next hb =>
    split at h
    · next hdollar =>
      cases h
      obtain ⟨rfl, hp⟩ := hdollar
      exact .dollar hmode hp
    · cases h
      exact .plain hmode hb

/-- What the character behind a percent sign does is one of the cases of `Reads`. -/
theorem reads_of_readDirective (h : Mode.readDirective o (Char.ofUInt8 b) = .ok (action, next)) :
    Reads o .percent b action next := by
  unfold Mode.readDirective at h
  split at h
  · next i hi =>
    cases h
    exact .instruction hi
  -- The branches stand in the order in which the reader tries the characters.
  · split at h
    case h_1 hc => cases h; exact .openArgument hc
    case h_2 hc => cases h; exact .openStore hc
    case h_3 hc => cases h; exact .openFetch hc
    case h_4 hc => cases h; exact .openCharacter hc
    case h_5 hc => cases h; exact .openNumber hc
    case h_6 hc => cases h; exact .openFormat hc
    case h_7 hc => cases h; exact .opening hc
    case h_8 hc => cases h; exact .closing hc
    case h_9 hc => cases h; exact .test hc
    case h_10 hc => cases h; exact .otherwise hc
    case h_11 =>
      split at h
      · next hbare =>
        cases h
        exact .bareFormat hbare.1 hbare.2
      · obtain ⟨hu, rfl, rfl⟩ := readUnknown_eq_ok h
        exact .unknown hu

/-- What a character of a format does is one of the cases of `Reads`. -/
theorem reads_of_readFormat {spec : List Char} {k : Option Conversion}
    (h : Mode.readFormat o spec k (Char.ofUInt8 b) = .ok (action, next)) :
    Reads o (.format spec k) b action next := by
  unfold Mode.readFormat at h
  split at h
  · next hb =>
    cases h
    exact .spec spec k hb
  -- Behind the specification: the letter or a percent sign, by what ends a format.
  · split at h
    · next k' he hk =>
      cases h
      exact .letter spec k he hk
    · next he hk =>
      split at h
      · next hc =>
        obtain ⟨f, hf, rfl, rfl⟩ := printed_map_eq_ok h
        exact .closeFormat k he hc hf
      · cases h
        exact .passed spec k he
    · next k' he hk =>
      obtain ⟨f, hf, rfl, rfl⟩ := printed_map_eq_ok h
      exact .print k he hk hf
    · next he hk =>
      obtain ⟨hu, rfl, rfl⟩ := readUnknown_eq_ok h
      exact .dropFormat spec k he hu

/-- A byte that is read without an error is read by one of the rules. -/
theorem reads_of_read (h : mode.read o b = .ok (action, next)) : Reads o mode b action next := by
  -- Every mode has its own reader, and every branch that succeeds is one of the listed readings.
  cases mode with
  | text => exact reads_of_readText .text (Except.ok.inj h)
  | dollar =>
    have hread := Except.ok.inj h
    split at hread
    · next hb =>
      cases hread
      subst hb
      exact .openPadding
    · exact reads_of_readText .dollar hread
  | padding =>
    simp only [Mode.read, Except.ok.injEq, Prod.mk.injEq] at h
    obtain ⟨rfl, rfl⟩ := h
    split
    · next hb =>
      subst hb
      exact .closePadding
    · next hb => exact .padding hb
  | percent => exact reads_of_readDirective h
  | argument =>
    simp only [Mode.read, Mode.readArgument] at h
    split at h
    · next hd =>
      split at h
      · cases h
        exact .argument hd _
      · cases h
    · cases h
  | store =>
    simp only [Mode.read, Mode.readVariable] at h
    split at h
    · next hv =>
      cases h
      exact .store hv
    · cases h
  | fetch =>
    simp only [Mode.read, Mode.readVariable] at h
    split at h
    · next hv =>
      cases h
      exact .fetch hv
    · cases h
  | charOpen =>
    cases h
    exact .character b
  | charClose value =>
    simp only [Mode.read] at h
    split at h
    · next hc =>
      cases h
      exact .closeCharacter value hc
    · cases h
  | number value =>
    simp only [Mode.read, Mode.readNumber] at h
    split at h
    · next hd =>
      split at h
      · next hn =>
        cases h
        exact .digit hd hn
      · cases h
    · split at h
      · next hc =>
        cases h
        exact .closeNumber _ hc
      · cases h
    · cases h
  | format spec k => exact reads_of_readFormat h
  | skip part depth behind =>
    cases behind with
    | false =>
      cases h
      exact .skip part depth b
    | true =>
      cases h
      exact .skipDirective part depth b

/-- At the end of a template something is emitted or printed, if anything at all. -/
theorem emits_or_prints_of_finish (h : mode.finish o = .ok action) :
    (∃ text, action = .run (.emit text)) ∨ ∃ f k, action = .run (.print f k) := by
  cases mode with
  | format spec k =>
    simp only [Mode.finish] at h
    split at h
    · obtain ⟨f, -, hprint⟩ := printed_eq_ok h
      exact .inr ⟨f, _, hprint⟩
    · cases h
      exact .inl ⟨[], rfl⟩
  | charOpen | charClose | number | argument | store | fetch => cases h
  | _ =>
    cases h
    exact .inl ⟨_, rfl⟩

end Reading

end Terminal.Template
