import Terminal.Proofs.Template.Run
import Terminal.Proofs.Text.Ascii

/-!
# Reading directives

A directive never needs more than its own text: a reader in plain text that reads it carries out the
instruction of the directive and is in plain text again (`Directive.implements_text`).  Numbers in
braces and formats are read character by character, so they rest on what the reader holds in the
middle of one: `feed_digits` and `feed_spec`.
-/

namespace Terminal.Template

variable {o : Options}

/-! ## Names of one character -/

/-- The reader knows every operator by its character. -/
theorem read_operator (o : Options) (op : Operator) :
    Mode.read o .percent op.symbol.toUInt8 = .ok (.run op.instruction, .text) := by
  cases op with
  | arithmetic op => cases op <;> rfl
  | comparison op => cases op <;> rfl
  | _ => rfl

/-- The digit behind `%p` pushes its argument. -/
theorem read_argument (o : Options) (index : Fin 9) :
    Mode.read o .argument (Instruction.argumentDigit index).toUInt8 =
      .ok (.run (.argument index), .text) := by
  have hd : index.val + 1 < 10 := by omega
  simp only [Mode.read, Instruction.argumentDigit, Numeral.ofUInt8_toUInt8_digitChar hd,
    Mode.readArgument, Numeral.digit?_digitChar hd, dif_pos index.isLt]

/-- The letter of a variable survives the way through its byte. -/
theorem Variable.ofUInt8_toUInt8_symbol (v : Variable) :
    Char.ofUInt8 v.symbol.toUInt8 = v.symbol := by
  cases v with
  | static i => revert i; decide
  | dynamic i => revert i; decide

/-- The letter behind `%P` or `%g` names its variable. -/
theorem read_variable (use : Variable → Instruction) (v : Variable) :
    Mode.readVariable use (Char.ofUInt8 v.symbol.toUInt8) = .ok (.run (use v), .text) := by
  rw [Variable.ofUInt8_toUInt8_symbol, Mode.readVariable, Variable.ofChar?_symbol]

/-! ## Numbers in braces -/

/-- The value of a numeral and one more digit. -/
theorem read_digit (o : Options) (value : Option Nat) {d : Nat} (hd : d < 10)
    (h : value.getD 0 * 10 + d ≤ Numeral.greatest) :
    Mode.read o (.number value) d.digitChar.toUInt8 =
      .ok (.idle, .number (some (value.getD 0 * 10 + d))) := by
  simp only [Mode.read, Numeral.ofUInt8_toUInt8_digitChar hd, Mode.readNumber,
    Numeral.digit?_digitChar hd, Numeral.append?, if_pos h]

/-- Behind the numeral of a number the reader holds the number. -/
theorem feed_digits (o : Options) (s : State) {n : Nat} (h : n ≤ Numeral.greatest) :
    Machine.feed o ⟨.number none, s⟩ (Numeral.digits 10 n) = .ok ([], ⟨.number (some n), s⟩) := by
  induction n using Nat.strongRecOn with
  | ind n ih =>
    rw [Numeral.digits, Nat.toDigits_eq_if (by decide)]
    split
    · next hn => simpa [Bytes.ofAscii] using feed_idle (read_digit o none hn (by simpa)) s []
    · next hn =>
      -- the last digit is read behind the numeral of all the others
      have hlast : n % 10 < 10 := Nat.mod_lt n (by decide)
      have hvalue : n / 10 * 10 + n % 10 = n := by omega
      have hread := read_digit o (some (n / 10)) hlast (by simpa [hvalue] using h)
      rw [Option.getD_some, hvalue] at hread
      rw [Bytes.ofAscii_append, ← Numeral.digits,
        feed_append_of_silent (ih (n / 10) (by omega) (by omega))]
      exact feed_idle hread s []

/-! ## Formats -/

/-- A character of the specification is kept. -/
theorem read_spec (o : Options) (spec : List Char) (k : Option Conversion) {c : Char}
    (h : Format.isSpec c = true) :
    Mode.read o (.format spec k) c.toUInt8 = .ok (.idle, .format (spec ++ [c]) k) := by
  have hc : c.toNat < 256 := by
    have := Format.toNat_lt_of_isSpec h
    omega
  simp only [Mode.read, ofUInt8_toUInt8 hc, Mode.readFormat, if_pos h]

/-- Behind some characters of a specification the reader holds them all. -/
theorem feed_spec (o : Options) (s : State) (before spec : List Char) (k : Option Conversion)
    (h : spec.all Format.isSpec = true) :
    Machine.feed o ⟨.format before k, s⟩ (Bytes.ofAscii spec) =
      .ok ([], ⟨.format (before ++ spec) k, s⟩) := by
  induction spec generalizing before with
  | nil => simp [Bytes.ofAscii]
  | cons c cs ih =>
    obtain ⟨hc, hcs⟩ : Format.isSpec c = true ∧ cs.all Format.isSpec = true := by simpa using h
    change Machine.feed o _ (c.toUInt8 :: Bytes.ofAscii cs) = _
    rw [feed_idle (read_spec o before k hc), ih (before ++ [c]) hcs]
    simp

/-- A letter ends a format if letters do. -/
theorem read_conversion (h : o.formatEnd = .conversion) (spec : List Char)
    {before : Option Conversion} (k : Conversion) :
    Mode.read o (.format spec before) k.symbol.toUInt8 =
      (Mode.printed spec (some k)).map (·, .text) := by
  cases k <;> simp [Mode.read, Mode.readFormat, h] <;> rfl

/-- Otherwise it selects the conversion, and the next `%` ends the format. -/
theorem read_conversion_of_percent (h : o.formatEnd = .percent) (spec : List Char)
    (k : Conversion) :
    Mode.read o (.format spec none) k.symbol.toUInt8 = .ok (.idle, .format spec (some k)) := by
  cases k <;> simp [Mode.read, Mode.readFormat, h] <;> rfl

/-- Where a percent sign ends a format, it prints with the conversion held. -/
theorem read_percent_of_percent (h : o.formatEnd = .percent) (spec : List Char)
    (k : Option Conversion) :
    Mode.read o (.format spec k) 0x25 = (Mode.printed spec k).map (·, .text) := by
  simp [Mode.read, Mode.readFormat, h]
  rfl

/-- A specification without a colon begins a format if letters end formats. -/
theorem read_bareStart (h : o.formatEnd = .conversion) {c : Char}
    (hc : Format.isBareStart c = true) :
    Mode.read o .percent c.toUInt8 = .ok (.idle, .format [c] none) := by
  have hmem := Format.mem_of_isBareStart hc
  simp only [List.mem_cons, List.not_mem_nil, or_false] at hmem
  rcases hmem with rfl | rfl | rfl | rfl | rfl | rfl | rfl | rfl | rfl | rfl | rfl | rfl | rfl <;>
    simp [Mode.read, Mode.readDirective, h] <;> rfl

/-- A format is printed, or refused for its numbers, at the byte that ends it. -/
theorem Implements.of_printed {t : Bytes} {mode : Mode} {b : UInt8} {spelling : Spelling}
    {k : Conversion} (ht : ∀ s, Machine.feed o ⟨.text, s⟩ t = .ok ([], ⟨mode, s⟩))
    (hb : mode.read o b = (Mode.printed spelling.spec (some k)).map (·, .text)) :
    Implements o (t ++ [b]) ((Directive.format spelling k).eval o.operands) := by
  unfold Mode.printed at hb
  cases hf : Format.ofSpec? spelling.spec with
  | some f =>
    rw [hf] at hb
    have heval : (Directive.format spelling k).eval o.operands =
        (Instruction.print f k).exec o.operands := by
      funext s
      simp [Directive.eval, Directive.instruction?, hf]
    rw [heval]
    exact Implements.of_read ht hb
  | none =>
    rw [hf] at hb
    intro s
    rw [feed_append_of_silent (ht s), feed_error hb]
    simp [Directive.eval, Directive.instruction?, hf, Except.map]

/-! ## Directives -/

/-- A byte other than `%` is emitted. -/
theorem implements_byte (hp : o.padding = .emit) {b : UInt8} (hb : b ≠ 0x25) :
    Implements o [b] ((Directive.byte b).eval o.operands) := by
  have hread : Mode.read o .text b = .ok (.run (.emit [b]), .text) := by
    simp [Mode.read, Mode.readText, hb, hp]
  intro s
  rw [feed_run hread]
  rfl

/-- The text of an operator carries it out. -/
theorem implements_operator (o : Options) (op : Operator) :
    Implements o (Bytes.ofAscii ['%', op.symbol]) ((Directive.operator op).eval o.operands) :=
  Implements.of_read (t := [0x25]) (fun s => feed_idle rfl s []) (read_operator o op)

/-- `%p1` to `%p9` push an argument. -/
theorem implements_argument (o : Options) (index : Fin 9) :
    Implements o (Bytes.ofAscii ['%', 'p', Instruction.argumentDigit index])
      ((Directive.argument index).eval o.operands) := by
  exact Implements.of_read (t := [0x25, 0x70]) (feed_pair rfl rfl) (read_argument o index)

/-- `%P` and a letter store into the variable. -/
theorem implements_store (o : Options) (v : Variable) :
    Implements o (Bytes.ofAscii ['%', 'P', v.symbol]) ((Directive.store v).eval o.operands) := by
  have hname : Mode.read o .store v.symbol.toUInt8 = .ok (.run (.store v), .text) :=
    read_variable .store v
  exact Implements.of_read (t := [0x25, 0x50]) (feed_pair rfl rfl) hname

/-- `%g` and a letter fetch the variable. -/
theorem implements_fetch (o : Options) (v : Variable) :
    Implements o (Bytes.ofAscii ['%', 'g', v.symbol]) ((Directive.fetch v).eval o.operands) := by
  have hname : Mode.read o .fetch v.symbol.toUInt8 = .ok (.run (.fetch v), .text) :=
    read_variable .fetch v
  exact Implements.of_read (t := [0x25, 0x67]) (feed_pair rfl rfl) hname

/-- A quoted character pushes its code. -/
theorem implements_character (o : Options) (b : UInt8) :
    Implements o (Bytes.ofAscii ['%', '\x27'] ++ b :: Bytes.ofAscii ['\x27'])
      ((Directive.character b).eval o.operands) := by
  have hclose : Mode.read o (.charClose b) 0x27 =
      .ok (.run (.constant (Int32.ofNat b.toNat)), .text) := rfl
  refine Implements.of_read (t := [0x25, 0x27, b]) (fun s => ?_) hclose
  rw [feed_idle rfl]
  exact feed_pair rfl rfl s

/-- A literal pushes its number. -/
theorem implements_number (o : Options) {n : Nat} (h : n ≤ Numeral.greatest) :
    Implements o (Bytes.ofAscii ['%', '\x7b'] ++ Numeral.digits 10 n ++ Bytes.ofAscii ['\x7d'])
      ((Directive.number n).eval o.operands) := by
  have hclose : Mode.read o (.number (some n)) 0x7d =
      .ok (.run (.constant (Int32.ofNat n)), .text) := rfl
  refine Implements.of_read (fun s => ?_) hclose
  have hopen : Machine.feed o ⟨.text, s⟩ (Bytes.ofAscii ['%', '\x7b']) =
      .ok ([], ⟨.number none, s⟩) := feed_pair rfl rfl s
  rw [feed_append_of_silent hopen, feed_digits o s h]

/-- Behind a colon and a specification the reader holds the specification. -/
theorem feed_colon (o : Options) (s : State) {spec : List Char}
    (h : spec.all Format.isSpec = true) :
    Machine.feed o ⟨.text, s⟩ (Bytes.ofAscii ('%' :: ':' :: spec)) =
      .ok ([], ⟨.format spec none, s⟩) := by
  change Machine.feed o ⟨.text, s⟩ (0x25 :: 0x3a :: Bytes.ofAscii spec) = _
  rw [feed_idle rfl, feed_idle rfl, feed_spec o s [] spec none h, List.nil_append]

/-- So it does without a colon if letters end formats. -/
theorem feed_bare (he : o.formatEnd = .conversion) (s : State) {spec : List Char}
    (hstart : spec.head?.any Format.isBareStart = true) (h : spec.all Format.isSpec = true) :
    Machine.feed o ⟨.text, s⟩ (Bytes.ofAscii ('%' :: spec)) = .ok ([], ⟨.format spec none, s⟩) := by
  cases spec with
  | nil => simp at hstart
  | cons c cs =>
    obtain ⟨-, hcs⟩ : Format.isSpec c = true ∧ cs.all Format.isSpec = true := by simpa using h
    change Machine.feed o ⟨.text, s⟩ (0x25 :: c.toUInt8 :: Bytes.ofAscii cs) = _
    rw [feed_idle rfl, feed_idle (read_bareStart he hstart), feed_spec o s [c] cs none hcs]
    rfl

/-- A valid format prints the value on top of the stack. -/
theorem implements_format {spelling : Spelling} (h : spelling.isValid o.formatEnd = true)
    (k : Conversion) :
    Implements o (Bytes.ofAscii ('%' :: spelling.text o.formatEnd k))
      ((Directive.format spelling k).eval o.operands) := by
  cases spelling with
  | letter =>
    -- a letter alone is the name of an instruction, which prints without any specification
    have hread : Mode.read o .percent k.symbol.toUInt8 = .ok (.run (.print {} k), .text) := by
      cases k <;> rfl
    exact Implements.of_read (t := [0x25]) (fun s => feed_idle rfl s []) hread
  | colon spec =>
    cases he : o.formatEnd with
    | conversion =>
      rw [Spelling.ofAscii_text_colon_conversion]
      exact Implements.of_printed (fun s => feed_colon o s h) (read_conversion he spec k)
    | percent =>
      -- the letter is kept in the mode, and the byte that prints is the `%` behind it
      rw [Spelling.ofAscii_text_colon_percent]
      refine Implements.of_printed (fun s => ?_) (read_percent_of_percent he spec (some k))
      rw [feed_append_of_silent (feed_colon o s h),
        feed_idle (read_conversion_of_percent he spec k), Machine.feed_nil]
  | bare spec =>
    obtain ⟨⟨he, hstart⟩, hspec⟩ : (o.formatEnd = .conversion ∧
        spec.head?.any Format.isBareStart = true) ∧ spec.all Format.isSpec = true := by
      simpa only [Spelling.isValid, Bool.and_eq_true, decide_eq_true_eq] using h
    rw [Spelling.ofAscii_text_bare]
    exact Implements.of_printed (fun s => feed_bare he s hstart hspec) (read_conversion he spec k)

/-- The text of a directive of the language has the effect of the directive. -/
theorem Directive.implements_text (hp : o.padding = .emit) {d : Directive}
    (h : d.isValid o.formatEnd = true) :
    Implements o (d.text o.formatEnd) (d.eval o.operands) := by
  cases d with
  | byte b => exact implements_byte hp (by simpa [Directive.isValid] using h)
  | operator op => exact implements_operator o op
  | argument index => exact implements_argument o index
  | store v => exact implements_store o v
  | fetch v => exact implements_fetch o v
  | character b => exact implements_character o b
  | number n => exact implements_number o (by simpa [Directive.isValid] using h)
  | format spelling k => exact implements_format h k

end Terminal.Template
