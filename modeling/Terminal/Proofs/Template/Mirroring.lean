import Terminal.Proofs.Template.Grammar
import Terminal.Proofs.Template.Reachable
import Terminal.Proofs.Template.Unknown
import Terminal.Template.Registers

/-!
# One step in registers

A machine has registers (`Machine.registers`), and a step in registers leads from those of a machine
to those of the machine behind its step (`mirrors_of_isSound`).  There are two exceptions: a number
may be padded too far, and one conditional too many may be open in a part that is passed over.  No
other fault is met, because an operator is only carried out where its character has been told from
all others, a variable has its place from a letter, and a depth is only lowered where the mark would
not end the part.
-/

namespace Terminal.Template

/-! ## The registers of a machine -/

/-- The control of a mode. -/
def Mode.control : Mode → Control
  | text => .text
  | dollar => .dollar
  | padding => .padding
  | percent => .percent
  | argument => .argument
  | store => .store
  | fetch => .fetch
  | charOpen => .charOpen
  | charClose _ => .charClose
  | number value => .number (value.map Int32.ofNat)
  | format _ _ => .format
  | skip part depth behind => .skip part depth behind

/-- The registers of a machine.  The number of a character is on the stack before its quote is
closed. -/
def Machine.registers (m : Machine) : Registers :=
  match m.mode with
  | .charClose b =>
    { control := .charClose, state := m.state.push (.integer (Int32.ofNat b.toNat)) }
  | .format spec k =>
    { control := .format, spec, conversion := k.map Conversion.symbol, state := m.state }
  | mode => { control := mode.control, state := m.state }

/-- A result of a machine, with its registers. -/
def seen (q : Except Error (Bytes × Machine)) : Except Halt (Bytes × Registers) :=
  Halt.lift (q.map fun r => (r.1, r.2.registers))

/-- What comes of a byte that has been read, with the registers behind it. -/
def carried (o : Options) (s : State) (reading : Except Error (Action × Mode)) :
    Except Halt (Bytes × Registers) :=
  seen do
    let (action, next) ← reading
    action.exec o.operands next s

namespace Registers

variable {o : Options} {r : Registers} {c : Char}

/-! ## Instructions -/

/-- An instruction run in the registers is the instruction run on the machine. -/
theorem run_eq_carried (control : Control) (s : State) (i : Instruction) :
    run o ⟨control, [], none, s⟩ i = carried o s (.ok (.run i, .text)) := by
  simp only [run, carried, bind, Except.bind, Action.exec]
  cases i.exec o.operands s <;> rfl

/-- An operator that always has a result is an instruction. -/
theorem binary_eq_run {operator : Char} {result? : Int32 → Int32 → Option Value} {i : Instruction}
    (result : Int32 → Int32 → Value)
    (hresult : ∀ last first, result? last first = some (result last first))
    (hi : ∀ s, i.exec o.operands s = (do
      let (last, s) ← s.popInteger operator
      let (first, s) ← s.popInteger operator
      return ([], s.push (result last first)))) :
    r.binary operator result? = r.run o i := by
  simp only [binary, run, hi, hresult]
  cases r.state.popInteger operator with
  | error e => rfl
  | ok last =>
    simp only [Halt.lift, Except.mapError, bind, Except.bind]
    cases last.2.popInteger operator <;> rfl

/-- The letter of an arithmetic operator runs that operator. -/
theorem arithmetic_symbol (op : Arithmetic) :
    r.arithmetic o op.symbol = r.run o (.arithmetic op) := by
  refine binary_eq_run (fun last first => .integer (result o.operands op last first))
    (fun last first => ?_) fun _ => rfl
  rw [Arithmetic.ofChar?_symbol]
  rfl

/-- The letter of a comparison runs that comparison. -/
theorem comparison_symbol (op : Comparison) :
    r.comparison op.symbol = r.run o (.comparison op) := by
  refine binary_eq_run (fun last first => .ofBool (op.holds first last)) (fun last first => ?_)
    fun _ => rfl
  rw [Comparison.ofChar?_symbol]
  rfl

/-- The listed arithmetic characters are the letters of the operators. -/
theorem exists_symbol_of_mem_arithmeticNames (h : c ∈ arithmeticNames) :
    ∃ op : Arithmetic, c = op.symbol := by
  simp only [arithmeticNames, List.mem_cons, List.not_mem_nil, or_false] at h
  rcases h with rfl | rfl | rfl | rfl | rfl | rfl | rfl | rfl
  exacts [⟨.add, rfl⟩, ⟨.sub, rfl⟩, ⟨.mul, rfl⟩, ⟨.div, rfl⟩, ⟨.mod, rfl⟩, ⟨.and, rfl⟩,
    ⟨.or, rfl⟩, ⟨.xor, rfl⟩]

/-- The listed comparison characters are the letters of the comparisons. -/
theorem exists_symbol_of_mem_comparisonNames (h : c ∈ comparisonNames) :
    ∃ op : Comparison, c = op.symbol := by
  simp only [comparisonNames, List.mem_cons, List.not_mem_nil, or_false] at h
  rcases h with rfl | rfl | rfl | rfl | rfl
  exacts [⟨.equal, rfl⟩, ⟨.less, rfl⟩, ⟨.greater, rfl⟩, ⟨.both, rfl⟩, ⟨.either, rfl⟩]

/-- The listed conversion characters are the ones that name a conversion. -/
theorem mem_conversionNames_iff : c ∈ conversionNames ↔ ∃ k, Conversion.ofChar? c = some k := by
  constructor
  · intro h
    simp only [conversionNames, List.mem_cons, List.not_mem_nil, or_false] at h
    rcases h with rfl | rfl | rfl | rfl | rfl <;> exact ⟨_, rfl⟩
  · rintro ⟨k, hk⟩
    rw [Conversion.eq_symbol_of_ofChar? hk]
    cases k <;> decide

/-! ## Printing -/

/-- The digits asked for exceed the precision by at most one. -/
theorem padding_le (f : Format) (k : Conversion) (v : Int32) :
    f.padding k v ≤ f.precision.elim 0 (· + 1) := by
  cases hp : f.precision with
  | none => cases k <;> simp [Format.padding, hp]
  | some p =>
    show f.padding k v ≤ p + 1
    cases k with
    | decimal | octal =>
      simp only [Format.padding, hp]
      split_ifs <;> omega
    | lowerHex | upperHex | text => simp [Format.padding, hp]

/-- Only the greatest precision asks for too many digits. -/
theorem precision_eq_limit {f : Format} {k : Conversion} {v : Int32}
    (hf : ∀ p ∈ f.precision, p ≤ Format.limit) (h : Format.limit < f.padding k v) :
    f.precision = some Format.limit := by
  have hle := padding_le f k v
  cases hp : f.precision with
  | none =>
    rw [hp] at hle
    exact absurd (Nat.lt_of_lt_of_le h hle) (Nat.not_lt_zero _)
  | some p =>
    have hbound := hf p hp
    rw [hp] at hle
    have heq : p = Format.limit := Nat.le_antisymm hbound (Nat.le_of_lt_succ (h.trans_le hle))
    rw [heq]

/-- Within the limit of the padding, an integer prints as on the machine. -/
theorem printed_integer {f : Format} {k : Conversion} {v : Int32}
    (h : ¬Format.limit < f.padding k v) :
    printed f k.symbol (.integer v) = .ok (f.fill (f.number k v)) := by
  simp only [printed, Conversion.ofChar?_symbol, Option.getD_some, if_neg h]

/-- A string prints as on the machine, or is refused by the same error. -/
theorem printed_text (f : Format) (k : Conversion) (text : Bytes) :
    printed f k.symbol (.text text) =
      match f.print? k (.text text) with
      | some out => .ok out
      | none => .error (.error (.typeMismatch k.symbol)) := by
  cases k <;> rfl

/-- An outcome in registers is what comes of a reading, or the reading prints with the greatest
precision and the registers fault. -/
inductive Tracks (o : Options) (s : State) (q : Except Halt (Bytes × Registers))
    (reading : Except Error (Action × Mode)) : Prop where
  | agrees (h : q = carried o s reading)
  | faults {f k next} (h : q = .error (.fault .padding))
    (hreading : reading = .ok (.run (.print f k), next)) (hf : f.precision = some Format.limit)

/-- A value is printed as the machine does it, unless it would be padded too far. -/
theorem print_tracks (control : Control) (s : State) {f : Format} (k : Conversion)
    (hf : ∀ p ∈ f.precision, p ≤ Format.limit) :
    Tracks o s (print ⟨control, [], none, s⟩ f k.symbol) (.ok (.run (.print f k), .text)) := by
  have hcarried : carried o s (.ok (.run (.print f k), .text)) =
      run o ⟨control, [], none, s⟩ (.print f k) := (run_eq_carried control s _).symm
  cases hpop : s.pop k.symbol with
  | error e =>
    refine .agrees ?_
    rw [hcarried]
    simp only [print, run, Instruction.exec, hpop]
    rfl
  | ok popped =>
    obtain ⟨v, rest⟩ := popped
    cases v with
    | integer n =>
      -- The one fault: more digits are asked for than the padding can count.
      by_cases h : Format.limit < f.padding k n
      · refine .faults ?_ rfl (precision_eq_limit hf h)
        simp only [print, hpop, Halt.lift, Except.mapError, bind, Except.bind, printed,
          Conversion.ofChar?_symbol, Option.getD_some, if_pos h]
      · refine .agrees ?_
        rw [hcarried]
        simp only [print, run, Instruction.exec, hpop, Halt.lift, Except.mapError, bind,
          Except.bind, printed_integer h]
        rfl
    | text text =>
      refine .agrees ?_
      rw [hcarried]
      simp only [print, run, Instruction.exec, hpop, Halt.lift, Except.mapError, bind,
        Except.bind, printed_text]
      cases f.print? k (.text text) <;> rfl

/-- The letter of a conversion, and that of decimal if there is none. -/
theorem getD_map_symbol (k : Option Conversion) :
    (k.map Conversion.symbol).getD 'd' = (k.getD .decimal).symbol := by
  cases k <;> rfl

/-- The precision of a specification that was read is within the limit. -/
theorem precision_le_of_ofSpec? {spec : List Char} {f : Format} (h : Format.ofSpec? spec = some f) :
    ∀ p ∈ f.precision, p ≤ Format.limit := by
  rw [Format.ofSpec?_eq] at h
  split_ifs at h with hbounded
  cases h
  intro p hp
  simp only [Format.denoted] at hp
  split_ifs at hp
  · cases hp
  · cases hp
    exact hbounded.2

/-- A format that has been read is applied as the machine does it. -/
theorem applyFormat_tracks (control : Control) (spec : List Char) (k : Option Conversion)
    (s : State) :
    Tracks o s (applyFormat ⟨control, spec, k.map Conversion.symbol, s⟩)
      ((Mode.printed spec k).map (·, .text)) := by
  simp only [applyFormat, Mode.printed, getD_map_symbol]
  cases hf : Format.ofSpec? spec with
  | none => exact .agrees rfl
  | some f => exact print_tracks control s (k.getD .decimal) (precision_le_of_ofSpec? hf)

/-! ## One byte -/

/-- In plain text the registers do what the reader says. -/
theorem text_eq (control : Control) (s : State) (held : Bytes) (b : UInt8) :
    text o ⟨control, [], none, s⟩ held b = carried o s (.ok (Mode.readText o held b)) := by
  simp only [text, Mode.readText]
  split_ifs <;> rfl

/-- An unknown character is treated as the reader says. -/
theorem unknown_eq (control : Control) (s : State) (c : Char) :
    unknown o ⟨control, [], none, s⟩ c = carried o s (Mode.readUnknown o c) := by
  simp only [unknown, Mode.readUnknown]
  cases o.unknown <;> rfl

/-- `%t` in the registers is the test of the machine. -/
theorem test_eq_carried (control : Control) (s : State) :
    (do
      let (v, s') ← Halt.lift (s.popInteger 't')
      proceed ⟨control, [], none, s⟩ s' (if v = 0 then .skip .consequence 0 false else .text)) =
      carried o s (.ok (.test, .text)) := by
  simp only [carried, bind, Except.bind, Action.exec]
  cases s.popInteger 't' with
  | error e => rfl
  | ok r =>
    simp only [Halt.lift, Except.mapError]
    by_cases hv : r.1 = 0
    · simp only [hv, if_true]
      rfl
    · simp only [hv, if_false]
      rfl

/-- The character behind a percent sign does what the reader says. -/
theorem directive_eq (control : Control) (s : State) (c : Char) :
    directive o ⟨control, [], none, s⟩ c = carried o s (Mode.readDirective o c) := by
  unfold directive
  by_cases harith : c ∈ arithmeticNames
  · obtain ⟨op, rfl⟩ := exists_symbol_of_mem_arithmeticNames harith
    rw [if_pos harith, arithmetic_symbol, run_eq_carried]
    cases op <;> rfl
  by_cases hcomp : c ∈ comparisonNames
  · obtain ⟨op, rfl⟩ := exists_symbol_of_mem_comparisonNames hcomp
    rw [if_neg harith, if_pos hcomp, comparison_symbol (o := o), run_eq_carried]
    cases op <;> rfl
  by_cases hconv : c ∈ conversionNames
  · obtain ⟨k, hk⟩ := mem_conversionNames_iff.mp hconv
    obtain rfl := Conversion.eq_symbol_of_ofChar? hk
    rw [if_neg harith, if_neg hcomp, if_pos hconv]
    rcases print_tracks (o := o) (f := {}) control s k nofun with hprint | ⟨-, hreading, hlimit⟩
    · rw [hprint]
      cases k <;> rfl
    · cases hreading
      cases hlimit
  rw [if_neg harith, if_neg hcomp, if_neg hconv]
  split
  case h_15 => exact test_eq_carried control s
  case h_17 hpercent hc hl hnot htilde hi hp hP hg hquote hbrace hcolon hopening hclosing ht he =>
    -- all names of instructions have been ruled out by now
    have hnone : Instruction.ofChar? c = none := by
      by_contra hsome
      obtain ⟨i, hi'⟩ := Option.ne_none_iff_exists'.mp hsome
      have hmem := mem_instructionNames hi'
      simp_all [instructionNames, arithmeticNames, comparisonNames, conversionNames]
    simp only [Mode.readDirective, hnone]
    split_ifs
    · rfl
    · exact unknown_eq control s c
  all_goals first | rfl | exact run_eq_carried control s _

/-- A digit character by its code. -/
theorem digit?_eq (c : Char) :
    Numeral.digit? c = if 48 ≤ c.toNat ∧ c.toNat ≤ 57 then some (c.toNat - 48) else none :=
  if_congr (and_congr UInt32.le_iff_toNat_le UInt32.le_iff_toNat_le) rfl rfl

/-- The digit of an argument is recovered from its distance to `1`. -/
theorem argumentDigit_sub {c : Char} (hlow : 49 ≤ c.toNat) (h : c.toNat - 49 < 9) :
    Instruction.argumentDigit ⟨c.toNat - 49, h⟩ = c := by
  have hall : ∀ d : Fin 9, Instruction.argumentDigit d = Char.ofNat (49 + d) := by decide
  rw [hall, Nat.add_sub_cancel' hlow, Char.ofNat_toNat]

/-- The character behind `%p` does what the reader says. -/
theorem argument_eq (control : Control) (s : State) (c : Char) :
    argument ⟨control, [], none, s⟩ c = carried o s (Mode.readArgument c) := by
  simp only [argument, Mode.readArgument, digit?_eq]
  -- The digits from 1 to 9 by their codes, which is how the registers tell them.
  by_cases h : 49 ≤ c.toNat ∧ c.toNat ≤ 57
  · obtain ⟨hlow, hhigh⟩ := h
    have hdigit : c.toNat - 48 = c.toNat - 49 + 1 := by omega
    have hlt : c.toNat - 49 < 9 := by omega
    rw [if_pos ⟨hlow, hhigh⟩, if_pos ⟨by omega, hhigh⟩, hdigit]
    simp only [dif_pos hlt, carried, bind, Except.bind, Action.exec, Instruction.exec]
    cases s.arguments[c.toNat - 49]? with
    | none =>
      rw [argumentDigit_sub hlow hlt]
      rfl
    | some v => rfl
  · rw [if_neg h]
    split
    · next d hd =>
      split_ifs at hd
      have : c.toNat - 48 = d + 1 := Option.some.inj hd
      omega
    · rfl

end Registers

/-- The slot of a variable. -/
def Variable.slot : Variable → Slot
  | static i => .static i
  | dynamic i => .dynamic i

namespace Slot

/-- A variable slot is found where a variable is, and every other character is refused by name. -/
theorem ofChar_eq (c : Char) :
    ofChar c =
      ((Variable.ofChar? c).map Variable.slot).elim (.error (.invalidVariableName c)) .ok := by
  unfold ofChar Variable.ofChar?
  split_ifs <;> first | rfl | omega

/-- A slot holds the value of its variable. -/
theorem get?_slot (vs : Variables) (v : Variable) : v.slot.get? vs = some (vs.get v) := by
  cases v with
  | static i => exact Vector.getElem?_eq_getElem i.isLt
  | dynamic i => exact Vector.getElem?_eq_getElem i.isLt

/-- Storing into a slot stores the variable. -/
theorem set?_slot (vs : Variables) (v : Variable) (n : Int32) :
    v.slot.set? vs n = some (vs.set v n) := by
  cases v with
  | static i => exact dif_pos i.isLt
  | dynamic i => exact dif_pos i.isLt

end Slot

namespace Registers

variable {o : Options}

/-- The character behind `%P` does what the reader says. -/
theorem store_eq (control : Control) (s : State) (c : Char) :
    store ⟨control, [], none, s⟩ c = carried o s (Mode.readVariable .store c) := by
  simp only [store, Mode.readVariable, Slot.ofChar_eq]
  cases Variable.ofChar? c with
  | none => rfl
  | some v =>
    simp only [carried, bind, Except.bind, Action.exec, Instruction.exec]
    cases s.popInteger 'P' with
    | error e => rfl
    | ok r =>
      simp only [Halt.lift, Option.map_some, Option.elim, Except.mapError, Slot.set?_slot]
      rfl

/-- The character behind `%g` does what the reader says. -/
theorem fetch_eq (control : Control) (s : State) (c : Char) :
    fetch ⟨control, [], none, s⟩ c = carried o s (Mode.readVariable .fetch c) := by
  simp only [fetch, Mode.readVariable, Slot.ofChar_eq]
  cases Variable.ofChar? c with
  | none => rfl
  | some v =>
    simp only [Halt.lift, bind, Except.bind, Option.map_some, Option.elim, Except.mapError,
      Slot.get?_slot]
    rfl

/-- A number passes the check when it fits a word. -/
theorem checked_natCast (n : Nat) :
    checked n = if n ≤ Numeral.greatest then some (Int32.ofNat n) else none := by
  have hmin : Int32.minValue.toInt = -2147483648 := rfl
  have hmax : Int32.maxValue.toInt = 2147483647 := rfl
  have hiff : Int32.minValue.toInt ≤ n ∧ n ≤ Int32.maxValue.toInt ↔ n ≤ Numeral.greatest := by
    rw [hmin, hmax, Numeral.greatest]
    omega
  exact if_congr hiff (congrArg some Int32.ofInt_eq_ofNat) rfl

/-- One more digit leaves 32 bits exactly if it passes the greatest number. -/
theorem checked_digit {n : Nat} (hn : n ≤ Numeral.greatest) (d : Nat) :
    ((checked ((Int32.ofNat n).toInt * 10)).bind fun v => checked (v.toInt + d)) =
      (Numeral.append? Numeral.greatest n d).map Int32.ofNat := by
  have hmul : (Int32.ofNat n).toInt * 10 = (n * 10 : Nat) := by
    rw [Numeral.toInt_ofNat_of_le hn]
    rfl
  rw [hmul, checked_natCast, Numeral.append?]
  by_cases hten : n * 10 ≤ Numeral.greatest
  · have hadd : (Int32.ofNat (n * 10)).toInt + d = (n * 10 + d : Nat) := by
      rw [Numeral.toInt_ofNat_of_le hten]
      rfl
    rw [if_pos hten, Option.bind_some, hadd, checked_natCast]
    split_ifs <;> rfl
  · -- the product has left the range already, whatever the digit is
    have hle : ¬n * 10 + d ≤ Numeral.greatest := by omega
    rw [if_neg hten, if_neg hle]
    rfl

/-- A character of a literal does what the reader says, while the number held fits a word. -/
theorem number_eq (control : Control) (s : State) {value : Option Nat}
    (h : value.getD 0 ≤ Numeral.greatest) (c : Char) :
    number ⟨control, [], none, s⟩ (value.map Int32.ofNat) c =
      carried o s (Mode.readNumber value c) := by
  have hgetD : (value.map Int32.ofNat).getD 0 = Int32.ofNat (value.getD 0) := by
    cases value <;> rfl
  unfold number Mode.readNumber
  by_cases hbrace : c = '\x7d'
  · subst hbrace
    cases value <;> rfl
  · simp only [if_neg hbrace, hgetD, checked_digit h]
    cases Numeral.digit? c with
    | none => cases value <;> rfl
    | some d =>
      simp only
      cases Numeral.append? Numeral.greatest (value.getD 0) d <;> rfl

/-- A character of a format is tracked: only the padding of what it prints may fault. -/
theorem format_tracks (s : State) {spec : List Char} {k : Option Conversion}
    (hk : k.isSome → o.formatEnd = .percent) (c : Char) :
    Tracks o s (format o ⟨.format, spec, k.map Conversion.symbol, s⟩ c)
      (Mode.readFormat o spec k c) := by
  unfold format Mode.readFormat
  by_cases hspec : Format.isSpec c = true
  · rw [if_pos hspec, if_pos hspec]
    exact .agrees rfl
  rw [if_neg hspec, if_neg hspec]
  by_cases hc : c ∈ conversionNames
  · obtain ⟨k', hk'⟩ := mem_conversionNames_iff.mp hc
    cases he : o.formatEnd with
    | percent =>
      have hpercent : c ≠ '%' := by
        rintro rfl
        cases hk'
      simp only [hk', if_neg hpercent, if_pos hc]
      refine .agrees ?_
      rw [Conversion.eq_symbol_of_ofChar? hk']
      rfl
    | conversion =>
      simp only [hk', if_pos hc]
      rw [Conversion.eq_symbol_of_ofChar? hk']
      exact applyFormat_tracks .format spec (some k') s
  · have hnone : Conversion.ofChar? c = none := by
      by_contra hsome
      exact hc (mem_conversionNames_iff.mpr (Option.ne_none_iff_exists'.mp hsome))
    cases he : o.formatEnd with
    | percent =>
      by_cases hpercent : c = '%'
      · simp only [hnone, if_pos hpercent]
        exact applyFormat_tracks .format spec k s
      · simp only [hnone, if_neg hpercent, if_neg hc]
        exact .agrees rfl
    | conversion =>
      -- no letter waits here, so a format that is dropped leaves nothing in its register
      obtain rfl : k = none := by
        by_contra hsome
        have hpercent := hk (Option.isSome_iff_ne_none.mpr hsome)
        rw [he] at hpercent
        cases hpercent
      simp only [hnone, if_neg hc]
      exact .agrees (unknown_eq .format s c)

/-- A mark within a skipped part does what the reader says, unless the depth is at its largest. -/
theorem mark_eq (control : Control) (s : State) (part : Part) (depth : Nat) (c : Char) :
    mark ⟨control, [], none, s⟩ part depth c =
        carried o s (.ok (.idle, Mode.skipDirective part depth c)) ∨
      mark ⟨control, [], none, s⟩ part depth c = .error (.fault .depth) ∧
        Control.deepest ≤ depth := by
  -- Only an opening mark makes the depth larger, so only there can it overflow.
  by_cases hc : c ∈ [';', 'e', '?']
  · simp only [List.mem_cons, List.not_mem_nil, or_false] at hc
    rcases hc with rfl | rfl | rfl
    · left
      cases part <;> cases depth <;> rfl
    · left
      cases part <;> cases depth <;> rfl
    · have hmark : mark ⟨control, [], none, s⟩ part depth '?' =
          if Control.deepest < depth + 1 then .error (.fault .depth)
          else goto ⟨control, [], none, s⟩ (.skip part (depth + 1) false) := by
        cases part <;> cases depth <;> rfl
      rw [hmark]
      split_ifs with hdeep
      · exact .inr ⟨rfl, Nat.le_of_lt_succ hdeep⟩
      · left
        cases depth <;> rfl
  · left
    rw [skipDirective_eq_skip part depth hc]
    simp only [List.mem_cons, List.not_mem_nil, or_false, not_or] at hc
    obtain ⟨hclosing, hotherwise, hopening⟩ := hc
    have hending : c ∉ endings part := by
      cases part <;> simp [endings, hclosing, hotherwise]
    rw [mark, if_neg fun h => hending h.2, if_neg hclosing, if_neg hopening]
    rfl

end Registers

/-! ## Steps -/

/-- Whether the registers can print what an action asks for, whatever the value is. -/
def Action.fits : Action → Bool
  | run (.print f _) => f.precision ≠ some Format.limit
  | _ => true

/-- What a step does in registers behind a text of some length: the same as the machine, or it faults
for one of two reasons. -/
inductive Mirrors (o : Options) (length : Nat) (m : Machine) (b : UInt8) : Prop where
  | agrees (h : m.registers.step o b = seen (m.step o b))
  | padding {f k next} (h : m.registers.step o b = .error (.fault .padding))
    (hread : m.mode.read o b = .ok (.run (.print f k), next))
    (hf : f.precision = some Format.limit)
  | depth (h : m.registers.step o b = .error (.fault .depth)) (hdepth : Control.deepest ≤ length)

/-- In a sound mode there is nothing else that a step can do. -/
theorem mirrors_of_isSound {o : Options} {length : Nat} {m : Machine}
    (h : m.mode.IsSound o length) (b : UInt8) : Mirrors o length m b := by
  obtain ⟨mode, s⟩ := m
  -- Outside formats and marks nothing can fault, and the registers agree with the reader.
  cases mode with
  | text => exact .agrees (Registers.text_eq .text s [] b)
  | dollar =>
    by_cases hb : b = 0x3c
    · subst hb
      exact .agrees rfl
    · have hread : Mode.read o .dollar b = .ok (Mode.readText o [0x24] b) := by
        rw [Mode.read, if_neg hb]
      refine .agrees ?_
      show (if b = 0x3c then _ else _) = carried o s (Mode.read o .dollar b)
      rw [if_neg hb, hread]
      exact Registers.text_eq .dollar s [0x24] b
  | padding =>
    refine .agrees ?_
    show Registers.goto _ (if b = 0x3e then _ else _) =
      carried o s (.ok (.idle, if b = 0x3e then .text else .padding))
    split_ifs <;> rfl
  | percent => exact .agrees (Registers.directive_eq .percent s _)
  | argument => exact .agrees (Registers.argument_eq .argument s _)
  | store => exact .agrees (Registers.store_eq .store s _)
  | fetch => exact .agrees (Registers.fetch_eq .fetch s _)
  | charOpen => exact .agrees rfl
  | charClose value =>
    refine .agrees ?_
    show (if Char.ofUInt8 b = '\x27' then _ else _) = carried o s (if _ then _ else _)
    split_ifs <;> rfl
  | number value => exact .agrees (Registers.number_eq (.number _) s h _)
  | format spec k =>
    rcases Registers.format_tracks s h.2 (Char.ofUInt8 b) with hagrees | ⟨hfault, hread, hf⟩
    · exact .agrees hagrees
    · exact .padding hfault hread hf
  | skip part depth behind =>
    cases behind with
    | false => exact .agrees rfl
    | true =>
      -- The depth cannot be at its largest unless that much text has been read.
      rcases Registers.mark_eq (.skip part depth true) s part depth (Char.ofUInt8 b) with
        hagrees | ⟨hfault, hdeep⟩
      · exact .agrees hagrees
      · exact .depth hfault (hdeep.trans h)

/-- The end of a run is the same, unless a format that is printed there faults. -/
theorem finish_registers (o : Options) (m : Machine) :
    m.registers.finish o = Halt.lift (m.finish o) ∨
      m.registers.finish o = .error (.fault .padding) ∧
        ∃ f k, m.mode.finish o = .ok (.run (.print f k)) ∧ f.precision = some Format.limit := by
  obtain ⟨mode, s⟩ := m
  -- Only a format that the end of the template closes prints something there.
  cases mode with
  | format spec k =>
    cases he : o.formatEnd with
    | percent =>
      have hfinish : Mode.finish o (.format spec k) = Mode.printed spec k := by
        simp only [Mode.finish, he]
      have hregisters : Registers.finish o (Machine.registers ⟨.format spec k, s⟩) =
          (Registers.applyFormat ⟨.format, spec, k.map Conversion.symbol, s⟩).map
            fun q => (q.1, q.2.state) := if_pos he
      rw [hregisters, Machine.finish, hfinish]
      rcases Registers.applyFormat_tracks (o := o) .format spec k s with
        happly | ⟨hfault, hreading, hlimit⟩
      · left
        rw [happly]
        cases hprinted : Mode.printed spec k with
        | error e => rfl
        | ok action =>
          obtain ⟨f, -, rfl⟩ := printed_eq_ok hprinted
          simp only [carried, bind, Except.bind, Except.map, Action.exec]
          cases (Instruction.print f (k.getD .decimal)).exec o.operands s <;> rfl
      · right
        rw [hfault]
        cases hprinted : Mode.printed spec k with
        | error e =>
          rw [hprinted] at hreading
          cases hreading
        | ok action =>
          rw [hprinted] at hreading
          cases hreading
          exact ⟨rfl, _, _, rfl, hlimit⟩
    | conversion =>
      left
      simp only [Machine.registers, Registers.finish, Machine.finish, Mode.finish, he]
      rfl
  | _ => exact .inl rfl

end Terminal.Template
