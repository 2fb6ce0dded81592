import Terminal.Proofs.Text.Numeral
import Terminal.Template.Instruction

/-!
# The layout of printed values

A printed value is a core with spaces on one side of it, and the core of a number is a numeral of
the number behind a sign or the mark of a base.  `IsPrinted` says so without any way to write a
numeral: it asks for digits that denote the number, and for so many of them.  This leaves one text
for each value (`print?_eq_some_iff`).  Nothing of a number is lost: what is left of the text without
the bytes that are no digits is still a numeral of it (`IsCore.exists_isNumeral_filter`), so numbers
that are printed alike are the same (`IsPrinted.injective`).
-/

namespace Terminal.Template

open Numeral

/-! ## What a conversion prints -/

namespace Conversion

/-- The number whose digits are printed. -/
def magnitude : Conversion → Int32 → Nat
  | decimal, v => v.toInt.natAbs
  | _, v => v.toUInt32.toNat

/-- The base of the digits. -/
def base : Conversion → Nat
  | decimal | text => 10
  | octal => 8
  | lowerHex | upperHex => 16

/-- The letters among the digits. -/
def letters : Conversion → Letters
  | upperHex => .upper
  | _ => .lower

/-- Every conversion writes in a base above one. -/
theorem one_lt_base (k : Conversion) : 1 < k.base := by
  cases k <;> decide

/-- Every conversion writes in a base of at most sixteen. -/
theorem base_le (k : Conversion) : k.base ≤ 16 := by
  cases k <;> decide

end Conversion

/-! ## The layout -/

/-- A value in full: a text itself, and a number as its shortest decimal numeral, behind a minus if
it is negative. -/
inductive Value.IsWritten : Value → Bytes → Prop where
  | text (bytes : Bytes) : IsWritten (.text bytes) bytes
  | negative {v : Int32} {ds : Bytes} (h : v < 0)
      (hds : IsNumeral .lower 10 v.toInt.natAbs (leastCount 10 v.toInt.natAbs) ds) :
      IsWritten (.integer v) (0x2d :: ds)
  | positive {v : Int32} {ds : Bytes} (h : ¬v < 0)
      (hds : IsNumeral .lower 10 v.toInt.natAbs (leastCount 10 v.toInt.natAbs) ds) :
      IsWritten (.integer v) ds

namespace Format

/-- What stands in front of the digits of a decimal number. -/
inductive IsSign (f : Format) (v : Int32) : Bytes → Prop where
  | minus (h : v < 0) : IsSign f v [0x2d]
  | plus (h : ¬v < 0) (hsign : f.sign = true) : IsSign f v [0x2b]
  | space (h : ¬v < 0) (hsign : f.sign = false) (hspace : f.space = true) : IsSign f v [0x20]
  | nothing (h : ¬v < 0) (hsign : f.sign = false) (hspace : f.space = false) : IsSign f v []

/-- What stands in front of the digits of a hexadecimal number. -/
inductive IsMark (f : Format) (letter : UInt8) (v : Int32) : Bytes → Prop where
  | mark (halternate : f.alternate = true) (h : v ≠ 0) : IsMark f letter v [0x30, letter]
  | zero (h : v = 0) : IsMark f letter v []
  | plain (halternate : f.alternate = false) : IsMark f letter v []

/-- A printed value without the spaces around it. -/
inductive IsCore (f : Format) : Conversion → Value → Bytes → Prop where
  | decimal {v : Int32} {sign ds : Bytes} (hsign : f.IsSign v sign)
      (hds : IsPadded .lower 10 v.toInt.natAbs f.leastDigits ds) :
      IsCore f .decimal (.integer v) (sign ++ ds)
  | lowerHex {v : Int32} {mark ds : Bytes} (hmark : f.IsMark 0x78 v mark)
      (hds : IsPadded .lower 16 v.toUInt32.toNat f.leastDigits ds) :
      IsCore f .lowerHex (.integer v) (mark ++ ds)
  | upperHex {v : Int32} {mark ds : Bytes} (hmark : f.IsMark 0x58 v mark)
      (hds : IsPadded .upper 16 v.toUInt32.toNat f.leastDigits ds) :
      IsCore f .upperHex (.integer v) (mark ++ ds)
  | octal {v : Int32} {ds : Bytes} (halternate : f.alternate = false)
      (hds : IsPadded .lower 8 v.toUInt32.toNat f.leastDigits ds) :
      IsCore f .octal (.integer v) ds
  | markedOctal {v : Int32} {ds : Bytes} (halternate : f.alternate = true)
      (hds : IsPadded .lower 8 v.toUInt32.toNat (f.leastDigits - 1) ds) :
      IsCore f .octal (.integer v) (0x30 :: ds)
  | text {v : Value} {written : Bytes} (hwritten : v.IsWritten written) :
      IsCore f .text v (written.take (f.precision.getD written.length))

/-- A core with as many spaces as the width asks for, on the side that the format leaves to them. -/
structure IsFilled (f : Format) (core out : Bytes) : Prop where
  length : out.length = max f.width core.length
  left : f.left = true → ∃ count, out = core ++ List.replicate count 0x20
  right : f.left = false → ∃ count, out = List.replicate count 0x20 ++ core

/-- A value in the layout of a format. -/
def IsPrinted (f : Format) (k : Conversion) (v : Value) (out : Bytes) : Prop :=
  ∃ core, f.IsCore k v core ∧ f.IsFilled core out

/-! ## The layout determines the text -/

section Determined

variable {f : Format} {v : Int32}

/-- The sign asked for is the sign written. -/
theorem isSign_iff {sign : Bytes} : f.IsSign v sign ↔ f.signPart v = sign := by
  constructor
  · intro h
    cases h <;> simp [signPart, *]
  · rintro rfl
    unfold signPart
    split_ifs with h hsign hspace
    · exact .minus h
    · exact .plus h hsign
    · exact .space h (by simpa using hsign) hspace
    · exact .nothing h (by simpa using hsign) (by simpa using hspace)

/-- The mark asked for is the base mark written. -/
theorem isMark_iff (letter : Char) {mark : Bytes} :
    f.IsMark letter.toUInt8 v mark ↔ f.baseMark ['0', letter] v = mark := by
  constructor
  · intro h
    cases h with
    | mark halternate hv => rw [baseMark, if_pos ⟨halternate, hv⟩]; rfl
    | zero hv => rw [baseMark, if_neg fun h => h.2 hv]
    | plain halternate => rw [baseMark, if_neg (by simp [halternate])]
  · rintro rfl
    unfold baseMark
    split_ifs with h
    · exact .mark h.1 h.2
    · by_cases hv : v = 0
      · exact .zero hv
      · exact .plain (by simpa [hv] using h)

/-- The numeral that is written is the only one with its number of digits. -/
theorem isPadded_iff {base n least : Nat} {ds : Bytes} (hbase : 1 < base := by decide)
    (hle : base ≤ 16 := by decide) :
    IsPadded .lower base n least ds ↔ padded least (digits base n) = ds :=
  ⟨(isPadded_padded_digits hbase hle least n).unique hbase,
    fun h => h ▸ isPadded_padded_digits hbase hle least n⟩

/-- The upper case digits asked for are the padded numeral. -/
theorem isPadded_upper_iff {n least : Nat} {ds : Bytes} :
    IsPadded .upper 16 n least ds ↔ padded least (upperDigits n) = ds :=
  ⟨(isPadded_padded_upperDigits least n).unique (by decide),
    fun h => h ▸ isPadded_padded_upperDigits least n⟩

/-- The shortest numeral is the only one with its number of digits. -/
theorem isNumeral_iff {n : Nat} {ds : Bytes} :
    IsNumeral .lower 10 n (leastCount 10 n) ds ↔ digits 10 n = ds :=
  have hdigits := isNumeral_digits (by decide) (by decide) n
  ⟨hdigits.unique (by decide), fun h => h ▸ hdigits⟩

/-- The text a value is written as by `s`. -/
theorem isWritten_iff {v : Value} {written : Bytes} : v.IsWritten written ↔ v.written = written := by
  constructor
  · intro h
    cases h with
    | text => rfl
    | negative h hds => rw [Value.written, decimal, if_pos h, isNumeral_iff.mp hds]
    | positive h hds => rw [Value.written, decimal, if_neg h, isNumeral_iff.mp hds]
  · rintro rfl
    cases v with
    | text bytes => exact .text bytes
    | integer v =>
      rw [Value.written, decimal]
      split_ifs with h
      · exact .negative h (isNumeral_iff.mpr rfl)
      · exact .positive h (isNumeral_iff.mpr rfl)

/-- A precision cuts the written text, and without one all of it stays. -/
theorem take_getD_eq_cut (f : Format) (written : Bytes) :
    written.take (f.precision.getD written.length) = f.cut written := by
  unfold cut
  cases f.precision <;> simp

/-- Every number has the core that is printed for it. -/
theorem isCore_number (f : Format) (k : Conversion) (v : Int32) :
    f.IsCore k (.integer v) (f.number k v) := by
  cases k with
  | decimal => exact .decimal (isSign_iff.mpr rfl) ((isPadded_iff).mpr rfl)
  | lowerHex => exact .lowerHex ((isMark_iff 'x').mpr rfl) ((isPadded_iff).mpr rfl)
  | upperHex => exact .upperHex ((isMark_iff 'X').mpr rfl) (isPadded_upper_iff.mpr rfl)
  | octal =>
    rw [number]
    split_ifs with halternate
    · exact .markedOctal halternate ((isPadded_iff).mpr rfl)
    · exact .octal (by simpa using halternate) ((isPadded_iff).mpr rfl)
  | text =>
    rw [number, ← take_getD_eq_cut]
    exact .text (isWritten_iff.mpr rfl)

/-- The core of a value is the one that is printed for it. -/
theorem isCore_iff {k : Conversion} {v : Value} {core : Bytes} :
    f.IsCore k v core ↔ f.core? k v = some core := by
  constructor
  · intro h
    -- Every part of the layout is determined, so the rules give the text that is printed.
    cases h with
    | decimal hsign hds => rw [core?, number, isSign_iff.mp hsign, (isPadded_iff).mp hds]
    | lowerHex hmark hds => rw [core?, number, (isMark_iff 'x').mp hmark, (isPadded_iff).mp hds]
    | upperHex hmark hds =>
      rw [core?, number, (isMark_iff 'X').mp hmark, isPadded_upper_iff.mp hds]
    | octal halternate hds =>
      rw [core?, number, (isPadded_iff).mp hds, if_neg (by simp [halternate])]
    | markedOctal halternate hds =>
      rw [core?, number, (isPadded_iff).mp hds, if_pos halternate]
    | text hwritten =>
      rw [take_getD_eq_cut, ← isWritten_iff.mp hwritten]
      cases v <;> rfl
  · intro h
    cases v with
    | integer v =>
      obtain rfl : f.number k v = core := Option.some.inj h
      exact isCore_number f k v
    | text bytes =>
      rw [core?] at h
      split_ifs at h with hk
      obtain rfl : f.cut bytes = core := Option.some.inj h
      rw [hk, ← take_getD_eq_cut]
      exact .text (.text bytes)

/-- The filled field asked for is the one written. -/
theorem isFilled_iff {core out : Bytes} : f.IsFilled core out ↔ f.fill core = out := by
  constructor
  · rintro ⟨hlength, hleft, hright⟩
    unfold fill
    split_ifs with h
    · obtain ⟨count, rfl⟩ := hleft h
      rw [List.length_append, List.length_replicate] at hlength
      rw [show f.width - core.length = count by omega]
    · obtain ⟨count, rfl⟩ := hright (by simpa using h)
      rw [List.length_append, List.length_replicate] at hlength
      rw [show f.width - core.length = count by omega]
  · rintro rfl
    unfold fill
    refine ⟨?_, fun h => ⟨_, if_pos h⟩, fun h => ⟨_, if_neg (by simp [h])⟩⟩
    split_ifs
    all_goals
      rw [List.length_append, List.length_replicate]
      omega

/-- The text of a value is the one in the layout of the format. -/
theorem print?_eq_some_iff {k : Conversion} {v : Value} {out : Bytes} :
    f.print? k v = some out ↔ f.IsPrinted k v out := by
  simp only [print?, Option.map_eq_some_iff, IsPrinted, isCore_iff, isFilled_iff]

end Determined

/-! ## Nothing of a number is lost -/

section Lossless

variable {f : Format} {k : Conversion} {v w : Int32} {core out : Bytes}

/-- In front of the digits of a number stands no digit but a zero. -/
theorem exists_isNumeral_filter_append (k : Conversion) {n count : Nat} {front ds : Bytes}
    (hds : IsNumeral k.letters k.base n count ds)
    (hfront : front.filter (isDigitByte k.letters) = [] ∨
      front.filter (isDigitByte k.letters) = [0x30]) :
    ∃ count, IsNumeral k.letters k.base n count
      ((front ++ ds).filter (isDigitByte k.letters)) := by
  rw [List.filter_append, hds.filter_eq k.base_le]
  rcases hfront with hfront | hfront
  · rw [hfront]
    exact ⟨count, hds⟩
  · rw [hfront]
    exact ⟨count + 1, hds.zero_cons (Nat.zero_lt_of_lt k.one_lt_base)⟩

/-- A sign has no digit. -/
theorem IsSign.filter_eq {sign : Bytes} (h : f.IsSign v sign) :
    sign.filter (isDigitByte .lower) = [] := by
  cases h <;> rfl

/-- Of a base mark, at most its zero is a digit. -/
theorem IsMark.filter_eq {l : Letters} {letter : UInt8} {mark : Bytes}
    (h : f.IsMark letter v mark) (hletter : isDigitByte l letter = false) :
    mark.filter (isDigitByte l) = [] ∨ mark.filter (isDigitByte l) = [0x30] := by
  have hzero : isDigitByte l 0x30 = true := by cases l <;> rfl
  cases h with
  | mark => exact .inr (by simp [hletter, hzero])
  | zero => exact .inl rfl
  | plain => exact .inl rfl

/-- Without the bytes that are no digits, the core of a number is a numeral of it. -/
theorem IsCore.exists_isNumeral_filter (h : f.IsCore k (.integer v) core) (hk : k ≠ .text) :
    ∃ count, IsNumeral k.letters k.base (k.magnitude v) count
      (core.filter (isDigitByte k.letters)) := by
  cases h with
  | decimal hsign hds =>
    exact exists_isNumeral_filter_append .decimal hds (.inl hsign.filter_eq)
  | lowerHex hmark hds =>
    exact exists_isNumeral_filter_append .lowerHex hds (hmark.filter_eq rfl)
  | upperHex hmark hds =>
    exact exists_isNumeral_filter_append .upperHex hds (hmark.filter_eq rfl)
  | octal halternate hds =>
    exact exists_isNumeral_filter_append .octal hds (.inl List.filter_nil)
  | markedOctal halternate hds =>
    have hzero : [0x30].filter (isDigitByte .lower) = [0x30] := rfl
    exact exists_isNumeral_filter_append .octal hds (.inr hzero)
  | text hwritten => exact absurd rfl hk

/-- Spaces are no digits. -/
theorem IsFilled.filter_eq (l : Letters) (h : f.IsFilled core out) :
    out.filter (isDigitByte l) = core.filter (isDigitByte l) := by
  have hspaces (count : Nat) : (List.replicate count 0x20).filter (isDigitByte l) = [] := by
    refine List.filter_eq_nil_iff.mpr fun b hb => ?_
    rw [List.eq_of_mem_replicate hb]
    cases l <;> decide
  cases hleft : f.left with
  | true =>
    obtain ⟨count, rfl⟩ := h.left hleft
    rw [List.filter_append, hspaces, List.append_nil]
  | false =>
    obtain ⟨count, rfl⟩ := h.right hleft
    rw [List.filter_append, hspaces, List.nil_append]

/-- Filling adds blanks and nothing else. -/
theorem IsFilled.mem_iff {b : UInt8} (hb : b ≠ 0x20) (h : f.IsFilled core out) :
    b ∈ out ↔ b ∈ core := by
  cases hleft : f.left with
  | true =>
    obtain ⟨count, rfl⟩ := h.left hleft
    simp [hb]
  | false =>
    obtain ⟨count, rfl⟩ := h.right hleft
    simp [hb]

/-- A decimal number has a minus exactly if it is negative. -/
theorem IsCore.minus_mem_iff (h : f.IsCore .decimal (.integer v) core) :
    0x2d ∈ core ↔ v < 0 := by
  cases h with
  | @decimal _ sign ds hsign hds =>
    have hdigits : 0x2d ∉ ds := by
      intro hmem
      rw [← hds.filter_eq (by decide)] at hmem
      exact absurd (List.mem_filter.mp hmem).2 (by decide)
    rw [List.mem_append, or_iff_left hdigits]
    cases hsign <;> simp [*]

/-- The number that is printed determines a number, together with its sign if need be. -/
theorem eq_of_magnitude_eq (h : k.magnitude v = k.magnitude w)
    (hsign : k = .decimal → (v < 0 ↔ w < 0)) : v = w := by
  by_cases hk : k = .decimal
  · subst hk
    have habs : v.toInt.natAbs = w.toInt.natAbs := h
    have hlt := hsign rfl
    rw [Int32.lt_iff_toInt_lt, Int32.lt_iff_toInt_lt, Int32.toInt_zero] at hlt
    apply Int32.toInt_inj.mp
    omega
  · apply toNat_toUInt32_inj.mp
    cases k with
    | decimal => exact absurd rfl hk
    | _ => exact h

/-- Numbers that are printed alike are the same. -/
theorem IsPrinted.injective (hk : k ≠ .text) (hv : f.IsPrinted k (.integer v) out)
    (hw : f.IsPrinted k (.integer w) out) : v = w := by
  obtain ⟨core, hcore, hfill⟩ := hv
  obtain ⟨core', hcore', hfill'⟩ := hw
  obtain ⟨count, hdigits⟩ := hcore.exists_isNumeral_filter hk
  obtain ⟨count', hdigits'⟩ := hcore'.exists_isNumeral_filter hk
  rw [← hfill.filter_eq] at hdigits
  rw [← hfill'.filter_eq] at hdigits'
  refine eq_of_magnitude_eq (hdigits.eq_of_eq k.base_le hdigits') ?_
  rintro rfl
  rw [← hcore.minus_mem_iff, ← hcore'.minus_mem_iff, ← hfill.mem_iff (by decide),
    ← hfill'.mem_iff (by decide)]

end Lossless

/-! ## Printing -/

/-- What printing does with the value on top of the stack, whatever is below it. -/
structure LaysOut (f : Format) (k : Conversion) (order : OperandOrder) (s : State) : Prop where
  /-- What is printed is in the layout of the format, and nothing else in that layout is. -/
  printed : ∀ (v : Value) (out : Bytes),
    (Instruction.print f k).exec order (s.push v) = .ok (out, s) ↔ f.IsPrinted k v out
  /-- Every number can be printed. -/
  number : ∀ v : Int32, ∃ out, f.IsPrinted k (.integer v) out
  /-- A text can be printed as a text. -/
  text : k = .text → ∀ bytes : Bytes, ∃ out, f.IsPrinted k (.text bytes) out
  /-- It cannot be printed as a number. -/
  mismatch : k ≠ .text → ∀ bytes : Bytes,
    (Instruction.print f k).exec order (s.push (.text bytes)) = .error (.typeMismatch k.symbol)
  /-- The number of digits that a number needs is the least with which it can be written. -/
  needed : ∀ n : Nat, IsLeast
    {count | 0 < count ∧ ∃ ds, IsNumeral k.letters k.base n count ds} (leastCount k.base n)
  /-- No two numbers are printed alike. -/
  lossless : k ≠ .text → ∀ (v w : Int32) (out : Bytes),
    f.IsPrinted k (.integer v) out → f.IsPrinted k (.integer w) out → v = w

/-- Printing takes the value on top of the stack. -/
theorem exec_print (f : Format) (k : Conversion) (order : OperandOrder) (s : State) (v : Value) :
    (Instruction.print f k).exec order (s.push v) =
      match f.print? k v with
      | some out => .ok (out, s)
      | none => .error (.typeMismatch k.symbol) := by
  show (match f.print? k v with
      | some out => pure (out, s)
      | none => throw (Error.typeMismatch k.symbol)) = _
  cases f.print? k v <;> rfl

/-- Every format lays out all values that it can print. -/
theorem laysOut (f : Format) (k : Conversion) (order : OperandOrder) (s : State) :
    f.LaysOut k order s where
  printed v out := by
    rw [exec_print, ← print?_eq_some_iff]
    cases f.print? k v <;> simp
  number v := ⟨_, print?_eq_some_iff.mp rfl⟩
  text hk bytes := by
    subst hk
    exact ⟨_, print?_eq_some_iff.mp rfl⟩
  mismatch hk bytes := by
    rw [exec_print, print?, core?, if_neg hk]
    rfl
  needed := isLeast_leastCount k.letters k.one_lt_base
  lossless hk _ _ _ := IsPrinted.injective hk

end Format

end Terminal.Template
