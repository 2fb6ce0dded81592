import Mathlib.Data.Nat.Digits.Lemmas
import Terminal.Proofs.Text.Ascii

/-!
# Numerals and the numbers they denote

A numeral of a number is a list of digits that adds up to it (`IsNumeral`).  The number and the count
of its digits determine a numeral (`IsNumeral.unique`), and a numeral determines its number
(`IsNumeral.eq_of_eq`).  No numeral has fewer digits than `leastCount`, and `padded` writes the
numeral with so many digits or as many more as are asked for.
-/

namespace Terminal.Numeral

/-! ## Digits -/

/-- How the digits from ten on are written. -/
inductive Letters where
  | lower
  | upper
deriving DecidableEq

/-- The byte of a digit below sixteen. -/
def digitByte (letters : Letters) (d : Nat) : UInt8 :=
  if d < 10 then UInt8.ofNat (0x30 + d)
  else match letters with
    | .lower => UInt8.ofNat (0x61 + (d - 10))
    | .upper => UInt8.ofNat (0x41 + (d - 10))

/-- Writes digits that are given from the last to the first. -/
def write (letters : Letters) (ds : List Nat) : Bytes := ds.reverse.map (digitByte letters)

/-- One byte is written for each digit. -/
@[simp] theorem length_write (letters : Letters) (ds : List Nat) :
    (write letters ds).length = ds.length := by
  simp [write]

/-- The digit in front of the list, the least one, is written last. -/
theorem write_cons (letters : Letters) (d : Nat) (ds : List Nat) :
    write letters (d :: ds) = write letters ds ++ [digitByte letters d] := by
  simp [write]

/-- Digits of greater weight stand in front. -/
theorem write_append (letters : Letters) (low high : List Nat) :
    write letters (low ++ high) = write letters high ++ write letters low := by
  simp [write]

/-- Zero digits are written as the character `0`. -/
theorem write_replicate_zero (letters : Letters) (count : Nat) :
    write letters (List.replicate count 0) = List.replicate count 0x30 := by
  simp [write, digitByte]

/-- Either case of letters writes zero as `0`. -/
theorem digitByte_zero (letters : Letters) : digitByte letters 0 = 0x30 := by
  cases letters <;> rfl

/-- Different digits have different characters. -/
theorem digitByte_inj {letters : Letters} {d e : Nat} (hd : d < 16) (he : e < 16)
    (h : digitByte letters d = digitByte letters e) : d = e := by
  have all : ∀ letters, ∀ d e : Fin 16, digitByte letters d = digitByte letters e → d = e := by
    intro letters
    cases letters <;> decide
  exact Fin.mk.inj_iff.mp (all letters ⟨d, hd⟩ ⟨e, he⟩ h)

/-- Whether a byte is a digit below sixteen. -/
def isDigitByte (letters : Letters) (b : UInt8) : Bool :=
  (List.range 16).any fun d => digitByte letters d == b

/-- What is written for a digit is the character of a digit. -/
theorem isDigitByte_digitByte (letters : Letters) {d : Nat} (h : d < 16) :
    isDigitByte letters (digitByte letters d) = true :=
  List.any_eq_true.mpr ⟨d, List.mem_range.mpr h, beq_self_eq_true _⟩

/-- Different lists of digits are written differently. -/
theorem write_inj {letters : Letters} {ds es : List Nat} (hd : ∀ d ∈ ds, d < 16)
    (he : ∀ e ∈ es, e < 16) (h : write letters ds = write letters es) : ds = es := by
  have hmap : ds.map (digitByte letters) = es.map (digitByte letters) := by
    simpa [write] using congrArg List.reverse h
  have hlength : ds.length = es.length := by simpa using congrArg List.length hmap
  refine List.ext_getElem hlength fun i hi hj => ?_
  have hbyte := List.getElem_of_eq hmap (by simpa using hi)
  rw [List.getElem_map, List.getElem_map] at hbyte
  exact digitByte_inj (hd _ (List.getElem_mem hi)) (he _ (List.getElem_mem hj)) hbyte

/-! ## Numerals of a number -/

/-- A numeral of `n` in some base that consists of so many digits. -/
def IsNumeral (letters : Letters) (base n count : Nat) (numeral : Bytes) : Prop :=
  ∃ ds : List Nat, (∀ d ∈ ds, d < base) ∧ Nat.ofDigits base ds = n ∧ ds.length = count ∧
    numeral = write letters ds

/-- The number of digits that a number needs; zero needs one. -/
def leastCount (base n : Nat) : Nat := Nat.log base n + 1

/-- A numeral of `n` that has as many digits as are asked for, or as many as its number needs. -/
def IsPadded (letters : Letters) (base n least : Nat) (numeral : Bytes) : Prop :=
  IsNumeral letters base n (max least (leastCount base n)) numeral

/-- A number takes as many digits as its expansion has, and one for zero. -/
theorem leastCount_eq_max {base : Nat} (h : 1 < base) (n : Nat) :
    leastCount base n = max 1 (Nat.digits base n).length := by
  by_cases hn : n = 0
  · simp [hn, leastCount]
  · rw [leastCount, ← Nat.length_digits base n h hn, max_eq_right]
    exact List.length_pos_iff.mpr (Nat.digits_ne_nil_iff_ne_zero.mpr hn)

section IsNumeral

variable {letters : Letters} {base n m count : Nat} {numeral : Bytes}

/-- A number has at most one numeral of a given length. -/
theorem IsNumeral.unique {other : Bytes} (hbase : 1 < base)
    (h : IsNumeral letters base n count numeral) (h' : IsNumeral letters base n count other) :
    numeral = other := by
  obtain ⟨ds, hlt, hvalue, hcount, rfl⟩ := h
  obtain ⟨es, hlt', hvalue', hcount', rfl⟩ := h'
  have hlength : ds.length = es.length := hcount.trans hcount'.symm
  rw [Nat.ofDigits_inj_of_len_eq hbase hlength hlt hlt' (hvalue.trans hvalue'.symm)]

/-- A numeral denotes one number. -/
theorem IsNumeral.eq_of_eq {count' : Nat} (hbase : base ≤ 16)
    (h : IsNumeral letters base n count numeral) (h' : IsNumeral letters base m count' numeral) :
    n = m := by
  obtain ⟨ds, hlt, rfl, -, rfl⟩ := h
  obtain ⟨es, hlt', rfl, -, hwrite⟩ := h'
  have hds : ∀ d ∈ ds, d < 16 := fun d hd => (hlt d hd).trans_le hbase
  have hes : ∀ e ∈ es, e < 16 := fun e he => (hlt' e he).trans_le hbase
  rw [write_inj hds hes hwrite]

/-- Every byte of a numeral is a digit. -/
theorem IsNumeral.filter_eq (hbase : base ≤ 16) (h : IsNumeral letters base n count numeral) :
    numeral.filter (isDigitByte letters) = numeral := by
  obtain ⟨ds, hlt, -, -, rfl⟩ := h
  refine List.filter_eq_self.mpr fun b hb => ?_
  obtain ⟨d, hd, rfl⟩ := List.mem_map.mp hb
  exact isDigitByte_digitByte letters ((hlt d (List.mem_reverse.mp hd)).trans_le hbase)

/-- A zero in front of a numeral leaves its number as it is. -/
theorem IsNumeral.zero_cons (hbase : 0 < base) (h : IsNumeral letters base n count numeral) :
    IsNumeral letters base n (count + 1) (0x30 :: numeral) := by
  obtain ⟨ds, hlt, rfl, rfl, rfl⟩ := h
  refine ⟨ds ++ [0], ?_, ?_, ?_, ?_⟩
  · intro d hd
    rcases List.mem_append.mp hd with hd | hd
    · exact hlt d hd
    · rw [List.mem_singleton.mp hd]
      exact hbase
  · simp [Nat.ofDigits_append]
  · simp
  · rw [write_append, ← digitByte_zero letters]
    rfl

/-- The digits of a number with zeros in front of them are a numeral. -/
theorem isNumeral_write_digitsAppend (letters : Letters) (hbase : 1 < base) (least n : Nat) :
    IsNumeral letters base n (max least (Nat.digits base n).length)
      (write letters (Nat.digitsAppend base least n)) := by
  refine ⟨Nat.digitsAppend base least n, ?_, ?_, ?_, rfl⟩
  · exact fun d hd => Nat.lt_of_mem_digitsAppend hbase least d hd
  · rw [Nat.digitsAppend, Nat.ofDigits_append_replicate_zero, Nat.ofDigits_digits]
  · rw [Nat.digitsAppend, List.length_append, List.length_replicate]
    omega

/-- The number of digits that a number needs is the least that a numeral of it has. -/
theorem isLeast_leastCount (letters : Letters) (hbase : 1 < base) (n : Nat) :
    IsLeast {count | 0 < count ∧ ∃ numeral, IsNumeral letters base n count numeral}
      (leastCount base n) := by
  constructor
  · refine ⟨Nat.succ_pos _, write letters (Nat.digitsAppend base 1 n), ?_⟩
    rw [leastCount_eq_max hbase]
    exact isNumeral_write_digitsAppend letters hbase 1 n
  · rintro count ⟨hpos, -, ds, hlt, rfl, rfl, -⟩
    rw [leastCount]
    have hbound : Nat.ofDigits base ds < base ^ ds.length :=
      Nat.ofDigits_lt_base_pow_length hbase hlt
    have hlog := Nat.log_lt_of_lt_pow' (Nat.ne_of_gt hpos) hbound
    omega

end IsNumeral

/-! ## The numerals that are written -/

/-- The digit characters of the library are the lower case ones. -/
theorem toUInt8_digitChar {d : Nat} (h : d < 16) : d.digitChar.toUInt8 = digitByte .lower d := by
  have all : ∀ d : Fin 16, d.val.digitChar.toUInt8 = digitByte .lower d := by decide
  exact all ⟨d, h⟩

/-- The digit characters of the library in upper case. -/
theorem toUInt8_toUpper_digitChar {d : Nat} (h : d < 16) :
    d.digitChar.toUpper.toUInt8 = digitByte .upper d := by
  have all : ∀ d : Fin 16, d.val.digitChar.toUpper.toUInt8 = digitByte .upper d := by decide
  exact all ⟨d, h⟩

/-- A number other than zero has digits enough. -/
theorem digitsAppend_one {base n : Nat} (hn : n ≠ 0) :
    Nat.digitsAppend base 1 n = Nat.digits base n := by
  have hpos := List.length_pos_iff.mpr (Nat.digits_ne_nil_iff_ne_zero (b := base).mpr hn)
  rw [Nat.digitsAppend, Nat.sub_eq_zero_of_le hpos, List.replicate_zero, List.append_nil]

/-- The characters of the shortest numeral, if each of them becomes the byte of its digit. -/
theorem map_toDigits {base : Nat} (hbase : 1 < base) {letters : Letters} {f : Char → UInt8}
    (hf : ∀ d < base, f d.digitChar = digitByte letters d) (n : Nat) :
    (Nat.toDigits base n).map f = write letters (Nat.digitsAppend base 1 n) := by
  induction n using Nat.strongRecOn with
  | ind n ih =>
    rw [Nat.toDigits_eq_if hbase]
    split
    · next hn =>
      by_cases hzero : n = 0
      · simp [hzero, Nat.digitsAppend, write, hf 0 (by omega)]
      · simp [Nat.digitsAppend, Nat.digits_of_lt base n hzero hn, write, hf n hn]
    · next hn =>
      -- the last digit is written behind the numeral of all the others
      have hpos : 0 < n := by omega
      have hrest : n / base ≠ 0 := (Nat.div_pos (by omega) (by omega)).ne'
      have hlast : n % base < base := Nat.mod_lt n (by omega)
      rw [List.map_append, ih (n / base) (Nat.div_lt_self hpos hbase), digitsAppend_one hrest,
        digitsAppend_one hpos.ne', Nat.digits_def' hbase hpos, write_cons, List.map_singleton,
        hf _ hlast]

/-- Zeros in front of a numeral bring it to the length that is asked for. -/
theorem padded_write_digitsAppend (letters : Letters) (base count n : Nat) :
    padded count (write letters (Nat.digitsAppend base 1 n)) =
      write letters (Nat.digitsAppend base (max count 1) n) := by
  rw [padded, length_write, ← write_replicate_zero letters, ← write_append]
  simp only [Nat.digitsAppend, List.length_append, List.length_replicate, List.append_assoc,
    List.replicate_append_replicate]
  congr 4
  omega

/-- One more zero is in front of all the digits that there are. -/
theorem zero_cons_write_digitsAppend (letters : Letters) (base least n : Nat) :
    0x30 :: write letters (Nat.digitsAppend base least n) =
      write letters (Nat.digitsAppend base (max least (Nat.digits base n).length + 1) n) := by
  have hzero : [0x30] = write letters (List.replicate 1 0) := (write_replicate_zero letters 1).symm
  rw [← List.singleton_append, hzero, ← write_append]
  simp only [Nat.digitsAppend, List.append_assoc, List.replicate_append_replicate]
  congr 3
  omega

/-- A numeral begins with a zero exactly if more digits are asked for than there are. -/
theorem head?_write_digitsAppend {base : Nat} (hbase : 1 < base) (hle : base ≤ 16)
    (letters : Letters) (least n : Nat) :
    (write letters (Nat.digitsAppend base least n)).head? = some 0x30 ↔
      (Nat.digits base n).length < least := by
  have hhead (ds : List Nat) : (write letters ds).head? = ds.getLast?.map (digitByte letters) := by
    rw [write, List.head?_map, List.head?_reverse]
  rw [hhead, Nat.digitsAppend]
  constructor
  · intro h
    by_contra hlt
    rw [Nat.sub_eq_zero_of_le (by omega), List.replicate_zero, List.append_nil] at h
    have hne : Nat.digits base n ≠ [] := by
      intro hnil
      simp [hnil] at h
    rw [List.getLast?_eq_some_getLast hne, Option.map_some, ← digitByte_zero letters] at h
    -- the digit of greatest weight is not zero
    have hlast := (Nat.digits_lt_base hbase (List.getLast_mem hne)).trans_le hle
    have hzero := digitByte_inj hlast (by decide) (Option.some.inj h)
    exact Nat.getLast_digit_ne_zero base (Nat.digits_ne_nil_iff_ne_zero.mp hne) hzero
  · intro h
    rw [List.getLast?_append, List.getLast?_replicate, if_neg (by omega), Option.some_or,
      Option.map_some, digitByte_zero]

/-- A padded numeral is the expansion of the number brought to the count with zeros. -/
theorem padded_digits {base : Nat} (hbase : 1 < base) (hle : base ≤ 16) (count n : Nat) :
    padded count (digits base n) = write .lower (Nat.digitsAppend base (max count 1) n) := by
  rw [digits, Bytes.ofAscii, map_toDigits hbase fun d hd => toUInt8_digitChar (hd.trans_le hle),
    padded_write_digitsAppend]

/-- A padded numeral in upper case is the expansion brought to the count with zeros. -/
theorem padded_upperDigits (count n : Nat) :
    padded count (upperDigits n) = write .upper (Nat.digitsAppend 16 (max count 1) n) := by
  rw [upperDigits, Bytes.ofAscii, List.map_map,
    map_toDigits (by decide) fun d hd => toUInt8_toUpper_digitChar hd, padded_write_digitsAppend]

/-- The expansion with zeros up to the least count is a padded numeral of its number. -/
theorem isPadded_write (letters : Letters) {base : Nat} (hbase : 1 < base) (least n : Nat) :
    IsPadded letters base n least (write letters (Nat.digitsAppend base (max least 1) n)) := by
  rw [IsPadded, leastCount_eq_max hbase, ← max_assoc]
  exact isNumeral_write_digitsAppend letters hbase (max least 1) n

/-- Padding the numeral of a number gives a padded numeral of that number. -/
theorem isPadded_padded_digits {base : Nat} (hbase : 1 < base) (hle : base ≤ 16) (least n : Nat) :
    IsPadded .lower base n least (padded least (digits base n)) := by
  rw [padded_digits hbase hle]
  exact isPadded_write .lower hbase least n

/-- The shortest numeral has no more digits than its number needs. -/
theorem isNumeral_digits {base : Nat} (hbase : 1 < base) (hle : base ≤ 16) (n : Nat) :
    IsNumeral .lower base n (leastCount base n) (digits base n) := by
  simpa [IsPadded] using isPadded_padded_digits hbase hle 0 n

/-- Padding an upper case numeral gives a padded numeral of that number. -/
theorem isPadded_padded_upperDigits (least n : Nat) :
    IsPadded .upper 16 n least (padded least (upperDigits n)) := by
  rw [padded_upperDigits]
  exact isPadded_write .upper (by decide) least n

/-- A number is determined by what is left of it modulo 2^32. -/
theorem toNat_toUInt32_inj {v w : Int32} : v.toUInt32.toNat = w.toUInt32.toNat ↔ v = w := by
  constructor
  · intro h
    have hword := congrArg UInt32.toInt32 (UInt32.toNat_inj.mp h)
    rwa [Int32.toInt32_toUInt32, Int32.toInt32_toUInt32] at hword
  · rintro rfl
    rfl

/-! ## Reading digit by digit -/

/-- The number whose decimal digits are those of `n` and some more. -/
def valueFrom (n : Nat) (ds : List Nat) : Nat := ds.foldl (fun n d => n * 10 + d) n

/-- The number with some decimal digits. -/
def value (ds : List Nat) : Nat := valueFrom 0 ds

/-- A number up to the greatest one fits 32 bits. -/
theorem toInt_ofNat_of_le {n : Nat} (h : n ≤ greatest) : (Int32.ofNat n).toInt = n :=
  Int32.toInt_ofNat_of_lt (Nat.lt_succ_of_le h)

/-- Further digits never make a number smaller. -/
theorem le_valueFrom (n : Nat) (ds : List Nat) : n ≤ valueFrom n ds := by
  induction ds generalizing n with
  | nil => exact le_rfl
  | cons d ds ih =>
    calc n ≤ n * 10 + d := by omega
      _ ≤ valueFrom (n * 10 + d) ds := ih _

/-- Digits are taken in one by one exactly when the number they end at is within the limit: a number
that is too large once stays too large. -/
theorem foldlM_append? {limit n : Nat} (h : n ≤ limit) (ds : List Nat) :
    ds.foldlM (append? limit) n =
      if valueFrom n ds ≤ limit then some (valueFrom n ds) else none := by
  induction ds generalizing n with
  | nil => simp [valueFrom, h]
  | cons d ds ih =>
    rw [List.foldlM_cons, append?]
    split_ifs with hd hvalue hvalue
    · exact (ih hd).trans (if_pos hvalue)
    · exact (ih hd).trans (if_neg hvalue)
    · -- further digits only make the number greater
      exact absurd ((le_valueFrom _ ds).trans hvalue) hd
    · rfl

/-- The digits among some characters. -/
def digitsOf (cs : List Char) : List Nat := cs.filterMap digit?

end Terminal.Numeral
