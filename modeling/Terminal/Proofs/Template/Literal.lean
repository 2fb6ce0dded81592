import Terminal.Proofs.Template.Composition
import Terminal.Proofs.Template.Reading
import Terminal.Proofs.Text.Numeral

/-!
# Numbers in braces

A `Literal` is what may stand behind `%{`: one decimal digit or more, of a value that fits a signed
32-bit number, and the closing brace.  The reader holds the value of the digits so far, and it
refuses a digit that would make the value too great (`feed_digitBytes_cons`,
`feed_digitBytes_of_lt`).  So it accepts a byte string exactly if it begins with a literal, and
pushes the value of that one (`readsLiteral`).
-/

namespace Terminal.Template

open Numeral

/-! ## Digits -/

/-- Decimal digits as they are written. -/
def digitBytes (ds : List (Fin 10)) : Bytes := ds.map fun d : Fin 10 => digitByte .lower d

/-- Digits without the zeros in front of them.  The last digit is never left out. -/
def trimmed : List (Fin 10) → List (Fin 10)
  | d :: e :: ds => if d.val = 0 then trimmed (e :: ds) else d :: e :: ds
  | ds => ds

/-- A number in braces, behind its opening brace. -/
structure Literal where
  digits : List (Fin 10)
  digits_ne_nil : digits ≠ []
  value_le : value (digits.map Fin.val) ≤ greatest

namespace Literal

/-- The number that the digits denote. -/
def number (l : Literal) : Nat := value (l.digits.map Fin.val)

/-- The digits, and the closing brace behind them. -/
def text (l : Literal) : Bytes := digitBytes l.digits ++ [0x7d]

/-- What stands in front of a literal. -/
def opening : Bytes := Bytes.ofAscii ['%', '\x7b']

end Literal

/-! ## The shortest digits of a number -/

/-- The value of a digit string, most significant digit first, as the library has it. -/
theorem value_eq_ofDigits (ds : List Nat) : value ds = Nat.ofDigits 10 ds.reverse := by
  rw [Nat.ofDigits_eq_foldr, List.foldr_reverse, value, valueFrom]
  congr 1
  funext n d
  show n * 10 + d = d + 10 * n
  omega

/-- Leading zeros carry no value. -/
theorem value_trimmed (ds : List (Fin 10)) :
    value ((trimmed ds).map Fin.val) = value (ds.map Fin.val) := by
  fun_induction trimmed ds with
  | case1 d e ds hd ih =>
    obtain rfl : d = 0 := Fin.ext hd
    exact ih
  | case2 | case3 => rfl

/-- Either all digits are zeros, or the first one that is left is none. -/
theorem trimmed_cases {ds : List (Fin 10)} (h : ds ≠ []) :
    trimmed ds = [0] ∨ ∃ d es, trimmed ds = d :: es ∧ d ≠ 0 := by
  fun_induction trimmed ds with
  | case1 d e ds hd ih => exact ih (List.cons_ne_nil e ds)
  | case2 d e ds hd => exact .inr ⟨d, e :: ds, rfl, fun h => hd (congrArg Fin.val h)⟩
  | case3 ds hds =>
    match ds, h with
    | [d], _ =>
      by_cases hd : d = 0
      · exact .inl (congrArg (· :: []) hd)
      · exact .inr ⟨d, [], rfl, hd⟩
    | d :: e :: es, _ => exact absurd rfl (hds d e es)

/-- Without the zeros in front, digits are the shortest numeral of their number. -/
theorem digitBytes_trimmed {ds : List (Fin 10)} (h : ds ≠ []) :
    digitBytes (trimmed ds) = Numeral.digits 10 (value (ds.map Fin.val)) := by
  have hshortest : Numeral.digits 10 (value (ds.map Fin.val)) =
      write .lower (Nat.digitsAppend 10 1 (value (ds.map Fin.val))) := by
    simpa using padded_digits (by decide) (by decide) 0 (value (ds.map Fin.val))
  rw [hshortest, ← value_trimmed]
  rcases trimmed_cases h with hzero | ⟨d, es, hds, hd⟩
  · rw [hzero]
    rfl
  · rw [hds]
    -- the digit of greatest weight is not zero, so no digit can be left out
    have hdigits : Nat.digits 10 (value ((d :: es).map Fin.val)) =
        ((d :: es).map Fin.val).reverse := by
      rw [value_eq_ofDigits]
      refine Nat.digits_ofDigits 10 (by decide) _ ?_ ?_
      · intro n hn
        obtain ⟨e, -, rfl⟩ := List.mem_map.mp (List.mem_reverse.mp hn)
        exact e.isLt
      · intro hne
        rw [List.getLast_reverse]
        exact fun hzero => hd (Fin.ext hzero)
    have hne : value ((d :: es).map Fin.val) ≠ 0 := by
      rw [← Nat.digits_ne_nil_iff_ne_zero (b := 10), hdigits]
      simp
    rw [digitsAppend_one hne, hdigits, write, List.reverse_reverse, List.map_map]
    rfl

/-! ## Reading digits -/

/-- A digit of a literal is read as a digit. -/
theorem digit?_digitByte (d : Fin 10) :
    digit? (Char.ofUInt8 (digitByte .lower d)) = some d.val := by
  rw [← toUInt8_digitChar (by omega), ofUInt8_toUInt8_digitChar d.isLt, digit?_digitChar d.isLt]

/-- Nothing else is read as a digit. -/
theorem exists_eq_digitByte {b : UInt8} (h : (digit? (Char.ofUInt8 b)).isSome) :
    ∃ d : Fin 10, b = digitByte .lower d := by
  obtain ⟨low, high⟩ := toNat_le_of_digit? h
  have hb : (Char.ofUInt8 b).toNat = b.toNat := UInt8.toNat_toUInt32 b
  have hdigit : b.toNat - 48 < 10 := by omega
  have hbyte : 0x30 + (b.toNat - 48) = b.toNat := by omega
  refine ⟨⟨b.toNat - 48, hdigit⟩, ?_⟩
  rw [digitByte, if_pos hdigit, hbyte, UInt8.ofNat_toNat]

/-- Every byte string is some digits and a rest that begins with none. -/
theorem exists_eq_digitBytes_append (w : Bytes) :
    ∃ ds tail, w = digitBytes ds ++ tail ∧
      ∀ b ∈ tail.head?, digit? (Char.ofUInt8 b) = none := by
  induction w with
  | nil => exact ⟨[], [], rfl, nofun⟩
  | cons b bs ih =>
    by_cases hb : (digit? (Char.ofUInt8 b)).isSome
    · obtain ⟨d, rfl⟩ := exists_eq_digitByte hb
      obtain ⟨ds, tail, rfl, htail⟩ := ih
      exact ⟨d :: ds, tail, rfl, htail⟩
    · refine ⟨[], b :: bs, rfl, ?_⟩
      rintro _ ⟨⟩
      simpa using hb

section Digits

variable (o : Options) (s : State)

/-- A digit inside a literal appends to the number held, or is one too many. -/
theorem read_digitByte (held : Option Nat) (d : Fin 10) :
    Mode.read o (.number held) (digitByte .lower d) =
      if held.getD 0 * 10 + d ≤ greatest then .ok (.idle, .number (some (held.getD 0 * 10 + d)))
      else .error .malformedLiteral := by
  simp only [Mode.read, Mode.readNumber, digit?_digitByte, append?]
  split_ifs <;> rfl

/-- Digits within the limit are read, and their value is held. -/
theorem feed_digitBytes_cons (held : Option Nat) (d : Fin 10) (ds : List (Fin 10))
    (h : valueFrom (held.getD 0) ((d :: ds).map Fin.val) ≤ greatest) :
    Machine.feed o ⟨.number held, s⟩ (digitBytes (d :: ds)) =
      .ok ([], ⟨.number (some (valueFrom (held.getD 0) ((d :: ds).map Fin.val))), s⟩) := by
  induction ds generalizing held d with
  | nil =>
    have hread := (read_digitByte o held d).trans (if_pos h)
    exact feed_idle hread s []
  | cons e ds ih =>
    have hle : held.getD 0 * 10 + d ≤ greatest := (le_valueFrom _ ((e :: ds).map Fin.val)).trans h
    have hread := (read_digitByte o held d).trans (if_pos hle)
    exact (feed_idle hread s _).trans (ih (some (held.getD 0 * 10 + d)) e h)

/-- Digits beyond the limit are refused, at whichever of them the limit is passed. -/
theorem feed_digitBytes_of_lt (held : Option Nat) (hheld : held.getD 0 ≤ greatest)
    (ds : List (Fin 10)) (h : greatest < valueFrom (held.getD 0) (ds.map Fin.val)) :
    Machine.feed o ⟨.number held, s⟩ (digitBytes ds) = .error .malformedLiteral := by
  induction ds generalizing held with
  | nil => exact absurd hheld (not_le.mpr h)
  | cons d ds ih =>
    by_cases hle : held.getD 0 * 10 + d ≤ greatest
    · have hread := (read_digitByte o held d).trans (if_pos hle)
      exact (feed_idle hread s _).trans (ih (some (held.getD 0 * 10 + d)) hle h)
    · have hread := (read_digitByte o held d).trans (if_neg hle)
      exact feed_error hread s _

/-- Behind the digits, only a brace behind at least one of them is read. -/
theorem complete_number {held : Option Nat} {tail : Bytes}
    (hdigit : ∀ b ∈ tail.head?, digit? (Char.ofUInt8 b) = none)
    (hbrace : ∀ n rest, held = some n → tail ≠ 0x7d :: rest) :
    Machine.complete o ⟨.number held, s⟩ tail = .error .malformedLiteral := by
  cases tail with
  | nil => rfl
  | cons b rest =>
    have hread : Mode.read o (.number held) b = .error .malformedLiteral := by
      simp only [Mode.read, Mode.readNumber, hdigit b rfl]
      cases held with
      | none => rfl
      | some n =>
        refine if_neg fun hb => hbrace n rest rfl ?_
        rw [← toUInt8_ofUInt8 b, hb]
        rfl
    rw [Machine.complete, feed_error hread]
    rfl

end Digits

/-! ## Literals -/

namespace Literal

/-- The opening of a literal leads into it. -/
theorem feed_opening (o : Options) (s : State) :
    Machine.feed o ⟨.text, s⟩ opening = .ok ([], ⟨.number none, s⟩) :=
  feed_pair rfl rfl s

/-- The number of a literal as a 32-bit number. -/
def constant (l : Literal) : Int32 := Int32.ofNat l.number

/-- The constant of a literal is the number it writes. -/
theorem toInt_constant (l : Literal) : l.constant.toInt = l.number :=
  toInt_ofNat_of_le l.value_le

/-- A literal pushes its number. -/
theorem feed_literal (o : Options) (s : State) (l : Literal) :
    Machine.feed o ⟨.text, s⟩ (opening ++ l.text) =
      .ok ([], ⟨.text, s.push (.integer l.constant)⟩) := by
  obtain ⟨digits, hne, hle⟩ := l
  cases digits with
  | nil => exact absurd rfl hne
  | cons d ds =>
    rw [feed_append_of_silent (feed_opening o s), text,
      feed_append_of_silent (feed_digitBytes_cons o s none d ds hle)]
    have hbrace : Mode.read o (.number (some (value ((d :: ds).map Fin.val)))) 0x7d =
        .ok (.run (.constant (Int32.ofNat (value ((d :: ds).map Fin.val)))), .text) := rfl
    exact feed_run hbrace s

/-- Printed in decimal, a literal gives its digits without the zeros in front of them. -/
theorem exec_print (order : OperandOrder) (s : State) (l : Literal) :
    (Instruction.print {} .decimal).exec order (s.push (.integer l.constant)) =
      .ok (digitBytes (trimmed l.digits), s) := by
  have hsign : ¬l.constant < 0 := by
    rw [Int32.lt_iff_toInt_lt, toInt_constant]
    exact not_lt.mpr (Int.natCast_nonneg _)
  have hnumber : Format.number {} .decimal l.constant = digitBytes (trimmed l.digits) := by
    rw [digitBytes_trimmed l.digits_ne_nil]
    simp [Format.number, Format.signPart, Format.leastDigits, hsign, toInt_constant, number]
  have hprint : Format.print? {} .decimal (.integer l.constant) =
      some (digitBytes (trimmed l.digits)) := by
    simp [Format.print?, Format.core?, Format.fill, hnumber]
  simp only [Instruction.exec, State.push, State.pop, bind, Except.bind, hprint]
  rfl

end Literal

open Literal

/-- A byte string is read behind `%{`, from any state of an expansion. -/
structure ReadsLiteral (o : Options) (s : State) (w : Bytes) : Prop where
  /-- A literal pushes just the number of its digits.  Behind it the reader is in plain text, and
  goes on with the rest. -/
  accepted : ∀ (l : Literal) (rest : Bytes), w = l.text ++ rest →
    ∃ n : Int32, n.toInt = l.number ∧
      Machine.feed o ⟨.text, s⟩ (opening ++ l.text) = .ok ([], ⟨.text, s.push (.integer n)⟩) ∧
      Machine.complete o ⟨.text, s⟩ (opening ++ w) =
        Machine.complete o ⟨.text, s.push (.integer n)⟩ rest
  /-- Whatever does not begin with a literal is refused. -/
  refused : (∀ (l : Literal) (rest : Bytes), w ≠ l.text ++ rest) →
    Machine.complete o ⟨.text, s⟩ (opening ++ w) = .error .malformedLiteral
  /-- Printed at once, a literal gives its digits without the zeros in front of them. -/
  printed : ∀ l : Literal, w = l.text →
    Machine.feed o ⟨.text, s⟩ (opening ++ w ++ Bytes.ofAscii ['%', 'd']) =
      .ok (digitBytes (trimmed l.digits), ⟨.text, s⟩)

/-- An opened literal that no literal text continues is refused. -/
theorem complete_opening_of_ne {o : Options} {s : State} {w : Bytes}
    (h : ∀ (l : Literal) (rest : Bytes), w ≠ l.text ++ rest) :
    Machine.complete o ⟨.text, s⟩ (opening ++ w) = .error .malformedLiteral := by
  rw [complete_append_of_silent (feed_opening o s)]
  obtain ⟨ds, tail, rfl, htail⟩ := exists_eq_digitBytes_append w
  by_cases hle : value (ds.map Fin.val) ≤ greatest
  · cases ds with
    | nil => exact complete_number o s htail nofun
    | cons d ds =>
      rw [complete_append_of_silent (feed_digitBytes_cons o s none d ds hle)]
      refine complete_number o s htail fun n rest _ htail => ?_
      -- a brace here would make it a literal
      refine h ⟨d :: ds, List.cons_ne_nil d ds, hle⟩ rest ?_
      rw [htail, text, List.append_assoc]
      rfl
  · have hfeed := feed_digitBytes_of_lt o s none (Nat.zero_le _) ds (not_le.mp hle)
    rw [complete_append, hfeed]
    rfl

/-- Whatever stands behind `%{`, and from any state, the reader takes a literal and nothing else. -/
theorem readsLiteral (o : Options) (s : State) (w : Bytes) : ReadsLiteral o s w where
  accepted := by
    rintro l rest rfl
    have hfeed := l.feed_literal o s
    refine ⟨l.constant, l.toInt_constant, hfeed, ?_⟩
    rw [← List.append_assoc, complete_append_of_silent hfeed]
  refused := complete_opening_of_ne
  printed := by
    rintro l rfl
    rw [feed_append_of_silent (l.feed_literal o s)]
    have hread : Mode.read o .percent 0x64 = .ok (.run (.print {} .decimal), .text) := rfl
    show Machine.feed o ⟨.text, s.push (.integer l.constant)⟩ [0x25, 0x64] = _
    rw [feed_idle rfl, feed_run hread, l.exec_print]
    rfl

/-- The greatest number is read behind two zeros, and printed without them. -/
example : Machine.complete {} {} (Bytes.ofAscii
      ['%', '{', '0', '0', '2', '1', '4', '7', '4', '8', '3', '6', '4', '7', '}', '%', 'd']) =
    .ok (Bytes.ofAscii ['2', '1', '4', '7', '4', '8', '3', '6', '4', '7'], {}) := rfl

/-- The next number is refused. -/
example : Machine.complete {} {} (Bytes.ofAscii
      ['%', '{', '2', '1', '4', '7', '4', '8', '3', '6', '4', '8', '}']) =
    .error .malformedLiteral := rfl

end Terminal.Template
