import Terminal.Proofs.Template.Specification
import Terminal.Proofs.Template.Spelling

/-!
# Formats and `printf`

Where letters end formats, a format should print a number as `printf` of the C library does.
`Specification.print` states the rules of `printf` for integers, without the flag `0`: the precision
is the least number of digits and one if it is absent, and for octal numbers the flag `#` makes it
greater if that is what it takes to have a zero in front.  `agrees_iff` says for which numbers the two
agree: all but zero as an octal number with `#` and no precision above one.  Its only digit is a zero
already, but a format prints another one in front of it.
-/

namespace Terminal.Printf

open Numeral Template

/-! ## The rules of `printf` -/

/-- A flag other than `0`. -/
inductive Flag where
  | left
  | plus
  | space
  | alternate
deriving DecidableEq

/-- The character of a flag. -/
def Flag.symbol : Flag → Char
  | left => '-'
  | plus => '+'
  | space => ' '
  | alternate => '#'

/-- The character of a decimal digit. -/
def digitSymbol (d : Fin 10) : Char := Nat.digitChar d

/-- The number with some decimal digits. -/
def number (ds : List (Fin 10)) : Nat := value (ds.map Fin.val)

/-- A conversion specification for an integer. -/
structure Specification where
  flags : List Flag
  /-- The digits of the least number of bytes, if there are any. -/
  width : List (Fin 10)
  /-- The digits of the least number of digits. -/
  precision : Option (List (Fin 10))
  conversion : Conversion
  /-- A zero in front of the width is the flag `0`. -/
  width_ne_zero : width.head? ≠ some 0
  precision_pos : ∀ ds ∈ precision, 0 < number ds
  precision_lt : ∀ ds ∈ precision, number ds < 65535
  conversion_ne_text : conversion ≠ .text
  /-- Decimal numbers have no alternative form. -/
  alternate_ne_decimal : Flag.alternate ∈ flags → conversion ≠ .decimal

namespace Specification

variable (p : Specification) (v : Int32)

/-- The characters between the `%` and the letter. -/
def text : List Char :=
  p.flags.map Flag.symbol ++ p.width.map digitSymbol ++
    Format.pointText (p.precision.map (List.map digitSymbol))

/-- The least number of digits. -/
def least : Nat := (p.precision.map number).getD 1

/-- What stands in front of the digits. -/
def front : Bytes :=
  match p.conversion with
  | .decimal =>
    if v < 0 then [0x2d]
    else if Flag.plus ∈ p.flags then [0x2b]
    else if Flag.space ∈ p.flags then [0x20]
    else []
  | .lowerHex => if Flag.alternate ∈ p.flags ∧ v ≠ 0 then [0x30, 0x78] else []
  | .upperHex => if Flag.alternate ∈ p.flags ∧ v ≠ 0 then [0x30, 0x58] else []
  | .octal | .text => []

/-- The digits of an octal number.  More of them are asked for if the first would be no zero. -/
def octalDigits (n : Nat) : Bytes :=
  let ds := write .lower (Nat.digitsAppend 8 p.least n)
  if Flag.alternate ∈ p.flags ∧ ds.head? ≠ some 0x30 then
    write .lower (Nat.digitsAppend 8 (ds.length + 1) n)
  else ds

/-- The digits of a number. -/
def digits : Bytes :=
  match p.conversion with
  | .decimal | .text => write .lower (Nat.digitsAppend 10 p.least v.toInt.natAbs)
  | .octal => p.octalDigits v.toUInt32.toNat
  | .lowerHex => write .lower (Nat.digitsAppend 16 p.least v.toUInt32.toNat)
  | .upperHex => write .upper (Nat.digitsAppend 16 p.least v.toUInt32.toNat)

/-- The bytes that `printf` emits. -/
def print : Bytes :=
  let field := p.front v ++ p.digits v
  let spaces := List.replicate (number p.width - field.length) 0x20
  if Flag.left ∈ p.flags then field ++ spaces else spaces ++ field

/-! ## The format of a specification -/

/-- The format that is read from a specification. -/
def format : Format where
  width := number p.width
  precision := p.precision.map number
  alternate := decide (Flag.alternate ∈ p.flags)
  left := decide (Flag.left ∈ p.flags)
  sign := decide (Flag.plus ∈ p.flags)
  space := decide (Flag.space ∈ p.flags)

end Specification

/-- No flag is a digit. -/
theorem digit?_symbol (flag : Flag) : digit? flag.symbol = none := by
  cases flag <;> decide

/-- A digit symbol reads as its digit. -/
theorem digit?_digitSymbol (d : Fin 10) : digit? (digitSymbol d) = some d.val :=
  digit?_digitChar d.isLt

/-- A string of digit symbols reads as its digits. -/
theorem digitsOf_map_digitSymbol (ds : List (Fin 10)) :
    digitsOf (ds.map digitSymbol) = ds.map Fin.val := by
  induction ds with
  | nil => rfl
  | cons d ds ih =>
    rw [List.map_cons, digitsOf, List.filterMap_cons_some (digit?_digitSymbol d), ← digitsOf, ih,
      List.map_cons]

/-- A string of digit symbols has the value of its digits. -/
theorem value_digitsOf (ds : List (Fin 10)) : value (digitsOf (ds.map digitSymbol)) = number ds := by
  rw [digitsOf_map_digitSymbol, number]

/-- No digit symbol is the point. -/
theorem point_notMem_map_digitSymbol (ds : List (Fin 10)) : '.' ∉ ds.map digitSymbol := by
  intro hmem
  obtain ⟨d, -, hd⟩ := List.mem_map.mp hmem
  have hdigit := digit?_digitSymbol d
  rw [hd] at hdigit
  exact absurd hdigit (by simp [digit?])

/-- A flag stands in the text exactly when it is one of the flags. -/
theorem contains_map_symbol (flags : List Flag) (flag : Flag) :
    (flags.map Flag.symbol).contains flag.symbol = decide (flag ∈ flags) := by
  have hinj : Function.Injective Flag.symbol := by
    intro a b h
    cases a <;> cases b <;> first | rfl | exact absurd h (by decide)
  simp [List.mem_map_of_injective hinj]

/-- The format that a list of flags gives, field by field. -/
theorem withFlags_map_symbol (flags : List Flag) :
    ({} : Format).withFlags (flags.map Flag.symbol) =
      { alternate := decide (Flag.alternate ∈ flags)
        left := decide (Flag.left ∈ flags)
        sign := decide (Flag.plus ∈ flags)
        space := decide (Flag.space ∈ flags) } := by
  simp only [Format.withFlags, Bool.false_or, ← contains_map_symbol, Flag.symbol]

namespace Specification

variable (p : Specification) (v : Int32)

/-- The digits of a precision are some, since its number is not zero. -/
theorem bind_precisionOf :
    (p.precision.map (List.map digitSymbol)).bind Format.precisionOf = p.precision.map number := by
  cases hp : p.precision with
  | none => rfl
  | some ds =>
    have hne : ds ≠ [] := by
      rintro rfl
      exact absurd (p.precision_pos [] hp) (by decide)
    simp [Format.precisionOf, digitsOf_map_digitSymbol, hne, number]

/-- A specification is read as its format unless its width is above the limit. -/
theorem ofSpec?_text :
    Format.ofSpec? p.text = if number p.width ≤ Format.limit then some p.format else none := by
  -- What the grammar asks of its three parts holds of the symbols written for them.
  have hflags : ∀ c ∈ p.flags.map Flag.symbol, digit? c = none ∧ c ≠ '.' := by
    intro c hc
    obtain ⟨flag, -, rfl⟩ := List.mem_map.mp hc
    refine ⟨digit?_symbol flag, ?_⟩
    cases flag <;> decide
  have hfirst : ∀ c ∈ (p.width.map digitSymbol).head?, (digit? c).isSome := by
    intro c hc
    rw [List.head?_map] at hc
    obtain ⟨d, -, rfl⟩ := Option.mem_map.mp hc
    rw [digit?_digitSymbol, Option.isSome_some]
  have hprecision : ∀ cs ∈ p.precision.map (List.map digitSymbol),
      value (digitsOf cs) ≤ Format.limit := by
    intro cs hcs
    obtain ⟨ds, hds, rfl⟩ := Option.mem_map.mp hcs
    rw [value_digitsOf]
    exact (p.precision_lt ds hds).le
  rw [text, Format.ofSpec?_append _ hflags (point_notMem_map_digitSymbol p.width) hfirst,
    value_digitsOf, withFlags_map_symbol, bind_precisionOf]
  exact if_congr (and_iff_left hprecision) rfl rfl

/-- At least one digit is always asked for: a precision that is written is not zero. -/
theorem one_le_least : 1 ≤ p.least := by
  rw [least]
  cases hp : p.precision with
  | none => exact le_rfl
  | some ds => exact p.precision_pos ds hp

/-- Without a precision a format asks for no digits, and there is one all the same. -/
theorem max_leastDigits : max p.format.leastDigits 1 = p.least := by
  have hle := p.one_le_least
  rw [least] at hle ⊢
  rw [Format.leastDigits, format]
  cases hp : p.precision with
  | none => rfl
  | some ds =>
    rw [hp] at hle
    exact max_eq_left hle

/-- The digits of an octal number, with the precision that puts a zero in front. -/
theorem octalDigits_of_alternate (h : Flag.alternate ∈ p.flags) (n : Nat) :
    p.octalDigits n =
      write .lower (Nat.digitsAppend 8 (max p.least ((Nat.digits 8 n).length + 1)) n) := by
  have hhead := head?_write_digitsAppend (show 1 < 8 by decide) (by decide) .lower p.least n
  rw [octalDigits]
  by_cases hlt : (Nat.digits 8 n).length < p.least
  · rw [if_neg (by simp [hhead.mpr hlt]), max_eq_left hlt]
  · have hlength : (write .lower (Nat.digitsAppend 8 p.least n)).length =
        (Nat.digits 8 n).length := by
      rw [length_write, Nat.digitsAppend, List.length_append, List.length_replicate]
      omega
    rw [if_pos ⟨h, fun hzero => hlt (hhead.mp hzero)⟩, hlength, max_eq_right (by omega)]

/-- The one number with a zero too many: zero as an octal number of one digit. -/
def IsDoubled : Prop :=
  p.conversion = .octal ∧ Flag.alternate ∈ p.flags ∧ p.least = 1 ∧ v = 0

instance : Decidable (p.IsDoubled v) := inferInstanceAs (Decidable (_ ∧ _ ∧ _ ∧ _))

/-- Only zero has no digits. -/
theorem length_digits_eq_zero_iff {w : Int32} :
    (Nat.digits 8 w.toUInt32.toNat).length = 0 ↔ w = 0 := by
  rw [List.length_eq_zero_iff, Nat.digits_eq_nil_iff_eq_zero]
  exact toNat_toUInt32_inj (w := 0)

/-- For `d`, the sign written is the one that stands in front. -/
theorem signPart_format (h : p.conversion = .decimal) : p.format.signPart v = p.front v := by
  simp only [Format.signPart, format, front, h, decide_eq_true_eq]

/-- The mark of a base is written under the `#` flag, and never for zero. -/
theorem baseMark_format (mark : List Char) : p.format.baseMark mark v =
    if Flag.alternate ∈ p.flags ∧ v ≠ 0 then Bytes.ofAscii mark else [] := by
  simp only [Format.baseMark, format, decide_eq_true_eq]

/-- The digits written are the expansion brought to the least count. -/
theorem padded_digits_format {base : Nat} (hbase : 1 < base) (hle : base ≤ 16) (n : Nat) :
    padded p.format.leastDigits (Numeral.digits base n) =
      write .lower (Nat.digitsAppend base p.least n) := by
  rw [padded_digits hbase hle, max_leastDigits]

/-- An octal number in its format has the digits of `printf`, but for the zero too many. -/
theorem number_octal (h : p.conversion = .octal) : p.format.number .octal v =
    if p.IsDoubled v then 0x30 :: p.digits v else p.digits v := by
  have hdigits : p.digits v = p.octalDigits v.toUInt32.toNat := by
    simp only [digits, h]
  rw [hdigits, Format.number]
  by_cases halternate : Flag.alternate ∈ p.flags
  · rw [if_pos (by simp [format, halternate]), padded_digits (by decide) (by decide),
      zero_cons_write_digitsAppend, octalDigits_of_alternate p halternate]
    have hleast := p.max_leastDigits
    split_ifs with hdoubled
    · -- a zero in front, and one digit because there has to be one
      obtain ⟨-, -, hone, hv⟩ := hdoubled
      have hlength := length_digits_eq_zero_iff.mpr hv
      rw [zero_cons_write_digitsAppend]
      congr 2
      omega
    · have hsome : p.least = 1 → (Nat.digits 8 v.toUInt32.toNat).length ≠ 0 := by
        intro hone hlength
        exact hdoubled ⟨h, halternate, hone, length_digits_eq_zero_iff.mp hlength⟩
      congr 2
      omega
  · rw [if_neg (by simp [format, halternate]), if_neg fun h => halternate h.2.1,
      padded_digits_format p (by decide) (by decide), octalDigits, if_neg fun h => halternate h.1]

/-- A number in its format is the field of `printf`, but for the zero too many. -/
theorem number_format : p.format.number p.conversion v =
    if p.IsDoubled v then 0x30 :: p.digits v else p.front v ++ p.digits v := by
  -- Only for octal can the mark and the digits both be a zero.
  cases h : p.conversion with
  | octal =>
    have hfront : p.front v = [] := by simp only [front, h]
    rw [number_octal p v h, hfront, List.nil_append]
  | text => exact absurd h p.conversion_ne_text
  | decimal =>
    rw [if_neg (by simp [IsDoubled, h]), Format.number, signPart_format p v h,
      padded_digits_format p (by decide) (by decide)]
    simp only [digits, h]
  | lowerHex =>
    rw [if_neg (by simp [IsDoubled, h]), Format.number, baseMark_format,
      padded_digits_format p (by decide) (by decide)]
    simp only [front, digits, h]
    rfl
  | upperHex =>
    rw [if_neg (by simp [IsDoubled, h]), Format.number, baseMark_format, padded_upperDigits,
      max_leastDigits]
    simp only [front, digits, h]
    rfl

/-! ## Agreement -/

/-- The same spaces are put around the same field. -/
theorem fill_format : p.format.fill (p.front v ++ p.digits v) = p.print v := by
  simp only [Format.fill, print, format, decide_eq_true_eq]

/-- One zero more shows, whatever spaces are put around it. -/
theorem fill_zero_cons_ne (f : Format) (core : Bytes) : f.fill (0x30 :: core) ≠ f.fill core := by
  intro h
  have hcount (core : Bytes) : (f.fill core).count 0x30 = core.count 0x30 := by
    unfold Format.fill
    split_ifs <;> simp [List.count_replicate]
  have hzeros := congrArg (List.count 0x30) h
  rw [hcount, hcount, List.count_cons_self] at hzeros
  omega

/-- Where letters end formats, a specification prints a number as `printf` does, however it is
spelled and whatever the state of the reader is. -/
def Agrees (o : Options) : Prop :=
  ∀ spelling : Spelling, spelling.isValid .conversion = true → spelling.spec = p.text →
    ∀ s : State,
      Machine.feed (o.ending .conversion) ⟨.text, s.push (.integer v)⟩
        (Bytes.ofAscii ('%' :: spelling.text .conversion p.conversion)) =
          .ok (p.print v, ⟨.text, s⟩)

/-- The text of a specification is made of characters that a format may hold. -/
theorem all_isSpec_text : p.text.all Format.isSpec = true := by
  have hdigit (ds : List (Fin 10)) : (ds.map digitSymbol).all Format.isSpec = true := by
    simp [Format.isSpec, digit?_digitSymbol]
  have hflags : (p.flags.map Flag.symbol).all Format.isSpec = true := by
    refine List.all_eq_true.mpr fun c hc => ?_
    obtain ⟨flag, -, rfl⟩ := List.mem_map.mp hc
    cases flag <;> decide
  have hpoint : (Format.pointText (p.precision.map (List.map digitSymbol))).all Format.isSpec =
      true := by
    cases p.precision with
    | none => rfl
    | some ds => exact hdigit ds
  rw [text, List.all_append, List.all_append, hflags, hdigit, hpoint]
  rfl

/-- What a reader does with a specification, in any spelling. -/
theorem feed_spelling (o : Options) (spelling : Spelling)
    (hvalid : spelling.isValid .conversion = true) (hspec : spelling.spec = p.text) (s : State) :
    Machine.feed (o.ending .conversion) ⟨.text, s.push (.integer v)⟩
        (Bytes.ofAscii ('%' :: spelling.text .conversion p.conversion)) =
      if number p.width ≤ Format.limit then
        .ok (p.format.fill (p.format.number p.conversion v), ⟨.text, s⟩)
      else .error .malformedLiteral := by
  have hvalid : spelling.isValid (o.ending .conversion).formatEnd = true := hvalid
  refine (implements_format hvalid p.conversion _).trans ?_
  rw [Directive.eval, Directive.instruction?, hspec, ofSpec?_text]
  split_ifs <;> rfl

/-- A format agrees with `printf` if its width is within the limit and it does not double a zero. -/
theorem agrees_iff (o : Options) :
    p.Agrees v o ↔ number p.width ≤ Format.limit ∧ ¬p.IsDoubled v := by
  constructor
  · intro h
    have hcolon := p.feed_spelling v o (.colon p.text) p.all_isSpec_text rfl {}
    rw [h (.colon p.text) p.all_isSpec_text rfl {}] at hcolon
    by_cases hlimit : number p.width ≤ Format.limit
    · refine ⟨hlimit, fun hdoubled => ?_⟩
      have hfront : p.front v = [] := by simp only [front, hdoubled.1]
      rw [if_pos hlimit, number_format, if_pos hdoubled, ← fill_format, hfront,
        List.nil_append] at hcolon
      have hfill := congrArg Prod.fst (Except.ok.inj hcolon)
      exact fill_zero_cons_ne _ _ hfill.symm
    · rw [if_neg hlimit] at hcolon
      cases hcolon
  · rintro ⟨hlimit, hdoubled⟩ spelling hvalid hspec s
    rw [p.feed_spelling v o spelling hvalid hspec, if_pos hlimit, number_format, if_neg hdoubled,
      fill_format]

end Specification

/-- `%#o` -/
def markedOctal : Specification where
  flags := [.alternate]
  width := []
  precision := none
  conversion := .octal
  width_ne_zero := nofun
  precision_pos := nofun
  precision_lt := nofun
  conversion_ne_text := nofun
  alternate_ne_decimal := nofun

/-- Zero has two digits in this format, and `printf` writes one. -/
theorem not_agrees_markedOctal :
    Machine.feed (({} : Options).ending .conversion) ⟨.text, ({} : State).push (.integer 0)⟩
        (Bytes.ofAscii ['%', '#', 'o']) = .ok ([0x30, 0x30], ⟨.text, {}⟩) ∧
      markedOctal.print 0 = [0x30] ∧ ¬markedOctal.Agrees 0 {} := by
  have hprint : markedOctal.print 0 = [0x30] := by decide
  refine ⟨rfl, hprint, fun h => ?_⟩
  have hbare := h (.bare ['#']) rfl rfl {}
  rw [hprint] at hbare
  exact absurd hbare (by decide)

end Terminal.Printf
