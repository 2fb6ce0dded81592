import Terminal.Text.Bytes

/-!
# Numerals

Writing and reading of numbers in positional notation.  `digits` writes the shortest numeral of a
natural number, `padded` brings a numeral to a least length by zeros in front, and `decimal` writes
a signed number.  `append?` reads one more decimal digit under an upper limit; `integer?` reads a
whole signed 32-bit number.
-/

namespace Terminal.Numeral

/-! ## Writing -/

/-- The shortest numeral of `n` in a base of at most sixteen, with lower-case letters. -/
def digits (base n : Nat) : Bytes := Bytes.ofAscii (Nat.toDigits base n)

/-- The shortest numeral of `n` in base sixteen, with upper-case letters. -/
def upperDigits (n : Nat) : Bytes := Bytes.ofAscii ((Nat.toDigits 16 n).map Char.toUpper)

/-- A numeral with zeros in front of it, so that it has at least `count` digits. -/
def padded (count : Nat) (numeral : Bytes) : Bytes :=
  List.replicate (count - numeral.length) 0x30 ++ numeral

/-- The shortest decimal numeral of a signed number, behind a minus if it is negative. -/
def decimal (v : Int32) : Bytes :=
  if v < 0 then 0x2d :: digits 10 v.toInt.natAbs else digits 10 v.toInt.natAbs

/-- Padding brings a numeral up to the count and never cuts it. -/
@[simp] theorem length_padded (count : Nat) (numeral : Bytes) :
    (padded count numeral).length = max count numeral.length := by
  simp only [padded, List.length_append, List.length_replicate]
  omega

@[simp] theorem padded_zero (numeral : Bytes) : padded 0 numeral = numeral := by
  simp [padded]

/-! ## Reading -/

/-- The value of a decimal digit. -/
def digit? (c : Char) : Option Nat :=
  if '0' ≤ c ∧ c ≤ '9' then some (c.toNat - 48) else none

/-- The number whose numeral is that of `value` followed by the digit `d`, unless it is above
`limit`. -/
def append? (limit value d : Nat) : Option Nat :=
  if value * 10 + d ≤ limit then some (value * 10 + d) else none

/-- The value of a numeral that consists of decimal digits only, unless it is above `limit`.
Zeros in front are allowed; no digit at all is not. -/
def natural? (limit : Nat) : List Char → Option Nat
  | [] => none
  | cs => cs.foldlM (fun value c => (digit? c).bind (append? limit value)) 0

/-- The greatest signed 32-bit number. -/
def greatest : Nat := 2147483647

/-- The value of a decimal numeral, with one sign in front of it or none, in the signed 32-bit
range. -/
def integer? : List Char → Option Int32
  | '-' :: cs => (natural? (greatest + 1) cs).map fun n => Int32.ofInt (-n)
  | '+' :: cs => (natural? greatest cs).map Int32.ofNat
  | cs => (natural? greatest cs).map Int32.ofNat

end Terminal.Numeral
