import Terminal.Template.Value

/-!
# Formats

How a value is printed.  A `Conversion` chooses the notation, and a `Format` its sign, its marker,
the least number of digits and the least width.  `Format.ofSpec?` reads a format from its
specification, and `Format.print?` prints a value.
-/

namespace Terminal.Template

/-! ## Conversions -/

/-- The notation in which a value is printed. -/
inductive Conversion where
  | decimal
  | octal
  | lowerHex
  | upperHex
  | text
deriving DecidableEq, Repr

namespace Conversion

/-- The letter of a conversion. -/
def symbol : Conversion → Char
  | decimal => 'd'
  | octal => 'o'
  | lowerHex => 'x'
  | upperHex => 'X'
  | text => 's'

/-- The conversion of a letter. -/
def ofChar? : Char → Option Conversion
  | 'd' => some decimal
  | 'o' => some octal
  | 'x' => some lowerHex
  | 'X' => some upperHex
  | 's' => some text
  | _ => none

/-- A conversion is read back from its letter. -/
@[simp] theorem ofChar?_symbol (k : Conversion) : ofChar? k.symbol = some k := by
  cases k <;> rfl

end Conversion

/-! ## Specifications -/

/-- The form of a printed value. -/
structure Format where
  /-- The least number of bytes; spaces make up for what is missing. -/
  width : Nat := 0
  /-- The least number of digits of a number, or the greatest length of a text. -/
  precision : Option Nat := none
  /-- The base of an octal or hexadecimal numeral is marked. -/
  alternate : Bool := false
  /-- The spaces come after the value. -/
  left : Bool := false
  /-- A decimal number that is not negative has a plus. -/
  sign : Bool := false
  /-- A decimal number without a sign has a space in its place. -/
  space : Bool := false
deriving DecidableEq, Repr

namespace Format

/-- The part of a specification that the next character belongs to. -/
inductive Field where
  | flags
  | width
  | precision
deriving DecidableEq, Repr

/-- A specification that has been read up to some character. -/
structure Partial where
  format : Format := {}
  field : Field := .flags
deriving DecidableEq, Repr

/-- The greatest width and the greatest precision. -/
def limit : Nat := 65535

/-- Reads one character of a specification.  Flags count only before the first digit and the first
point; a character out of place has no effect.  A number above the limit is an error. -/
def Partial.read (p : Partial) (c : Char) : Option Partial :=
  match p.field, Numeral.digit? c with
  | .precision, some d =>
    (Numeral.append? limit (p.format.precision.getD 0) d).map fun n =>
      { p with format := { p.format with precision := some n } }
  | _, some d =>
    (Numeral.append? limit p.format.width d).map fun n =>
      { format := { p.format with width := n }, field := .width }
  | .flags, none =>
    match c with
    | '#' => some { p with format := { p.format with alternate := true } }
    | '-' => some { p with format := { p.format with left := true } }
    | '+' => some { p with format := { p.format with sign := true } }
    | ' ' => some { p with format := { p.format with space := true } }
    | '.' => some { p with field := .precision }
    | _ => some p
  | .width, none => some (if c = '.' then { p with field := .precision } else p)
  | .precision, none => some p

/-- The characters that a specification consists of. -/
def isSpec (c : Char) : Bool :=
  c == '+' || c == '-' || c == '#' || c == ' ' || c == '.' || (Numeral.digit? c).isSome

/-- The characters that can begin a specification without a colon before it.  A sign cannot: after
`%` it is an operator. -/
def isBareStart (c : Char) : Bool :=
  c == '#' || c == ' ' || c == '.' || (Numeral.digit? c).isSome

/-- The format of a specification, unless its width or its precision is too large. -/
def ofSpec? (spec : List Char) : Option Format :=
  (spec.foldlM Partial.read {}).map Partial.format

/-! ## Printing -/

/-- What stands before the digits of a decimal number. -/
def signPart (f : Format) (v : Int32) : Bytes :=
  if v < 0 then [0x2d] else if f.sign then [0x2b] else if f.space then [0x20] else []

/-- The least number of digits; it is none unless the format has a precision. -/
def leastDigits (f : Format) : Nat := f.precision.getD 0

/-- The marker of a base, in front of the digits of a number other than zero. -/
def baseMark (f : Format) (mark : List Char) (v : Int32) : Bytes :=
  if f.alternate ∧ v ≠ 0 then Bytes.ofAscii mark else []

/-- As much of a text as the precision allows. -/
def cut (f : Format) (text : Bytes) : Bytes :=
  match f.precision with
  | some n => text.take n
  | none => text

/-- A number in the notation of a conversion, without the spaces around it.  Octal and hexadecimal
numerals show the number modulo 2^32.  The marker of an octal numeral is a zero, which counts as one
of its digits.  As a text, a number is cut like any other. -/
def number (f : Format) (k : Conversion) (v : Int32) : Bytes :=
  match k with
  | .decimal => f.signPart v ++ Numeral.padded f.leastDigits (Numeral.digits 10 v.toInt.natAbs)
  | .octal =>
    let numeral := Numeral.digits 8 v.toUInt32.toNat
    if f.alternate then 0x30 :: Numeral.padded (f.leastDigits - 1) numeral
    else Numeral.padded f.leastDigits numeral
  | .lowerHex =>
    f.baseMark ['0', 'x'] v ++ Numeral.padded f.leastDigits (Numeral.digits 16 v.toUInt32.toNat)
  | .upperHex =>
    f.baseMark ['0', 'X'] v ++ Numeral.padded f.leastDigits (Numeral.upperDigits v.toUInt32.toNat)
  | .text => f.cut (Numeral.decimal v)

/-- Spaces that bring a printed value to the width. -/
def fill (f : Format) (core : Bytes) : Bytes :=
  let spaces := List.replicate (f.width - core.length) 0x20
  if f.left then core ++ spaces else spaces ++ core

/-- The value without the spaces around it.  A text can be printed as a text only. -/
def core? (f : Format) (k : Conversion) : Value → Option Bytes
  | .integer v => some (f.number k v)
  | .text bytes => if k = .text then some (f.cut bytes) else none

/-- The printed value, unless it is a text and the conversion is one for numbers. -/
def print? (f : Format) (k : Conversion) (v : Value) : Option Bytes :=
  (f.core? k v).map f.fill

example : print? { width := 6, precision := some 3, sign := true } .decimal (.integer 5) =
    some (Bytes.ofAscii [' ', ' ', '+', '0', '0', '5']) := by decide

example : print? { precision := some 3, alternate := true, left := true, width := 4 } .octal
    (.integer 8) = some (Bytes.ofAscii ['0', '1', '0', ' ']) := by decide

end Format

end Terminal.Template
