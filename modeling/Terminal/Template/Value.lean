import Terminal.Text.Numeral

/-!
# Values

What a template computes with: signed 32-bit numbers and texts.  Arguments and the stack hold both
kinds; variables hold numbers only.
-/

namespace Terminal.Template

/-- An argument of an expansion, or an entry of the stack. -/
inductive Value where
  | integer (v : Int32)
  | text (bytes : Bytes)
deriving DecidableEq, Repr

namespace Value

/-- A value written out in full: a number in decimal, a text as it is. -/
def written : Value → Bytes
  | integer v => Numeral.decimal v
  | text bytes => bytes

/-- The number one or zero for a truth value. -/
def ofBool (b : Bool) : Value := integer (if b then 1 else 0)

end Value

end Terminal.Template
