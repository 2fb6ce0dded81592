import Terminal.Halt

/-!
# Errors of compiled entries

Bytes that are not a compiled entry are refused with an `Error`.  A reader that takes bytes from
where there are none ends in a `Fault` instead.
-/

namespace Terminal.Entry

/-- Why bytes are not a compiled entry. -/
inductive Error where
  | unknownMagic
  | tooManyCapabilities
  | emptyName
  /-- A section, or a text, reaches past the end. -/
  | truncated
deriving DecidableEq, Repr

/-- The error in words. -/
def Error.message : Error → String
  | unknownMagic => "Invalid terminfo format: unknown magic number"
  | tooManyCapabilities => "Invalid terminfo format: more capabilities than known names"
  | emptyName => "Invalid terminfo format: empty terminal name"
  | truncated => "Truncated terminfo data"

instance : ToString Error where
  toString := Error.message

/-- Why a reader stops in the middle of its work. -/
inductive Fault where
  /-- A range of bytes is taken, and it does not lie within the bytes. -/
  | range
deriving DecidableEq, Repr

/-- The result of reading. -/
abbrev Reading (α : Type) := Except (Halt Error Fault) α

end Terminal.Entry
