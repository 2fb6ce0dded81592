import Terminal.Text.Visibility

/-!
# Quoted text

A text or a character between quotes, with escapes for what a reader could not see or could take
for the closing quote.  Diagnostics and the report of an expansion use this form.
-/

namespace Terminal.Quoted

/-- An escape by number: the lower-case hexadecimal digits of the character in braces. -/
def byNumber (c : Char) : List Char :=
  ['\\', 'u', '\x7b'] ++ Nat.toDigits 16 c.toNat ++ ['\x7d']

/-- One character of a quoted text whose closing mark is `mark`.  The other kind of quotation mark
needs no escape. -/
def escape (mark c : Char) : List Char :=
  if c = '\x00' then ['\\', '0']
  else if c = '\t' then ['\\', 't']
  else if c = '\n' then ['\\', 'n']
  else if c = '\r' then ['\\', 'r']
  else if c = '\\' ∨ c = mark then ['\\', c]
  else if isExtending c || isIgnorable c || isUnprintable c then byNumber c
  else [c]

/-- A text in double quotation marks. -/
def string (s : String) : String :=
  String.ofList ('"' :: s.toList.flatMap (escape '"') ++ ['"'])

/-- A character in single quotation marks. -/
def char (c : Char) : String :=
  String.ofList ('\x27' :: escape '\x27' c ++ ['\x27'])

example : string "a\t\"'" = "\"a\\t\\\"'\"" := by decide +kernel

end Terminal.Quoted
