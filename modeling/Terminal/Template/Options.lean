/-!
# Options of an expansion

Where implementations of the template language disagree, the reader of templates takes an option.
The first alternative of each option is its default.
-/

namespace Terminal.Template

/-- What ends a format that `%:` begins. -/
inductive FormatEnd where
  /-- The next `%` ends it; a conversion letter before it only selects the conversion. -/
  | percent
  /-- The conversion letter ends it, and a format may also follow its `%` without a colon. -/
  | conversion
deriving DecidableEq, Repr

/-- How long the static variables live. -/
inductive Lifetime where
  /-- They are zero at the start of every expansion. -/
  | expansion
  /-- A context keeps them from one successful expansion to the next. -/
  | context
deriving DecidableEq, Repr

/-- What becomes of a directive that the language does not have. -/
inductive Unknown where
  | ignore
  | reject
deriving DecidableEq, Repr

/-- Which operand of a binary arithmetic operator stands on the left. -/
inductive OperandOrder where
  /-- The one popped first, so the one pushed last. -/
  | lastPushed
  /-- The one pushed first, as in ordinary postfix notation. -/
  | firstPushed
deriving DecidableEq, Repr

/-- What becomes of a padding specification, which is a text between `$<` and `>`. -/
inductive Padding where
  /-- It is copied like any other text. -/
  | emit
  /-- It is left out. -/
  | strip
deriving DecidableEq, Repr

/-- The options of an expansion. -/
structure Options where
  formatEnd : FormatEnd := .percent
  statics : Lifetime := .expansion
  unknown : Unknown := .ignore
  operands : OperandOrder := .lastPushed
  padding : Padding := .emit
deriving DecidableEq, Repr

end Terminal.Template
