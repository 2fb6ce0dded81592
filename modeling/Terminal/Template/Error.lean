/-!
# Errors of an expansion

Every way in which the expansion of a template can fail.  An operator is named by the character
after its `%`.
-/

namespace Terminal.Template

/-- Why a template has no expansion. -/
inductive Error where
  /-- The terminal has no string capability of this name. -/
  | unsupportedCapability (name : String)
  /-- The operator takes more values than the stack holds. -/
  | stackUnderflow (operator : Char)
  /-- There is no argument of this number, or the template ends before the number. -/
  | missingArgument (digit : Option Char)
  /-- A literal or the numbers of a format are not well formed. -/
  | malformedLiteral
  /-- No variable has this name, or the template ends before the name. -/
  | invalidVariableName (name : Option Char)
  /-- The operator takes a number and finds a text. -/
  | typeMismatch (operator : Char)
  /-- The language has no such directive. -/
  | unrecognizedDirective (directive : Char)
deriving DecidableEq, Repr

namespace Error

/-- A character of the template, or the place after the last one. -/
def place : Option Char → String
  | some c => String.singleton c
  | none => "end of template"

/-- The error in words. -/
def message : Error → String
  | unsupportedCapability name => "Capability " ++ name ++ " is not supported by the terminal"
  | stackUnderflow c => "Not enough stack elements for operator " ++ String.singleton c
  | missingArgument c => "No argument for parameter " ++ place c
  | malformedLiteral => "Malformed literal"
  | invalidVariableName c => "Invalid variable name: " ++ place c
  | typeMismatch c => "Parameter type not expected by operator " ++ String.singleton c
  | unrecognizedDirective c => "Unrecognized directive: " ++ String.singleton c

instance : ToString Error where
  toString := message

end Error

end Terminal.Template
