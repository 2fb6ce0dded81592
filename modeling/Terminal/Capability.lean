import Terminal.Capability.Names

/-!
# Capabilities

The standard vocabulary: three kinds of capabilities, each with its list of names.  A name stands
for its position in the list of its kind.  The kinds are looked up independently; one name, `OTbs`,
belongs to two of them.
-/

namespace Terminal.Capability

/-- What a capability holds. -/
inductive Kind where
  | boolean
  | number
  | string
deriving DecidableEq, Repr

/-- The names of a kind of capability, by position. -/
def Kind.names : Kind → List String
  | .boolean => booleanNames
  | .number => numberNames
  | .string => stringNames

/-- The kinds in the order of their sections. -/
def Kind.all : List Kind := [.boolean, .number, .string]

/-- The position of a capability among those of its kind, if the vocabulary has it. -/
def position? (kind : Kind) (name : String) : Option Nat := kind.names.idxOf? name

/-- The kind of a capability.  A name of several kinds counts as the one whose section comes
first. -/
def kindOf? (name : String) : Option Kind :=
  Kind.all.find? fun kind => (position? kind name).isSome

end Terminal.Capability
