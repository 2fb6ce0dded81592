import Terminal.Text.Bytes

/-!
# Entries

An `Entry` describes one terminal: its name, its description, and the capabilities that it has.
Each list of capabilities is in the order of the standard vocabulary and holds no name twice.
`Entry.sortedNumbers` and its companions list them by name instead.
-/

namespace Terminal

/-- The description of a terminal. -/
structure Entry where
  /-- The primary name. -/
  name : String
  /-- The name for human readers; it is empty if the entry has none. -/
  description : String
  /-- The boolean capabilities that the terminal has. -/
  booleans : List String
  /-- The numeric capabilities that the terminal has, with their values. -/
  numbers : List (String × UInt16)
  /-- The string capabilities that the terminal has, with their templates. -/
  strings : List (String × Bytes)
deriving DecidableEq, Repr

namespace Entry

/-! ## Capabilities by name -/

/-- Whether the terminal has a boolean capability. -/
def flag (e : Entry) (name : String) : Bool := e.booleans.contains name

/-- The value of a numeric capability. -/
def number? (e : Entry) (name : String) : Option UInt16 := e.numbers.lookup name

/-- The template of a string capability. -/
def string? (e : Entry) (name : String) : Option Bytes := e.strings.lookup name

/-! ## Capabilities in the order of their names -/

/-- Pairs in ascending order of their names. -/
def sortByName {α : Type} (pairs : List (String × α)) : List (String × α) :=
  pairs.mergeSort fun a b => a.1 ≤ b.1

/-- The boolean capabilities in ascending order. -/
def sortedBooleans (e : Entry) : List String := e.booleans.mergeSort fun a b => a ≤ b

/-- The numeric capabilities in ascending order of their names. -/
def sortedNumbers (e : Entry) : List (String × UInt16) := sortByName e.numbers

/-- The string capabilities in ascending order of their names. -/
def sortedStrings (e : Entry) : List (String × Bytes) := sortByName e.strings

end Entry

end Terminal
