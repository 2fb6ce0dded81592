/-!
# Variables

Fifty-two variables hold one number each.  Those named by upper-case letters are static and can
outlive an expansion; those named by lower-case letters are dynamic and cannot.
-/

namespace Terminal.Template

/-- The values of the twenty-six variables of one kind. -/
abbrev Bank := Vector Int32 26

/-- The bank in which every variable is zero. -/
def Bank.zero : Bank := Vector.replicate 26 0

/-- The value of the variable with a given place in the alphabet. -/
def Bank.value (bank : Bank) (letter : Fin 26) : Int32 := bank[letter]

/-- A variable, by its kind and the place of its letter in the alphabet. -/
inductive Variable where
  | static (letter : Fin 26)
  | dynamic (letter : Fin 26)
deriving DecidableEq, Repr

namespace Variable

/-- The variable that a letter names. -/
def ofChar? (c : Char) : Option Variable :=
  if upper : 65 ≤ c.toNat ∧ c.toNat < 91 then some (static ⟨c.toNat - 65, by omega⟩)
  else if lower : 97 ≤ c.toNat ∧ c.toNat < 123 then some (dynamic ⟨c.toNat - 97, by omega⟩)
  else none

/-- The letter that names a variable. -/
def symbol : Variable → Char
  | static i => Char.ofNat (65 + i)
  | dynamic i => Char.ofNat (97 + i)

/-- A variable is read back from its letter. -/
theorem ofChar?_symbol (v : Variable) : ofChar? v.symbol = some v := by
  cases v with
  | static i => revert i; decide
  | dynamic i => revert i; decide

end Variable

/-- The values of all variables. -/
structure Variables where
  statics : Bank := Bank.zero
  dynamics : Bank := Bank.zero
deriving DecidableEq

namespace Variables

/-- The value of a variable. -/
def get (vs : Variables) : Variable → Int32
  | .static i => vs.statics.value i
  | .dynamic i => vs.dynamics.value i

/-- Gives a variable a new value and leaves all others as they are. -/
def set (vs : Variables) (v : Variable) (n : Int32) : Variables :=
  match v with
  | .static i => { vs with statics := vs.statics.set i n }
  | .dynamic i => { vs with dynamics := vs.dynamics.set i n }

/-- A stored variable holds what was stored. -/
@[simp] theorem get_set_self (vs : Variables) (v : Variable) (n : Int32) :
    (vs.set v n).get v = n := by
  cases v <;> simp [get, set, Bank.value]

/-- Storing one variable leaves every other one as it is. -/
theorem get_set_of_ne (vs : Variables) {v w : Variable} (n : Int32) (h : v ≠ w) :
    (vs.set v n).get w = vs.get w := by
  cases v <;> cases w <;> simp_all [get, set, Bank.value, Fin.ext_iff]

end Variables

end Terminal.Template
