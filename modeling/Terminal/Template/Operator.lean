import Terminal.Template.Value

/-!
# Binary operators

The operators on two numbers: `Arithmetic`, whose operand order is an option of the expansion, and
`Comparison`, whose operands always stand in the order in which they were pushed.  Sums, differences
and products wrap around.  A quotient that does not exist or does not fit 32 bits is zero.
-/

namespace Terminal.Template

/-! ## Arithmetic -/

/-- An operator that yields a number. -/
inductive Arithmetic where
  | add
  | sub
  | mul
  | div
  | mod
  | and
  | or
  | xor
deriving DecidableEq, Repr

namespace Arithmetic

/-- The character that names the operator. -/
def symbol : Arithmetic → Char
  | add => '+'
  | sub => '-'
  | mul => '*'
  | div => '/'
  | mod => 'm'
  | and => '&'
  | or => '|'
  | xor => '^'

/-- The operator that a character names. -/
def ofChar? : Char → Option Arithmetic
  | '+' => some add
  | '-' => some sub
  | '*' => some mul
  | '/' => some div
  | 'm' => some mod
  | '&' => some and
  | '|' => some or
  | '^' => some xor
  | _ => none

@[simp] theorem ofChar?_symbol (op : Arithmetic) : ofChar? op.symbol = some op := by
  cases op <;> rfl

/-- Whether the quotient of two numbers exists and fits 32 bits. -/
def divides (x y : Int32) : Bool := y ≠ 0 && (x ≠ Int32.minValue || y ≠ -1)

/-- The result for the left operand `x` and the right operand `y`.  Division goes toward zero, and
a remainder has the sign of `x`. -/
def eval (op : Arithmetic) (x y : Int32) : Int32 :=
  match op with
  | add => x + y
  | sub => x - y
  | mul => x * y
  | div => if divides x y then x / y else 0
  | mod => if divides x y then x % y else 0
  | and => x &&& y
  | or => x ||| y
  | xor => x ^^^ y

example : div.eval (-7) 2 = -3 ∧ mod.eval (-7) 2 = -1 := by decide

example : div.eval Int32.minValue (-1) = 0 ∧ div.eval 1 0 = 0 := by decide

end Arithmetic

/-! ## Comparison -/

/-- An operator that yields a truth value.  `both` and `either` take a number above zero as true. -/
inductive Comparison where
  | equal
  | less
  | greater
  | both
  | either
deriving DecidableEq, Repr

namespace Comparison

/-- The character that names the operator. -/
def symbol : Comparison → Char
  | equal => '='
  | less => '<'
  | greater => '>'
  | both => 'A'
  | either => 'O'

/-- The operator that a character names. -/
def ofChar? : Char → Option Comparison
  | '=' => some equal
  | '<' => some less
  | '>' => some greater
  | 'A' => some both
  | 'O' => some either
  | _ => none

@[simp] theorem ofChar?_symbol (op : Comparison) : ofChar? op.symbol = some op := by
  cases op <;> rfl

/-- The truth of the comparison for the left operand `x` and the right operand `y`. -/
def holds (op : Comparison) (x y : Int32) : Bool :=
  match op with
  | equal => x == y
  | less => decide (x < y)
  | greater => decide (y < x)
  | both => decide (0 < x) && decide (0 < y)
  | either => decide (0 < x) || decide (0 < y)

end Comparison

end Terminal.Template
