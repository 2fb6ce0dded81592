import Terminal.Template.Error
import Terminal.Template.Format
import Terminal.Template.Operator
import Terminal.Template.Options
import Terminal.Template.Variable

/-!
# Instructions

What a template does, apart from choosing which of its parts to run.  An `Instruction` acts on a
`State`: it takes values from the stack, puts values on it, changes arguments or variables, and
emits bytes.  `Instruction.exec` is that action; it fails with the first error that it meets.
-/

namespace Terminal.Template

/-! ## State -/

/-- The data of an expansion: the stack with its top in front, the arguments, and the variables. -/
structure State where
  stack : List Value := []
  arguments : List Value := []
  vars : Variables := {}
deriving DecidableEq

namespace State

/-- Puts a value on the stack. -/
def push (s : State) (v : Value) : State := { s with stack := v :: s.stack }

/-- Takes the top of the stack on behalf of an operator. -/
def pop (operator : Char) (s : State) : Except Error (Value × State) :=
  match s.stack with
  | [] => .error (.stackUnderflow operator)
  | v :: rest => .ok (v, { s with stack := rest })

/-- Takes a number from the stack on behalf of an operator. -/
def popInteger (operator : Char) (s : State) : Except Error (Int32 × State) :=
  match s.stack with
  | [] => .error (.stackUnderflow operator)
  | .text _ :: _ => .error (.typeMismatch operator)
  | .integer v :: rest => .ok (v, { s with stack := rest })

end State

/-- Adds one to the first `count` of some values, as far as there are so many; a text among them
cannot be counted up. -/
def increment? : Nat → List Value → Option (List Value)
  | 0, vs => some vs
  | _ + 1, [] => some []
  | _ + 1, .text _ :: _ => none
  | count + 1, .integer v :: vs => (increment? count vs).map (.integer (v + 1) :: ·)

/-! ## Instructions -/

/-- A step of a template that does not depend on the text around it. -/
inductive Instruction where
  /-- Emits a text. -/
  | emit (text : Bytes)
  /-- Takes a number and emits it as one byte. -/
  | emitByte
  /-- Takes a value and emits it in a format. -/
  | print (format : Format) (conversion : Conversion)
  /-- Puts an argument on the stack; the first one has index zero. -/
  | argument (index : Fin 9)
  /-- Puts a number on the stack. -/
  | constant (n : Int32)
  /-- Takes a number into a variable. -/
  | store (v : Variable)
  /-- Puts the value of a variable on the stack. -/
  | fetch (v : Variable)
  /-- Replaces a value by the length of its written form. -/
  | length
  /-- Replaces two numbers by the result of an operator. -/
  | arithmetic (op : Arithmetic)
  /-- Replaces two numbers by the truth of a comparison. -/
  | comparison (op : Comparison)
  /-- Replaces a number by whether it is zero. -/
  | isZero
  /-- Replaces a number by the one with all bits inverted. -/
  | complement
  /-- Adds one to the first two arguments. -/
  | increment
deriving DecidableEq

namespace Instruction

/-- The instruction that a single character after `%` stands for. -/
def ofChar? (c : Char) : Option Instruction :=
  match Arithmetic.ofChar? c, Comparison.ofChar? c, Conversion.ofChar? c with
  | some op, _, _ => some (arithmetic op)
  | none, some op, _ => some (comparison op)
  | none, none, some k => some (print {} k)
  | none, none, none =>
    match c with
    | '%' => some (emit [0x25])
    | 'c' => some emitByte
    | 'l' => some length
    | '!' => some isZero
    | '~' => some complement
    | 'i' => some increment
    | _ => none

/-- The byte that stands for a number.  Zero cannot occur in a control sequence, and terminals take
128 in its place; of any other number the low eight bits count. -/
def byteOf (v : Int32) : UInt8 := if v = 0 then 128 else v.toUInt32.toUInt8

/-- The digit that names an argument. -/
def argumentDigit (index : Fin 9) : Char := Nat.digitChar (index + 1)

/-- Carries out an instruction: the bytes that it emits and the state after it. -/
def exec (order : OperandOrder) (i : Instruction) (s : State) : Except Error (Bytes × State) :=
  match i with
  | emit text => .ok (text, s)
  | emitByte => do
    let (v, s) ← s.popInteger 'c'
    return ([byteOf v], s)
  | print format k => do
    let (v, s) ← s.pop k.symbol
    match format.print? k v with
    | some text => return (text, s)
    | none => throw (.typeMismatch k.symbol)
  | argument index =>
    match s.arguments[index]? with
    | some v => .ok ([], s.push v)
    | none => .error (.missingArgument (argumentDigit index))
  | constant n => .ok ([], s.push (.integer n))
  | store v => do
    let (n, s) ← s.popInteger 'P'
    return ([], { s with vars := s.vars.set v n })
  | fetch v => .ok ([], s.push (.integer (s.vars.get v)))
  | length => do
    let (v, s) ← s.pop 'l'
    return ([], s.push (.integer (Int32.ofNat v.written.length)))
  | arithmetic op => do
    let (last, s) ← s.popInteger op.symbol
    let (first, s) ← s.popInteger op.symbol
    let result := match order with
      | .lastPushed => op.eval last first
      | .firstPushed => op.eval first last
    return ([], s.push (.integer result))
  | comparison op => do
    let (last, s) ← s.popInteger op.symbol
    let (first, s) ← s.popInteger op.symbol
    return ([], s.push (.ofBool (op.holds first last)))
  | isZero => do
    let (v, s) ← s.popInteger '!'
    return ([], s.push (.ofBool (v == 0)))
  | complement => do
    let (v, s) ← s.popInteger '~'
    return ([], s.push (.integer (~~~v)))
  | increment =>
    match increment? 2 s.arguments with
    | some arguments => .ok ([], { s with arguments })
    | none => .error (.typeMismatch 'i')

end Instruction

end Terminal.Template
