import Terminal.Halt
import Terminal.Template.Context

/-!
# A machine in registers

A `Mode` holds what its reader has seen of a literal or a format, so a `Machine` cannot keep a
specification any longer than its format lasts, and an `Instruction` has an operator or a variable
that exists.  `Registers` is a machine without such types.  A specification and a conversion letter
stay in their registers until something clears them, an operator is a character, a variable is a
place in a bank, and numbers have the widths of machine words.  Where a step has no result for what
it finds in its registers, it ends in a `Fault`.
-/

namespace Terminal.Template

/-! ## Faults -/

/-- Why a step has no result, whatever the language says about the template. -/
inductive Fault where
  /-- An operator is to be carried out and the character names none. -/
  | operator
  /-- A variable has a place outside its bank. -/
  | place
  /-- The number of open conditionals leaves its range. -/
  | depth
  /-- A numeral is to be brought to more digits than can be asked for. -/
  | padding
deriving DecidableEq

/-- Why a run stops. -/
abbrev Halt := Terminal.Halt Error Fault

/-! ## Places and paddings -/

/-- A variable by its bank and a number. -/
inductive Slot where
  | static (place : Nat)
  | dynamic (place : Nat)
deriving DecidableEq

namespace Slot

/-- The slot that a letter names. -/
def ofChar (c : Char) : Except Error Slot :=
  if 65 ≤ c.toNat ∧ c.toNat ≤ 90 then .ok (static (c.toNat - 65))
  else if 97 ≤ c.toNat ∧ c.toNat ≤ 122 then .ok (dynamic (c.toNat - 97))
  else .error (.invalidVariableName c)

/-- The value in a slot, if the bank has the place. -/
def get? (vs : Variables) : Slot → Option Int32
  | static place => vs.statics[place]?
  | dynamic place => vs.dynamics[place]?

/-- Changes the value in a slot, if the bank has the place. -/
def set? (vs : Variables) (n : Int32) : Slot → Option Variables
  | static place =>
    if h : place < 26 then some { vs with statics := vs.statics.set place n } else none
  | dynamic place =>
    if h : place < 26 then some { vs with dynamics := vs.dynamics.set place n } else none

end Slot

/-- The number of digits that the notation of a number is brought to, together with its sign. -/
def Format.padding (f : Format) (k : Conversion) (v : Int32) : Nat :=
  match k, f.precision with
  | .text, _ | _, none => 0
  | .decimal, some p => if f.sign ∨ v < 0 then p + 1 else p
  | .octal, some p => if f.alternate then p - 1 else p
  | .lowerHex, some p | .upperHex, some p => p

/-! ## Registers -/

/-- Where the reader stands between two bytes; the data of a format are elsewhere. -/
inductive Control where
  | text
  | dollar
  | padding
  | percent
  | argument
  | store
  | fetch
  | charOpen
  | charClose
  | number (value : Option Int32)
  | format
  | skip (part : Part) (depth : Nat) (percent : Bool)
deriving DecidableEq

/-- The greatest number of open conditionals. -/
def Control.deepest : Nat := 18446744073709551615

/-- All registers of a machine. -/
structure Registers where
  control : Control := .text
  /-- The specification of the format that is read. -/
  spec : List Char := []
  /-- The latest conversion letter in that format. -/
  conversion : Option Char := none
  state : State := {}
deriving DecidableEq

namespace Registers

/-! ### Directives -/

/-- The characters of the operators that yield a number. -/
def arithmeticNames : List Char := ['+', '-', '*', '/', 'm', '&', '|', '^']

/-- The characters of the operators that yield a truth value. -/
def comparisonNames : List Char := ['=', '<', '>', 'A', 'O']

/-- The conversion letters. -/
def conversionNames : List Char := ['d', 'o', 'x', 'X', 's']

/-- Goes on elsewhere. -/
def goto (r : Registers) (control : Control) : Except Halt (Bytes × Registers) :=
  .ok ([], { r with control })

/-- Goes on elsewhere, with other data. -/
def proceed (r : Registers) (s : State) (control : Control) : Except Halt (Bytes × Registers) :=
  .ok ([], { r with control, state := s })

/-- Carries out an instruction that has a result or fails, and goes on in plain text. -/
def run (o : Options) (r : Registers) (i : Instruction) : Except Halt (Bytes × Registers) := do
  let (out, s) ← Halt.lift (i.exec o.operands r.state)
  return (out, { r with control := .text, state := s })

/-- Replaces two numbers on behalf of an operator; `result?` takes the one popped first first. -/
def binary (r : Registers) (operator : Char) (result? : Int32 → Int32 → Option Value) :
    Except Halt (Bytes × Registers) := do
  let (last, s) ← Halt.lift (r.state.popInteger operator)
  let (first, s) ← Halt.lift (s.popInteger operator)
  match result? last first with
  | some v => return ([], { r with control := .text, state := s.push v })
  | none => throw (.fault .operator)

/-- The result of an operator for the number popped first and the one popped next. -/
def result (order : OperandOrder) (op : Arithmetic) (last first : Int32) : Int32 :=
  match order with
  | .lastPushed => op.eval last first
  | .firstPushed => op.eval first last

def arithmetic (o : Options) (r : Registers) (c : Char) : Except Halt (Bytes × Registers) :=
  r.binary c fun last first =>
    (Arithmetic.ofChar? c).map fun op => .integer (result o.operands op last first)

def comparison (r : Registers) (c : Char) : Except Halt (Bytes × Registers) :=
  r.binary c fun last first => (Comparison.ofChar? c).map fun op => .ofBool (op.holds first last)

/-- A directive outside the language is passed over or refused. -/
def unknown (o : Options) (r : Registers) (c : Char) : Except Halt (Bytes × Registers) :=
  match o.unknown with
  | .ignore => r.goto .text
  | .reject => .error (.error (.unrecognizedDirective c))

/-- Begins a format. -/
def beginFormat (r : Registers) (spec : List Char) : Except Halt (Bytes × Registers) :=
  .ok ([], { r with control := .format, spec, conversion := none })

/-! ### Printing -/

/-- A value in a format.  A character that is no conversion letter stands for decimal. -/
def printed (f : Format) (operator : Char) : Value → Except Halt Bytes
  | .integer v =>
    let k := (Conversion.ofChar? operator).getD .decimal
    if Format.limit < f.padding k v then .error (.fault .padding) else .ok (f.fill (f.number k v))
  | .text bytes =>
    if operator = 's' then .ok (f.fill (f.cut bytes))
    else .error (.error (.typeMismatch operator))

/-- Takes a value and prints it on behalf of a conversion letter. -/
def print (r : Registers) (f : Format) (operator : Char) : Except Halt (Bytes × Registers) := do
  let (v, s) ← Halt.lift (r.state.pop operator)
  let out ← printed f operator v
  return (out, { r with control := .text, state := s })

/-- Takes a value and prints it in the format that has been read. -/
def applyFormat (r : Registers) : Except Halt (Bytes × Registers) :=
  let operator := r.conversion.getD 'd'
  match Format.ofSpec? r.spec with
  | some f => { r with spec := [], conversion := none }.print f operator
  | none => .error (.error .malformedLiteral)

/-! ### One byte -/

/-- The character behind a `%`. -/
def directive (o : Options) (r : Registers) (c : Char) : Except Halt (Bytes × Registers) :=
  if c ∈ arithmeticNames then r.arithmetic o c
  else if c ∈ comparisonNames then r.comparison c
  else if c ∈ conversionNames then r.print {} c
  else
    match c with
    | '%' => r.run o (.emit [0x25])
    | 'c' => r.run o .emitByte
    | 'l' => r.run o .length
    | '!' => r.run o .isZero
    | '~' => r.run o .complement
    | 'i' => r.run o .increment
    | 'p' => r.goto .argument
    | 'P' => r.goto .store
    | 'g' => r.goto .fetch
    | '\x27' => r.goto .charOpen
    | '\x7b' => r.goto (.number none)
    | ':' => r.beginFormat []
    | '?' => r.goto .text
    | ';' => r.goto .text
    | 't' => do
      let (v, s) ← Halt.lift (r.state.popInteger 't')
      r.proceed s (if v = 0 then .skip .consequence 0 false else .text)
    | 'e' => r.goto (.skip .alternative 0 false)
    | _ =>
      if o.formatEnd = .conversion ∧ Format.isBareStart c then r.beginFormat [c]
      else r.unknown o c

/-- Plain text is emitted, behind the text that was held back before it. -/
def text (o : Options) (r : Registers) (held : Bytes) (b : UInt8) :
    Except Halt (Bytes × Registers) :=
  if b = 0x25 then .ok (held, { r with control := .percent })
  else if b = 0x24 ∧ o.padding = .strip then .ok (held, { r with control := .dollar })
  else .ok (held ++ [b], { r with control := .text })

/-- The number of an argument. -/
def argument (r : Registers) (c : Char) : Except Halt (Bytes × Registers) :=
  if 49 ≤ c.toNat ∧ c.toNat ≤ 57 then
    match r.state.arguments[c.toNat - 49]? with
    | some v => r.proceed (r.state.push v) .text
    | none => .error (.error (.missingArgument c))
  else .error (.error (.missingArgument c))

/-- The name of a variable that a number is stored in. -/
def store (r : Registers) (c : Char) : Except Halt (Bytes × Registers) := do
  let slot ← Halt.lift (Slot.ofChar c)
  let (n, s) ← Halt.lift (r.state.popInteger 'P')
  match slot.set? s.vars n with
  | some vars => r.proceed { s with vars } .text
  | none => throw (.fault .place)

/-- The name of a variable whose value is fetched. -/
def fetch (r : Registers) (c : Char) : Except Halt (Bytes × Registers) := do
  let slot ← Halt.lift (Slot.ofChar c)
  match slot.get? r.state.vars with
  | some n => r.proceed (r.state.push (.integer n)) .text
  | none => throw (.fault .place)

/-- A number if it has 32 bits. -/
def checked (n : Int) : Option Int32 :=
  if Int32.minValue.toInt ≤ n ∧ n ≤ Int32.maxValue.toInt then some (Int32.ofInt n) else none

/-- A digit of a number in braces, or the closing brace. -/
def number (r : Registers) (value : Option Int32) (c : Char) : Except Halt (Bytes × Registers) :=
  if c = '\x7d' then
    match value with
    | some v => r.proceed (r.state.push (.integer v)) .text
    | none => .error (.error .malformedLiteral)
  else
    match Numeral.digit? c with
    | some d =>
      match (checked ((value.getD 0).toInt * 10)).bind fun v => checked (v.toInt + d) with
      | some v => r.goto (.number (some v))
      | none => .error (.error .malformedLiteral)
    | none => .error (.error .malformedLiteral)

/-- A character of a format. -/
def format (o : Options) (r : Registers) (c : Char) : Except Halt (Bytes × Registers) :=
  if Format.isSpec c then .ok ([], { r with spec := r.spec ++ [c] })
  else
    match o.formatEnd with
    | .percent =>
      if c = '%' then r.applyFormat
      else if c ∈ conversionNames then .ok ([], { r with conversion := some c })
      else .ok ([], r)
    | .conversion =>
      if c ∈ conversionNames then { r with conversion := some c }.applyFormat
      else { r with spec := [] }.unknown o c

/-- The characters that end a part behind a `%`, unless a conditional is open in it. -/
def endings : Part → List Char
  | .consequence => [';', 'e']
  | .alternative => [';']

/-- The character behind a `%` in a part that is passed over. -/
def mark (r : Registers) (part : Part) (depth : Nat) (c : Char) : Except Halt (Bytes × Registers) :=
  if depth = 0 ∧ c ∈ endings part then r.goto .text
  else if c = ';' then
    if depth < 1 then .error (.fault .depth) else r.goto (.skip part (depth - 1) false)
  else if c = '?' then
    if Control.deepest < depth + 1 then .error (.fault .depth)
    else r.goto (.skip part (depth + 1) false)
  else r.goto (.skip part depth false)

/-- Reads one byte. -/
def step (o : Options) (r : Registers) (b : UInt8) : Except Halt (Bytes × Registers) :=
  let c := Char.ofUInt8 b
  match r.control with
  | .text => r.text o [] b
  | .dollar => if b = 0x3c then r.goto .padding else r.text o [0x24] b
  | .padding => r.goto (if b = 0x3e then .text else .padding)
  | .percent => r.directive o c
  | .argument => r.argument c
  | .store => r.store c
  | .fetch => r.fetch c
  | .charOpen => r.proceed (r.state.push (.integer (Int32.ofNat b.toNat))) .charClose
  | .charClose => if c = '\x27' then r.goto .text else .error (.error .malformedLiteral)
  | .number value => r.number value c
  | .format => r.format o c
  | .skip part depth false => r.goto (.skip part depth (b = 0x25))
  | .skip part depth true => r.mark part depth c

/-! ### Runs -/

/-- Reads a text. -/
def feed (o : Options) (r : Registers) : Bytes → Except Halt (Bytes × Registers)
  | [] => .ok ([], r)
  | b :: bs => do
    let (out, r) ← r.step o b
    let (rest, r) ← feed o r bs
    return (out ++ rest, r)

/-- Closes a run. -/
def finish (o : Options) (r : Registers) : Except Halt (Bytes × State) :=
  match r.control with
  | .dollar => .ok ([0x24], r.state)
  | .charOpen | .charClose | .number _ => .error (.error .malformedLiteral)
  | .argument => .error (.error (.missingArgument none))
  | .store | .fetch => .error (.error (.invalidVariableName none))
  | .format =>
    if o.formatEnd = .percent then r.applyFormat.map fun q => (q.1, q.2.state)
    else .ok ([], r.state)
  | .text | .padding | .percent | .skip .. => .ok ([], r.state)

/-- Reads a text to its end. -/
def complete (o : Options) (r : Registers) (text : Bytes) : Except Halt (Bytes × State) := do
  let (out, r) ← r.feed o text
  let (last, s) ← r.finish o
  return (out ++ last, s)

/-- The registers at the start of an expansion. -/
def start (statics : Bank) (arguments : List Value) : Registers where
  state := { arguments, vars := { statics } }

end Registers

/-! ## Expansions -/

namespace Context

/-- Expands a template in registers.  An expansion that does not succeed yields no context. -/
def expandInRegisters (c : Context) (template : Bytes) (arguments : List Value) :
    Except Halt (Bytes × Context) := do
  let (out, s) ← (Registers.start c.initialStatics arguments).complete c.options template
  return (out, { c with statics := s.vars.statics })

/-- Expands the string capability of an entry in registers. -/
def renderInRegisters (c : Context) (entry : Entry) (name : String) (arguments : List Value) :
    Except Halt (Bytes × Context) :=
  match entry.string? name with
  | some template => c.expandInRegisters template arguments
  | none => .error (.error (.unsupportedCapability name))

end Context

end Terminal.Template
