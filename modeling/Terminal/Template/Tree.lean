import Terminal.Template.Context

/-!
# Templates as trees

A `Tree` is a template whose conditionals are closed.  `Tree.text` writes it down, and `Tree.eval`
is its meaning: directives act one after the other, and of a conditional only the part that its
conditions choose has an effect.  A machine that reads the text arrives at the same meaning without
ever seeing the tree.
-/

namespace Terminal.Template

/-! ## Directives -/

/-- How a format is spelled. -/
inductive Spelling where
  /-- The conversion letter alone. -/
  | letter
  /-- A specification behind a colon. -/
  | colon (spec : List Char)
  /-- A specification without a colon; only a conversion letter can end it. -/
  | bare (spec : List Char)
deriving DecidableEq

namespace Spelling

/-- The specification of a format. -/
def spec : Spelling → List Char
  | letter => []
  | colon spec | bare spec => spec

/-- The characters behind the `%` of a format. -/
def text (fe : FormatEnd) (k : Conversion) : Spelling → List Char
  | letter => [k.symbol]
  | colon spec =>
    match fe with
    | .conversion => ':' :: spec ++ [k.symbol]
    | .percent => ':' :: spec ++ [k.symbol, '%']
  | bare spec => spec ++ [k.symbol]

/-- Whether the spelling is one of the language. -/
def isValid (fe : FormatEnd) : Spelling → Bool
  | letter => true
  | colon spec => spec.all Format.isSpec
  | bare spec =>
    fe = .conversion && (spec.head?.any Format.isBareStart) && spec.all Format.isSpec

/-- The bytes of a `%:` format that its conversion letter ends. -/
theorem ofAscii_text_colon_conversion (spec : List Char) (k : Conversion) :
    Bytes.ofAscii ('%' :: (colon spec).text .conversion k) =
      Bytes.ofAscii ('%' :: ':' :: spec) ++ [k.symbol.toUInt8] := by
  simp [text, Bytes.ofAscii]

/-- The bytes of a `%:` format that a second percent sign ends. -/
theorem ofAscii_text_colon_percent (spec : List Char) (k : Conversion) :
    Bytes.ofAscii ('%' :: (colon spec).text .percent k) =
      (Bytes.ofAscii ('%' :: ':' :: spec) ++ [k.symbol.toUInt8]) ++ [0x25] := by
  simp [text, Bytes.ofAscii]
  rfl

/-- The bytes of a format without a colon, which its letter ends under either reading. -/
theorem ofAscii_text_bare (fe : FormatEnd) (spec : List Char) (k : Conversion) :
    Bytes.ofAscii ('%' :: (bare spec).text fe k) =
      Bytes.ofAscii ('%' :: spec) ++ [k.symbol.toUInt8] := by
  simp [text, Bytes.ofAscii]

end Spelling

/-- An instruction that is named by one character and needs nothing else. -/
inductive Operator where
  | percent
  | byte
  | length
  | arithmetic (op : Arithmetic)
  | comparison (op : Comparison)
  | isZero
  | complement
  | increment
deriving DecidableEq

namespace Operator

/-- The character that names the operator. -/
def symbol : Operator → Char
  | percent => '%'
  | byte => 'c'
  | length => 'l'
  | arithmetic op => op.symbol
  | comparison op => op.symbol
  | isZero => '!'
  | complement => '~'
  | increment => 'i'

/-- The instruction that the operator stands for. -/
def instruction : Operator → Instruction
  | percent => .emit [0x25]
  | byte => .emitByte
  | length => .length
  | arithmetic op => .arithmetic op
  | comparison op => .comparison op
  | isZero => .isZero
  | complement => .complement
  | increment => .increment

end Operator

/-- A part of a template that stands alone. -/
inductive Directive where
  /-- A byte of plain text. -/
  | byte (b : UInt8)
  | operator (op : Operator)
  /-- An argument, by its number less one. -/
  | argument (index : Fin 9)
  | store (v : Variable)
  | fetch (v : Variable)
  /-- A byte between quotes, which stands for its number. -/
  | character (b : UInt8)
  /-- A number in braces. -/
  | number (n : Nat)
  | format (spelling : Spelling) (k : Conversion)
deriving DecidableEq

namespace Directive

/-- The text of a directive. -/
def text (fe : FormatEnd) : Directive → Bytes
  | byte b => [b]
  | operator op => Bytes.ofAscii ['%', op.symbol]
  | argument index => Bytes.ofAscii ['%', 'p', Instruction.argumentDigit index]
  | store v => Bytes.ofAscii ['%', 'P', v.symbol]
  | fetch v => Bytes.ofAscii ['%', 'g', v.symbol]
  | character b => Bytes.ofAscii ['%', '\x27'] ++ b :: Bytes.ofAscii ['\x27']
  | number n => Bytes.ofAscii ['%', '\x7b'] ++ Numeral.digits 10 n ++ Bytes.ofAscii ['\x7d']
  | format spelling k => Bytes.ofAscii ('%' :: spelling.text fe k)

/-- Whether the directive is one of the language. -/
def isValid (fe : FormatEnd) : Directive → Bool
  | byte b => b ≠ 0x25
  | number n => n ≤ Numeral.greatest
  | format spelling _ => spelling.isValid fe
  | operator _ | argument _ | store _ | fetch _ | character _ => true

/-- The instruction that a directive stands for, unless the numbers of its format are too large. -/
def instruction? : Directive → Option Instruction
  | byte b => some (.emit [b])
  | operator op => some op.instruction
  | argument index => some (.argument index)
  | store v => some (.store v)
  | fetch v => some (.fetch v)
  | character b => some (.constant (Int32.ofNat b.toNat))
  | number n => some (.constant (Int32.ofNat n))
  | format spelling k => (Format.ofSpec? spelling.spec).map (.print · k)

/-- What a directive does. -/
def eval (order : OperandOrder) (d : Directive) (s : State) : Except Error (Bytes × State) :=
  match d.instruction? with
  | some i => i.exec order s
  | none => .error .malformedLiteral

end Directive

/-! ## Trees -/

mutual

/-- A template whose conditionals are closed. -/
inductive Tree where
  | nil
  | directive (d : Directive) (rest : Tree)
  | conditional (b : Branches) (rest : Tree)

/-- The conditions of a conditional, each with the part that it chooses. -/
inductive Branches where
  /-- One condition, and nothing if it fails. -/
  | single (condition body : Tree)
  /-- One condition, and another part if it fails. -/
  | orElse (condition body otherwise : Tree)
  /-- One condition, and further ones if it fails. -/
  | orIf (condition body : Tree) (more : Branches)

end

mutual

/-- The text of a template. -/
def Tree.text (fe : FormatEnd) : Tree → Bytes
  | .nil => []
  | .directive d rest => d.text fe ++ rest.text fe
  | .conditional b rest =>
    Bytes.ofAscii ['%', '?'] ++ b.text fe ++ Bytes.ofAscii ['%', ';'] ++ rest.text fe

/-- The text between the marks of a conditional. -/
def Branches.text (fe : FormatEnd) : Branches → Bytes
  | .single condition body => condition.text fe ++ Bytes.ofAscii ['%', 't'] ++ body.text fe
  | .orElse condition body otherwise =>
    condition.text fe ++ Bytes.ofAscii ['%', 't'] ++ body.text fe ++ Bytes.ofAscii ['%', 'e'] ++
      otherwise.text fe
  | .orIf condition body more =>
    condition.text fe ++ Bytes.ofAscii ['%', 't'] ++ body.text fe ++ Bytes.ofAscii ['%', 'e'] ++
      more.text fe

end

mutual

/-- Whether all directives of a template are of the language. -/
def Tree.isValid (fe : FormatEnd) : Tree → Bool
  | .nil => true
  | .directive d rest => d.isValid fe && rest.isValid fe
  | .conditional b rest => b.isValid fe && rest.isValid fe

/-- Whether all directives of a conditional are of the language. -/
def Branches.isValid (fe : FormatEnd) : Branches → Bool
  | .single condition body => condition.isValid fe && body.isValid fe
  | .orElse condition body otherwise =>
    condition.isValid fe && body.isValid fe && otherwise.isValid fe
  | .orIf condition body more => condition.isValid fe && body.isValid fe && more.isValid fe

end

/-- An effect on the data of an expansion: the bytes that are emitted and the state afterwards. -/
abbrev Effect := State → Except Error (Bytes × State)

/-- The effect that does nothing. -/
def idle : Effect := fun s => .ok ([], s)

/-- One effect behind another: the bytes of both, and the state after the second. -/
def andThen (first second : Effect) : Effect := fun s => do
  let (out, s) ← first s
  let (rest, s) ← second s
  return (out ++ rest, s)

/-- Takes the number that a condition leaves, and goes on with the first effect unless it is
zero. -/
def choose (holds fails : Effect) : Effect := fun s => do
  let (v, s) ← s.popInteger 't'
  if v = 0 then fails s else holds s

mutual

/-- What a template does. -/
def Tree.eval (order : OperandOrder) : Tree → Effect
  | .nil => idle
  | .directive d rest => andThen (d.eval order) (rest.eval order)
  | .conditional b rest => andThen (b.eval order) (rest.eval order)

/-- What a conditional does: the first part whose condition is not zero, and none of the others. -/
def Branches.eval (order : OperandOrder) : Branches → Effect
  | .single condition body => andThen (condition.eval order) (choose (body.eval order) idle)
  | .orElse condition body otherwise =>
    andThen (condition.eval order) (choose (body.eval order) (otherwise.eval order))
  | .orIf condition body more =>
    andThen (condition.eval order) (choose (body.eval order) (more.eval order))

end

end Terminal.Template
