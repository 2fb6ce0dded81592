import Terminal.Proofs.Template.Scope
import Terminal.Proofs.Template.Wrapping

/-!
# Expressions

An `Expression` over constants, arguments and variables is written in a template behind its operands:
left, right, operator.  Where the number pushed last is the left operand of arithmetic, the operands
of a difference, a quotient and a remainder change places; those of a comparison never do.  In either
order the text of the expression leaves its value on the stack and nothing else (`feed_text`).  The
value is defined by exact numbers, apart from the interpreter's own arithmetic.
-/

namespace Terminal.Template

/-! ## The meaning of operators -/

namespace Arithmetic

instance (a b : Int32) : Decidable (Overflows a b) := inferInstanceAs (Decidable (_ ∧ _))

/-- The result of an operator on 32-bit numbers, from the exact result.  Without a quotient that
fits 32 bits, a quotient is zero; without any quotient, a remainder is zero. -/
def result (op : Arithmetic) (x y : Int32) : Int32 :=
  match op with
  | add => Int32.ofInt (x.toInt + y.toInt)
  | sub => Int32.ofInt (x.toInt - y.toInt)
  | mul => Int32.ofInt (x.toInt * y.toInt)
  | div => if y = 0 ∨ Overflows x y then 0 else Int32.ofInt (x.toInt.tdiv y.toInt)
  | mod => if y = 0 then 0 else Int32.ofInt (x.toInt.tmod y.toInt)
  | and => x &&& y
  | or => x ||| y
  | xor => x ^^^ y

/-- The operation carried out is the operation stated. -/
theorem eval_eq_result (op : Arithmetic) (x y : Int32) : op.eval x y = op.result x y := by
  cases op with
  | add | sub | mul => simp [eval, result]
  | div =>
    by_cases hy : y = 0
    · simp [eval, divides, result, hy]
    · by_cases hover : Overflows x y
      · rw [eval_div_of_overflows hover, result, if_pos (.inr hover)]
      · rw [eval_div hy hover, result, if_neg (by simp [hy, hover])]
  | mod =>
    by_cases hy : y = 0
    · simp [eval, divides, result, hy]
    · rw [eval_mod hy, result, if_neg hy]
  | and | or | xor => rfl

/-- Whether it matters which operand stands on the left. -/
def isSided : Arithmetic → Bool
  | sub | div | mod => true
  | add | mul | and | or | xor => false

/-- An operator without sides gives the same value either way round. -/
theorem eval_comm_of_not_isSided {op : Arithmetic} (h : op.isSided = false) (x y : Int32) :
    op.eval x y = op.eval y x := by
  apply eval_comm
  cases op with
  | sub | div | mod => cases h
  | _ => decide

end Arithmetic

/-- What a comparison says about two exact numbers. -/
def Comparison.Relates (op : Comparison) (x y : Int) : Prop :=
  match op with
  | equal => x = y
  | less => x < y
  | greater => y < x
  | both => 0 < x ∧ 0 < y
  | either => 0 < x ∨ 0 < y

instance (op : Comparison) (x y : Int) : Decidable (op.Relates x y) :=
  match op with
  | .equal => inferInstanceAs (Decidable (x = y))
  | .less => inferInstanceAs (Decidable (x < y))
  | .greater => inferInstanceAs (Decidable (y < x))
  | .both => inferInstanceAs (Decidable (0 < x ∧ 0 < y))
  | .either => inferInstanceAs (Decidable (0 < x ∨ 0 < y))

/-- A comparison holds when the integers behind the words compare so. -/
theorem Comparison.holds_iff (op : Comparison) (x y : Int32) :
    op.holds x y = true ↔ op.Relates x.toInt y.toInt := by
  cases op <;> simp [holds, Relates, Int32.lt_iff_toInt_lt, Int32.toInt_inj]

/-! ## Expressions -/

/-- An expression over numbers. -/
inductive Expression where
  | number (n : Fin (Numeral.greatest + 1))
  /-- A byte between quotes, which stands for its number. -/
  | character (b : UInt8)
  /-- An argument, by its number less one. -/
  | argument (index : Fin 9)
  | fetch (v : Variable)
  | isZero (operand : Expression)
  | complement (operand : Expression)
  | arithmetic (op : Arithmetic) (left right : Expression)
  | comparison (op : Comparison) (left right : Expression)
deriving DecidableEq

namespace Expression

/-- The text of an expression in a template, every operator behind its operands. -/
def text (order : OperandOrder) : Expression → Bytes
  | number n => Bytes.ofAscii ['%', '\x7b'] ++ Numeral.digits 10 n ++ Bytes.ofAscii ['\x7d']
  | character b => Bytes.ofAscii ['%', '\x27'] ++ b :: Bytes.ofAscii ['\x27']
  | argument index => Bytes.ofAscii ['%', 'p', Instruction.argumentDigit index]
  | fetch v => Bytes.ofAscii ['%', 'g', v.symbol]
  | isZero e => e.text order ++ Bytes.ofAscii ['%', '!']
  | complement e => e.text order ++ Bytes.ofAscii ['%', '~']
  | arithmetic op left right =>
    if order = .lastPushed ∧ op.isSided then
      right.text order ++ left.text order ++ Bytes.ofAscii ['%', op.symbol]
    else left.text order ++ right.text order ++ Bytes.ofAscii ['%', op.symbol]
  | comparison op left right =>
    left.text order ++ right.text order ++ Bytes.ofAscii ['%', op.symbol]

/-- The value of an expression.  An argument that is missing or is a text counts as zero. -/
def value (arguments : List Value) (vars : Variables) : Expression → Int32
  | number n => Int32.ofNat n
  | character b => Int32.ofNat b.toNat
  | argument index =>
    match arguments[index]? with
    | some (.integer v) => v
    | _ => 0
  | fetch v => vars.get v
  | isZero e => if e.value arguments vars = 0 then 1 else 0
  | complement e => ~~~(e.value arguments vars)
  | arithmetic op left right => op.result (left.value arguments vars) (right.value arguments vars)
  | comparison op left right =>
    if op.Relates (left.value arguments vars).toInt (right.value arguments vars).toInt then 1 else 0

/-- Every argument in the expression is there and is a number. -/
def IsOver (arguments : List Value) : Expression → Prop
  | argument index => ∃ v, arguments[index]? = some (.integer v)
  | number _ | character _ | fetch _ => True
  | isZero e | complement e => e.IsOver arguments
  | arithmetic _ left right | comparison _ left right =>
    left.IsOver arguments ∧ right.IsOver arguments

/-! ## Reading an expression -/

/-- An operator that emits nothing. -/
theorem feed_operator {o : Options} (op : Operator) {s s' : State}
    (h : op.instruction.exec o.operands s = .ok ([], s')) :
    Machine.feed o ⟨.text, s⟩ (Bytes.ofAscii ['%', op.symbol]) = .ok ([], ⟨.text, s'⟩) := by
  refine (implements_operator o op s).trans ?_
  show (op.instruction.exec o.operands s).map _ = _
  rw [h]
  rfl

/-- Two texts that leave a number each, and an operator that takes both. -/
theorem feed_binary {o : Options} {t u : Bytes} (op : Operator) {s s' : State} {x y : Int32}
    (ht : Machine.feed o ⟨.text, s⟩ t = .ok ([], ⟨.text, s.push (.integer x)⟩))
    (hu : Machine.feed o ⟨.text, s.push (.integer x)⟩ u =
      .ok ([], ⟨.text, (s.push (.integer x)).push (.integer y)⟩))
    (h : op.instruction.exec o.operands ((s.push (.integer x)).push (.integer y)) = .ok ([], s')) :
    Machine.feed o ⟨.text, s⟩ (t ++ u ++ Bytes.ofAscii ['%', op.symbol]) =
      .ok ([], ⟨.text, s'⟩) := by
  rw [List.append_assoc, feed_append_of_silent ht, feed_append_of_silent hu]
  exact feed_operator op h

/-- In either order of operands, the text of an expression leaves one number on the stack, which is
the value of the expression, and has no other effect. -/
theorem feed_text (o : Options) (e : Expression) (s : State) (h : e.IsOver s.arguments) :
    Machine.feed o ⟨.text, s⟩ (e.text o.operands) =
      .ok ([], ⟨.text, s.push (.integer (e.value s.arguments s.vars))⟩) := by
  induction e generalizing s with
  | number n => exact implements_number o (Nat.lt_succ_iff.mp n.isLt) s
  | character b => exact implements_character o b s
  | argument index =>
    obtain ⟨v, hv⟩ := h
    refine (implements_argument o index s).trans ?_
    show ((Instruction.argument index).exec o.operands s).map _ = _
    simp only [Instruction.exec, value, hv]
    rfl
  | fetch v => exact implements_fetch o v s
  | isZero e ih =>
    rw [text, feed_append_of_silent (ih s h)]
    refine feed_operator .isZero ?_
    show Except.ok ([], s.push (.ofBool (e.value s.arguments s.vars == 0))) = _
    simp only [Value.ofBool, beq_iff_eq, value]
  | complement e ih =>
    rw [text, feed_append_of_silent (ih s h)]
    exact feed_operator .complement rfl
  | arithmetic op left right ihl ihr =>
    rw [text, value, ← Arithmetic.eval_eq_result]
    split
    · next hswap =>
      -- the right operand comes first, and the one pushed last is the left one
      refine feed_binary (.arithmetic op) (ihr s h.2) (ihl _ h.1) ?_
      rw [hswap.1]
      rfl
    · next hswap =>
      refine feed_binary (.arithmetic op) (ihl s h.1) (ihr _ h.2) ?_
      cases horder : o.operands with
      | firstPushed => rfl
      | lastPushed =>
        -- the operator takes its operands the other way round, which is the same
        have hsided : op.isSided = false := by simpa [horder] using hswap
        rw [Arithmetic.eval_comm_of_not_isSided hsided]
        rfl
  | comparison op left right ihl ihr =>
    refine feed_binary (.comparison op) (ihl s h.1) (ihr _ h.2) ?_
    show Except.ok ([], s.push (.ofBool (op.holds _ _))) = _
    simp only [Value.ofBool, op.holds_iff, value]
    rfl

/-- Whether an argument lies less than 40 above a variable: `(p - v) / 4 < 10`. -/
def isNear (index : Fin 9) (v : Variable) : Expression :=
  .comparison .less
    (.arithmetic .div (.arithmetic .sub (.argument index) (.fetch v)) (.number 4))
    (.character 0x0a)

/-- With the number pushed last on the left, the text is `%{4}%gA%p1%-%/%'\n'%<`. -/
theorem feed_text_isNear :
    (isNear 0 (.static 0)).text .lastPushed =
        Bytes.ofAscii ['%', '\x7b', '4', '\x7d', '%', 'g', 'A', '%', 'p', '1', '%', '-', '%', '/',
          '%', '\x27', '\n', '\x27', '%', '<'] ∧
      Machine.feed { operands := .lastPushed }
          ⟨.text, { stack := [.text []]
                    arguments := [.integer 46]
                    vars := ({} : Variables).set (.static 0) 7 }⟩
          ((isNear 0 (.static 0)).text .lastPushed) =
        .ok ([], ⟨.text, { stack := [.integer 1, .text []]
                           arguments := [.integer 46]
                           vars := ({} : Variables).set (.static 0) 7 }⟩) :=
  ⟨rfl, feed_text { operands := .lastPushed } (isNear 0 (.static 0)) _
    ⟨⟨⟨⟨46, rfl⟩, trivial⟩, trivial⟩, trivial⟩⟩

end Expression

end Terminal.Template
