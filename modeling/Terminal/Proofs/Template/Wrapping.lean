import Terminal.Proofs.Template.Reading

/-!
# Arithmetic modulo 2^32

Sums, differences and products are the exact ones modulo 2^32, a remainder is the exact one, and
dividing by zero leaves zero (`Arithmetic.Wraps`).  A quotient should be the exact one modulo 2^32 as
well, and then quotient and remainder give the dividend back (`Arithmetic.DivisionLaws`).  The
quotient of the least number by minus one does not fit 32 bits, and it is zero instead of the least
number: `wraps_and_divisionLaws_iff` says that this is the only pair for which the laws fail.
-/

namespace Terminal.Template

/-- A state on whose stack two numbers are the left and the right operand. -/
def State.withOperands (s : State) (order : OperandOrder) (a b : Int32) : State :=
  match order with
  | .lastPushed => (s.push (.integer b)).push (.integer a)
  | .firstPushed => (s.push (.integer a)).push (.integer b)

namespace Arithmetic

/-- The directive of an operator takes its operands from the stack and leaves a number there,
without any other effect. -/
def Leaves (op : Arithmetic) (o : Options) (a b result : Int32) : Prop :=
  ∀ s : State, Machine.feed o ⟨.text, s.withOperands o.operands a b⟩
    (Bytes.ofAscii ['%', op.symbol]) = .ok ([], ⟨.text, s.push (.integer result)⟩)

/-- An operator takes its two operands from the stack in the given order. -/
theorem exec_withOperands (op : Arithmetic) (order : OperandOrder) (a b : Int32) (s : State) :
    (Instruction.arithmetic op).exec order (s.withOperands order a b) =
      .ok ([], s.push (.integer (op.eval a b))) := by
  cases order <;> rfl

/-- What an operator leaves is its result, and nothing else. -/
theorem leaves_iff (op : Arithmetic) (o : Options) (a b result : Int32) :
    op.Leaves o a b result ↔ result = op.eval a b := by
  have hfeed (s : State) : Machine.feed o ⟨.text, s.withOperands o.operands a b⟩
      (Bytes.ofAscii ['%', op.symbol]) = .ok ([], ⟨.text, s.push (.integer (op.eval a b))⟩) := by
    refine (implements_operator o (.arithmetic op) _).trans ?_
    show ((Instruction.arithmetic op).exec o.operands _).map _ = _
    rw [exec_withOperands]
    rfl
  constructor
  · intro h
    have hsame := (h {}).symm.trans (hfeed {})
    simpa [State.push] using hsame
  · rintro rfl
    exact hfeed

/-! ## Quotients that do not fit -/

/-- The operands whose quotient is one above the greatest number. -/
def Overflows (a b : Int32) : Prop := a = Int32.minValue ∧ b = -1

/-- A division is carried out unless it is by zero or overflows. -/
theorem divides_iff (a b : Int32) : divides a b = true ↔ b ≠ 0 ∧ ¬Overflows a b := by
  rw [Overflows, Classical.not_and_iff_not_or_not]
  simp [divides]

/-- An exact quotient that fits is the quotient. -/
theorem eval_div {a b : Int32} (hb : b ≠ 0) (h : ¬Overflows a b) :
    div.eval a b = Int32.ofInt (a.toInt.tdiv b.toInt) := by
  rw [eval, if_pos ((divides_iff a b).mpr ⟨hb, h⟩)]
  apply Int32.toInt_inj.mp
  rw [Int32.toInt_div, Int32.toInt_ofInt]

/-- The exact remainder always fits, and it is zero where the quotient does not. -/
theorem eval_mod {a b : Int32} (hb : b ≠ 0) :
    mod.eval a b = Int32.ofInt (a.toInt.tmod b.toInt) := by
  by_cases h : Overflows a b
  · obtain ⟨rfl, rfl⟩ := h
    rfl
  · rw [eval, if_pos ((divides_iff a b).mpr ⟨hb, h⟩)]
    apply Int32.toInt_inj.mp
    rw [← Int32.toInt_mod, Int32.ofInt_toInt]

/-- A division that overflows gives zero. -/
theorem eval_div_of_overflows {a b : Int32} (h : Overflows a b) : div.eval a b = 0 := by
  obtain ⟨rfl, rfl⟩ := h
  rfl

/-- A quotient that overflows wraps to something other than zero. -/
theorem ofInt_tdiv_of_overflows {a b : Int32} (h : Overflows a b) :
    Int32.ofInt (a.toInt.tdiv b.toInt) ≠ 0 := by
  obtain ⟨rfl, rfl⟩ := h
  decide

/-! ## The laws -/

/-- The laws that hold for all operands. -/
structure Wraps (o : Options) (a b : Int32) : Prop where
  add : add.Leaves o a b (Int32.ofInt (a.toInt + b.toInt))
  sub : sub.Leaves o a b (Int32.ofInt (a.toInt - b.toInt))
  mul : mul.Leaves o a b (Int32.ofInt (a.toInt * b.toInt))
  div_zero : b = 0 → div.Leaves o a b 0
  mod_zero : b = 0 → mod.Leaves o a b 0
  mod : b ≠ 0 → mod.Leaves o a b (Int32.ofInt (a.toInt.tmod b.toInt))

/-- The laws of a quotient, alone and together with its remainder. -/
structure DivisionLaws (o : Options) (a b : Int32) : Prop where
  quotient : b ≠ 0 → div.Leaves o a b (Int32.ofInt (a.toInt.tdiv b.toInt))
  dividend : b ≠ 0 → ∀ q r, div.Leaves o a b q → mod.Leaves o a b r → q * b + r = a

/-- Sums, differences and products wrap for all operands. -/
theorem wraps (o : Options) (a b : Int32) : Wraps o a b where
  add := (leaves_iff ..).mpr (by simp [eval])
  sub := (leaves_iff ..).mpr (by simp [eval])
  mul := (leaves_iff ..).mpr (by simp [eval])
  div_zero hb := (leaves_iff ..).mpr (by simp [eval, divides, hb])
  mod_zero hb := (leaves_iff ..).mpr (by simp [eval, divides, hb])
  mod hb := (leaves_iff ..).mpr (eval_mod hb).symm

/-- The laws of division hold wherever no quotient overflows. -/
theorem divisionLaws_of_not_overflows (o : Options) {a b : Int32} (h : ¬Overflows a b) :
    DivisionLaws o a b where
  quotient hb := (leaves_iff ..).mpr (eval_div hb h).symm
  dividend hb q r hq hr := by
    rw [leaves_iff, eval_div hb h] at hq
    rw [leaves_iff, eval_mod hb] at hr
    calc q * b + r
        = Int32.ofInt (a.toInt.tdiv b.toInt) * Int32.ofInt b.toInt +
            Int32.ofInt (a.toInt.tmod b.toInt) := by rw [hq, hr, Int32.ofInt_toInt]
      _ = Int32.ofInt (a.toInt.tdiv b.toInt * b.toInt + a.toInt.tmod b.toInt) := by
            rw [Int32.ofInt_add, Int32.ofInt_mul]
      _ = a := by rw [Int.tdiv_mul_add_tmod, Int32.ofInt_toInt]

/-- In either order of the operands arithmetic goes modulo 2^32, and so does division except for
the one quotient that does not fit. -/
theorem wraps_and_divisionLaws_iff (o : Options) (a b : Int32) :
    Wraps o a b ∧ (DivisionLaws o a b ↔ ¬Overflows a b) := by
  refine ⟨wraps o a b, fun h hover => ?_, divisionLaws_of_not_overflows o⟩
  have hb : b ≠ 0 := by
    rintro rfl
    exact absurd hover.2 (by decide)
  have hquotient := (leaves_iff ..).mp (h.quotient hb)
  rw [eval_div_of_overflows hover] at hquotient
  exact ofInt_tdiv_of_overflows hover hquotient

/-- The quotient that does not fit is zero in place of the least number, and zero times the divisor
does not give the dividend back. -/
theorem leaves_zero_minValue :
    div.Leaves { operands := .firstPushed } Int32.minValue (-1) 0 ∧
      mod.Leaves { operands := .firstPushed } Int32.minValue (-1) 0 ∧
      Int32.ofInt (Int32.minValue.toInt.tdiv (-1 : Int32).toInt) = Int32.minValue ∧
      ¬DivisionLaws { operands := .firstPushed } Int32.minValue (-1) := by
  refine ⟨(leaves_iff ..).mpr rfl, (leaves_iff ..).mpr rfl, rfl, fun h => ?_⟩
  have hdividend := h.dividend (by decide) 0 0 ((leaves_iff ..).mpr rfl) ((leaves_iff ..).mpr rfl)
  exact absurd hdividend (by decide)

end Arithmetic

end Terminal.Template
