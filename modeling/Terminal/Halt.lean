/-!
# Errors and faults

A program that checks what it is given ends with a result or with an error.  A `Halt` adds the ends
that nothing in the program stands for: a `fault` is what happens where the program relies on
something and it does not hold.  `Halt.settle` leaves the faults out of a result that has been
shown to have none.
-/

namespace Terminal

/-- Why a program stops without a result. -/
inductive Halt (ε φ : Type) where
  /-- The program reports what is wrong with its input. -/
  | error (e : ε)
  /-- The program is carried out where it has no meaning. -/
  | fault (f : φ)
deriving DecidableEq

namespace Halt

variable {ε φ α β : Type}

/-- The result of something that can fail and cannot fault. -/
def lift (r : Except ε α) : Except (Halt ε φ) α := r.mapError .error

/-- The result is not a fault. -/
def IsSafe (r : Except (Halt ε φ) α) : Prop := ∀ f, r ≠ .error (.fault f)

/-- A result that is not a fault, without the faults. -/
def settle : (r : Except (Halt ε φ) α) → IsSafe r → Except ε α
  | .ok a, _ => .ok a
  | .error (.error e), _ => .error e
  | .error (.fault f), h => absurd rfl (h f)

/-- A result stays one. -/
@[simp] theorem lift_ok (a : α) : (lift (.ok a : Except ε α) : Except (Halt ε φ) α) = .ok a := rfl

/-- An error stays one. -/
@[simp] theorem lift_error (e : ε) :
    (lift (.error e : Except ε α) : Except (Halt ε φ) α) = .error (.error e) := rfl

/-- Something that cannot fault does not. -/
theorem isSafe_lift (r : Except ε α) : IsSafe (lift r : Except (Halt ε φ) α) := by
  intro f
  cases r <;> nofun

/-- What cannot fault is known from its lift. -/
theorem lift_injective {r r' : Except ε α} (h : (lift r : Except (Halt ε φ) α) = lift r') :
    r = r' := by
  cases r <;> cases r' <;> cases h <;> rfl

/-- Leaving the faults out loses nothing. -/
theorem lift_settle (r : Except (Halt ε φ) α) (h : IsSafe r) : lift (settle r h) = r := by
  match r, h with
  | .ok _, _ => rfl
  | .error (.error _), _ => rfl
  | .error (.fault f), h => exact absurd rfl (h f)

theorem isSafe_ok (a : α) : IsSafe (.ok a : Except (Halt ε φ) α) := nofun

theorem isSafe_error (e : ε) : IsSafe (.error (.error e) : Except (Halt ε φ) α) := nofun

/-- Two safe programs, one after the other, are safe. -/
theorem IsSafe.bind {r : Except (Halt ε φ) α} {next : α → Except (Halt ε φ) β} (hr : IsSafe r)
    (hnext : ∀ a, r = .ok a → IsSafe (next a)) : IsSafe (r >>= next) := by
  intro f
  cases r with
  | error e =>
    rintro ⟨⟩
    exact hr f rfl
  | ok a => exact hnext a rfl f

end Halt

end Terminal
