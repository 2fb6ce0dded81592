import Terminal.Proofs.Template.Correspondence

/-!
# Values below the stack

An instruction takes and puts values at the top of the stack only.  With more values below its
stack, a run therefore does the same and leaves them alone, unless it ends because the stack is too
small (`complete_above`): the two runs correspond.
-/

namespace Terminal.Template

/-! ## Results that carry over -/

/-- A result carries over to another one: a value to its image, an error to itself.  Nothing is
asked of the other result where a value was missing on the stack. -/
def CarriesTo {α β : Type} (lift : α → β) (r : Except Error α) (r' : Except Error β) : Prop :=
  (∃ operator, r = .error (.stackUnderflow operator)) ∨ r' = r.map lift

namespace CarriesTo

variable {α β γ δ : Type} {lift : α → β} {lift' : γ → δ} {r : Except Error α} {r' : Except Error β}

/-- Results that are alike up to stack underflow are carried over. -/
theorem of_alike
    (h : Alike (∃ operator, · = .stackUnderflow operator) (fun a b => b = lift a) r r') :
    CarriesTo lift r r' := by
  cases h with
  | ok h => exact .inr (congrArg _ h)
  | error e => exact .inr rfl
  | excused h r' =>
    obtain ⟨operator, rfl⟩ := h
    exact .inl ⟨operator, rfl⟩

/-- A result that is carried over succeeds where the first one does. -/
theorem ok {a : α} (h : CarriesTo lift r r') (hr : r = .ok a) : r' = .ok (lift a) := by
  rcases h with ⟨operator, hunderflow⟩ | rfl
  · rw [hr] at hunderflow
    cases hunderflow
  · rw [hr]
    rfl

/-- An error other than stack underflow is carried over as it is. -/
theorem error {e : Error} (h : CarriesTo lift r r') (hr : r = .error e)
    (he : ∀ operator, e ≠ .stackUnderflow operator) : r' = .error e := by
  rcases h with ⟨operator, hunderflow⟩ | rfl
  · rw [hr] at hunderflow
    cases hunderflow
    exact absurd rfl (he operator)
  · rw [hr]
    rfl

end CarriesTo

/-! ## States that correspond -/

/-- The same data with more values below the stack. -/
def State.above (w : List Value) (s : State) : State := { s with stack := s.stack ++ w }

/-- The same machine with more values below its stack. -/
def Machine.above (w : List Value) (m : Machine) : Machine := ⟨m.mode, m.state.above w⟩

namespace Correspondence

/-- The same data with more values below the stack, which only a run whose stack is too small can
see. -/
def above (w : List Value) : Correspondence where
  excused e := ∃ operator, e = .stackUnderflow operator
  below := w
  arguments := Eq
  vars := Eq

/-- No instruction looks below the stack it needs. -/
theorem keeps_above (w : List Value) : (above w).Keeps fun _ => True := by
  refine keeps_of_arguments_eq rfl (.inr fun operator => ⟨operator, rfl⟩) (fun v n _ hvs => ?_)
    fun v _ hvs => ?_
  · exact congrArg (·.set v n) hvs
  · exact congrArg (·.get v) (Eq.symm hvs)

variable {w : List Value}

/-- A state related by `above` is the first one with the stack put below. -/
theorem States.eq_above {s s' : State} (h : (above w).States s s') : s' = s.above w := by
  obtain ⟨stack, arguments, vars⟩ := s
  obtain ⟨stack', arguments', vars'⟩ := s'
  obtain rfl : stack' = stack ++ w := h.stack
  obtain rfl : arguments = arguments' := h.arguments
  obtain rfl : vars = vars' := h.vars
  rfl

/-- A machine and the same machine with a stack put below are related. -/
theorem machines_above (w : List Value) (m : Machine) : (above w).Machines m (m.above w) :=
  ⟨rfl, rfl, rfl, rfl⟩

/-- A machine related by `above` is the first one with the stack put below. -/
theorem Machines.eq_above {m m' : Machine} (h : (above w).Machines m m') : m' = m.above w := by
  obtain ⟨mode, s⟩ := m
  obtain ⟨mode', s'⟩ := m'
  obtain rfl : mode' = mode := h.mode
  obtain rfl : s' = s.above w := h.states.eq_above
  rfl

end Correspondence

/-! ## Runs -/

variable (w : List Value) (o : Options) (m : Machine) (t : Bytes)

/-- A run carries over to the same run with more values below its stack. -/
theorem feed_above :
    CarriesTo (Prod.map id (Machine.above w)) (m.feed o t) ((m.above w).feed o t) := by
  have hrun := (Correspondence.keeps_above w).feed (u := []) (o := o) (t := t)
    (admits_of_forall (fun _ => trivial) m.mode _) (Correspondence.machines_above w m)
  exact .of_alike <| hrun.mono fun r r' h => Prod.ext h.value h.data.1.eq_above

/-- A whole run does the same with more values below its stack, unless its stack is too small. -/
theorem complete_above :
    CarriesTo (Prod.map id (State.above w)) (m.complete o t) ((m.above w).complete o t) := by
  have hrun := (Correspondence.keeps_above w).complete (o := o) (t := t)
    (admits_of_forall (fun _ => trivial) m.mode t) (Correspondence.machines_above w m)
  exact .of_alike <| hrun.mono fun r r' h => Prod.ext h.value h.data.eq_above

end Terminal.Template
