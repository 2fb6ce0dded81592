import Terminal.Template.Tree

/-!
# Runs of the machine

How a run opens at its first byte, and when a whole text has the effect of one action.  A text
`Implements` an action if a reader in plain text that reads it carries out the action and stands in
plain text again; `Implements.append` puts such texts one behind the other.
-/

namespace Terminal.Template

/-- The machine at the start of an expansion: in plain text, with an empty stack, the given
arguments and static variables, and all other variables zero. -/
def Machine.start (statics : Bank) (arguments : List Value) : Machine :=
  ⟨.text, { stack := [], arguments, vars := { statics, dynamics := Bank.zero } }⟩

/-- An expansion keeps nothing of the last state but its static variables. -/
theorem expand_eq_map_complete (c : Context) (template : Bytes) (arguments : List Value) :
    c.expand template arguments =
      ((c.machine arguments).complete c.options template).map
        fun r => (r.1, { c with statics := r.2.vars.statics }) := by
  rw [Context.expand]
  cases (c.machine arguments).complete c.options template <;> rfl

/-- Two actions in a row succeed only if both of them do. -/
theorem exists_of_bind_eq_ok {α β : Type} {r : Except Error α} {k : α → Except Error β} {b : β}
    (h : r >>= k = .ok b) : ∃ a, r = .ok a ∧ k a = .ok b := by
  cases r with
  | error e => cases h
  | ok a => exact ⟨a, rfl, h⟩

/-- The mode behind an action is the one that the reader chose, unless a test fails. -/
theorem mode_of_exec {order : OperandOrder} {action : Action} {next : Mode} {s : State}
    {out : Bytes} {m : Machine} (h : action.exec order next s = .ok (out, m)) :
    m.mode = next ∨ m.mode = .skip .consequence 0 false := by
  cases action with
  | run i =>
    obtain ⟨q, -, hq⟩ := exists_of_bind_eq_ok h
    cases hq
    exact .inl rfl
  | test =>
    obtain ⟨⟨v, s'⟩, -, hq⟩ := exists_of_bind_eq_ok h
    cases hq
    by_cases hv : v = 0
    · exact .inr (if_pos hv)
    · exact .inl (if_neg hv)

/-! ## The first byte of a run -/

section Opening

variable {o : Options} {mode next : Mode} {b : UInt8}

/-- Behind a text that emits nothing the run goes on as if it began there. -/
theorem feed_append_of_silent {m m' : Machine} {t : Bytes} (h : m.feed o t = .ok ([], m'))
    (u : Bytes) : m.feed o (t ++ u) = m'.feed o u := by
  rw [Machine.feed_append, h]
  simp only [bind, Except.bind, List.nil_append]
  cases m'.feed o u <;> rfl

/-- So does the run to the end of the template. -/
theorem complete_append_of_silent {m m' : Machine} {t : Bytes} (h : m.feed o t = .ok ([], m'))
    (u : Bytes) : m.complete o (t ++ u) = m'.complete o u := by
  rw [Machine.complete, Machine.complete, feed_append_of_silent h]

/-- A byte that asks for nothing only changes the mode. -/
theorem feed_idle (h : mode.read o b = .ok (.idle, next)) (s : State) (bs : Bytes) :
    Machine.feed o ⟨mode, s⟩ (b :: bs) = Machine.feed o ⟨next, s⟩ bs := by
  have hb : Machine.feed o ⟨mode, s⟩ [b] = .ok ([], ⟨next, s⟩) := by
    rw [Machine.feed_cons, Machine.step, h]
    rfl
  exact feed_append_of_silent hb bs

/-- Two bytes that ask for nothing. -/
theorem feed_pair {last : Mode} {c : UInt8} (hb : mode.read o b = .ok (.idle, next))
    (hc : next.read o c = .ok (.idle, last)) (s : State) :
    Machine.feed o ⟨mode, s⟩ [b, c] = .ok ([], ⟨last, s⟩) := by
  rw [feed_idle hb, feed_idle hc, Machine.feed_nil]

/-- A byte that completes an instruction carries it out. -/
theorem feed_run {i : Instruction} (h : mode.read o b = .ok (.run i, next)) (s : State) :
    Machine.feed o ⟨mode, s⟩ [b] =
      (i.exec o.operands s).map fun r => (r.1, ⟨next, r.2⟩) := by
  rw [Machine.feed_cons, Machine.step, h]
  simp only [bind, Except.bind, Action.exec]
  cases i.exec o.operands s with
  | error e => rfl
  | ok r => simp [pure, Except.pure, Except.map]

/-- A byte that the reader refuses ends the run. -/
theorem feed_error {e : Error} (h : mode.read o b = .error e) (s : State) (bs : Bytes) :
    Machine.feed o ⟨mode, s⟩ (b :: bs) = .error e := by
  rw [Machine.feed_cons, Machine.step, h]
  rfl

/-- A test goes on in the next mode or passes over the consequence. -/
theorem feed_test (h : mode.read o b = .ok (.test, next)) (s : State) :
    Machine.feed o ⟨mode, s⟩ [b] =
      (s.popInteger 't').map fun r =>
        ([], ⟨if r.1 = 0 then .skip .consequence 0 false else next, r.2⟩) := by
  rw [Machine.feed_cons, Machine.step, h]
  simp only [bind, Except.bind, Action.exec]
  cases s.popInteger 't' with
  | error e => rfl
  | ok r => simp [pure, Except.pure, Except.map]

end Opening

/-! ## What holds along a run -/

/-- What a byte carries on, from the text in front of it to the text with it, a run carries on. -/
theorem holds_of_feed {o : Options} {P : Bytes → Machine → Prop}
    (hstep : ∀ t m b out m', P t m → m.step o b = .ok (out, m') → P (t ++ [b]) m')
    {t u out : Bytes} {m m' : Machine} (hm : P t m) (h : m.feed o u = .ok (out, m')) :
    P (t ++ u) m' := by
  induction u generalizing t m out with
  | nil =>
    cases h
    rwa [List.append_nil]
  | cons b bs ih =>
    rw [Machine.feed_cons] at h
    obtain ⟨⟨first, n⟩, hfirst, hrest⟩ := exists_of_bind_eq_ok h
    obtain ⟨⟨last, n'⟩, hlast, hend⟩ := exists_of_bind_eq_ok hrest
    cases hend
    rw [← List.singleton_append, ← List.append_assoc]
    exact ih (hstep t m b first n hm hfirst) hlast

/-! ## Texts with the effect of an action -/

/-- A reader in plain text that reads the text carries out the action and is in plain text
again. -/
def Implements (o : Options) (text : Bytes) (action : Effect) : Prop :=
  ∀ s, Machine.feed o ⟨.text, s⟩ text = (action s).map fun r => (r.1, ⟨.text, r.2⟩)

/-- The empty text does nothing. -/
theorem Implements.nil (o : Options) : Implements o [] idle :=
  fun _ => rfl

/-- Two texts one behind the other have the effects of both. -/
theorem Implements.append {o : Options} {t u : Bytes} {first second : Effect}
    (ht : Implements o t first) (hu : Implements o u second) :
    Implements o (t ++ u) (andThen first second) := by
  intro s
  rw [Machine.feed_append, ht s, andThen]
  cases first s with
  | error e => rfl
  | ok r =>
    simp only [Except.map, bind, Except.bind, hu r.2]
    cases second r.2 <;> rfl

/-- A text that leads to a mode without any effect, and a byte that completes an instruction
there, implement the instruction. -/
theorem Implements.of_read {o : Options} {t : Bytes} {mode : Mode} {b : UInt8} {i : Instruction}
    (ht : ∀ s, Machine.feed o ⟨.text, s⟩ t = .ok ([], ⟨mode, s⟩))
    (hb : mode.read o b = .ok (.run i, .text)) :
    Implements o (t ++ [b]) (i.exec o.operands) := by
  intro s
  rw [feed_append_of_silent (ht s), feed_run hb]

end Terminal.Template
