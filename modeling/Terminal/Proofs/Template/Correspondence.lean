import Terminal.Proofs.Template.Run

/-!
# Corresponding runs

Two runs of one template that begin with different data do the same as long as no instruction sees
the difference.  A `Correspondence` says how the stack, the arguments and the variables may differ;
`Correspondence.Keeps` asks of the few instructions that use them that they find the same and leave
what corresponds again, and from it `Correspondence.Keeps.complete` follows for whole runs.  Results
are compared by `Alike`, which is closed under binds.
-/

namespace Terminal.Template

/-! ## Results that are alike -/

/-- Two results are alike if both are values that belong together or both are the same error.
Nothing is asked of the second result where the first one is an error that is excused. -/
inductive Alike {α β : Type} (excused : Error → Prop) (related : α → β → Prop) :
    Except Error α → Except Error β → Prop where
  | ok {a : α} {b : β} (h : related a b) : Alike excused related (.ok a) (.ok b)
  | error (e : Error) : Alike excused related (.error e) (.error e)
  | excused {e : Error} (h : excused e) (r : Except Error β) : Alike excused related (.error e) r

namespace Alike

variable {α β γ δ : Type} {excused : Error → Prop} {related : α → β → Prop}
  {related' : γ → δ → Prop} {r : Except Error α} {r' : Except Error β}

/-- Two actions are alike if their first parts are, and from values that belong together their
second parts are. -/
theorem bind {k : α → Except Error γ} {k' : β → Except Error δ} (h : Alike excused related r r')
    (hk : ∀ a b, r = .ok a → related a b → Alike excused related' (k a) (k' b)) :
    Alike excused related' (r >>= k) (r' >>= k') := by
  cases h with
  | ok h => exact hk _ _ rfl h
  | error e => exact .error e
  | excused h r' => exact .excused h _

/-- Results that are alike stay so when related values are mapped to related values. -/
theorem map {f : α → γ} {g : β → δ} (h : Alike excused related r r')
    (hf : ∀ a b, related a b → related' (f a) (g b)) :
    Alike excused related' (r.map f) (r'.map g) := by
  cases h with
  | ok h => exact .ok (hf _ _ h)
  | error e => exact .error e
  | excused h r' => exact .excused h _

/-- Results alike for one relation are alike for a weaker one. -/
theorem mono {related' : α → β → Prop} (h : Alike excused related r r')
    (hrelated : ∀ a b, related a b → related' a b) : Alike excused related' r r' := by
  cases h with
  | ok h => exact .ok (hrelated _ _ h)
  | error e => exact .error e
  | excused h r' => exact .excused h _

/-- The values of two successful results that are alike are related. -/
theorem of_ok {a : α} {b : β} (h : Alike excused related (.ok a) (.ok b)) : related a b := by
  cases h with
  | ok h => exact h

/-- Results that are alike are equal if values that belong together are, unless the first one is an
error that is excused. -/
theorem eq_of_not_excused {related : α → α → Prop} {r r' : Except Error α}
    (h : Alike excused related r r') (heq : ∀ a b, related a b → b = a)
    (he : ∀ e, r = .error e → ¬excused e) : r' = r := by
  cases h with
  | ok h => rw [heq _ _ h]
  | error e => rfl
  | excused h r' => exact absurd h (he _ rfl)

end Alike

/-- The same value beside data that belong together. -/
structure Beside {α σ : Type} (related : σ → σ → Prop) (r r' : α × σ) : Prop where
  value : r'.1 = r.1
  data : related r.2 r'.2

/-- Results alike in a state beside equal values can be carried on with computations that are alike
from related states. -/
theorem Alike.bind_beside {α β γ σ : Type} {excused : Error → Prop} {related : σ → σ → Prop}
    {related' : β → γ → Prop} {r r' : Except Error (α × σ)} {k : α × σ → Except Error β}
    {k' : α × σ → Except Error γ} (h : Alike excused (Beside related) r r')
    (hk : ∀ a s s', related s s' → Alike excused related' (k (a, s)) (k' (a, s'))) :
    Alike excused related' (r >>= k) (r' >>= k') := by
  refine h.bind fun q q' _ hq => ?_
  obtain ⟨a, s⟩ := q
  obtain ⟨a', s'⟩ := q'
  obtain rfl : a' = a := hq.value
  exact hk a' s s' hq.data

/-! ## Instructions -/

/-- How the data of two runs may differ: what the second one has below its stack, its arguments and
its variables.  Behind some errors of the first run nothing is asked of the second one. -/
structure Correspondence where
  excused : Error → Prop
  below : List Value
  arguments : List Value → List Value → Prop
  vars : Variables → Variables → Prop

namespace Correspondence

variable (c : Correspondence)

/-- Two states whose data correspond. -/
structure States (s s' : State) : Prop where
  stack : s'.stack = s.stack ++ c.below
  arguments : c.arguments s.arguments s'.arguments
  vars : c.vars s.vars s'.vars

/-- Two machines in the same mode whose states correspond. -/
structure Machines (m m' : Machine) : Prop where
  mode : m'.mode = m.mode
  states : c.States m.state m'.state

/-- The instructions that are allowed find the same in data that correspond, and leave data that
correspond. -/
structure Keeps (allowed : Instruction → Prop) : Prop where
  underflow : c.below = [] ∨ ∀ operator, c.excused (.stackUnderflow operator)
  argument : ∀ {as as' : List Value} (index : Fin 9), c.arguments as as' →
    as'[index]? = as[index]? ∨
      as[index]? = none ∧ c.excused (.missingArgument (Instruction.argumentDigit index))
  increment : ∀ {as as' : List Value}, c.arguments as as' →
    Option.Rel c.arguments (increment? 2 as) (increment? 2 as')
  store : ∀ {vs vs' : Variables} (v : Variable) (n : Int32), allowed (.store v) → c.vars vs vs' →
    c.vars (vs.set v n) (vs'.set v n)
  fetch : ∀ {vs vs' : Variables} (v : Variable), allowed (.fetch v) → c.vars vs vs' →
    vs'.get v = vs.get v

variable {c} {allowed : Instruction → Prop} {s s' : State}

/-- Between runs with the same arguments only the stack and the variables are left to compare. -/
theorem keeps_of_arguments_eq (has : c.arguments = Eq)
    (underflow : c.below = [] ∨ ∀ operator, c.excused (.stackUnderflow operator))
    (store : ∀ {vs vs'} (v : Variable) (n : Int32), allowed (.store v) → c.vars vs vs' →
      c.vars (vs.set v n) (vs'.set v n))
    (fetch : ∀ {vs vs'} (v : Variable), allowed (.fetch v) → c.vars vs vs' → vs'.get v = vs.get v) :
    c.Keeps allowed where
  underflow := underflow
  argument {as as'} index h := by
    rw [has] at h
    exact .inl (by rw [h])
  increment {as as'} h := by
    rw [has] at h ⊢
    subst h
    cases increment? 2 as with
    | none => exact .none
    | some bs => exact .some rfl
  store := store
  fetch := fetch

/-- Pushing one value on both stacks keeps two states related. -/
theorem States.push (h : c.States s s') (v : Value) : c.States (s.push v) (s'.push v) where
  stack := congrArg (v :: ·) h.stack
  arguments := h.arguments
  vars := h.vars

/-- Popping related states gives the same value and related states. -/
theorem Keeps.pop (hc : c.Keeps allowed) (h : c.States s s') (operator : Char) :
    Alike c.excused (Beside c.States) (s.pop operator) (s'.pop operator) := by
  obtain ⟨stack, arguments, vars⟩ := s
  obtain ⟨stack', arguments', vars'⟩ := s'
  obtain rfl : stack' = stack ++ c.below := h.stack
  cases stack with
  | nil =>
    rcases hc.underflow with hbelow | hexcused
    · simp only [hbelow]
      exact .error _
    · exact .excused (hexcused operator) _
  | cons v rest => exact .ok ⟨rfl, rfl, h.arguments, h.vars⟩

/-- Popping an integer from related states gives the same integer and related states. -/
theorem Keeps.popInteger (hc : c.Keeps allowed) (h : c.States s s') (operator : Char) :
    Alike c.excused (Beside c.States) (s.popInteger operator) (s'.popInteger operator) := by
  obtain ⟨stack, arguments, vars⟩ := s
  obtain ⟨stack', arguments', vars'⟩ := s'
  obtain rfl : stack' = stack ++ c.below := h.stack
  cases stack with
  | nil =>
    rcases hc.underflow with hbelow | hexcused
    · simp only [hbelow]
      exact .error _
    · exact .excused (hexcused operator) _
  | cons v rest =>
    cases v with
    | integer v => exact .ok ⟨rfl, rfl, h.arguments, h.vars⟩
    | text bytes => exact .error _

/-- An instruction that is allowed does the same to states that correspond. -/
theorem Keeps.exec (hc : c.Keeps allowed) (order : OperandOrder) {i : Instruction} (hi : allowed i)
    (h : c.States s s') :
    Alike c.excused (Beside c.States) (i.exec order s) (i.exec order s') := by
  cases i with
  | emit text => exact .ok ⟨rfl, h⟩
  | emitByte => exact (hc.popInteger h 'c').bind_beside fun _ _ _ ht => .ok ⟨rfl, ht⟩
  | print format k =>
    refine (hc.pop h k.symbol).bind_beside fun v t t' ht => ?_
    cases hprint : format.print? k v with
    | none => simp only [hprint]; exact .error _
    | some text => simp only [hprint]; exact .ok ⟨rfl, ht⟩
  | argument index =>
    -- An argument may be missing on one side only; the correspondence says when that is excused.
    rcases hc.argument index h.arguments with hsame | ⟨hnone, hexcused⟩
    · simp only [Instruction.exec, hsame]
      cases s.arguments[index]? with
      | none => exact .error _
      | some v => exact .ok ⟨rfl, h.push v⟩
    · simp only [Instruction.exec, hnone]
      exact .excused hexcused _
  | constant n => exact .ok ⟨rfl, h.push _⟩
  | store v =>
    refine (hc.popInteger h 'P').bind_beside fun n t t' ht => .ok ⟨rfl, ht.stack, ht.arguments, ?_⟩
    exact hc.store v n hi ht.vars
  | fetch v =>
    simp only [Instruction.exec, hc.fetch v hi h.vars]
    exact .ok ⟨rfl, h.push _⟩
  | length => exact (hc.pop h 'l').bind_beside fun _ _ _ ht => .ok ⟨rfl, ht.push _⟩
  | arithmetic op | comparison op =>
    exact (hc.popInteger h op.symbol).bind_beside fun _ _ _ ht =>
      (hc.popInteger ht op.symbol).bind_beside fun _ _ _ hu => .ok ⟨rfl, hu.push _⟩
  | isZero => exact (hc.popInteger h '!').bind_beside fun _ _ _ ht => .ok ⟨rfl, ht.push _⟩
  | complement => exact (hc.popInteger h '~').bind_beside fun _ _ _ ht => .ok ⟨rfl, ht.push _⟩
  | increment =>
    have hincrement := hc.increment h.arguments
    simp only [Instruction.exec]
    generalize increment? 2 s.arguments = r, increment? 2 s'.arguments = r' at hincrement
    cases hincrement with
    | none => exact .error _
    | some harguments => exact .ok ⟨rfl, h.stack, harguments, h.vars⟩

/-! ## Runs -/

/-- An action that is a test or an instruction that is allowed does the same to states that
correspond. -/
theorem Keeps.action (hc : c.Keeps allowed) (order : OperandOrder) {action : Action}
    (haction : ∀ i, action = .run i → allowed i) (next : Mode) (h : c.States s s') :
    Alike c.excused (Beside c.Machines) (action.exec order next s) (action.exec order next s') := by
  cases action with
  | run i =>
    exact (hc.exec order (haction i rfl) h).bind_beside fun _ _ _ ht => .ok ⟨rfl, rfl, ht⟩
  | test => exact (hc.popInteger h 't').bind_beside fun _ _ _ ht => .ok ⟨rfl, rfl, ht⟩

end Correspondence

/-- However a reader in some mode comes through a text, and whatever parts it passes over, it
carries out no instruction but those that are allowed. -/
def Admits (o : Options) (allowed : Instruction → Prop) : Mode → Bytes → Prop
  | mode, [] => ∀ i, mode.finish o = .ok (.run i) → allowed i
  | mode, b :: bs => ∀ action next, mode.read o b = .ok (action, next) →
      (∀ i, action = .run i → allowed i) ∧ Admits o allowed next bs ∧
        Admits o allowed (.skip .consequence 0 false) bs

/-- Where every instruction is allowed, every text is admitted. -/
theorem admits_of_forall {o : Options} {allowed : Instruction → Prop} (h : ∀ i, allowed i)
    (mode : Mode) (t : Bytes) : Admits o allowed mode t := by
  induction t generalizing mode with
  | nil => exact fun i _ => h i
  | cons b bs ih => exact fun _ next _ => ⟨fun i _ => h i, ih next, ih _⟩

/-- The reader goes on where a byte leads, or passes over a part. -/
theorem Admits.step {o : Options} {allowed : Instruction → Prop} {m n : Machine} {b : UInt8}
    {bs out : Bytes} (h : Admits o allowed m.mode (b :: bs)) (hstep : m.step o b = .ok (out, n)) :
    Admits o allowed n.mode bs := by
  obtain ⟨⟨action, next⟩, hread, hexec⟩ := exists_of_bind_eq_ok hstep
  obtain ⟨-, hnext, hskip⟩ := h action next hread
  rcases mode_of_exec hexec with hmode | hmode
  · rw [hmode]
    exact hnext
  · rw [hmode]
    exact hskip

namespace Correspondence

variable {c : Correspondence} {allowed : Instruction → Prop} {o : Options} {m m' : Machine}

/-- One byte takes related machines to related machines, as long as the instruction it gives is
allowed. -/
theorem Keeps.step (hc : c.Keeps allowed) {b : UInt8}
    (hb : ∀ action next, m.mode.read o b = .ok (action, next) → ∀ i, action = .run i → allowed i)
    (h : c.Machines m m') :
    Alike c.excused (Beside c.Machines) (m.step o b) (m'.step o b) := by
  rw [Machine.step, Machine.step, h.mode]
  cases hread : m.mode.read o b with
  | error e => exact .error e
  | ok r => exact hc.action o.operands (hb r.1 r.2 hread) r.2 h.states

/-- A run through a text does the same from states that correspond, if all its instructions are
allowed, and leaves a reader for which this holds of what follows. -/
theorem Keeps.feed (hc : c.Keeps allowed) {t u : Bytes} (ht : Admits o allowed m.mode (t ++ u))
    (h : c.Machines m m') :
    Alike c.excused (Beside fun n n' => c.Machines n n' ∧ Admits o allowed n.mode u) (m.feed o t)
      (m'.feed o t) := by
  induction t generalizing m m' with
  | nil => exact .ok ⟨rfl, h, ht⟩
  | cons b bs ih =>
    rw [Machine.feed_cons, Machine.feed_cons]
    have hstep := hc.step (fun action next hread => (ht action next hread).1) h
    refine hstep.bind fun q q' hq hrelated => ?_
    obtain ⟨out, n⟩ := q
    obtain ⟨out', n'⟩ := q'
    obtain rfl : out' = out := hrelated.value
    exact (ih (ht.step hq) hrelated.data).bind_beside fun _ _ _ hn => .ok ⟨rfl, hn⟩

/-- Related machines end alike. -/
theorem Keeps.finish (hc : c.Keeps allowed) (hend : Admits o allowed m.mode [])
    (h : c.Machines m m') :
    Alike c.excused (Beside c.States) (m.finish o) (m'.finish o) := by
  rw [Machine.finish, Machine.finish, h.mode]
  cases hfinish : m.mode.finish o with
  | error e => exact .error e
  | ok action =>
    have haction (i : Instruction) (hi : action = .run i) : allowed i :=
      hend i (hi ▸ hfinish)
    exact (hc.action o.operands haction .text h.states).bind_beside fun _ _ _ hm =>
      .ok ⟨rfl, hm.states⟩

/-- A whole run does the same from states that correspond. -/
theorem Keeps.complete (hc : c.Keeps allowed) {t : Bytes} (ht : Admits o allowed m.mode t)
    (h : c.Machines m m') :
    Alike c.excused (Beside c.States) (m.complete o t) (m'.complete o t) := by
  rw [← List.append_nil t] at ht
  exact (hc.feed ht h).bind_beside fun _ _ _ hn =>
    (hc.finish hn.2 hn.1).bind_beside fun _ _ _ hs => .ok ⟨rfl, hs⟩

/-- Expansions do the same from arguments and static variables that correspond, and leave static
variables of variables that correspond. -/
theorem Keeps.expand (hc : c.Keeps allowed) (hbelow : c.below = []) {d d' : Context}
    (ho : d'.options = d.options) {t : Bytes} (ht : Admits d.options allowed .text t)
    {as as' : List Value} (has : c.arguments as as')
    (hvars : c.vars { statics := d.initialStatics } { statics := d'.initialStatics }) :
    Alike c.excused
      (fun r r' => r'.1 = r.1 ∧ ∃ vs vs', c.vars vs vs' ∧ r.2 = { d with statics := vs.statics } ∧
        r'.2 = { d' with statics := vs'.statics })
      (d.expand t as) (d'.expand t as') := by
  have hstart : c.Machines (d.machine as) (d'.machine as') := ⟨rfl, hbelow.symm, has, hvars⟩
  have hrun := hc.complete (t := t) (m := d.machine as) ht hstart
  rw [expand_eq_map_complete, expand_eq_map_complete, ho]
  exact hrun.map fun r r' hr => ⟨hr.value, r.2.vars, r'.2.vars, hr.data.vars, rfl, rfl⟩

end Correspondence

end Terminal.Template
