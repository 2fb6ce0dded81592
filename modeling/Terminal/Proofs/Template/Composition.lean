import Terminal.Proofs.Template.Framing

/-!
# Templates one behind the other

Two templates one behind the other expand as each of them does, if the first one leaves its
arguments and the dynamic variables as they were and does not end within a directive or a part that
is passed over.  What it leaves on the stack makes no difference to the second one, which would have
to miss those values (`complete_above`).  `composes` puts this together for every context.
-/

namespace Terminal.Template

/-! ## Runs of two templates -/

/-- A run through two templates is a run through the first one and a whole run of the second. -/
theorem complete_append (o : Options) (m : Machine) (t u : Bytes) :
    m.complete o (t ++ u) = (do
      let (out, m) ← m.feed o t
      let (rest, s) ← m.complete o u
      return (out ++ rest, s)) := by
  rw [Machine.complete, Machine.feed_append]
  cases m.feed o t with
  | error e => rfl
  | ok r =>
    simp only [Machine.complete, bind, Except.bind]
    cases r.2.feed o u with
    | error e => rfl
    | ok q =>
      simp only [pure, Except.pure]
      cases q.2.finish o with
      | error e => rfl
      | ok last => simp only [List.append_assoc]

/-- A run to the end is one step and the run from there. -/
theorem complete_cons (o : Options) (m : Machine) (b : UInt8) (bs : Bytes) :
    m.complete o (b :: bs) = (do
      let (out, m) ← m.step o b
      let (rest, s) ← m.complete o bs
      return (out ++ rest, s)) := by
  have hstep : m.feed o [b] = m.step o b := by
    rw [Machine.feed_cons]
    cases m.step o b <;> simp [bind, Except.bind, pure, Except.pure]
  rw [← hstep, ← complete_append]
  rfl

/-- An expansion fails as its run does behind a first part of the template. -/
theorem expand_append_of_error {c : Context} {arguments : List Value} {t out : Bytes} {m : Machine}
    (h : (c.machine arguments).feed c.options t = .ok (out, m)) {u : Bytes} {e : Error}
    (he : m.complete c.options u = .error e) : c.expand (t ++ u) arguments = .error e := by
  rw [expand_eq_map_complete, complete_append, h]
  simp only [bind, Except.bind, he]
  rfl

/-! ## Runs and the lifetime of static variables -/

section Lifetime

variable (o : Options) (lifetime : Lifetime) (m : Machine)

/-- How long static variables live is not looked at by a step. -/
theorem step_lifetime (b : UInt8) : m.step { o with statics := lifetime } b = m.step o b := by
  have hread : m.mode.read { o with statics := lifetime } b = m.mode.read o b := by
    cases m.mode <;> rfl
  rw [Machine.step, Machine.step, hread]

/-- How long static variables live is not looked at by a run. -/
theorem feed_lifetime (t : Bytes) : m.feed { o with statics := lifetime } t = m.feed o t := by
  induction t generalizing m with
  | nil => rfl
  | cons b bs ih =>
    rw [Machine.feed_cons, Machine.feed_cons, step_lifetime]
    simp only [ih]

/-- How long static variables live makes no difference to a run. -/
theorem complete_lifetime (t : Bytes) :
    m.complete { o with statics := lifetime } t = m.complete o t := by
  rw [Machine.complete, Machine.complete, feed_lifetime]
  rfl

end Lifetime

/-! ## Expansions -/

namespace Context

/-- The context from which an expansion begins with the given static variables. -/
def resume (c : Context) (statics : Bank) : Context :=
  { options := { c.options with statics := .context }, statics }

/-- An expansion that goes on with given static variables, as a run of the machine. -/
theorem expand_resume (c : Context) (statics : Bank) (template : Bytes) (arguments : List Value) :
    (c.resume statics).expand template arguments =
      ((Machine.start statics arguments).complete c.options template).map
        fun r => (r.1, c.resume r.2.vars.statics) := by
  have hstart : (c.resume statics).machine arguments = Machine.start statics arguments := rfl
  rw [expand_eq_map_complete, hstart, resume, complete_lifetime]
  rfl

/-- The run of a template succeeds and ends in plain text, with the arguments as they were and all
dynamic variables zero. -/
structure EndsPlainly (c : Context) (arguments : List Value) (template out : Bytes) (m : Machine) :
    Prop where
  feed : (c.machine arguments).feed c.options template = .ok (out, m)
  mode : m.mode = .text
  arguments : m.state.arguments = arguments
  dynamics : m.state.vars.dynamics = Bank.zero

/-- What is left of such a run are static variables and values on the stack. -/
theorem EndsPlainly.eq_above {c : Context} {arguments : List Value} {template out : Bytes}
    {m : Machine} (h : c.EndsPlainly arguments template out m) :
    m = (Machine.start m.state.vars.statics arguments).above m.state.stack := by
  obtain ⟨mode, stack, arguments', statics, dynamics⟩ := m
  obtain rfl : mode = .text := h.mode
  obtain rfl : arguments' = arguments := h.arguments
  obtain rfl : dynamics = Bank.zero := h.dynamics
  rfl

/-- Templates can be put one behind the other in a context. -/
structure Composes (c : Context) : Prop where
  /-- A run that succeeds does the same with more values below its stack, and leaves them alone. -/
  feed_above : ∀ (m m' : Machine) (t out : Bytes) (w : List Value),
    m.feed c.options t = .ok (out, m') → (m.above w).feed c.options t = .ok (out, m'.above w)
  complete_above : ∀ (m : Machine) (t out : Bytes) (s : State) (w : List Value),
    m.complete c.options t = .ok (out, s) →
      (m.above w).complete c.options t = .ok (out, s.above w)
  /-- Two templates emit what each of them emits, if the second one begins with the static variables
  of the first one. -/
  expand_append : ∀ (arguments : List Value) (t out : Bytes) (m : Machine),
    c.EndsPlainly arguments t out m → ∀ (u rest : Bytes) (d : Context),
      (c.resume m.state.vars.statics).expand u arguments = .ok (rest, d) →
        c.expand (t ++ u) arguments = .ok (out ++ rest, { c with statics := d.statics })
  /-- They fail as the second one does, unless it misses a value on its stack. -/
  expand_append_error : ∀ (arguments : List Value) (t out : Bytes) (m : Machine),
    c.EndsPlainly arguments t out m → ∀ (u : Bytes) (e : Error),
      (c.resume m.state.vars.statics).expand u arguments = .error e →
        (∀ operator, e ≠ .stackUnderflow operator) → c.expand (t ++ u) arguments = .error e

/-- Behind the first template the second one runs as from its own beginning, with what the first
one has left below its stack. -/
theorem EndsPlainly.expand_append_eq {c : Context} {arguments : List Value} {template out : Bytes}
    {m : Machine} (h : c.EndsPlainly arguments template out m) (u : Bytes) :
    CarriesTo (fun r => (out ++ r.1, { c with statics := r.2.statics }))
      ((c.resume m.state.vars.statics).expand u arguments) (c.expand (template ++ u) arguments) := by
  have hrun := Template.complete_above m.state.stack c.options
    (Machine.start m.state.vars.statics arguments) u
  rw [← h.eq_above] at hrun
  rw [expand_resume, expand_eq_map_complete, complete_append, h.feed]
  rcases hrun with ⟨operator, hunderflow⟩ | hrun
  · rw [hunderflow]
    exact .inl ⟨operator, rfl⟩
  · right
    simp only [bind, Except.bind, hrun]
    cases (Machine.start m.state.vars.statics arguments).complete c.options u <;> rfl

/-- What a first template leaves below the stack of a second one is never seen. -/
theorem composes (c : Context) : c.Composes where
  feed_above m _ t _ w h := (Template.feed_above w c.options m t).ok h
  complete_above m t _ _ w h := (Template.complete_above w c.options m t).ok h
  expand_append _ _ _ _ h u _ _ hu := (h.expand_append_eq u).ok hu
  expand_append_error _ _ _ _ h u _ hu he := (h.expand_append_eq u).error hu he

/-- `%{4}%{7}%PAx` ends with a number on the stack, which `%gA%d` behind it does not take. -/
theorem composes_leftover :
    ({ options := { statics := .context } } : Context).expand
        (Bytes.ofAscii ['%', '\x7b', '4', '\x7d', '%', '\x7b', '7', '\x7d', '%', 'P', 'A', 'x'] ++
          Bytes.ofAscii ['%', 'g', 'A', '%', 'd']) [] =
      .ok ([0x78] ++ [0x37], { options := { statics := .context }, statics := Bank.zero.set 0 7 }) :=
  have hends : EndsPlainly { options := { statics := .context } } []
      (Bytes.ofAscii ['%', '\x7b', '4', '\x7d', '%', '\x7b', '7', '\x7d', '%', 'P', 'A', 'x']) [0x78]
      ⟨.text, { stack := [.integer 4], arguments := [],
                vars := { statics := Bank.zero.set 0 7, dynamics := Bank.zero } }⟩ :=
    ⟨rfl, rfl, rfl, rfl⟩
  have hrest : (resume { options := { statics := .context } } (Bank.zero.set 0 7)).expand
      (Bytes.ofAscii ['%', 'g', 'A', '%', 'd']) [] =
        .ok ([0x37], { options := { statics := .context }, statics := Bank.zero.set 0 7 }) := rfl
  (composes { options := { statics := .context } }).expand_append _ _ _ _ hends _ _ _ hrest

end Context

end Terminal.Template
