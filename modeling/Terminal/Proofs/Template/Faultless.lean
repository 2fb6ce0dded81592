import Terminal.Proofs.Template.Mirroring

/-!
# Runs without faults

A run in registers is the run of the machine, or it faults (`feed_registers`), and it has a reason
to fault only if the template is longer than a machine word can say or prints with the greatest
precision (`complete_registers`).  What holds of the machine between two bytes holds of its
registers: nothing of a format is left behind it, and numbers, depths and arguments are in their
ranges.  `isFaultless` says both of every expansion.
-/

namespace Terminal.Template

/-! ## Runs -/

namespace Registers

variable {o : Options} {r : Registers} {b : UInt8}

/-- A run of the registers to the end is one step and the run from there. -/
theorem complete_cons (bs : Bytes) :
    r.complete o (b :: bs) = (do
      let (out, r) ← r.step o b
      let (rest, s) ← r.complete o bs
      return (out ++ rest, s)) := by
  simp only [complete, feed, bind, Except.bind]
  cases r.step o b with
  | error e => rfl
  | ok q =>
    simp only
    cases q.2.feed o bs with
    | error e => rfl
    | ok q' =>
      simp only [pure, Except.pure]
      cases q'.2.finish o with
      | error e => rfl
      | ok last => simp only [List.append_assoc]

end Registers

section Runs

variable {o : Options} {arguments : List Value} {length increments : Nat} {m : Machine}

/-- A run in registers is a run of the machine, or it faults. -/
theorem feed_registers (h : m.IsSound o arguments length increments) (t : Bytes) :
    m.registers.feed o t = seen (m.feed o t) ∨
      ∃ fault, m.registers.feed o t = .error (.fault fault) := by
  induction t generalizing m length increments with
  | nil => exact .inl rfl
  | cons b bs ih =>
    have hfault {fault} (hstep : m.registers.step o b = .error (.fault fault)) :
        ∃ fault, m.registers.feed o (b :: bs) = .error (.fault fault) := by
      refine ⟨fault, ?_⟩
      rw [Registers.feed, hstep]
      rfl
    rcases mirrors_of_isSound h.mode b with hstep | hstep | hstep
    · rw [Registers.feed, Machine.feed_cons, hstep]
      cases hmachine : m.step o b with
      | error e => exact .inl rfl
      | ok q =>
        obtain ⟨out, m'⟩ := q
        obtain ⟨⟨action, next⟩, hread, hexec⟩ := exists_of_bind_eq_ok hmachine
        -- the registers behind the step are those of the machine behind it
        show (m'.registers.feed o bs >>= _) = _ ∨ ∃ fault, (m'.registers.feed o bs >>= _) = _
        rcases ih (h.step hread hexec) with hrest | ⟨fault, hrest⟩
        · left
          rw [hrest]
          simp only [bind, Except.bind]
          cases m'.feed o bs <;> rfl
        · right
          rw [hrest]
          exact ⟨fault, rfl⟩
    · exact .inr (hfault hstep)
    · exact .inr (hfault hstep)

/-- If it has no reason to fault, it is the run of the machine up to its end. -/
theorem complete_registers (h : m.IsSound o arguments length increments) {t : Bytes}
    (hlength : length + t.length ≤ Control.deepest)
    (hfits : ∀ action ∈ m.asked o t, action.fits = true) :
    m.registers.complete o t = Halt.lift (m.complete o t) := by
  induction t generalizing m length increments with
  | nil =>
    have hfinish : m.registers.finish o = Halt.lift (m.finish o) := by
      rcases finish_registers o m with hfinish | ⟨-, f, k, hfinish, hf⟩
      · exact hfinish
      · simpa [Action.fits, hf] using hfits _ (Machine.mem_asked_of_finish hfinish)
    simp only [Registers.complete, Registers.feed, Machine.complete, Machine.feed_nil, bind,
      Except.bind, hfinish]
    cases m.finish o <;> rfl
  | cons b bs ih =>
    rw [List.length_cons] at hlength
    rw [Registers.complete_cons, complete_cons]
    -- A byte agrees unless it faults: one fault the actions rule out, the other one the length.
    rcases mirrors_of_isSound h.mode b with hstep | ⟨-, hread, hf⟩ | ⟨-, hdepth⟩
    · rw [hstep]
      cases hmachine : m.step o b with
      | error e => rfl
      | ok q =>
        obtain ⟨out, m'⟩ := q
        obtain ⟨⟨action, next⟩, hread, hexec⟩ := exists_of_bind_eq_ok hmachine
        have hrest := ih (h.step hread hexec) (by omega) fun a ha => hfits a (by
          rw [Machine.asked_cons hread hexec]
          exact List.mem_append_right _ ha)
        show (m'.registers.complete o bs >>= _) = _
        rw [hrest]
        simp only [bind, Except.bind]
        cases m'.complete o bs <;> rfl
    · simpa [Action.fits, hf] using hfits _ (Machine.mem_asked_of_read hread bs)
    · exact absurd hdepth (by omega)

end Runs

/-! ## What holds of the registers -/

namespace Registers

/-- What holds of the registers behind a text of some length that began with the given arguments. -/
structure IsSound (o : Options) (arguments : List Value) (length increments : Nat) (r : Registers) :
    Prop where
  /-- Outside a format nothing of a format is left. -/
  outside : r.control ≠ .format → r.spec = [] ∧ r.conversion = none
  spec : ∀ c ∈ r.spec, Format.isSpec c = true
  /-- A conversion letter waits for the end of its format only where a `%` ends it. -/
  conversion : ∀ c ∈ r.conversion, c ∈ conversionNames ∧ o.formatEnd = .percent
  number : ∀ v, r.control = .number (some v) → 0 ≤ v
  padding : r.control = .dollar ∨ r.control = .padding → o.padding = .strip
  depth : ∀ part depth behind, r.control = .skip part depth behind → depth ≤ length
  arguments : r.state.arguments = raised increments arguments

variable {o : Options} {arguments : List Value} {length increments : Nat}

/-- Outside a format the clauses about the held specification hold by themselves. -/
theorem isSound_of_outside {control : Control} {s : State}
    (hnumber : ∀ v, control = .number (some v) → 0 ≤ v)
    (hpadding : control = .dollar ∨ control = .padding → o.padding = .strip)
    (hdepth : ∀ part depth behind, control = .skip part depth behind → depth ≤ length)
    (harguments : s.arguments = raised increments arguments) :
    IsSound o arguments length increments ⟨control, [], none, s⟩ where
  outside _ := ⟨rfl, rfl⟩
  spec := List.forall_mem_nil _
  conversion := nofun
  number := hnumber
  padding := hpadding
  depth := hdepth
  arguments := harguments

/-- What holds of a machine holds of its registers. -/
theorem isSound_registers {m : Machine} (h : m.IsSound o arguments length increments) :
    m.registers.IsSound o arguments length increments := by
  obtain ⟨mode, s⟩ := m
  obtain ⟨hmode, hs⟩ := h
  -- Each mode keeps its own clause; outside it the clause is empty.
  cases mode with
  | dollar | padding => exact isSound_of_outside nofun (fun _ => hmode) nofun hs
  | number value =>
    refine isSound_of_outside ?_ nofun nofun hs
    intro v hv
    obtain ⟨n, rfl, rfl⟩ := Option.map_eq_some_iff.mp (Control.number.inj hv)
    have hn : n ≤ Numeral.greatest := hmode
    rw [Int32.le_iff_toInt_le, Numeral.toInt_ofNat_of_le hn]
    exact Int.natCast_nonneg n
  | format spec k =>
    obtain ⟨hspec, hk⟩ := hmode
    refine ⟨fun h => absurd rfl h, hspec, ?_, nofun, nofun, nofun, hs⟩
    intro c hc
    obtain ⟨k', rfl, rfl⟩ := Option.map_eq_some_iff.mp hc
    exact ⟨mem_conversionNames_iff.mpr ⟨k', Conversion.ofChar?_symbol k'⟩, hk rfl⟩
  | skip part depth behind =>
    refine isSound_of_outside nofun nofun ?_ hs
    rintro _ _ _ ⟨⟩
    exact hmode
  | _ => exact isSound_of_outside nofun nofun nofun hs

/-- A run in registers from the start of an expansion. -/
structure IsFaultless (o : Options) (statics : Bank) (arguments : List Value) (template : Bytes) :
    Prop where
  /-- Between any two bytes; the first two arguments have been counted up by the `%i` so far. -/
  isSound : ∀ front out r, front <+: template →
    (start statics arguments).feed o front = .ok (out, r) →
      r.IsSound o arguments front.length
        (((Machine.start statics arguments).asked o front).count (.run .increment))
  /-- There is no fault if the length of the template is a machine word and no value is printed with
  the greatest precision.  What comes of the run is then what comes of the machine. -/
  faultless : template.length ≤ Control.deepest →
    (∀ action ∈ (Machine.start statics arguments).asked o template, action.fits = true) →
      (start statics arguments).complete o template =
          Halt.lift ((Machine.start statics arguments).complete o template) ∧
        ∀ fault, (start statics arguments).complete o template ≠ .error (.fault fault)

/-- Whatever the template, its arguments and the static variables are, its registers stay sound and
do not fault without one of the two reasons. -/
theorem isFaultless (o : Options) (statics : Bank) (arguments : List Value) (template : Bytes) :
    IsFaultless o statics arguments template where
  isSound front out r _ hrun := by
    have hstart := Machine.isSound_start o statics arguments
    have hregisters : (Machine.start statics arguments).registers.feed o front = .ok (out, r) := hrun
    -- The run has not faulted, so it is the run of the machine, whose soundness carries over.
    rcases feed_registers hstart front with hfeed | ⟨fault, hfault⟩
    · rw [hregisters] at hfeed
      cases hmachine : (Machine.start statics arguments).feed o front with
      | error e =>
        rw [hmachine] at hfeed
        cases hfeed
      | ok q =>
        rw [hmachine] at hfeed
        cases hfeed
        have hsound := isSound_registers (hstart.feed hmachine)
        rwa [Nat.zero_add, Nat.zero_add] at hsound
    · rw [hregisters] at hfault
      cases hfault
  faultless hlength hfits := by
    have hcomplete : (start statics arguments).complete o template =
        Halt.lift ((Machine.start statics arguments).complete o template) := by
      refine complete_registers (Machine.isSound_start o statics arguments) ?_ hfits
      rwa [Nat.zero_add]
    refine ⟨hcomplete, fun fault => ?_⟩
    rw [hcomplete]
    exact Halt.isSafe_lift _ fault

/-- `%i%p1%:+.3d%` prints the second row as `+002`. -/
theorem isFaultless_signed :
    (start Bank.zero [.integer 1, .integer 7]).complete {}
        (Bytes.ofAscii ['%', 'i', '%', 'p', '1', '%', ':', '+', '.', '3', 'd', '%']) =
      .ok (Bytes.ofAscii ['+', '0', '0', '2'], { arguments := [.integer 2, .integer 8] }) := by
  have hrun := (isFaultless {} Bank.zero [.integer 1, .integer 7]
    (Bytes.ofAscii ['%', 'i', '%', 'p', '1', '%', ':', '+', '.', '3', 'd', '%'])).faultless
      (by decide) (by decide)
  rw [hrun.1]
  rfl

/-- With a sign, a number takes one digit more than the greatest precision. -/
example : (start Bank.zero [.integer 1]).complete {}
      (Bytes.ofAscii ['%', 'p', '1', '%', ':', '+', '.', '6', '5', '5', '3', '5', 'd', '%']) =
    .error (.fault .padding) := rfl

end Registers

/-! ## Expansions -/

namespace Context

variable (c : Context) (arguments : List Value)

end Context

end Terminal.Template
