import Terminal.Proofs.Template.Reader
import Terminal.Proofs.Template.Skipping
import Terminal.Proofs.Template.Spelling

/-!
# Modes that a run can reach

What holds of every mode and of the arguments behind any part of a template.  One byte carries it on
(`IsSound.step`), and so does a run (`IsSound.feed`).  `Machine.asked` lists what a run asks for, by
which the arguments that `%i` has changed are told.
-/

namespace Terminal.Template

/-! ## Modes -/

/-- What holds of the mode behind a text of some length. -/
def Mode.IsSound (o : Options) (length : Nat) : Mode → Prop
  | dollar | padding => o.padding = .strip
  | number value => value.getD 0 ≤ Numeral.greatest
  | format spec k =>
    (∀ c ∈ spec, Format.isSpec c = true) ∧ (k.isSome → o.formatEnd = .percent)
  | skip _ depth _ => depth ≤ length
  | text | percent | argument | store | fetch | charOpen | charClose _ => True

/-- A mark opens one conditional at most. -/
theorem isSound_skipDirective {o : Options} (part : Part) {depth length : Nat}
    (h : depth ≤ length) (c : Char) :
    (Mode.skipDirective part depth c).IsSound o (length + 1) := by
  rw [skipDirective_eq_mark]
  unfold Part.mark
  split
  · trivial
  · next depth =>
    show depth ≤ length + 1
    omega
  · split
    · trivial
    · exact Nat.zero_le _
  · exact Nat.succ_le_succ h
  · exact Nat.le_succ_of_le h

/-- Reading a byte keeps the mode sound, for a text longer by one. -/
theorem isSound_of_reads {o : Options} {mode next : Mode} {b : UInt8} {action : Action}
    {length : Nat} (h : Reads o mode b action next) (hmode : mode.IsSound o length) :
    next.IsSound o (length + 1) := by
  -- Only a format, a literal, stripped padding and a skipped part carry something to be kept.
  cases h with
  | dollar _ hp => exact hp
  | openPadding | padding => exact hmode
  | openNumber => exact Nat.zero_le _
  | openFormat => exact ⟨nofun, nofun⟩
  | bareFormat he hb =>
    refine ⟨fun c hc => ?_, nofun⟩
    obtain rfl := List.mem_singleton.mp hc
    exact Format.isSpec_of_isBareStart hb
  | otherwise => exact Nat.zero_le _
  | digit _ hn =>
    unfold Numeral.append? at hn
    split at hn
    · next hle =>
      cases hn
      exact hle
    · cases hn
  | spec spec k hb =>
    obtain ⟨hspec, hk⟩ := hmode
    refine ⟨fun c hc => ?_, hk⟩
    rcases List.mem_append.mp hc with hc | hc
    · exact hspec c hc
    · obtain rfl := List.mem_singleton.mp hc
      exact hb
  | letter _ _ he => exact ⟨hmode.1, fun _ => he⟩
  | passed => exact hmode
  | skip => exact Nat.le_succ_of_le hmode
  | skipDirective part => exact isSound_skipDirective part hmode _
  | _ => trivial

/-! ## Arguments -/

/-- A value that has been counted up; a text stays as it is. -/
def Value.plus (count : Nat) : Value → Value
  | integer v => integer (v + Int32.ofNat count)
  | text bytes => text bytes

/-- Nothing added leaves a value as it is. -/
theorem Value.plus_zero (v : Value) : v.plus 0 = v := by
  cases v with
  | integer v => exact congrArg integer (Int32.add_zero v)
  | text bytes => rfl

/-- One more added to an integer. -/
theorem Value.plus_succ (count : Nat) (v : Int32) :
    (integer v).plus (count + 1) = integer (v + Int32.ofNat count + 1) := by
  rw [plus, Int32.ofNat_add, Int32.add_assoc]
  rfl

/-- Arguments of which the first two have been counted up. -/
def raised (count : Nat) (arguments : List Value) : List Value :=
  (arguments.take 2).map (Value.plus count) ++ arguments.drop 2

/-- Arguments not incremented are the arguments. -/
theorem raised_zero (arguments : List Value) : raised 0 arguments = arguments := by
  rw [raised, List.map_congr_left fun v _ => v.plus_zero, List.map_id', List.take_append_drop]

/-- Values that have been counted up are counted up once more. -/
theorem increment?_plus {count n : Nat} {as bs : List Value}
    (h : increment? n ((as.take n).map (Value.plus count) ++ as.drop n) = some bs) :
    bs = (as.take n).map (Value.plus (count + 1)) ++ as.drop n := by
  induction n generalizing as bs with
  | zero => exact (Option.some.inj h).symm
  | succ n ih =>
    cases as with
    | nil => exact (Option.some.inj h).symm
    | cons a as =>
      cases a with
      | text bytes => cases h
      | integer v =>
        obtain ⟨cs, hcs, rfl⟩ := Option.map_eq_some_iff.mp h
        rw [ih hcs, List.take_succ_cons, List.map_cons, Value.plus_succ]
        rfl

section Execution

variable {order : OperandOrder} {s s' : State} {out : Bytes}

/-- Popping leaves the arguments alone. -/
theorem arguments_of_pop {operator : Char} {v : Value} (h : s.pop operator = .ok (v, s')) :
    s'.arguments = s.arguments := by
  unfold State.pop at h
  split at h <;> cases h
  rfl

/-- Popping an integer leaves the arguments alone. -/
theorem arguments_of_popInteger {operator : Char} {v : Int32}
    (h : s.popInteger operator = .ok (v, s')) : s'.arguments = s.arguments := by
  unfold State.popInteger at h
  split at h <;> cases h
  rfl

/-- Only `%i` changes arguments. -/
theorem arguments_of_exec {i : Instruction} (hi : i ≠ .increment)
    (h : i.exec order s = .ok (out, s')) : s'.arguments = s.arguments := by
  -- Every other instruction works on the stack and the variables.
  cases i with
  | emit | constant | fetch =>
    cases h
    rfl
  | emitByte | store | isZero | complement =>
    obtain ⟨⟨v, t⟩, hpop, hend⟩ := exists_of_bind_eq_ok h
    have ht := arguments_of_popInteger hpop
    cases hend
    exact ht
  | print f k =>
    obtain ⟨⟨v, t⟩, hpop, hend⟩ := exists_of_bind_eq_ok h
    have ht := arguments_of_pop hpop
    simp only at hend
    split at hend
    · cases hend
      exact ht
    · cases hend
  | argument index =>
    simp only [Instruction.exec] at h
    split at h <;> cases h
    rfl
  | length =>
    obtain ⟨⟨v, t⟩, hpop, hend⟩ := exists_of_bind_eq_ok h
    have ht := arguments_of_pop hpop
    cases hend
    exact ht
  | arithmetic op | comparison op =>
    obtain ⟨⟨last, t⟩, hlast, hrest⟩ := exists_of_bind_eq_ok h
    obtain ⟨⟨first, u⟩, hfirst, hend⟩ := exists_of_bind_eq_ok hrest
    cases hend
    exact (arguments_of_popInteger hfirst).trans (arguments_of_popInteger hlast)
  | increment => exact absurd rfl hi

/-- After an instruction, the arguments are incremented once more if it was `%i`. -/
theorem raised_of_exec {i : Instruction} {count : Nat} {arguments : List Value}
    (hs : s.arguments = raised count arguments) (h : i.exec order s = .ok (out, s')) :
    s'.arguments = raised (count + [i].count .increment) arguments := by
  by_cases hi : i = .increment
  · subst hi
    simp only [Instruction.exec, hs] at h
    split at h
    · next bs hbs =>
      cases h
      exact increment?_plus hbs
    · cases h
  · rw [arguments_of_exec hi h, hs, List.count_singleton, if_neg (by simpa using hi)]
    rfl

end Execution

/-! ## Runs -/

namespace Machine

/-- What a run asks for, up to its first failure; last comes what it asks for at its end. -/
def asked (o : Options) (m : Machine) : Bytes → List Action
  | [] => (m.mode.finish o).toOption.toList
  | b :: bs =>
    match m.mode.read o b with
    | .error _ => []
    | .ok (action, next) =>
      action :: match action.exec o.operands next m.state with
        | .error _ => []
        | .ok (_, m) => asked o m bs

/-- What holds of a machine behind a text of some length that began with the given arguments. -/
structure IsSound (o : Options) (arguments : List Value) (length increments : Nat) (m : Machine) :
    Prop where
  mode : m.mode.IsSound o length
  arguments : m.state.arguments = raised increments arguments

variable {o : Options} {arguments : List Value} {length increments : Nat} {m m' : Machine}

/-- A machine is sound at its start. -/
theorem isSound_start (o : Options) (statics : Bank) (arguments : List Value) :
    (start statics arguments).IsSound o arguments 0 0 where
  mode := trivial
  arguments := (raised_zero arguments).symm

/-- A step keeps a machine sound, with one more byte read and each `%i` counted. -/
theorem IsSound.step {b : UInt8} {action : Action} {next : Mode} {out : Bytes}
    (h : m.IsSound o arguments length increments) (hread : m.mode.read o b = .ok (action, next))
    (hexec : action.exec o.operands next m.state = .ok (out, m')) :
    m'.IsSound o arguments (length + 1) (increments + [action].count (.run .increment)) := by
  have hnext := isSound_of_reads (reads_of_read hread) h.mode
  cases action with
  | run i =>
    obtain ⟨⟨text, s⟩, hi, hend⟩ := exists_of_bind_eq_ok hexec
    cases hend
    have hcount : [Action.run i].count (.run .increment) = [i].count .increment := by
      simp [List.count_singleton]
    rw [hcount]
    exact ⟨hnext, raised_of_exec h.arguments hi⟩
  | test =>
    obtain ⟨⟨v, s⟩, hpop, hend⟩ := exists_of_bind_eq_ok hexec
    cases hend
    refine ⟨?_, (arguments_of_popInteger hpop).trans h.arguments⟩
    show Mode.IsSound o _ (if v = 0 then _ else _)
    split
    · exact Nat.zero_le _
    · exact hnext

/-- What a run asks for at its first byte, and then behind it. -/
theorem asked_cons {b : UInt8} {action : Action} {next : Mode} {out : Bytes}
    (hread : m.mode.read o b = .ok (action, next))
    (hexec : action.exec o.operands next m.state = .ok (out, m')) (bs : Bytes) :
    m.asked o (b :: bs) = [action] ++ m'.asked o bs := by
  simp only [asked, hread, hexec, List.singleton_append]

/-- It is asked for even if it fails. -/
theorem mem_asked_of_read {b : UInt8} {action : Action} {next : Mode}
    (hread : m.mode.read o b = .ok (action, next)) (bs : Bytes) : action ∈ m.asked o (b :: bs) := by
  simp only [asked, hread]
  exact List.mem_cons_self

/-- The action at the end of the template is one of those asked for. -/
theorem mem_asked_of_finish {action : Action} (h : m.mode.finish o = .ok action) :
    action ∈ m.asked o [] := by
  rw [asked, h]
  exact List.mem_singleton_self action

/-- At its end a run does not ask for `%i`. -/
theorem count_asked_nil (o : Options) (m : Machine) :
    (m.asked o []).count (.run .increment) = 0 := by
  rw [asked]
  cases haction : m.mode.finish o with
  | error e => rfl
  | ok action =>
    rcases emits_or_prints_of_finish haction with ⟨text, rfl⟩ | ⟨f, k, rfl⟩ <;> rfl

/-- What holds at the beginning of a text holds behind it. -/
theorem IsSound.feed {t out : Bytes} (h : m.IsSound o arguments length increments)
    (ht : m.feed o t = .ok (out, m')) :
    m'.IsSound o arguments (length + t.length)
      (increments + (m.asked o t).count (.run .increment)) := by
  induction t generalizing m length increments out with
  | nil =>
    cases ht
    rw [count_asked_nil]
    exact h
  | cons b bs ih =>
    rw [feed_cons] at ht
    obtain ⟨⟨first, n⟩, hstep, hrest⟩ := exists_of_bind_eq_ok ht
    obtain ⟨⟨last, n'⟩, hlast, hend⟩ := exists_of_bind_eq_ok hrest
    cases hend
    obtain ⟨⟨action, next⟩, hread, hexec⟩ := exists_of_bind_eq_ok hstep
    have hlength : length + (b :: bs).length = length + 1 + bs.length := by
      rw [List.length_cons]
      omega
    rw [hlength, asked_cons hread hexec, List.count_append, ← Nat.add_assoc]
    exact ih (h.step hread hexec) hlast

end Machine

end Terminal.Template
