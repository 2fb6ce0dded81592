import Terminal.Template.Mode

/-!
# The template machine

A `Machine` is a reader's mode together with the data of an expansion.  `Machine.step` reads one
byte and yields the bytes that it emits; `Machine.feed` reads a whole text, and `Machine.finish`
closes a run.  A run of two texts one after the other is a run of the first and then of the second
(`feed_append`).
-/

namespace Terminal.Template

/-- A reader in the middle of a template. -/
structure Machine where
  mode : Mode := .text
  state : State := {}
deriving DecidableEq

/-- Carries out an action; `next` is the mode that follows unless a test fails. -/
def Action.exec (order : OperandOrder) (action : Action) (next : Mode) (s : State) :
    Except Error (Bytes × Machine) :=
  match action with
  | run i => do
    let (out, s) ← i.exec order s
    return (out, ⟨next, s⟩)
  | test => do
    let (v, s) ← s.popInteger 't'
    return ([], ⟨if v = 0 then .skip .consequence 0 false else next, s⟩)

namespace Machine

/-- Reads one byte: the bytes that are emitted and the machine after it. -/
def step (o : Options) (m : Machine) (b : UInt8) : Except Error (Bytes × Machine) := do
  let (action, next) ← m.mode.read o b
  action.exec o.operands next m.state

/-- Reads a text, with the bytes that were emitted before in reverse order. -/
def feedOnto (o : Options) (emitted : Bytes) (m : Machine) : Bytes → Except Error (Bytes × Machine)
  | [] => .ok (emitted.reverse, m)
  | b :: bs =>
    match m.step o b with
    | .ok (out, m) => feedOnto o (out.reverse ++ emitted) m bs
    | .error e => .error e

/-- Reads a text: all the bytes that are emitted and the machine after it. -/
def feed (o : Options) (m : Machine) (text : Bytes) : Except Error (Bytes × Machine) :=
  feedOnto o [] m text

/-- Closes a run: the bytes that are emitted at the end, and the data that the run leaves. -/
def finish (o : Options) (m : Machine) : Except Error (Bytes × State) := do
  let action ← m.mode.finish o
  let (out, m) ← action.exec o.operands .text m.state
  return (out, m.state)

/-- Reads a text to its end. -/
def complete (o : Options) (m : Machine) (text : Bytes) : Except Error (Bytes × State) := do
  let (out, m) ← m.feed o text
  let (last, s) ← m.finish o
  return (out ++ last, s)

/-! ## Runs byte by byte -/

/-- The loop with an accumulator is `feed` behind what was emitted before. -/
theorem feedOnto_eq (o : Options) (emitted : Bytes) (m : Machine) (text : Bytes) :
    feedOnto o emitted m text = (m.feed o text).map fun (out, m) => (emitted.reverse ++ out, m) := by
  induction text generalizing emitted m with
  | nil => simp [feed, feedOnto, Except.map]
  | cons b bs ih =>
    simp only [feed, feedOnto]
    cases m.step o b with
    | error e => rfl
    | ok r =>
      simp only [ih _ r.2]
      cases feed o r.2 bs <;> simp [Except.map]

/-- No bytes leave the machine as it is. -/
@[simp] theorem feed_nil (o : Options) (m : Machine) : m.feed o [] = .ok ([], m) := rfl

/-- Text is taken in one byte at a time, and the outputs stand one behind the other. -/
theorem feed_cons (o : Options) (m : Machine) (b : UInt8) (bs : Bytes) :
    m.feed o (b :: bs) = (do
      let (out, m) ← m.step o b
      let (rest, m) ← m.feed o bs
      return (out ++ rest, m)) := by
  rw [feed, feedOnto]
  cases h : m.step o b with
  | error e => rfl
  | ok r =>
    simp only [feedOnto_eq]
    cases h : feed o r.2 bs <;> simp [h, Except.map, bind, Except.bind, pure, Except.pure]

/-- Text may be cut anywhere: the second part starts from the machine the first one leaves. -/
theorem feed_append (o : Options) (m : Machine) (t u : Bytes) :
    m.feed o (t ++ u) = (do
      let (out, m) ← m.feed o t
      let (rest, m) ← m.feed o u
      return (out ++ rest, m)) := by
  induction t generalizing m with
  | nil =>
    cases h : feed o m u <;> simp [h, bind, Except.bind, pure, Except.pure]
  | cons b bs ih =>
    rw [List.cons_append, feed_cons, feed_cons]
    cases m.step o b with
    | error e => rfl
    | ok r =>
      simp only [bind, Except.bind, ih]
      cases feed o r.2 bs with
      | error e => rfl
      | ok q => cases h : feed o q.2 u <;> simp [h, pure, Except.pure]

end Machine

end Terminal.Template
