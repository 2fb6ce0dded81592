import Mathlib.Data.List.Infix
import Terminal.Proofs.Template.Composition
import Terminal.Proofs.Template.Reader

/-!
# The scope of an option

Each option of an expansion matters to some directives only.  Two runs whose options differ stay in
step as long as no byte asks for anything that the options decide (`InStep`); then they emit the same
and leave the same (`InStep.complete_eq`).  Only padding that is left out breaks the step: behind a
`$` the output lags by one byte (`lags_of_isUnpadded`).  `isScoped` puts together what a change of a
single option leaves as it is.
-/

namespace Terminal.Template

/-! ## Where a byte leads -/

namespace Mode

/-- In a format. -/
def isFormat : Mode → Bool
  | format .. => true
  | _ => false

/-- In what may be a padding specification to be left out. -/
def isPadding : Mode → Bool
  | dollar | padding => true
  | _ => false

/-- Neither behind a `%` nor in a format or a padding specification. -/
def isOrdinary : Mode → Bool
  | dollar | padding | percent | format .. => false
  | _ => true

end Mode

/-- What the action that a byte asks for and the mode behind it say about the byte and the mode
before it. -/
structure Follows (mode : Mode) (b : UInt8) (action : Action) (next : Mode) : Prop where
  arithmetic : ∀ op, action = .run (.arithmetic op) → mode = .percent ∧ Char.ofUInt8 b = op.symbol
  percent : next = .percent → b = 0x25
  format : next.isFormat = true → mode.isFormat = true ∨
    mode = .percent ∧ (Char.ofUInt8 b = ':' ∨ Format.isBareStart (Char.ofUInt8 b) = true)
  padding : next.isPadding = true → mode = .text ∨ mode.isPadding = true

/-- An arithmetic operator is named by its own letter only. -/
theorem Arithmetic.eq_symbol_of_ofChar? {c : Char} {op : Arithmetic} (h : ofChar? c = some op) :
    c = op.symbol := by
  unfold ofChar? at h
  split at h <;> cases h <;> rfl

/-- A directive that calculates is the letter of its operator. -/
theorem Instruction.eq_symbol_of_ofChar? {c : Char} {op : Arithmetic}
    (h : ofChar? c = some (.arithmetic op)) : c = op.symbol := by
  unfold ofChar? at h
  split at h
  · next hop =>
    cases h
    exact Arithmetic.eq_symbol_of_ofChar? hop
  · cases h
  · cases h
  · split at h <;> cases h

section Reading

variable {o : Options} {mode next : Mode} {b : UInt8} {action : Action}

/-- Most modes say nothing. -/
theorem Follows.of_isOrdinary (haction : ∀ op, action = .run (.arithmetic op) →
    mode = .percent ∧ Char.ofUInt8 b = op.symbol) (hnext : next.isOrdinary = true) :
    Follows mode b action next := by
  refine ⟨haction, fun h => ?_, fun h => ?_, fun h => ?_⟩
  · subst h
    cases hnext
  · cases next with
    | format spec k => cases hnext
    | _ => cases h
  · cases next with
    | dollar | padding => cases hnext
    | _ => cases h

/-- Every read byte goes on from what stands before it, as `Follows` lists. -/
theorem follows_of_read (h : mode.read o b = .ok (action, next)) : Follows mode b action next := by
  -- Most readings are ordinary: they neither calculate nor enter a format or padding.
  cases reads_of_read h with
  | percent hmode => exact ⟨nofun, fun _ => rfl, nofun, nofun⟩
  | dollar hmode hp =>
    refine ⟨nofun, nofun, nofun, fun _ => ?_⟩
    cases hmode with
    | text => exact .inl rfl
    | dollar => exact .inr rfl
  | openPadding | padding => exact ⟨nofun, nofun, nofun, fun _ => .inr rfl⟩
  | instruction hi =>
    refine .of_isOrdinary (fun op hop => ⟨rfl, ?_⟩) rfl
    cases hop
    exact Instruction.eq_symbol_of_ofChar? hi
  | openFormat hc => exact ⟨nofun, nofun, fun _ => .inr ⟨rfl, .inl hc⟩, nofun⟩
  | bareFormat he hb => exact ⟨nofun, nofun, fun _ => .inr ⟨rfl, .inr hb⟩, nofun⟩
  | spec | letter | passed => exact ⟨nofun, nofun, fun _ => .inl rfl, nofun⟩
  | skipDirective part depth b =>
    refine .of_isOrdinary nofun ?_
    unfold Mode.skipDirective
    split
    case h_3 => split <;> rfl
    all_goals rfl
  | _ => exact .of_isOrdinary nofun rfl

end Reading

/-! ## Runs in step -/

/-- None of the characters stands behind a `%` in the text. -/
def Avoids (t : Bytes) (directives : List Char) : Prop :=
  ∀ c ∈ directives, ¬Bytes.ofAscii ['%', c] <:+: t

/-- The mode behind a byte follows from the byte, unless a part is passed over from there on. -/
theorem exists_follows_of_step {o : Options} {m m' : Machine} {b : UInt8} {out : Bytes}
    (h : m.step o b = .ok (out, m')) :
    m'.mode = .skip .consequence 0 false ∨ ∃ action, Follows m.mode b action m'.mode := by
  obtain ⟨⟨action, next⟩, hread, hexec⟩ := exists_of_bind_eq_ok h
  rcases mode_of_exec hexec with hnext | hskip
  · rw [hnext]
    exact .inr ⟨action, follows_of_read hread⟩
  · exact .inl hskip

/-- Two choices of options that machines in some modes cannot tell apart, as long as none of some
characters stands behind a `%`. -/
structure InStep (o o' : Options) (within : Mode → Prop) (directives : List Char) : Prop where
  step : ∀ (m : Machine) (b : UInt8), within m.mode →
    (m.mode = .percent → Char.ofUInt8 b ∉ directives) → m.step o' b = m.step o b
  stays : ∀ (m m' : Machine) (b : UInt8) (out : Bytes), within m.mode →
    (m.mode = .percent → Char.ofUInt8 b ∉ directives) → m.step o b = .ok (out, m') → within m'.mode
  finish : ∀ m : Machine, within m.mode → m.finish o' = m.finish o

/-- Runs through a text without such a character are in step from beginning to end. -/
theorem InStep.complete_eq {o o' : Options} {within : Mode → Prop} {directives : List Char}
    (h : InStep o o' within directives) {t : Bytes} (ht : Avoids t directives) {m : Machine}
    (hm : within m.mode)
    (hhead : m.mode = .percent → ∀ b ∈ t.head?, Char.ofUInt8 b ∉ directives) :
    m.complete o' t = m.complete o t := by
  induction t generalizing m with
  | nil =>
    simp only [Machine.complete, Machine.feed_nil, bind, Except.bind, h.finish m hm]
  | cons b bs ih =>
    have hb : m.mode = .percent → Char.ofUInt8 b ∉ directives := fun hmode => hhead hmode b rfl
    have hbs : Avoids bs directives := fun c hc hbs =>
      ht c hc (hbs.trans (List.suffix_cons b bs).isInfix)
    rw [complete_cons, complete_cons, h.step m b hm hb]
    cases hstep : m.step o b with
    | error e => rfl
    | ok r =>
      obtain ⟨out, m'⟩ := r
      have hnext : m'.mode = .percent → ∀ b' ∈ bs.head?, Char.ofUInt8 b' ∉ directives := by
        intro hmode b' hb' hmem
        -- the reader stands behind a `%` only if it has just read one
        rcases exists_follows_of_step hstep with hskip | ⟨action, hfollows⟩
        · rw [hskip] at hmode
          cases hmode
        · obtain rfl := hfollows.percent hmode
          obtain ⟨bs', rfl⟩ := List.head?_eq_some_iff.mp hb'
          refine ht _ hmem ⟨[], bs', ?_⟩
          rw [Bytes.ofAscii, List.map_cons, List.map_cons, toUInt8_ofUInt8]
          rfl
      simp only [bind, Except.bind, ih hbs (h.stays m m' b out hm hb hstep) hnext]

/-! ## The operand order -/

/-- Only minus, division and remainder tell their operands apart. -/
theorem Arithmetic.eval_comm {op : Arithmetic} (h : op.symbol ∉ ['-', '/', 'm']) (x y : Int32) :
    op.eval x y = op.eval y x := by
  cases op with
  | add => exact Int32.add_comm x y
  | mul => exact Int32.mul_comm x y
  | and => exact Int32.and_comm x y
  | or => exact Int32.or_comm x y
  | xor => exact Int32.xor_comm x y
  | sub | div | mod => simp [symbol] at h

/-- Only a difference, a quotient and a remainder have a left operand. -/
theorem exec_order {i : Instruction}
    (h : ∀ op, i = .arithmetic op → op.symbol ∉ ['-', '/', 'm']) (order order' : OperandOrder)
    (s : State) : i.exec order' s = i.exec order s := by
  cases i with
  | arithmetic op =>
    simp only [Instruction.exec]
    cases s.popInteger op.symbol with
    | error e => rfl
    | ok last =>
      cases hfirst : last.2.popInteger op.symbol with
      | error e => simp only [bind, Except.bind, hfirst]
      | ok first =>
        have hcomm := Arithmetic.eval_comm (h op rfl) last.1 first.1
        simp only [bind, Except.bind, hfirst]
        cases order <;> cases order' <;> simp only [hcomm]
  | _ => rfl

/-- The order of operands matters to no action but the three sided operators. -/
theorem Action.exec_order {action : Action}
    (h : ∀ op, action = .run (.arithmetic op) → op.symbol ∉ ['-', '/', 'm'])
    (order order' : OperandOrder) (next : Mode) (s : State) :
    action.exec order' next s = action.exec order next s := by
  cases action with
  | run i =>
    have hi := Terminal.Template.exec_order (fun op hop => h op (congrArg run hop)) order order' s
    simp only [exec, hi]
  | test => rfl

/-- At the end of a template no operator is left. -/
theorem ne_arithmetic_of_finish {o : Options} {mode : Mode} {action : Action}
    (h : mode.finish o = .ok action) (op : Arithmetic) : action ≠ .run (.arithmetic op) := by
  rintro rfl
  rcases emits_or_prints_of_finish h with ⟨text, hemit⟩ | ⟨f, k, hprint⟩
  · cases hemit
  · cases hprint

/-- Two orders of operands run in step until a sided operator. -/
theorem inStep_operands (o : Options) (order : OperandOrder) :
    InStep o { o with operands := order } (fun _ => True) ['-', '/', 'm'] where
  step m b _ hb := by
    have hread : m.mode.read { o with operands := order } b = m.mode.read o b := by
      cases m.mode <;> rfl
    unfold Machine.step
    rw [hread]
    cases haction : m.mode.read o b with
    | error e => rfl
    | ok r =>
      obtain ⟨action, next⟩ := r
      -- A sided operator would have been read from its letter behind `%`, which is ruled out.
      refine Action.exec_order (fun op hop => ?_) o.operands order next m.state
      subst hop
      obtain ⟨hmode, hsymbol⟩ := (follows_of_read haction).arithmetic op rfl
      exact hsymbol ▸ hb hmode
  stays _ _ _ _ _ _ _ := trivial
  finish m _ := by
    have hfinish : m.mode.finish { o with operands := order } = m.mode.finish o := by
      cases m.mode <;> rfl
    unfold Machine.finish
    rw [hfinish]
    cases haction : m.mode.finish o with
    | error e => rfl
    | ok action =>
      have hexec := Action.exec_order (fun op hop => absurd hop (ne_arithmetic_of_finish haction op))
        o.operands order .text m.state
      simp only [bind, Except.bind, hexec]

/-! ## The end of a format -/

/-- Two readings of the end of a format run in step until a format. -/
theorem inStep_formatEnd (o : Options) (fe : FormatEnd) :
    InStep o { o with formatEnd := fe } (fun mode => mode.isFormat = false)
      [':', '#', ' ', '.', '0', '1', '2', '3', '4', '5', '6', '7', '8', '9'] where
  step m b hm hb := by
    have hread : m.mode.read { o with formatEnd := fe } b = m.mode.read o b := by
      cases hmode : m.mode with
      | format spec k => simp [hmode, Mode.isFormat] at hm
      -- The two readings part behind `%`, but only at characters that begin a bare format.
      | percent =>
        have hbare : Format.isBareStart (Char.ofUInt8 b) = false := by
          by_contra h
          exact hb hmode (List.mem_cons_of_mem ':' (Format.mem_of_isBareStart (by simpa using h)))
        simp only [Mode.read, Mode.readDirective, hbare, Bool.false_eq_true, and_false, if_false]
        rfl
      | skip part depth behind => cases behind <;> rfl
      | _ => rfl
    unfold Machine.step
    rw [hread]
  stays m m' b out hm hb h := by
    rcases exists_follows_of_step h with hskip | ⟨action, hfollows⟩
    · rw [hskip]
      rfl
    · by_contra hformat
      -- A format is entered only by the characters that are ruled out.
      rcases hfollows.format (by simpa using hformat) with hmode | ⟨hmode, hcolon | hbare⟩
      · simp [hm] at hmode
      · exact hb hmode (hcolon ▸ List.mem_cons_self)
      · exact hb hmode (List.mem_cons_of_mem ':' (Format.mem_of_isBareStart hbare))
  finish m hm := by
    have hfinish : m.mode.finish { o with formatEnd := fe } = m.mode.finish o := by
      cases hmode : m.mode with
      | format spec k => simp [hmode, Mode.isFormat] at hm
      | _ => rfl
    unfold Machine.finish
    rw [hfinish]

/-! ## Padding -/

/-- A byte that only emits something. -/
theorem complete_cons_of_emit {o : Options} {mode next : Mode} {b : UInt8} {text : Bytes}
    (h : mode.read o b = .ok (.run (.emit text), next)) (s : State) (bs : Bytes) :
    Machine.complete o ⟨mode, s⟩ (b :: bs) =
      (Machine.complete o ⟨next, s⟩ bs).map (Prod.map (text ++ ·) id) := by
  have hstep : Machine.step o ⟨mode, s⟩ b = .ok (text, ⟨next, s⟩) := by
    simp only [Machine.step, h]
    rfl
  rw [complete_cons, hstep]
  cases hrest : Machine.complete o ⟨next, s⟩ bs <;> simp only [bind, Except.bind, hrest] <;> rfl

/-- Outside plain text, padding makes no difference. -/
theorem read_padding (o : Options) {mode : Mode} (htext : mode ≠ .text)
    (hpadding : mode.isPadding = false) (p : Padding) (b : UInt8) :
    mode.read { o with padding := p } b = mode.read o b := by
  cases mode with
  | text => exact absurd rfl htext
  | dollar | padding => cases hpadding
  | skip part depth behind => cases behind <;> rfl
  | _ => rfl

/-- The end of the template is the same with and without stripping. -/
theorem finish_padding (o : Options) (p : Padding) (m : Machine) :
    m.finish { o with padding := p } = m.finish o := by
  have hfinish : m.mode.finish { o with padding := p } = m.mode.finish o := by
    cases m.mode <;> rfl
  unfold Machine.finish
  rw [hfinish]

/-- The same run with bytes in front of what it emits. -/
def emitFirst (held : Bytes) (r : Except Error (Bytes × State)) : Except Error (Bytes × State) :=
  r.map (Prod.map (held ++ ·) id)

/-- What is emitted first may be emitted in two parts. -/
theorem emitFirst_append (held text : Bytes) (r : Except Error (Bytes × State)) :
    emitFirst (held ++ text) r = emitFirst held (emitFirst text r) := by
  cases r with
  | error e => rfl
  | ok q =>
    simp only [emitFirst, Except.map, Prod.map, List.append_assoc, id]

@[simp] theorem emitFirst_nil (r : Except Error (Bytes × State)) : emitFirst [] r = r := by
  cases r <;> rfl

section Strip

variable {o : Options} {bs : Bytes}

/-- A text in which no padding specification begins behind a `$`. -/
def IsUnpadded (t : Bytes) : Prop := ¬Bytes.ofAscii ['$', '<'] <:+: t

/-- A rest of a text without padding has no padding. -/
theorem IsUnpadded.tail {b : UInt8} (h : IsUnpadded (b :: bs)) : IsUnpadded bs :=
  fun hbs => h (hbs.trans (List.suffix_cons b bs).isInfix)

/-- In a text without padding, no `<` follows a dollar sign. -/
theorem IsUnpadded.head?_ne (h : IsUnpadded (0x24 :: bs)) : bs.head? ≠ some 0x3c := by
  intro hhead
  obtain ⟨rest, rfl⟩ := List.head?_eq_some_iff.mp hhead
  exact h ⟨[], rest, rfl⟩

/-- What the runs that leave padding out and that emit it have to do with one another before a
text.  Behind a `$` the first one has still to emit it. -/
structure Lags (o : Options) (t : Bytes) : Prop where
  level : ∀ m : Machine, m.mode.isPadding = false →
    m.complete { o with padding := .strip } t = m.complete { o with padding := .emit } t
  behind : ∀ s : State, t.head? ≠ some 0x3c →
    Machine.complete { o with padding := .strip } ⟨.dollar, s⟩ t =
      emitFirst [0x24] (Machine.complete { o with padding := .emit } ⟨.text, s⟩ t)

/-- At the end of a template the lagging run has caught up. -/
theorem Lags.nil (o : Options) : Lags o [] where
  level m _ := by
    simp only [Machine.complete, Machine.feed_nil, bind, Except.bind]
    rw [finish_padding o .strip m, finish_padding o .emit m]
  behind _ _ := rfl

/-- A byte of plain text behind what is held back. -/
theorem Lags.readText (h : Lags o bs) {b : UInt8} (hb : IsUnpadded (b :: bs)) {mode : Mode}
    {held : Bytes}
    (hread : mode.read { o with padding := .strip } b =
      .ok (Mode.readText { o with padding := .strip } held b)) (s : State) :
    Machine.complete { o with padding := .strip } ⟨mode, s⟩ (b :: bs) =
      emitFirst held (Machine.complete { o with padding := .emit } ⟨.text, s⟩ (b :: bs)) := by
  -- The byte is a `%`, a dollar sign or neither; only the dollar sign is held back in its turn.
  by_cases hpercent : b = 0x25
  · have hstrip : mode.read { o with padding := .strip } b = .ok (.run (.emit held), .percent) := by
      rw [hread, Mode.readText, if_pos hpercent]
    have hemit : Mode.text.read { o with padding := .emit } b = .ok (.run (.emit []), .percent) := by
      rw [Mode.read, Mode.readText, if_pos hpercent]
    rw [complete_cons_of_emit hstrip, complete_cons_of_emit hemit, h.level ⟨.percent, s⟩ rfl]
    exact congrArg (emitFirst held) (emitFirst_nil _).symm
  · by_cases hdollar : b = 0x24
    · have hstrip : mode.read { o with padding := .strip } b = .ok (.run (.emit held), .dollar) := by
        rw [hread, Mode.readText, if_neg hpercent, if_pos ⟨hdollar, rfl⟩]
      have hemit : Mode.text.read { o with padding := .emit } b = .ok (.run (.emit [b]), .text) := by
        rw [Mode.read, Mode.readText, if_neg hpercent, if_neg (by simp)]
        rfl
      subst hdollar
      rw [complete_cons_of_emit hstrip, complete_cons_of_emit hemit, h.behind s hb.head?_ne]
      rfl
    · have hstrip : mode.read { o with padding := .strip } b =
          .ok (.run (.emit (held ++ [b])), .text) := by
        rw [hread, Mode.readText, if_neg hpercent, if_neg (by simp [hdollar])]
      have hemit : Mode.text.read { o with padding := .emit } b = .ok (.run (.emit [b]), .text) := by
        rw [Mode.read, Mode.readText, if_neg hpercent, if_neg (by simp)]
        rfl
      rw [complete_cons_of_emit hstrip, complete_cons_of_emit hemit, h.level ⟨.text, s⟩ rfl]
      exact emitFirst_append held [b] _

/-- A byte in front keeps a run lagging by the dollar sign that it may have to hold back. -/
theorem Lags.cons (h : Lags o bs) {b : UInt8} (hb : IsUnpadded (b :: bs)) : Lags o (b :: bs) where
  level m hm := by
    obtain ⟨mode, s⟩ := m
    -- Outside plain text both runs take the same step, and no step but from there begins padding.
    by_cases htext : mode = .text
    · subst htext
      rw [h.readText hb rfl s, emitFirst_nil]
    · have hstep : Machine.step { o with padding := .strip } ⟨mode, s⟩ b =
          Machine.step { o with padding := .emit } ⟨mode, s⟩ b := by
        simp only [Machine.step, read_padding o htext hm]
      rw [complete_cons, complete_cons, hstep]
      cases hnext : Machine.step { o with padding := .emit } ⟨mode, s⟩ b with
      | error e => rfl
      | ok r =>
        have hr : r.2.mode.isPadding = false := by
          rcases exists_follows_of_step hnext with hskip | ⟨action, hfollows⟩
          · rw [hskip]
            rfl
          · by_contra hpadding
            rcases hfollows.padding (by simpa using hpadding) with hmode | hmode
            · exact htext hmode
            · simp [hm] at hmode
        simp only [bind, Except.bind, h.level r.2 hr]
  behind s hhead := by
    have hne : b ≠ 0x3c := by simpa using hhead
    exact h.readText hb (by rw [Mode.read, if_neg hne]) s

/-- Without padding specifications, a run emits the same whatever becomes of them. -/
theorem lags_of_isUnpadded {t : Bytes} (ht : IsUnpadded t) : Lags o t := by
  induction t with
  | nil => exact .nil o
  | cons b bs ih => exact (ih ht.tail).cons ht

end Strip

/-! ## Expansions -/

namespace Context

/-- The bytes of an expansion and the static variables after it. -/
def outcome (c : Context) (template : Bytes) (arguments : List Value) :
    Except Error (Bytes × Bank) :=
  (c.expand template arguments).map fun r => (r.1, r.2.statics)

/-- The same context with other options. -/
def under (c : Context) (o : Options) : Context := { c with options := o }

/-- What an expansion gives and leaves, as a run of the machine. -/
theorem outcome_eq (c : Context) (template : Bytes) (arguments : List Value) :
    c.outcome template arguments =
      ((c.machine arguments).complete c.options template).map fun r => (r.1, r.2.vars.statics) := by
  rw [outcome, expand_eq_map_complete]
  cases (c.machine arguments).complete c.options template <;> rfl

/-- What a change of one option leaves as it is. -/
structure IsScoped (c : Context) (t : Bytes) (arguments : List Value) : Prop where
  /-- The operand order matters to differences, quotients and remainders. -/
  operands : Avoids t ['-', '/', 'm'] → ∀ order : OperandOrder,
    (c.under { c.options with operands := order }).outcome t arguments = c.outcome t arguments
  /-- The end of formats matters to those that are more than a letter. -/
  formatEnd : Avoids t [':', '#', ' ', '.', '0', '1', '2', '3', '4', '5', '6', '7', '8', '9'] →
    ∀ fe : FormatEnd,
      (c.under { c.options with formatEnd := fe }).outcome t arguments = c.outcome t arguments
  /-- Leaving padding out matters to `$<` and to no other `$`. -/
  padding : IsUnpadded t → ∀ p : Padding,
    (c.under { c.options with padding := p }).outcome t arguments = c.outcome t arguments
  /-- The lifetime of static variables matters to contexts that are not new. -/
  statics : c.statics = Bank.zero → ∀ lifetime : Lifetime,
    (c.under { c.options with statics := lifetime }).outcome t arguments = c.outcome t arguments

/-- A context whose static variables are zero starts from zero, however long they live. -/
theorem machine_of_statics_eq_zero {c : Context} (h : c.statics = Bank.zero)
    (arguments : List Value) : c.machine arguments = Machine.start Bank.zero arguments := by
  have hstatics : c.initialStatics = Bank.zero := by
    unfold initialStatics
    split
    · rfl
    · exact h
  unfold machine
  rw [hstatics]
  rfl

/-- An option makes no difference to a template without the directives that it governs, whatever
else stands in the template. -/
theorem isScoped (c : Context) (t : Bytes) (arguments : List Value) : c.IsScoped t arguments where
  operands ht order := by
    rw [outcome_eq, outcome_eq]
    exact congrArg _ ((inStep_operands c.options order).complete_eq ht trivial nofun)
  formatEnd ht fe := by
    rw [outcome_eq, outcome_eq]
    exact congrArg _ ((inStep_formatEnd c.options fe).complete_eq ht rfl nofun)
  padding ht p := by
    -- Both runs are compared with the one that emits padding.
    have hemit (p : Padding) : (c.machine arguments).complete { c.options with padding := p } t =
        (c.machine arguments).complete { c.options with padding := .emit } t := by
      cases p with
      | emit => rfl
      | strip => exact (lags_of_isUnpadded ht).level (c.machine arguments) rfl
    rw [outcome_eq, outcome_eq]
    exact congrArg _ ((hemit p).trans (hemit c.options.padding).symm)
  statics hc lifetime := by
    have hunder : (c.under { c.options with statics := lifetime }).statics = Bank.zero := hc
    rw [outcome_eq, outcome_eq, machine_of_statics_eq_zero hc, machine_of_statics_eq_zero hunder]
    exact congrArg _ (complete_lifetime c.options lifetime _ t)

/-- Every `$` of `$%p1%d$` is emitted, also one that had to be held back. -/
example : ({ options := { padding := .strip } } : Context).outcome
      (Bytes.ofAscii ['$', '%', 'p', '1', '%', 'd', '$']) [.integer 7] =
    .ok (Bytes.ofAscii ['$', '7', '$'], Bank.zero) := rfl

end Context

end Terminal.Template
