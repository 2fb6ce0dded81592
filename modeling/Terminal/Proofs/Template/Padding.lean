import Terminal.Proofs.Template.Scope

/-!
# Padding that is left out

A reader that leaves padding out asks for nothing from the `$<` of a specification to the `>` that
closes it, so the specification might as well not be there, whatever stands in it
(`feed_specification`).  It holds every other `$` back until the next byte, which then means what it
means without the `$` in front of it (`complete_dollar`).  `stripsPadding` says both of expansions.
-/

namespace Terminal.Template

variable {o : Options}

/-! ## Specifications -/

/-- In a specification nothing but a `>` counts. -/
theorem feed_padding (o : Options) (s : State) {body : Bytes} (h : 0x3e ∉ body) :
    Machine.feed o ⟨.padding, s⟩ body = .ok ([], ⟨.padding, s⟩) := by
  induction body with
  | nil => rfl
  | cons b bs ih =>
    obtain ⟨hb, hbs⟩ : 0x3e ≠ b ∧ 0x3e ∉ bs := by simpa using h
    have hread : Mode.read o .padding b = .ok (.idle, .padding) := by
      rw [Mode.read, if_neg hb.symm]
    rw [feed_idle hread, ih hbs]

/-- Where padding is stripped, a dollar sign may begin it. -/
theorem read_dollar (hp : o.padding = .strip) :
    Mode.read o .text 0x24 = .ok (.idle, .dollar) := by
  rw [Mode.read, Mode.readText, if_neg (by decide), if_pos ⟨rfl, hp⟩]
  rfl

/-- A specification that is not closed yet has no effect. -/
theorem feed_unended (hp : o.padding = .strip) (s : State) {body : Bytes} (h : 0x3e ∉ body) :
    Machine.feed o ⟨.text, s⟩ (Bytes.ofAscii ['$', '<'] ++ body) = .ok ([], ⟨.padding, s⟩) := by
  have hopen : Machine.feed o ⟨.text, s⟩ (Bytes.ofAscii ['$', '<']) = .ok ([], ⟨.padding, s⟩) :=
    feed_pair (read_dollar hp) rfl s
  rw [feed_append_of_silent hopen, feed_padding o s h]

/-- Behind a specification the reader stands as in front of it. -/
theorem feed_specification (hp : o.padding = .strip) (s : State) {body : Bytes}
    (h : 0x3e ∉ body) :
    Machine.feed o ⟨.text, s⟩ (Bytes.ofAscii ['$', '<'] ++ body ++ Bytes.ofAscii ['>']) =
      .ok ([], ⟨.text, s⟩) := by
  rw [feed_append_of_silent (feed_unended hp s h)]
  exact feed_idle rfl s []

/-! ## Other dollars -/

/-- A byte asks for the same whatever is held back in front of it. -/
theorem exists_readText_eq (o : Options) (b : UInt8) :
    ∃ text next, ∀ held, Mode.readText o held b = (.run (.emit (held ++ text)), next) := by
  unfold Mode.readText
  split
  · exact ⟨[], .percent, fun held => by rw [List.append_nil]⟩
  · split
    · exact ⟨[], .dollar, fun held => by rw [List.append_nil]⟩
    · exact ⟨[b], .text, fun _ => rfl⟩

/-- A `$` is emitted, and the text behind it is read as if it stood alone, unless a specification
begins with the `$`. -/
theorem complete_dollar (hp : o.padding = .strip) (s : State) {t : Bytes}
    (h : t.head? ≠ some 0x3c) :
    Machine.complete o ⟨.text, s⟩ (0x24 :: t) =
      emitFirst [0x24] (Machine.complete o ⟨.text, s⟩ t) := by
  have hheld : Machine.complete o ⟨.text, s⟩ (0x24 :: t) = Machine.complete o ⟨.dollar, s⟩ t :=
    complete_append_of_silent (t := [0x24]) (feed_idle (read_dollar hp) s []) t
  rw [hheld]
  cases t with
  | nil => rfl
  | cons b bs =>
    have hb : b ≠ 0x3c := by simpa using h
    obtain ⟨text, next, hreads⟩ := exists_readText_eq o b
    have hdollar : Mode.read o .dollar b = .ok (.run (.emit ([0x24] ++ text)), next) := by
      rw [Mode.read, if_neg hb, hreads]
    have htext : Mode.read o .text b = .ok (.run (.emit text), next) := by
      rw [Mode.read, hreads, List.nil_append]
    rw [complete_cons_of_emit hdollar, complete_cons_of_emit htext]
    exact emitFirst_append [0x24] text _

/-! ## Expansions -/

namespace Context

/-- Goes on with an expansion that has emitted some bytes and whose machine has still a text to
read. -/
def expandFrom (c : Context) (out : Bytes) (m : Machine) (t : Bytes) :
    Except Error (Bytes × Context) :=
  (m.complete c.options t).map fun r => (out ++ r.1, { c with statics := r.2.vars.statics })

variable {c : Context} {arguments : List Value} {u out : Bytes} {m : Machine} {s : State}

/-- An expansion goes on from wherever the beginning of its template has led. -/
theorem expand_append_eq_expandFrom (h : (c.machine arguments).feed c.options u = .ok (out, m))
    (v : Bytes) : c.expand (u ++ v) arguments = c.expandFrom out m v := by
  rw [expand_eq_map_complete, complete_append, h, expandFrom]
  simp only [bind, Except.bind]
  cases m.complete c.options v <;> rfl

/-- What stands behind some text in a template, as far as it concerns padding: behind a beginning
`u` of a template, which has emitted `out` and led to plain text, with the data `s`. -/
structure StripsPadding (c : Context) (arguments : List Value) (u out : Bytes) (s : State) :
    Prop where
  /-- A padding specification might as well not be there. -/
  removed : ∀ body v, 0x3e ∉ body →
    c.expand (u ++ (Bytes.ofAscii ['$', '<'] ++ body ++ Bytes.ofAscii ['>']) ++ v) arguments =
      c.expand (u ++ v) arguments
  /-- Neither might one that the template does not close. -/
  unended : ∀ body, 0x3e ∉ body →
    c.expand (u ++ (Bytes.ofAscii ['$', '<'] ++ body)) arguments = c.expand u arguments
  /-- Any other `$` is emitted where it stands, and makes no difference to what follows. -/
  kept : ∀ v : Bytes, v.head? ≠ some 0x3c →
    c.expand (u ++ v) arguments = c.expandFrom out ⟨.text, s⟩ v ∧
      c.expand (u ++ 0x24 :: v) arguments = c.expandFrom (out ++ [0x24]) ⟨.text, s⟩ v

/-- Wherever a reader stands in plain text, a context that leaves padding out leaves out the padding
specifications and nothing else. -/
theorem stripsPadding (hp : c.options.padding = .strip)
    (h : (c.machine arguments).feed c.options u = .ok (out, ⟨.text, s⟩)) :
    c.StripsPadding arguments u out s where
  removed body v hbody := by
    rw [List.append_assoc, expand_append_eq_expandFrom h, expand_append_eq_expandFrom h, expandFrom,
      expandFrom, complete_append_of_silent (feed_specification hp s hbody)]
  unended body hbody := by
    have hcomplete : Machine.complete c.options ⟨.text, s⟩ (Bytes.ofAscii ['$', '<'] ++ body) =
        Machine.complete c.options ⟨.text, s⟩ [] := by
      rw [Machine.complete, feed_unended hp s hbody]
      rfl
    have hu := expand_append_eq_expandFrom h []
    rw [List.append_nil] at hu
    rw [hu, expand_append_eq_expandFrom h, expandFrom, expandFrom, hcomplete]
  kept v hv := by
    refine ⟨expand_append_eq_expandFrom h v, ?_⟩
    rw [expand_append_eq_expandFrom h, expandFrom, expandFrom, complete_dollar hp s hv]
    cases Machine.complete c.options ⟨.text, s⟩ v with
    | error e => rfl
    | ok r => simp only [emitFirst, Except.map, Prod.map, id, List.append_assoc]

/-- In `%p1%d$<%p9*>$$%%` the second `%p` is part of a specification and asks for no argument. -/
theorem stripsPadding_argument :
    ({ options := { padding := .strip } } : Context).expand
        (Bytes.ofAscii ['%', 'p', '1', '%', 'd'] ++
          (Bytes.ofAscii ['$', '<'] ++ Bytes.ofAscii ['%', 'p', '9', '*'] ++ Bytes.ofAscii ['>']) ++
          Bytes.ofAscii ['$', '$', '%', '%']) [.integer 42] =
      .ok (Bytes.ofAscii ['4', '2', '$', '$', '%'], { options := { padding := .strip } }) := by
  have hbefore : (({ options := { padding := .strip } } : Context).machine [.integer 42]).feed
      { padding := .strip } (Bytes.ofAscii ['%', 'p', '1', '%', 'd']) =
        .ok (Bytes.ofAscii ['4', '2'], ⟨.text, { arguments := [.integer 42] }⟩) := rfl
  exact ((stripsPadding rfl hbefore).removed _ _ (by decide)).trans rfl

/-- The first of two dollars is kept, and the second one begins a specification. -/
example : ({ options := { padding := .strip } } : Context).expand
      (Bytes.ofAscii ['$', '$', '<', '5', '>', '$', '%', 'p', '1', '%', 'd', '$']) [.integer 7] =
    .ok (Bytes.ofAscii ['$', '$', '7', '$'], { options := { padding := .strip } }) := rfl

end Context

end Terminal.Template
