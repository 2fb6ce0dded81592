import Terminal.Proofs.Template.Structured

/-!
# Parts that are not chosen

A part of a conditional that is not chosen should be as good as absent: the reader is in plain text
again behind its last mark, and what follows is expanded as if the conditional were not there
(`Tree.Vanishes`).  Where a `%` ends formats this can fail, since a reader that passes over a format
takes that `%` for the first of a pair, and the mark behind it goes unseen.  `vanishes_iff` is the
exact condition, which can be decided from the lexemes.
-/

namespace Terminal.Template

/-! ## Two ways not to be chosen -/

/-- The text in front of a part that is not chosen: `%?%{0}%t` in front of a consequence, and
`%?%{1}%t%e` in front of an alternative. -/
def Part.front : Part → Bytes
  | .consequence => Bytes.ofAscii ['%', '?', '%', '\x7b', '0', '\x7d', '%', 't']
  | .alternative => Bytes.ofAscii ['%', '?', '%', '\x7b', '1', '\x7d', '%', 't', '%', 'e']

/-- A part that is not chosen has no effect.  Nothing in it ends it early, the mark behind it is
seen, and whatever text follows is expanded as if it stood alone. -/
structure Tree.Vanishes (c : Context) (f : Tree) : Prop where
  ends : ∀ part : Part,
    part.EndsAfter c.options (f.text c.options.formatEnd ++ Bytes.ofAscii ['%', ';'])
  expand : ∀ (part : Part) (u : Bytes) (arguments : List Value),
    c.expand (part.front ++ f.text c.options.formatEnd ++ Bytes.ofAscii ['%', ';'] ++ u) arguments =
      c.expand u arguments

/-- Whether a reader that passes over the tree as a consequence stands behind it as in front of
it. -/
def Tree.IsPassable (fe : FormatEnd) (f : Tree) : Prop :=
  f.lexemes.foldlM (Lexeme.pass fe .consequence) {} = some {}

instance (fe : FormatEnd) (f : Tree) : Decidable (f.IsPassable fe) :=
  inferInstanceAs (Decidable (_ = _))

/-- The number in front of the part is put on the stack and taken again, so nothing is left of
it. -/
theorem feed_front (o : Options) (part : Part) (s : State) :
    Machine.feed o ⟨.text, s⟩ part.front = .ok ([], ⟨.skip part 0 false, s⟩) := by
  cases part <;> rfl

/-- A text that emits nothing and leaves the machine as it was can be left out of a template. -/
theorem expand_append_of_silent (c : Context) {t : Bytes} (arguments : List Value)
    (h : (c.machine arguments).feed c.options t = .ok ([], c.machine arguments)) (u : Bytes) :
    c.expand (t ++ u) arguments = c.expand u arguments := by
  rw [expand_eq_map_complete, expand_eq_map_complete, complete_append_of_silent h]

/-- A tree that can be passed over as a consequence can be passed over as an alternative, which
fewer marks end. -/
theorem Tree.IsPassable.foldlM_pass_text {fe : FormatEnd} {f : Tree} (hf : f.isValid fe = true)
    (h : f.IsPassable fe) (part : Part) : (f.text fe).foldlM part.pass {} = some {} := by
  have hconsequence : (f.text fe).foldlM (Part.pass .consequence) {} = some {} :=
    (f.foldlM_pass_text fe .consequence {} hf).trans h
  cases part with
  | consequence => exact hconsequence
  | alternative => exact foldlM_pass_alternative hconsequence

/-! ## Trees that vanish -/

/-- A tree that can be passed over has no effect where it is not chosen. -/
theorem Tree.IsPassable.vanishes {c : Context} {f : Tree}
    (hf : f.isValid c.options.formatEnd = true) (h : f.IsPassable c.options.formatEnd) :
    f.Vanishes c := by
  have hends (part : Part) :
      part.EndsAfter c.options (f.text c.options.formatEnd ++ Bytes.ofAscii ['%', ';']) :=
    (endsAfter_closing_iff part c.options _).mpr (h.foldlM_pass_text hf part)
  refine ⟨hends, fun part u arguments => expand_append_of_silent c arguments ?_ u⟩
  rw [List.append_assoc, Context.machine, feed_append_of_silent (feed_front c.options part _)]
  exact (hends part _).1

/-! ## The exact condition -/

/-- A tree vanishes from the parts that are not chosen exactly if it can be passed over. -/
theorem vanishes_iff (c : Context) {f : Tree} (hf : f.isValid c.options.formatEnd = true) :
    f.Vanishes c ↔ f.IsPassable c.options.formatEnd := by
  constructor
  · intro h
    have hpass := (endsAfter_closing_iff .consequence c.options _).mp (h.ends .consequence)
    exact (f.foldlM_pass_text _ .consequence {} hf).symm.trans hpass
  · exact Tree.IsPassable.vanishes hf

/-- `%:5d%m`: the `%` that ends the format is taken together with the `m`, which is no mark. -/
def column : Tree :=
  .directive (.format (.colon ['5']) .decimal) <| .directive (.byte 0x6d) .nil

/-- Skipping `column` loses nothing: the `%` that goes with the `m` opens no mark. -/
theorem vanishes_column :
    column.isValid .percent = true ∧ column.IsPassable .percent ∧ column.Vanishes {} :=
  ⟨rfl, by decide, (vanishes_iff {} rfl).mpr (by decide)⟩

/-- `%:d%`: the `%` that ends the format is taken together with the `%` of the mark behind it. -/
def openFormat : Tree :=
  .directive (.format (.colon []) .decimal) .nil

/-- The mark behind an open format goes unseen, and the text behind the conditional is lost. -/
theorem expand_front_openFormat :
    openFormat.isValid .percent = true ∧
      ({} : Context).expand
        (Part.consequence.front ++ openFormat.text .percent ++ Bytes.ofAscii ['%', ';', 'u']) [] =
          .ok ([], {}) ∧
      ({} : Context).expand (Bytes.ofAscii ['u']) [] = .ok ([0x75], {}) :=
  ⟨rfl, rfl, rfl⟩

end Terminal.Template
