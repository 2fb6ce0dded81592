import Terminal.Proofs.Template.Reader
import Terminal.Proofs.Template.Reading

/-!
# Spellings of a format

A format is spelled in several ways, and each spelling is read along a path of its own.  Of the text
between `%:` and the `%` that ends a format, a reader keeps the characters of a specification and the
last conversion letter (`feed_body`), so it is in the mode to which the plain spelling leads, where
only the letter stands behind the specification.  The byte that ends a format then asks for the same
in either case, and so does the end of the template.  `spellingsAgree` puts the spellings side by
side.
-/

namespace Terminal.Template

/-! ## What a reader keeps of a format -/

namespace Format

/-- The characters of a text that belong to a specification, in their order. -/
def specOf (body : Bytes) : List Char := (body.map Char.ofUInt8).filter isSpec

/-- The last conversion letter of a text. -/
def lastConversion? (body : Bytes) : Option Conversion :=
  (body.filterMap fun b => Conversion.ofChar? (Char.ofUInt8 b)).getLast?

/-- The specification of a joined text, part by part. -/
theorem specOf_append (t u : Bytes) : specOf (t ++ u) = specOf t ++ specOf u := by
  simp [specOf]

/-- The last conversion letter of a joined text stands in the second part, if it has any. -/
theorem lastConversion?_append (t u : Bytes) :
    lastConversion? (t ++ u) = (lastConversion? u).or (lastConversion? t) := by
  rw [lastConversion?, List.filterMap_append, List.getLast?_append]
  rfl

/-- A specification is made of characters that a format may hold. -/
theorem all_isSpec_specOf (body : Bytes) : (specOf body).all isSpec = true :=
  List.all_eq_true.mpr fun _ hc => (List.mem_filter.mp hc).2

/-- A character that begins a bare format may stand in any format. -/
theorem isSpec_of_isBareStart {c : Char} (h : isBareStart c = true) : isSpec c = true := by
  simp only [isBareStart, isSpec, Bool.or_eq_true] at h ⊢
  rcases h with ((h | h) | h) | h
  · exact .inl (.inl (.inl (.inr h)))
  · exact .inl (.inl (.inr h))
  · exact .inl (.inr h)
  · exact .inr h

/-- The characters of a specification are no letters. -/
theorem ofChar?_eq_none_of_isSpec {c : Char} (h : isSpec c = true) :
    Conversion.ofChar? c = none := by
  have hlt := (toNat_lt_of_isSpec h).1
  unfold Conversion.ofChar?
  split
  all_goals first | rfl | exact absurd hlt (by decide)

end Format

open Format

variable {o : Options}

/-- A byte of a format other than `%` is kept, replaces the letter that is kept, or is passed
over. -/
theorem read_body (he : o.formatEnd = .percent) (spec : List Char) (k : Option Conversion)
    {b : UInt8} (hb : b ≠ 0x25) :
    Mode.read o (.format spec k) b =
      .ok (.idle, .format (spec ++ specOf [b]) ((lastConversion? [b]).or k)) := by
  have hpercent : Char.ofUInt8 b ≠ '%' := by
    intro hc
    apply hb
    rw [← toUInt8_ofUInt8 b, hc]
    rfl
  simp only [Mode.read, Mode.readFormat, he]
  by_cases hspec : isSpec (Char.ofUInt8 b) = true
  · simp [specOf, lastConversion?, hspec, ofChar?_eq_none_of_isSpec hspec]
  · cases hk : Conversion.ofChar? (Char.ofUInt8 b) with
    | none => simp [specOf, lastConversion?, hspec, hk, hpercent]
    | some letter => simp [specOf, lastConversion?, hspec, hk]

/-- Behind a text without `%` the reader keeps its specification and its last letter. -/
theorem feed_body (he : o.formatEnd = .percent) (s : State) (spec : List Char)
    (k : Option Conversion) {body : Bytes} (h : 0x25 ∉ body) :
    Machine.feed o ⟨.format spec k, s⟩ body =
      .ok ([], ⟨.format (spec ++ specOf body) ((lastConversion? body).or k), s⟩) := by
  induction body generalizing spec k with
  | nil => simp [specOf, lastConversion?]
  | cons b bs ih =>
    obtain ⟨hb, hbs⟩ : 0x25 ≠ b ∧ 0x25 ∉ bs := by simpa using h
    have hsplit : b :: bs = [b] ++ bs := rfl
    rw [feed_idle (read_body he spec k hb.symm), ih _ _ hbs, hsplit, specOf_append,
      lastConversion?_append, List.append_assoc, Option.or_assoc]

/-- The same behind the `%:` that begins a format. -/
theorem feed_colon_body (he : o.formatEnd = .percent) (s : State) {body : Bytes}
    (h : 0x25 ∉ body) :
    Machine.feed o ⟨.text, s⟩ (Bytes.ofAscii ['%', ':'] ++ body) =
      .ok ([], ⟨.format (specOf body) (lastConversion? body), s⟩) := by
  have hopen : Machine.feed o ⟨.text, s⟩ (Bytes.ofAscii ['%', ':']) =
      .ok ([], ⟨.format [] none, s⟩) := feed_pair rfl rfl s
  rw [feed_append_of_silent hopen, feed_body he s [] none h, List.nil_append, Option.or_none]

/-! ## How a format ends -/

/-- One byte has the same effect on two readers if it asks for the same. -/
theorem feed_singleton_congr {o' : Options} {mode mode' : Mode} {b b' : UInt8}
    (hoperands : o.operands = o'.operands) (h : mode.read o b = mode'.read o' b') (s : State) :
    Machine.feed o ⟨mode, s⟩ [b] = Machine.feed o' ⟨mode', s⟩ [b'] := by
  simp only [Machine.feed_cons, Machine.step, h, hoperands, Machine.feed_nil]

/-- Behind the same specification a `%` and the letter that was kept ask for the same. -/
theorem read_percent_eq_read_conversion {o' : Options} (he : o.formatEnd = .percent)
    (he' : o'.formatEnd = .conversion) (spec : List Char) (k : Option Conversion) :
    Mode.read o (.format spec k) 0x25 =
      Mode.read o' (.format spec none) (k.getD .decimal).symbol.toUInt8 := by
  rw [read_percent_of_percent he, read_conversion he']
  rfl

/-- An instruction has the same effect at the end of the template as at a byte. -/
theorem complete_nil_eq_singleton {mode : Mode} {b : UInt8} {i : Instruction}
    (hfinish : mode.finish o = .ok (.run i)) (hread : mode.read o b = .ok (.run i, .text))
    (s : State) : Machine.complete o ⟨mode, s⟩ [] = Machine.complete o ⟨mode, s⟩ [b] := by
  rw [Machine.complete, Machine.complete, feed_run hread, Machine.feed_nil]
  simp only [bind, Except.bind, Machine.finish, hfinish, Action.exec]
  cases i.exec o.operands s with
  | error e => rfl
  | ok r => simp [Except.map, pure, Except.pure, Mode.finish, Action.idle, Instruction.exec]

/-- The end of the template asks for the same as a `%`. -/
theorem complete_format (he : o.formatEnd = .percent) (spec : List Char) (k : Option Conversion)
    (s : State) :
    Machine.complete o ⟨.format spec k, s⟩ [] = Machine.complete o ⟨.format spec k, s⟩ [0x25] := by
  have hfinish : Mode.finish o (.format spec k) = Mode.printed spec k := by
    simp only [Mode.finish, he]
  have hread := read_percent_of_percent he spec k
  cases hprinted : Mode.printed spec k with
  | error e =>
    rw [hprinted] at hfinish hread
    rw [Machine.complete, Machine.complete, feed_error hread, Machine.feed_nil]
    simp only [bind, Except.bind, Machine.finish, hfinish]
  | ok action =>
    obtain ⟨f, -, rfl⟩ := printed_eq_ok hprinted
    rw [hprinted] at hfinish hread
    exact complete_nil_eq_singleton hfinish hread s

/-! ## The spellings of a format -/

/-- The same options with another end of formats. -/
def Options.ending (o : Options) (fe : FormatEnd) : Options := { o with formatEnd := fe }

/-- Spellings that a reader in plain text cannot tell apart: it emits the same bytes and ends in the
same state, or it fails with the same error. -/
structure SpellingsAgree (o : Options) (s : State) : Prop where
  /-- What stands between `%:` and `%` amounts to a specification and a letter behind it. -/
  percent : ∀ body, 0x25 ∉ body →
    Machine.feed (o.ending .percent) ⟨.text, s⟩ (Bytes.ofAscii ['%', ':'] ++ body ++ [0x25]) =
      Machine.feed (o.ending .conversion) ⟨.text, s⟩
        (Bytes.ofAscii ('%' :: ':' :: specOf body) ++
          [((lastConversion? body).getD .decimal).symbol.toUInt8])
  /-- The `%` can be left out at the end of the template. -/
  unended : ∀ body, 0x25 ∉ body →
    Machine.complete (o.ending .percent) ⟨.text, s⟩ (Bytes.ofAscii ['%', ':'] ++ body) =
      Machine.complete (o.ending .percent) ⟨.text, s⟩ (Bytes.ofAscii ['%', ':'] ++ body ++ [0x25])
  /-- The colon can be left out where no operator begins, and letters end formats. -/
  bare : ∀ (c : Char) (rest : Bytes), isBareStart c = true →
    Machine.feed (o.ending .conversion) ⟨.text, s⟩ (Bytes.ofAscii ['%', c] ++ rest) =
      Machine.feed (o.ending .conversion) ⟨.text, s⟩ (Bytes.ofAscii ['%', ':', c] ++ rest)
  /-- A letter alone is a format without a specification, wherever formats end. -/
  letter : ∀ (fe fe' : FormatEnd) (k : Conversion),
    Machine.feed (o.ending fe) ⟨.text, s⟩ (Bytes.ofAscii ['%', k.symbol]) =
      Machine.feed (o.ending fe') ⟨.text, s⟩ (Bytes.ofAscii ('%' :: (Spelling.colon []).text fe' k))

/-- Whatever state a reader in plain text is in, the spellings of a format agree. -/
theorem spellingsAgree (o : Options) (s : State) : SpellingsAgree o s where
  percent body h := by
    rw [feed_append_of_silent (feed_colon_body rfl s h),
      feed_append_of_silent (feed_colon _ s (all_isSpec_specOf body))]
    refine feed_singleton_congr ?_ (read_percent_eq_read_conversion ?_ ?_ _ _) s <;> rfl
  unended body h := by
    have hbody := feed_colon_body (o := o.ending .percent) rfl s h
    have hnil := complete_append_of_silent hbody []
    rw [List.append_nil] at hnil
    rw [hnil, complete_append_of_silent hbody]
    exact complete_format rfl _ _ s
  bare c rest h := by
    have hspec : [c].all isSpec = true := by simpa using isSpec_of_isBareStart h
    have hstart : [c].head?.any isBareStart = true := by simpa using h
    have hbare := feed_bare (o := o.ending .conversion) rfl s hstart hspec
    have hcolon := feed_colon (o.ending .conversion) s hspec
    rw [feed_append_of_silent hbare, feed_append_of_silent hcolon]
  letter fe fe' k := by
    -- both are the same directive to the tree, and neither depends on where formats end
    have hletter : Spelling.letter.isValid (o.ending fe).formatEnd = true := rfl
    have hcolon : (Spelling.colon []).isValid (o.ending fe').formatEnd = true := rfl
    exact (implements_format hletter k s).trans (implements_format hcolon k s).symm

example : Machine.feed {} ⟨.text, ({} : State).push (.integer 63)⟩
    (Bytes.ofAscii ['%', ':', '#', 'o', 'z', '.', '3', 'x', '%']) =
    .ok (Bytes.ofAscii ['0', 'x', '0', '3', 'f'], ⟨.text, {}⟩) := rfl

end Terminal.Template
