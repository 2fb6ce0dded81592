import Terminal.Proofs.Template.Run

/-!
# Parts that are passed over

A reader that passes over a part of a conditional carries nothing out.  All that changes is a
`Skipping`: how many conditionals are open, and whether the reader stands behind a `%`.  `Part.pass`
reads one byte in such a state, and `feed_pass` says that this is what the machine does.
`endsAfter_closing_iff` says when a part is passed over up to the mark that closes its conditional
and no further: exactly if reading it ends as it began.
-/

namespace Terminal.Template

/-- How a reader stands in a part that it passes over. -/
structure Skipping where
  /-- The number of conditionals that are open in the part. -/
  depth : Nat := 0
  /-- Whether the next byte is taken together with a `%` before it. -/
  behind : Bool := false
deriving DecidableEq

namespace Part

/-- The depth after `%` and a character.  There is none if the two end the part. -/
def mark (part : Part) (depth : Nat) (c : Char) : Option Nat :=
  match c, depth with
  | ';', 0 => none
  | ';', depth + 1 => some depth
  | 'e', 0 => if part = .consequence then none else some 0
  | '?', _ => some (depth + 1)
  | _, _ => some depth

/-- Passes over one byte, unless it ends the part. -/
def pass (part : Part) (m : Skipping) (b : UInt8) : Option Skipping :=
  if m.behind then (part.mark m.depth (Char.ofUInt8 b)).map fun depth => { depth }
  else some { m with behind := b = 0x25 }

end Part

/-- The mode of a reader that passes over a part. -/
def Skipping.mode (part : Part) (m : Skipping) : Mode := .skip part m.depth m.behind

/-! ## One byte -/

/-- Only three characters have a meaning behind a `%`. -/
theorem mark_eq_some (part : Part) (depth : Nat) {c : Char} (h : c ∉ [';', 'e', '?']) :
    part.mark depth c = some depth := by
  unfold Part.mark
  split <;> simp_all

/-- A character that is no mark is passed over. -/
theorem skipDirective_eq_skip (part : Part) (depth : Nat) {c : Char} (h : c ∉ [';', 'e', '?']) :
    Mode.skipDirective part depth c = .skip part depth false := by
  unfold Mode.skipDirective
  split <;> simp_all

/-- A mark in a skipped part changes the depth or ends the part. -/
theorem skipDirective_eq_mark (part : Part) (depth : Nat) (c : Char) :
    Mode.skipDirective part depth c =
      (part.mark depth c).elim .text fun depth => .skip part depth false := by
  by_cases h : c ∈ [';', 'e', '?']
  · simp only [List.mem_cons, List.not_mem_nil, or_false] at h
    rcases h with rfl | rfl | rfl
    · cases depth <;> rfl
    · cases depth with
      | zero => cases part <;> rfl
      | succ depth => rfl
    · cases depth <;> rfl
  · rw [skipDirective_eq_skip part depth h, mark_eq_some part depth h]
    rfl

/-- A byte in a part that is passed over asks for nothing. -/
theorem read_pass (o : Options) (part : Part) (m : Skipping) (b : UInt8) :
    (m.mode part).read o b =
      .ok (.idle, (part.pass m b).elim .text (Skipping.mode part)) := by
  obtain ⟨depth, behind⟩ := m
  cases behind with
  | false => rfl
  | true =>
    simp only [Skipping.mode, Mode.read, Part.pass, skipDirective_eq_mark]
    cases part.mark depth (Char.ofUInt8 b) <;> rfl

/-! ## Texts -/

/-- The machine carries nothing out while it passes over a text. -/
theorem feed_pass (o : Options) (part : Part) (s : State) {text : Bytes} {m m' : Skipping}
    (h : text.foldlM part.pass m = some m') :
    Machine.feed o ⟨m.mode part, s⟩ text = .ok ([], ⟨m'.mode part, s⟩) := by
  induction text generalizing m with
  | nil =>
    obtain rfl : m = m' := by simpa using h
    rfl
  | cons b bs ih =>
    rw [List.foldlM_cons] at h
    obtain ⟨next, hb, hbs⟩ := Option.bind_eq_some_iff.mp h
    have hread : (m.mode part).read o b = .ok (.idle, next.mode part) := by
      rw [read_pass, hb]
      rfl
    rw [feed_idle hread, ih hbs]

/-- The same from the beginning of a part. -/
theorem feed_skip (o : Options) (part : Part) (s : State) {text : Bytes} {m : Skipping}
    (h : text.foldlM part.pass {} = some m) :
    Machine.feed o ⟨.skip part 0 false, s⟩ text = .ok ([], ⟨m.mode part, s⟩) :=
  feed_pass o part s h

/-! ## Bytes that are not seen -/

/-- Bytes other than `%` change nothing. -/
theorem foldlM_pass_plain (part : Part) (depth : Nat) {text : Bytes} (h : 0x25 ∉ text) :
    text.foldlM part.pass { depth } = some { depth } := by
  induction text with
  | nil => rfl
  | cons b bs ih =>
    obtain ⟨hb, hbs⟩ : ¬(0x25 : UInt8) = b ∧ 0x25 ∉ bs := by simpa using h
    have hpass : part.pass { depth } b = some { depth } := by
      simp [Part.pass, Ne.symm hb]
    rw [List.foldlM_cons, hpass]
    exact ih hbs

/-- A directive without another `%` changes nothing, also if its own `%` is taken for the partner of
the one before it. -/
theorem foldlM_pass_directive (part : Part) (m : Skipping) {b : UInt8} {text : Bytes}
    (hb : Char.ofUInt8 b ∉ [';', 'e', '?']) (h : 0x25 ∉ b :: text) :
    (0x25 :: b :: text).foldlM part.pass m = some { depth := m.depth } := by
  obtain ⟨depth, behind⟩ := m
  cases behind with
  | false =>
    have hpass : part.pass ⟨depth, true⟩ b = some { depth } := by
      simp [Part.pass, mark_eq_some part depth hb]
    have htext : 0x25 ∉ text := fun hmem => h (List.mem_cons_of_mem b hmem)
    change List.foldlM part.pass ⟨depth, true⟩ (b :: text) = _
    rw [List.foldlM_cons, hpass]
    exact foldlM_pass_plain part depth htext
  | true =>
    have hpass : part.pass ⟨depth, true⟩ 0x25 = some { depth } := by
      simp [Part.pass, mark_eq_some part depth (c := Char.ofUInt8 0x25) (by decide)]
    rw [List.foldlM_cons, hpass]
    exact foldlM_pass_plain part depth h

/-- What does not end a consequence does not end an alternative. -/
theorem mark_alternative {depth depth' : Nat} {c : Char}
    (h : Part.mark .consequence depth c = some depth') :
    Part.mark .alternative depth c = some depth' := by
  unfold Part.mark at *
  split at h <;> simp_all

/-- What can be passed over in the first part can be passed over in the other one. -/
theorem pass_alternative {m m' : Skipping} {b : UInt8} (h : Part.pass .consequence m b = some m') :
    Part.pass .alternative m b = some m' := by
  obtain ⟨depth, behind⟩ := m
  cases behind with
  | false => exact h
  | true =>
    obtain ⟨depth', hmark, rfl⟩ := Option.map_eq_some_iff.mp h
    exact Option.map_eq_some_iff.mpr ⟨depth', mark_alternative hmark, rfl⟩

/-- Text passed over in the first part can be passed over in the other one. -/
theorem foldlM_pass_alternative {text : Bytes} {m m' : Skipping}
    (h : text.foldlM (Part.pass .consequence) m = some m') :
    text.foldlM (Part.pass .alternative) m = some m' := by
  induction text generalizing m with
  | nil => exact h
  | cons b bs ih =>
    obtain ⟨next, hb, hbs⟩ := Option.bind_eq_some_iff.mp h
    rw [List.foldlM_cons, pass_alternative hb]
    exact ih hbs

/-! ## The end of a part -/

/-- A reader that passes over a part is back in plain text behind a text and at no place before it,
and nothing is carried out on the way. -/
def Part.EndsAfter (part : Part) (o : Options) (text : Bytes) : Prop :=
  ∀ s : State,
    Machine.feed o ⟨.skip part 0 false, s⟩ text = .ok ([], ⟨.text, s⟩) ∧
      ∀ early, early <+: text → early ≠ text →
        ∃ m : Skipping, Machine.feed o ⟨.skip part 0 false, s⟩ early = .ok ([], ⟨m.mode part, s⟩)

/-- If a text ends the part, some beginning of it leads back to plain text. -/
theorem exists_beginning_of_foldlM_pass_eq_none (o : Options) (part : Part) (s : State)
    {text : Bytes} {m : Skipping} (h : text.foldlM part.pass m = none) :
    ∃ early, early <+: text ∧ Machine.feed o ⟨m.mode part, s⟩ early = .ok ([], ⟨.text, s⟩) := by
  induction text generalizing m with
  | nil => simp at h
  | cons b bs ih =>
    cases hb : part.pass m b with
    | none =>
      have hread : (m.mode part).read o b = .ok (.idle, .text) := by rw [read_pass, hb]; rfl
      refine ⟨[b], by simp, ?_⟩
      rw [feed_idle hread, Machine.feed_nil]
    | some next =>
      have hread : (m.mode part).read o b = .ok (.idle, next.mode part) := by
        rw [read_pass, hb]
        rfl
      rw [List.foldlM_cons, hb] at h
      obtain ⟨early, hearly, hfeed⟩ := ih h
      refine ⟨b :: early, by simpa using hearly, ?_⟩
      rw [feed_idle hread, hfeed]

/-- Passing over all of a text means passing over every beginning of it. -/
theorem exists_foldlM_pass_beginning {part : Part} {early text : Bytes} {m last : Skipping}
    (h : text.foldlM part.pass m = some last) (hearly : early <+: text) :
    ∃ m', early.foldlM part.pass m = some m' := by
  obtain ⟨rest, rfl⟩ := hearly
  rw [List.foldlM_append] at h
  obtain ⟨m', hm', -⟩ := Option.bind_eq_some_iff.mp h
  exact ⟨m', hm'⟩

/-- Of the places in a part, `%;` ends it only at the depth and the alignment of its beginning. -/
theorem feed_mode_closing (o : Options) (part : Part) (s : State) (m : Skipping) :
    Machine.feed o ⟨m.mode part, s⟩ [0x25, 0x3b] = .ok ([], ⟨.text, s⟩) ↔ m = {} := by
  obtain ⟨depth, behind⟩ := m
  cases behind with
  | false =>
    cases depth with
    | zero => exact iff_of_true (feed_pair rfl rfl s) rfl
    | succ depth =>
      have hfeed : Machine.feed o ⟨.skip part (depth + 1) false, s⟩ [0x25, 0x3b] =
          .ok ([], ⟨.skip part depth false, s⟩) := feed_pair rfl rfl s
      simp [Skipping.mode, hfeed]
  | true =>
    have hpass : [0x25, 0x3b].foldlM part.pass ⟨depth, true⟩ = some { depth } := by
      simp [Part.pass, mark_eq_some part depth (c := Char.ofUInt8 0x25) (by decide)]
    have hfeed : Machine.feed o ⟨.skip part depth true, s⟩ [0x25, 0x3b] =
        .ok ([], ⟨.skip part depth false, s⟩) := feed_pass o part s hpass
    simp [Skipping.mode, hfeed]

/-- A byte that ends the part behind a text is the first to do so. -/
theorem endsAfter_append_byte (part : Part) (o : Options) {text : Bytes} {m : Skipping} {b : UInt8}
    (h : text.foldlM part.pass {} = some m) (hb : part.pass m b = none) :
    part.EndsAfter o (text ++ [b]) := by
  intro s
  have hread : (m.mode part).read o b = .ok (.idle, .text) := by
    rw [read_pass, hb]
    rfl
  refine ⟨?_, fun early hbefore hne => ?_⟩
  · rw [feed_append_of_silent (feed_skip o part s h), feed_idle hread, Machine.feed_nil]
  · rcases List.prefix_concat_iff.mp hbefore with heq | hwithin
    · exact absurd heq hne
    · obtain ⟨m', hm'⟩ := exists_foldlM_pass_beginning h hwithin
      exact ⟨m', feed_skip o part s hm'⟩

/-- The `%;` behind a text ends the part, and nothing before it does, exactly if passing over the
text leads back to where it began. -/
theorem endsAfter_closing_iff (part : Part) (o : Options) (text : Bytes) :
    part.EndsAfter o (text ++ [0x25, 0x3b]) ↔ text.foldlM part.pass {} = some {} := by
  constructor
  · intro h
    obtain ⟨hend, hearly⟩ := h {}
    cases hpass : text.foldlM part.pass {} with
    | none =>
      -- the part ends within the text, and so before the `%;`
      obtain ⟨early, hbefore, hfeed⟩ := exists_beginning_of_foldlM_pass_eq_none o part {} hpass
      have hne : early ≠ text ++ [0x25, 0x3b] := by
        rintro rfl
        have hlength := hbefore.length_le
        rw [List.length_append, List.length_cons] at hlength
        omega
      obtain ⟨m, hm⟩ := hearly early (hbefore.trans (List.prefix_append text _)) hne
      have hmode : (⟨.text, {}⟩ : Machine) = ⟨m.mode part, {}⟩ := by
        simpa using hfeed.symm.trans hm
      simp [Skipping.mode] at hmode
    | some m =>
      rw [feed_append_of_silent (feed_skip o part {} hpass)] at hend
      rw [(feed_mode_closing o part {} m).mp hend]
  · intro h
    have hpass : (text ++ [0x25]).foldlM part.pass {} = some { behind := true } := by
      rw [List.foldlM_append, h]
      rfl
    have hlast : part.pass { behind := true } 0x3b = none := rfl
    simpa using endsAfter_append_byte part o hpass hlast

end Terminal.Template
