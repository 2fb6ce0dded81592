import Terminal.Proofs.Text.Numeral

/-!
# Reading a specification

A specification is read in three parts.  Up to the first digit or point its characters are flags
(`foldlM_read_flags`), from there to the point its digits are the width (`foldlM_read_width`), and
behind the point they are the precision (`foldlM_read_precision`).
-/

namespace Terminal.Template.Format

open Numeral

/-- Some flags have been read; other characters have no effect. -/
def withFlags (f : Format) (cs : List Char) : Format :=
  { f with
    alternate := f.alternate || cs.contains '#'
    left := f.left || cs.contains '-'
    sign := f.sign || cs.contains '+'
    space := f.space || cs.contains ' ' }

/-- Flags are read in any order, once or several times. -/
theorem foldlM_read_flags (f : Format) {cs : List Char}
    (h : ∀ c ∈ cs, digit? c = none ∧ c ≠ '.') :
    cs.foldlM Partial.read ⟨f, .flags⟩ = some ⟨f.withFlags cs, .flags⟩ := by
  induction cs generalizing f with
  | nil => simp [withFlags]
  | cons c cs ih =>
    obtain ⟨⟨hdigit, hpoint⟩, hcs⟩ : (digit? c = none ∧ c ≠ '.') ∧
        ∀ c ∈ cs, digit? c = none ∧ c ≠ '.' := by simpa using h
    have hread : Partial.read ⟨f, .flags⟩ c = some ⟨f.withFlags [c], .flags⟩ := by
      simp only [Partial.read, hdigit]
      split
      all_goals simp_all [withFlags, eq_comm]
    rw [List.foldlM_cons, hread, Option.bind_eq_bind, Option.bind_some, ih _ hcs]
    simp [withFlags, Bool.or_assoc]

/-- Digits extend the width, and what is no digit has no effect. -/
theorem foldlM_read_width (f : Format) {cs : List Char} (h : '.' ∉ cs) :
    cs.foldlM Partial.read ⟨f, .width⟩ =
      ((digitsOf cs).foldlM (append? limit) f.width).map fun n =>
        ⟨{ f with width := n }, .width⟩ := by
  induction cs generalizing f with
  | nil => rfl
  | cons c cs ih =>
    obtain ⟨hc, hcs⟩ : '.' ≠ c ∧ '.' ∉ cs := by simpa using h
    rw [List.foldlM_cons]
    -- Flags behind the first digit are read and have no effect.
    cases hdigit : digit? c with
    | none =>
      have hread : Partial.read ⟨f, .width⟩ c = some ⟨f, .width⟩ := by
        simp [Partial.read, hdigit, hc.symm]
      have hdigits : digitsOf (c :: cs) = digitsOf cs := List.filterMap_cons_none hdigit
      rw [hread, hdigits]
      exact ih f hcs
    | some d =>
      have hread : Partial.read ⟨f, .width⟩ c =
          (append? limit f.width d).map fun n => ⟨{ f with width := n }, .width⟩ := by
        simp [Partial.read, hdigit]
      have hdigits : digitsOf (c :: cs) = d :: digitsOf cs := List.filterMap_cons_some hdigit
      rw [hread, hdigits, List.foldlM_cons]
      cases append? limit f.width d with
      | none => rfl
      | some n => exact ih { f with width := n } hcs

/-- Digits extend the precision, and what is no digit has no effect. -/
theorem foldlM_read_precision (f : Format) (cs : List Char) :
    cs.foldlM Partial.read ⟨f, .precision⟩ =
      ((digitsOf cs).foldlM (append? limit) (f.precision.getD 0)).map fun n =>
        ⟨{ f with precision := if digitsOf cs = [] then f.precision else some n }, .precision⟩ := by
  -- A second point has no effect either, so there is no other field to go to.
  induction cs generalizing f with
  | nil => rfl
  | cons c cs ih =>
    rw [List.foldlM_cons]
    cases hdigit : digit? c with
    | none =>
      have hread : Partial.read ⟨f, .precision⟩ c = some ⟨f, .precision⟩ := by
        simp [Partial.read, hdigit]
      have hdigits : digitsOf (c :: cs) = digitsOf cs := List.filterMap_cons_none hdigit
      rw [hread, hdigits]
      exact ih f
    | some d =>
      have hread : Partial.read ⟨f, .precision⟩ c =
          (append? limit (f.precision.getD 0) d).map fun n =>
            ⟨{ f with precision := some n }, .precision⟩ := by
        simp [Partial.read, hdigit]
      have hdigits : digitsOf (c :: cs) = d :: digitsOf cs := List.filterMap_cons_some hdigit
      rw [hread, hdigits, List.foldlM_cons]
      cases append? limit (f.precision.getD 0) d with
      | none => rfl
      | some n =>
        refine (ih { f with precision := some n }).trans ?_
        by_cases hnil : digitsOf cs = []
        · simp [hnil]
        · simp [hnil]

/-! ## A whole specification -/

/-- The least number of digits that some characters behind a point ask for. -/
def precisionOf (cs : List Char) : Option Nat :=
  if digitsOf cs = [] then none else some (value (digitsOf cs))

/-- Behind the flags a width is read from its first digit on, if it has any. -/
theorem exists_foldlM_read_width {f : Format} (hf : f.width = 0) {cs : List Char}
    (h : '.' ∉ cs) (hfirst : ∀ c ∈ cs.head?, (digit? c).isSome) :
    ∃ field ≠ .precision, cs.foldlM Partial.read ⟨f, .flags⟩ =
      if value (digitsOf cs) ≤ limit then some ⟨{ f with width := value (digitsOf cs) }, field⟩
      else none := by
  cases cs with
  | nil =>
    refine ⟨.flags, nofun, ?_⟩
    have hnone : value (digitsOf []) = f.width := hf.symm
    rw [hnone, if_pos (by simp [hf])]
    rfl
  | cons c cs =>
    obtain ⟨d, hd⟩ := Option.isSome_iff_exists.mp (hfirst c rfl)
    have hsame : Partial.read ⟨f, .flags⟩ c = Partial.read ⟨f, .width⟩ c := by
      simp only [Partial.read, hd]
    refine ⟨.width, nofun, ?_⟩
    rw [List.foldlM_cons, hsame, ← List.foldlM_cons, foldlM_read_width f h, hf,
      foldlM_append? (Nat.zero_le _), ← value]
    split_ifs <;> rfl

/-- What follows the width: nothing, or a point and further characters. -/
def pointText : Option (List Char) → List Char
  | none => []
  | some cs => '.' :: cs

/-- The precision part sets the precision, unless its number is too large. -/
theorem foldlM_read_pointText {f : Format} (hf : f.precision = none) {field : Field}
    (hfield : field ≠ .precision) (point : Option (List Char)) :
    ((pointText point).foldlM Partial.read ⟨f, field⟩).map Partial.format =
      if ∀ cs ∈ point, value (digitsOf cs) ≤ limit then
        some { f with precision := point.bind precisionOf }
      else none := by
  cases point with
  | none => simp [pointText, ← hf]
  | some cs =>
    have hpoint : Partial.read ⟨f, field⟩ '.' = some ⟨f, .precision⟩ := by
      cases field with
      | flags => rfl
      | width => rfl
      | precision => exact absurd rfl hfield
    rw [pointText, List.foldlM_cons, hpoint, Option.bind_eq_bind, Option.bind_some,
      foldlM_read_precision, hf, Option.getD_none, foldlM_append? (Nat.zero_le _), ← value]
    simp only [Option.mem_def, Option.some.injEq, forall_eq']
    by_cases hlimit : value (digitsOf cs) ≤ limit
    · rw [if_pos hlimit, if_pos hlimit]
      rfl
    · rw [if_neg hlimit, if_neg hlimit]
      rfl

/-- A specification is read if its numbers are within the limit. -/
theorem ofSpec?_append {flags width : List Char} (point : Option (List Char))
    (hflags : ∀ c ∈ flags, digit? c = none ∧ c ≠ '.') (hwidth : '.' ∉ width)
    (hfirst : ∀ c ∈ width.head?, (digit? c).isSome) :
    ofSpec? (flags ++ width ++ pointText point) =
      if value (digitsOf width) ≤ limit ∧ ∀ cs ∈ point, value (digitsOf cs) ≤ limit then
        some { ({} : Format).withFlags flags with
          width := value (digitsOf width), precision := point.bind precisionOf }
      else none := by
  obtain ⟨field, hfield, hread⟩ :=
    exists_foldlM_read_width (f := ({} : Format).withFlags flags) rfl hwidth hfirst
  have hstart : flags.foldlM Partial.read {} = some ⟨({} : Format).withFlags flags, .flags⟩ :=
    foldlM_read_flags {} hflags
  rw [ofSpec?, List.foldlM_append, List.foldlM_append, hstart, Option.bind_eq_bind,
    Option.bind_some, hread]
  by_cases hlimit : value (digitsOf width) ≤ limit
  · rw [if_pos hlimit]
    refine (foldlM_read_pointText rfl hfield point).trans ?_
    simp only [hlimit, true_and]
  · rw [if_neg hlimit, if_neg fun h => hlimit h.1]
    rfl

end Terminal.Template.Format
