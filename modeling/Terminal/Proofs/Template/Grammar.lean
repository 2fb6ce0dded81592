import Mathlib.Data.List.TakeWhile
import Terminal.Proofs.Template.Composition
import Terminal.Proofs.Template.Reading
import Terminal.Proofs.Template.Specification

/-!
# The grammar of specifications

A specification has three parts, and each of them can be told from the characters alone: `head` is
what stands in front of the first digit and the first point, `widthDigits` are the digits in front
of the first point, and `precisionDigits` those behind it.  Reading a specification character by
character comes to the same (`ofSpec?_eq`).  Its two numbers are bounded; if one of them is too
large, the expansion fails where the format ends, whatever is on the stack
(`Reaches.expand_closing`).  `readsGrammar` puts the two sides together.
-/

namespace Terminal.Template.Format

open Numeral

/-! ## The parts of a specification -/

/-- Neither a digit nor a point. -/
def isPlain (c : Char) : Bool := (digit? c).isNone && c != '.'

/-- The characters in front of the first digit and the first point. -/
def head (spec : List Char) : List Char := spec.takeWhile isPlain

/-- The digits in front of the first point, in their order and whatever stands between them. -/
def widthDigits (spec : List Char) : List Nat := digitsOf (spec.takeWhile (· ≠ '.'))

/-- The digits behind the first point. -/
def precisionDigits (spec : List Char) : List Nat := digitsOf (spec.dropWhile (· ≠ '.'))

/-- Both numbers of a specification are within the limit.  The value of no digits is zero. -/
def IsBounded (spec : List Char) : Prop :=
  value (widthDigits spec) ≤ limit ∧ value (precisionDigits spec) ≤ limit

instance (spec : List Char) : Decidable (IsBounded spec) := inferInstanceAs (Decidable (_ ∧ _))

/-- The format that a specification denotes. -/
def denoted (spec : List Char) : Format where
  width := value (widthDigits spec)
  precision := if precisionDigits spec = [] then none else some (value (precisionDigits spec))
  alternate := decide ('#' ∈ head spec)
  left := decide ('-' ∈ head spec)
  sign := decide ('+' ∈ head spec)
  space := decide (' ' ∈ head spec)

/-- A plain character is neither a digit nor the point. -/
theorem isPlain_iff {c : Char} : isPlain c = true ↔ digit? c = none ∧ c ≠ '.' := by
  simp [isPlain]

/-- A specification that is split where its reader changes from one field to the next. -/
structure Parts where
  flags : List Char
  width : List Char
  point : Option (List Char)
  isPlain_flags : ∀ c ∈ flags, isPlain c = true
  point_notMem_width : '.' ∉ width
  isSome_digit?_width : ∀ c ∈ width.head?, (digit? c).isSome

namespace Parts

/-- The specification that consists of some parts. -/
def text (p : Parts) : List Char := p.flags ++ p.width ++ pointText p.point

variable (p : Parts)

/-- Behind the flags comes a digit, the point or nothing. -/
theorem not_isPlain_of_head? {c : Char} (h : (p.width ++ pointText p.point).head? = some c) :
    isPlain c = false := by
  rw [List.head?_append, Option.or_eq_some_iff] at h
  rcases h with hwidth | ⟨-, hpoint⟩
  · have hdigit := p.isSome_digit?_width c hwidth
    simp [isPlain, Option.isNone_iff_eq_none, Option.isSome_iff_ne_none.mp hdigit]
  · cases hp : p.point with
    | none => simp [hp, pointText] at hpoint
    | some cs =>
      obtain rfl : '.' = c := by simpa [hp, pointText] using hpoint
      rfl

/-- The plain characters in front are the flags. -/
theorem head_text : head p.text = p.flags := by
  rw [head, text, List.append_assoc, List.takeWhile_append_of_pos p.isPlain_flags]
  have hnil : (p.width ++ pointText p.point).takeWhile isPlain = [] := by
    cases hrest : p.width ++ pointText p.point with
    | nil => rfl
    | cons c cs =>
      have hc : isPlain c = false := p.not_isPlain_of_head? (by rw [hrest]; rfl)
      exact List.takeWhile_cons_of_neg (by simp [hc])
  rw [hnil, List.append_nil]

/-- In front of the point there is no other. -/
theorem ne_point {c : Char} (h : c ∈ p.flags ++ p.width) : decide (c ≠ '.') = true := by
  rcases List.mem_append.mp h with hflags | hwidth
  · exact decide_eq_true (isPlain_iff.mp (p.isPlain_flags c hflags)).2
  · refine decide_eq_true fun hc => ?_
    subst hc
    exact p.point_notMem_width hwidth

/-- Nothing stands in front of the point in the precision part. -/
theorem takeWhile_pointText (point : Option (List Char)) :
    (pointText point).takeWhile (· ≠ '.') = [] := by
  cases point <;> rfl

/-- The precision part begins with its point. -/
theorem dropWhile_pointText (point : Option (List Char)) :
    (pointText point).dropWhile (· ≠ '.') = pointText point := by
  cases point <;> rfl

/-- Flags are no digits, so the digits in front of the point are those of the width. -/
theorem widthDigits_text : widthDigits p.text = digitsOf p.width := by
  have hflags : digitsOf p.flags = [] :=
    List.filterMap_eq_nil_iff.mpr fun c hc => (isPlain_iff.mp (p.isPlain_flags c hc)).1
  rw [widthDigits, text, List.takeWhile_append_of_pos fun c hc => p.ne_point hc,
    takeWhile_pointText, List.append_nil, digitsOf, List.filterMap_append, ← digitsOf, ← digitsOf,
    hflags, List.nil_append]

/-- The digits behind the first point are those of the precision part. -/
theorem precisionDigits_text : precisionDigits p.text = digitsOf (pointText p.point) := by
  rw [precisionDigits, text, List.dropWhile_append_of_pos fun c hc => p.ne_point hc,
    dropWhile_pointText]

/-- A specification is within bounds when its width and its precision are. -/
theorem isBounded_text_iff : IsBounded p.text ↔
    value (digitsOf p.width) ≤ limit ∧ ∀ cs ∈ p.point, value (digitsOf cs) ≤ limit := by
  rw [IsBounded, widthDigits_text, precisionDigits_text]
  refine and_congr_right fun _ => ?_
  cases p.point with
  | none => exact iff_of_true (Nat.zero_le limit) nofun
  | some cs =>
    simp only [Option.mem_def, Option.some.injEq, forall_eq']
    exact Iff.rfl

/-- What a specification made of its parts denotes. -/
theorem denoted_text : denoted p.text =
    { ({} : Format).withFlags p.flags with
      width := value (digitsOf p.width), precision := p.point.bind precisionOf } := by
  have hprecision : (if precisionDigits p.text = [] then none
      else some (value (precisionDigits p.text))) = p.point.bind precisionOf := by
    rw [precisionDigits_text]
    cases p.point <;> rfl
  rw [denoted, hprecision, widthDigits_text, head_text]
  simp [withFlags]

end Parts

/-- Every list of characters is a specification. -/
theorem exists_parts (spec : List Char) : ∃ p : Parts, p.text = spec := by
  -- The three parts are split off from the left: flags, then up to the point, then the rest.
  have hsplit : head spec ++ spec.dropWhile isPlain = spec := List.takeWhile_append_dropWhile
  have hplain : ∀ c ∈ (spec.dropWhile isPlain).head?, isPlain c = false := by
    intro c hc
    have hfirst := List.head?_dropWhile_not isPlain spec
    rwa [hc] at hfirst
  generalize spec.dropWhile isPlain = tail at hsplit hplain
  have hwidth : ∀ c ∈ (tail.takeWhile (· ≠ '.')).head?, (digit? c).isSome := by
    intro c hc
    obtain ⟨cs, hcs⟩ := List.head?_eq_some_iff.mp hc
    have hmem : c ∈ tail.takeWhile (· ≠ '.') := List.mem_of_mem_head? hc
    have hne : c ≠ '.' := by simpa using List.mem_takeWhile_imp hmem
    have htail : tail.head? = some c := by
      rw [← List.takeWhile_append_dropWhile (p := (· ≠ '.')) (l := tail), hcs]
      rfl
    by_contra hdigit
    have hfalse := hplain c htail
    rw [isPlain_iff.mpr ⟨by simpa using hdigit, hne⟩] at hfalse
    cases hfalse
  have hpoint : ∃ point, pointText point = tail.dropWhile (· ≠ '.') := by
    have hfirst := List.head?_dropWhile_not (· ≠ '.') tail
    cases hrest : tail.dropWhile (· ≠ '.') with
    | nil => exact ⟨none, rfl⟩
    | cons c cs =>
      rw [hrest] at hfirst
      obtain rfl : c = '.' := by simpa using hfirst
      exact ⟨some cs, rfl⟩
  obtain ⟨point, hpoint⟩ := hpoint
  refine ⟨⟨head spec, tail.takeWhile (· ≠ '.'), point, ?_, ?_, hwidth⟩, ?_⟩
  · exact fun c hc => List.mem_takeWhile_imp hc
  · intro hmem
    simpa using List.mem_takeWhile_imp hmem
  · rw [Parts.text, hpoint, List.append_assoc, List.takeWhile_append_dropWhile, hsplit]

/-- Reading character by character gives what the parts of a specification denote. -/
theorem ofSpec?_eq (spec : List Char) :
    ofSpec? spec = if IsBounded spec then some (denoted spec) else none := by
  obtain ⟨p, rfl⟩ := exists_parts spec
  rw [Parts.text, ofSpec?_append p.point (fun c hc => isPlain_iff.mp (p.isPlain_flags c hc))
    p.point_notMem_width p.isSome_digit?_width, ← Parts.text, p.denoted_text]
  exact if_congr p.isBounded_text_iff.symm rfl rfl

/-! ## Where a format ends -/

/-- What ends a format behind a conversion letter or none, and the conversion that is printed. -/
inductive Closes (o : Options) (before : Option Conversion) : UInt8 → Conversion → Prop where
  | percent (h : o.formatEnd = .percent) : Closes o before 0x25 (before.getD .decimal)
  | letter (h : o.formatEnd = .conversion) (k : Conversion) : Closes o before k.symbol.toUInt8 k

section Ending

variable {o : Options} {spec : List Char} {before : Option Conversion}

/-- The byte that closes a format runs it with the conversion found. -/
theorem Closes.read_eq {b : UInt8} {k : Conversion} (h : Closes o before b k) (spec : List Char) :
    Mode.read o (.format spec before) b = (Mode.printed spec (some k)).map (·, .text) := by
  cases h with
  | percent h => exact read_percent_of_percent h spec before
  | letter h k => exact read_conversion h spec k

/-- A closed format prints what it denotes, or is refused when a number is too large. -/
theorem printed_eq (spec : List Char) (k : Option Conversion) :
    Mode.printed spec k =
      if IsBounded spec then .ok (.run (.print (denoted spec) (k.getD .decimal)))
      else .error .malformedLiteral := by
  rw [Mode.printed, ofSpec?_eq]
  split_ifs <;> rfl

/-- A format that is closed takes a value and prints it, or fails without looking for one. -/
theorem feed_closing {b : UInt8} {k : Conversion} (h : Closes o before b k) (spec : List Char)
    (s : State) :
    Machine.feed o ⟨.format spec before, s⟩ [b] =
      if IsBounded spec then
        ((Instruction.print (denoted spec) k).exec o.operands s).map fun r => (r.1, ⟨.text, r.2⟩)
      else .error .malformedLiteral := by
  have hread := h.read_eq spec
  rw [printed_eq] at hread
  split_ifs at hread ⊢
  · exact feed_run hread s
  · exact feed_error hread s []

/-- So does one that is open at the end of the template, if a `%` would close it. -/
theorem finish_format (he : o.formatEnd = .percent) (spec : List Char) (s : State) :
    Machine.finish o ⟨.format spec before, s⟩ =
      if IsBounded spec then
        (Instruction.print (denoted spec) (before.getD .decimal)).exec o.operands s
      else .error .malformedLiteral := by
  have hfinish : Mode.finish o (.format spec before) = Mode.printed spec before := by
    simp only [Mode.finish, he]
  rw [printed_eq] at hfinish
  rw [Machine.finish, hfinish]
  split_ifs
  · simp only [bind, Except.bind, Action.exec]
    cases (Instruction.print (denoted spec) (before.getD .decimal)).exec o.operands s <;> rfl
  · rfl

/-- An expansion comes to the end of a format with this specification. -/
structure Reaches (c : Context) (arguments : List Value) (front : Bytes) (spec : List Char)
    (before : Option Conversion) : Prop where
  run : ∃ out s, (c.machine arguments).feed c.options front = .ok (out, ⟨.format spec before, s⟩)

/-- Behind a text that ends in plain text, `%:` and the characters of a specification come to the
end of a format with just these characters. -/
theorem reaches_colon {c : Context} {arguments : List Value} {front out : Bytes} {s : State}
    (h : (c.machine arguments).feed c.options front = .ok (out, ⟨.text, s⟩))
    (hspec : spec.all isSpec = true) :
    Reaches c arguments (front ++ Bytes.ofAscii ('%' :: ':' :: spec)) spec none := by
  refine ⟨out ++ [], s, ?_⟩
  rw [Machine.feed_append, h]
  simp only [bind, Except.bind, feed_colon c.options s hspec]
  rfl

/-- A specification that is out of bounds ends the expansion at the byte that closes its format. -/
theorem Reaches.expand_closing {c : Context} {arguments : List Value} {front : Bytes}
    (h : Reaches c arguments front spec before) (hspec : ¬IsBounded spec) {b : UInt8}
    {k : Conversion} (hb : Closes c.options before b k) (rest : Bytes) :
    c.expand (front ++ b :: rest) arguments = .error .malformedLiteral := by
  obtain ⟨out, s, hrun⟩ := h.run
  apply expand_append_of_error hrun
  have hread := hb.read_eq spec
  rw [printed_eq, if_neg hspec] at hread
  rw [Machine.complete, feed_error hread]
  rfl

/-- A format out of bounds that the end of the template closes is refused. -/
theorem Reaches.expand_unended {c : Context} {arguments : List Value} {front : Bytes}
    (h : Reaches c arguments front spec before) (hspec : ¬IsBounded spec)
    (he : c.options.formatEnd = .percent) :
    c.expand front arguments = .error .malformedLiteral := by
  obtain ⟨out, s, hrun⟩ := h.run
  rw [← List.append_nil front]
  apply expand_append_of_error hrun
  rw [Machine.complete, Machine.feed_nil]
  simp only [bind, Except.bind, finish_format he, if_neg hspec]

/-- A specification is read by its grammar, and used or refused where its format ends. -/
structure ReadsGrammar (spec : List Char) : Prop where
  read : ofSpec? spec = if IsBounded spec then some (denoted spec) else none
  /-- A value is taken and printed in the format.  If there is none, nothing is taken: it is the
  same error on every stack. -/
  closed : ∀ (o : Options) (s : State) (before : Option Conversion) (b : UInt8) (k : Conversion),
    Closes o before b k →
      Machine.feed o ⟨.format spec before, s⟩ [b] =
        if IsBounded spec then
          ((Instruction.print (denoted spec) k).exec o.operands s).map fun r => (r.1, ⟨.text, r.2⟩)
        else .error .malformedLiteral
  unended : ∀ (o : Options) (s : State) (before : Option Conversion), o.formatEnd = .percent →
    Machine.finish o ⟨.format spec before, s⟩ =
      if IsBounded spec then
        (Instruction.print (denoted spec) (before.getD .decimal)).exec o.operands s
      else .error .malformedLiteral
  /-- Every character of a specification is read into it, whatever stands in front of the format. -/
  reached : spec.all isSpec = true → ∀ (c : Context) (arguments : List Value) (front out : Bytes)
    (s : State), (c.machine arguments).feed c.options front = .ok (out, ⟨.text, s⟩) →
      Reaches c arguments (front ++ Bytes.ofAscii ('%' :: ':' :: spec)) spec none
  /-- A whole expansion fails with it, whatever stands behind the format. -/
  fails : ¬IsBounded spec → ∀ (c : Context) (arguments : List Value) (front : Bytes)
    (before : Option Conversion), Reaches c arguments front spec before →
      (∀ b k, Closes c.options before b k → ∀ rest,
        c.expand (front ++ b :: rest) arguments = .error .malformedLiteral) ∧
      (c.options.formatEnd = .percent → c.expand front arguments = .error .malformedLiteral)

/-- Whatever its characters are and in whatever order they stand, the three parts of a specification
decide between its format and the failure. -/
theorem readsGrammar (spec : List Char) : ReadsGrammar spec where
  read := ofSpec?_eq spec
  closed _ s _ _ _ h := feed_closing h spec s
  unended _ s _ he := finish_format he spec s
  reached hspec _ _ _ _ _ hfront := reaches_colon hfront hspec
  fails hspec _ _ _ _ hrun :=
    ⟨fun _ _ hb rest => hrun.expand_closing hspec hb rest, hrun.expand_unended hspec⟩

end Ending

/-- A flag behind the first digit and a second point have no effect, and the digits on both sides of
them belong together. -/
example : ofSpec? ['#', '0', '4', '-', '2', '.', '1', '.', '+', '5'] =
    some { width := 42, precision := some 15, alternate := true } := rfl

end Terminal.Template.Format
