import Terminal.Proofs.Entry.Reader

/-!
# Which bytes are compiled entries

`firstError` lists the conditions that bytes must meet, in terms of their positions and in the order
in which a violation is reported.  `read_eq_error_iff` says that the reader reports exactly this
error, reads an entry from bytes that have none, and takes no byte from outside the data.
-/

namespace Terminal.Entry

/-! ## The conditions -/

/-- The offset belongs to a text, but no zero byte ends it. -/
def IsUnended (data : Bytes) (texts offset : Nat) : Prop :=
  offset ≠ 0xffff ∧ offset ≠ 0xfffe ∧ ∀ j < data.length, texts + offset ≤ j → data[j]? ≠ some 0

instance (data : Bytes) (texts offset : Nat) : Decidable (IsUnended data texts offset) :=
  inferInstanceAs (Decidable (_ ∧ _ ∧ _))

/-- The names are nothing, a zero byte alone, or begin with a bar. -/
def IsNameless (data : Bytes) (size : Nat) : Prop :=
  size = 0 ∨ size = 1 ∧ data[12]? = some 0 ∨ data[12]? = some 0x7c

instance (data : Bytes) (size : Nat) : Decidable (IsNameless data size) :=
  inferInstanceAs (Decidable (_ ∨ _ ∨ _))

/-- The first error behind a header with the given sizes. -/
def sectionError (data : Bytes) (names booleans numbers strings : Nat) : Option Error :=
  let flagsEnd := 12 + names + booleans
  let numberStart := flagsEnd + flagsEnd % 2
  let offsets := numberStart + 2 * numbers
  let texts := offsets + 2 * strings
  if 45 < booleans ∨ 39 < numbers ∨ 414 < strings then some .tooManyCapabilities
  else if data.length < 12 + names then some .truncated
  else if IsNameless data names then some .emptyName
  else if data.length < texts then some .truncated
  else if ∃ i < strings, IsUnended data texts (wordAt data (offsets + 2 * i)) then some .truncated
  else none

/-- The first error of some bytes, if they have any. -/
def firstError (data : Bytes) : Option Error :=
  if data.length < 2 then some .truncated
  else if data.take 2 ≠ [0x1a, 0x01] then some .unknownMagic
  else if data.length < 10 then some .truncated
  else sectionError data (wordAt data 2) (wordAt data 4) (wordAt data 6) (wordAt data 8)

/-! ## The names -/

/-- A terminator is looked for at the end only. -/
theorem dropTerminator_cons_cons (b c : UInt8) (rest : Bytes) :
    dropTerminator (b :: c :: rest) = b :: dropTerminator (c :: rest) := by
  simp only [dropTerminator, List.getLast?_cons_cons, List.dropLast_cons_cons]
  split <;> rfl

/-- A section that is not empty has an empty primary name just if a bar comes first. -/
theorem splitNames_fst_cons_eq_nil_iff (b : UInt8) (bytes : Bytes) :
    (splitNames (b :: bytes)).1 = [] ↔ b = 0x7c := by
  by_cases hb : b = 0x7c <;> simp [splitNames, bar, hb]

/-- The primary name is empty just if there is no name. -/
theorem splitNames_fst_eq_nil_iff {data : Bytes} {size : Nat} (h : 12 + size ≤ data.length) :
    (splitNames (dropTerminator (slice data 12 size))).1 = [] ↔ IsNameless data size := by
  have hlength := length_slice h
  have hfirst (hpos : 0 < size) : (slice data 12 size)[0]? = data[12]? := by
    simp [slice, hpos]
  -- The terminator counts only behind other bytes, so short name sections are looked at one by one.
  rcases hnames : slice data 12 size with _ | ⟨b, _ | ⟨c, rest⟩⟩
  · obtain rfl : 0 = size := by simpa [hnames] using hlength
    simp [IsNameless, dropTerminator, splitNames]
  · obtain rfl : 1 = size := by simpa [hnames] using hlength
    have hb : data[12]? = some b := by simpa [hnames] using (hfirst (by decide)).symm
    by_cases hzero : b = 0
    · simp [IsNameless, dropTerminator, splitNames, hb, hzero]
    · have hkeep : dropTerminator [b] = [b] := by simp [dropTerminator, hzero]
      rw [hkeep, splitNames_fst_cons_eq_nil_iff]
      simp [IsNameless, hb, hzero]
  · have hsize : rest.length + 2 = size := by simpa [hnames] using hlength
    have hb : data[12]? = some b := by simpa [hnames] using (hfirst (by omega)).symm
    have hne : size ≠ 0 ∧ size ≠ 1 := by omega
    rw [dropTerminator_cons_cons, splitNames_fst_cons_eq_nil_iff]
    simp [IsNameless, hb, hne]

/-! ## The strings -/

/-- All words but two are offsets. -/
theorem isAbsentString_eq_false_iff (w : UInt16) :
    isAbsentString w = false ↔ w.toNat ≠ 0xffff ∧ w.toNat ≠ 0xfffe := by
  simp [isAbsentString, ← UInt16.toNat_inj]

/-- The capabilities cannot be read just if one of the texts is not ended. -/
theorem readCapabilities?_eq_none_iff {h : Header} {data : Bytes} (hcount : h.stringCount ≤ 414)
    (hdata : h.textStart ≤ data.length) (name description : Bytes) :
    readCapabilities? h data name description = none ↔
      ∃ i < h.stringCount, IsUnended data h.textStart (wordAt data (h.offsetStart + 2 * i)) := by
  have hlength : (words (slice data h.offsetStart (2 * h.stringCount))).length = h.stringCount := by
    simpa using congrArg List.length (map_toNat_words_slice hdata)
  have hunended (w : UInt16) :
      (isAbsentString w = false ∧ textAt? (data.drop h.textStart) w.toNat = none) ↔
        IsUnended data h.textStart w.toNat := by
    rw [isAbsentString_eq_false_iff, textAt?_eq_none_iff, and_assoc, IsUnended]
  rw [readCapabilities?, Option.map_eq_none_iff,
    readStrings?_zip_eq_none_iff _ (by simpa [hlength] using hcount)]
  simp only [hunended]
  exact exists_mem_words_slice_iff hdata (IsUnended data h.textStart)

/-! ## The first error -/

/-- The error of a result. -/
def error? : Except Error Entry → Option Error
  | .error e => some e
  | .ok _ => none

/-- A test that ends the reading is a condition of the same place in the list. -/
theorem error?_guard {p q : Prop} [Decidable p] [Decidable q] {e : Error} {r : Except Error Entry}
    {rest : Option Error} (hpq : p ↔ q) (hrest : ¬q → error? r = rest) :
    error? (if p then .error e else r) = if q then some e else rest := by
  by_cases hq : q
  · rw [if_pos hq, if_pos (hpq.mpr hq)]
    rfl
  · rw [if_neg hq, if_neg (mt hpq.mp hq), hrest hq]

/-- A header is refused for too many capabilities of one kind. -/
theorem not_isKnown_iff (h : Header) :
    (!h.isKnown) = true ↔ 45 < h.booleanSize ∨ 39 < h.numberCount ∨ 414 < h.stringCount := by
  rw [Bool.not_eq_true', ← Bool.not_eq_true, Header.isKnown_iff]
  omega

/-- The numbers begin at the next even offset behind the flags. -/
theorem offsetStart_eq (h : Header) :
    h.offsetStart = 12 + h.nameSize + h.booleanSize + (12 + h.nameSize + h.booleanSize) % 2 +
      2 * h.numberCount := by
  simp only [Header.offsetStart, Header.numberStart, Header.booleanStart, Header.size]
  omega

/-- Behind the header, the conditions are tested in the order in which the sections are read. -/
theorem error?_readSections (data : Bytes) (h : Header) :
    error? (readSections h data) =
      sectionError data h.nameSize h.booleanSize h.numberCount h.stringCount := by
  have htexts : h.textStart = h.offsetStart + 2 * h.stringCount := rfl
  simp only [sectionError, ← offsetStart_eq, ← htexts]
  rw [readSections]
  refine error?_guard (not_isKnown_iff h) fun hcount => error?_guard Iff.rfl fun hnames => ?_
  -- the reader tests the name that it has split off, the list the first bytes of the section
  have hempty : (splitNames (dropTerminator (slice data Header.size h.nameSize))).1 = [] ↔
      IsNameless data h.nameSize := splitNames_fst_eq_nil_iff (Nat.le_of_not_lt hnames)
  generalize splitNames (dropTerminator (slice data Header.size h.nameSize)) = names at hempty ⊢
  obtain ⟨name, description⟩ := names
  refine error?_guard hempty fun _ => error?_guard Iff.rfl fun htext => ?_
  have hstrings := readCapabilities?_eq_none_iff (h := h) (by omega) (Nat.le_of_not_lt htext) name
    description
  cases hread : readCapabilities? h data name description with
  | none => exact (if_pos (hstrings.mp hread)).symm
  | some e => exact (if_neg (mt hstrings.mpr (by simp [hread]))).symm

/-- The sections of some bytes have the first of their errors. -/
theorem error?_ofSections (data : Bytes) : error? (ofSections data) = firstError data := by
  rw [firstError, ofSections]
  refine error?_guard Iff.rfl fun _ => error?_guard Iff.rfl fun _ => ?_
  by_cases hheader : data.length < 10
  · rw [if_pos hheader, Header.ofBytes?_of_lt hheader]
    rfl
  · rw [if_neg hheader, Header.ofBytes?_of_le (Nat.le_of_not_lt hheader)]
    exact error?_readSections data ⟨_, _, _, _⟩

/-- What is read from some bytes, with the faults left out, has the same errors. -/
theorem error?_ofBytes (data : Bytes) : error? (ofBytes data) = firstError data := by
  rw [ofBytes_eq_ofSections, error?_ofSections]

/-- The reader refuses bytes for their first error, reads an entry from bytes without one, and
whatever the bytes are, it does not fault. -/
theorem read_eq_error_iff (data : Bytes) :
    (∀ e, read data = .error (.error e) ↔ firstError data = some e) ∧
      ((∃ entry, read data = .ok entry) ↔ firstError data = none) ∧
        ∀ fault, read data ≠ .error (.fault fault) := by
  refine ⟨?_, ?_, isSafe_read data⟩
  all_goals
    rw [← error?_ofSections data, read_eq_lift_ofSections]
    cases ofSections data with
    | error e => simp [error?]
    | ok entry => simp [error?]

end Terminal.Entry
