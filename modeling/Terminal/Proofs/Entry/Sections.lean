import Terminal.Entry.Compiled

/-!
# Entries by their sections

The sections of a compiled entry begin where the sizes in the header say.  `ofSections` reads an
entry from its sections: it tests whether they lie within the data before it looks into them, and
takes each of them as a whole.  This is what the reader with the cursor does in smaller steps, and
the form in which most results about entries are proved.

The words of a table and the ends of the texts are described by positions in the data.
-/

namespace Terminal.Entry

/-! ## Sections -/

/-- The words of a section; a single byte at its end is left out. -/
def words : Bytes → List UInt16
  | low :: high :: rest => word low high :: words rest
  | _ => []

/-- The bytes of a section with the given start and size. -/
def slice (data : Bytes) (start size : Nat) : Bytes := (data.drop start).take size

namespace Header

/-- The sizes behind the magic bytes. -/
def ofBytes? : Bytes → Option Header
  | _ :: _ :: n :: n' :: b :: b' :: k :: k' :: s :: s' :: _ =>
    some ⟨(word n n').toNat, (word b b').toNat, (word k k').toNat, (word s s').toNat⟩
  | _ => none

/-- Where the boolean capabilities begin. -/
def booleanStart (h : Header) : Nat := size + h.nameSize

/-- Where the numeric capabilities begin, an even offset. -/
def numberStart (h : Header) : Nat := (h.booleanStart + h.booleanSize + 1) / 2 * 2

/-- Where the offsets of the string capabilities begin. -/
def offsetStart (h : Header) : Nat := h.numberStart + 2 * h.numberCount

/-- Where the texts begin. -/
def textStart (h : Header) : Nat := h.offsetStart + 2 * h.stringCount

end Header

/-- The names whose byte is not zero. -/
def readBooleans (names : List String) (bytes : Bytes) : List String :=
  (names.zip bytes).filterMap fun (name, b) => if b = 0 then none else some name

/-- The names whose word is a number, with that number. -/
def readNumbers (names : List String) (values : List UInt16) : List (String × UInt16) :=
  (names.zip values).filter fun (_, w) => !isAbsentNumber w

/-- The text at an offset, if a zero byte ends it. -/
def textAt? (texts : Bytes) (offset : Nat) : Option Bytes :=
  let tail := texts.drop offset
  if tail.contains 0 then some (tail.takeWhile (· ≠ 0)) else none

/-- The names whose word is an offset, with the text at that offset.  There is no result if one of
the texts is not ended. -/
def readStrings? (texts : Bytes) : List (String × UInt16) → Option (List (String × Bytes))
  | [] => some []
  | (name, offset) :: rest =>
    if isAbsentString offset then readStrings? texts rest
    else
      match textAt? texts offset.toNat with
      | none => none
      | some text => (readStrings? texts rest).map ((name, text) :: ·)

/-- The capabilities of an entry whose sections all lie within the data. -/
def readCapabilities? (h : Header) (data name description : Bytes) : Option Entry :=
  let offsets := words (slice data h.offsetStart (2 * h.stringCount))
  (readStrings? (data.drop h.textStart) (Capability.stringNames.zip offsets)).map fun strings =>
    { name := Utf8.decode name
      description := Utf8.decode description
      booleans := readBooleans Capability.booleanNames
        (slice data h.booleanStart (h.booleanSize - 1))
      numbers := readNumbers Capability.numberNames
        (words (slice data h.numberStart (2 * h.numberCount)))
      strings }

/-- The entry in the sections behind the header. -/
def readSections (h : Header) (data : Bytes) : Except Error Entry :=
  if !h.isKnown then .error .tooManyCapabilities
  else if data.length < h.booleanStart then .error .truncated
  else
    let (name, description) := splitNames (dropTerminator (slice data Header.size h.nameSize))
    if name = [] then .error .emptyName
    else if data.length < h.textStart then .error .truncated
    else
      match readCapabilities? h data name description with
      | some e => .ok e
      | none => .error .truncated

/-- The entry in all sections. -/
def ofSections (data : Bytes) : Except Error Entry :=
  if data.length < magic.length then .error .truncated
  else if data.take magic.length ≠ magic then .error .unknownMagic
  else
    match Header.ofBytes? data with
    | none => .error .truncated
    | some h => readSections h data

/-! ## Words -/

/-- The number in two bytes, the lower one first.  A byte behind the end counts as zero. -/
def wordAt (data : Bytes) (i : Nat) : Nat :=
  (data.getD i 0).toNat + 256 * (data.getD (i + 1) 0).toNat

/-- The header has its sizes at fixed places. -/
theorem Header.ofBytes?_of_le {data : Bytes} (h : 10 ≤ data.length) :
    Header.ofBytes? data =
      some ⟨wordAt data 2, wordAt data 4, wordAt data 6, wordAt data 8⟩ := by
  obtain ⟨front, rest, rfl, hfront⟩ : ∃ front rest, data = front ++ rest ∧ front.length = 10 :=
    ⟨data.take 10, data.drop 10, (List.take_append_drop 10 data).symm, by simp [h]⟩
  match front, hfront with
  | [_, _, _, _, _, _, _, _, _, _], _ => simp [Header.ofBytes?, wordAt, toNat_word]

/-- Without the fourth size there is no header. -/
theorem Header.ofBytes?_of_lt {data : Bytes} (h : data.length < 10) :
    Header.ofBytes? data = none := by
  unfold Header.ofBytes?
  split
  · simp at h
    omega
  · rfl

/-- The vocabulary bounds the sizes of a header. -/
theorem Header.isKnown_iff (h : Header) :
    h.isKnown = true ↔ h.booleanSize ≤ 45 ∧ h.numberCount ≤ 39 ∧ h.stringCount ≤ 414 := by
  simp only [Header.isKnown, Bool.and_eq_true, decide_eq_true_eq]
  rw [Capability.length_booleanNames, Capability.length_numberNames, Capability.length_stringNames]
  omega

/-- The value at zero, and the values at the numbers behind it. -/
theorem map_range_succ {α : Type} (f : Nat → α) (n : Nat) :
    (List.range (n + 1)).map f = f 0 :: (List.range n).map fun i => f (i + 1) := by
  rw [List.range_succ_eq_map, List.map_cons, List.map_map]
  rfl

/-- The words of a section stand at its even places. -/
theorem map_toNat_words (bytes : Bytes) :
    (words bytes).map UInt16.toNat =
      (List.range (bytes.length / 2)).map fun i => wordAt bytes (2 * i) := by
  induction bytes using words.induct with
  | case1 low high rest ih =>
    have hlength : (low :: high :: rest).length / 2 = rest.length / 2 + 1 := by
      rw [List.length_cons, List.length_cons]
      omega
    rw [words, List.map_cons, ih, hlength, map_range_succ, toNat_word]
    rfl
  | case2 bytes hshort =>
    have hlength : bytes.length / 2 = 0 := by
      rcases bytes with _ | ⟨low, _ | ⟨high, rest⟩⟩
      · rfl
      · simp
      · exact absurd rfl (hshort low high rest)
    simp [words, hlength]

/-- Within a section the data are those of the whole. -/
theorem wordAt_slice (data : Bytes) (start : Nat) {size i : Nat} (h : i + 1 < size) :
    wordAt (slice data start size) i = wordAt data (start + i) := by
  have hi : i < size := by omega
  simp [wordAt, slice, List.getD_eq_getElem?_getD, h, hi, Nat.add_assoc]

/-- A place in a section is one in the data, up to the end of the section. -/
theorem getElem?_slice (data : Bytes) (start size i : Nat) :
    (slice data start size)[i]? = if i < size then data[start + i]? else none := by
  simp [slice, List.getElem?_take]

/-- A section that lies within the data has its full size. -/
theorem length_slice {data : Bytes} {start size : Nat} (h : start + size ≤ data.length) :
    (slice data start size).length = size := by
  simp [slice]
  omega

/-- The words of a table within the data. -/
theorem map_toNat_words_slice {data : Bytes} {start count : Nat}
    (h : start + 2 * count ≤ data.length) :
    (words (slice data start (2 * count))).map UInt16.toNat =
      (List.range count).map fun i => wordAt data (start + 2 * i) := by
  have hcount : 2 * count / 2 = count := by omega
  rw [map_toNat_words, length_slice h, hcount]
  refine List.map_congr_left fun i hi => wordAt_slice data start ?_
  have := List.mem_range.mp hi
  omega

/-- Some word of a table has a property just if the word at some place of it does. -/
theorem exists_mem_words_slice_iff {data : Bytes} {start count : Nat}
    (h : start + 2 * count ≤ data.length) (p : Nat → Prop) :
    (∃ w ∈ words (slice data start (2 * count)), p w.toNat) ↔
      ∃ i < count, p (wordAt data (start + 2 * i)) := by
  have hwords := map_toNat_words_slice h
  constructor
  · rintro ⟨w, hw, hp⟩
    have hmem := List.mem_map_of_mem (f := UInt16.toNat) hw
    rw [hwords] at hmem
    obtain ⟨i, hi, heq⟩ := List.mem_map.mp hmem
    exact ⟨i, List.mem_range.mp hi, heq ▸ hp⟩
  · rintro ⟨i, hi, hp⟩
    have hmem := List.mem_map_of_mem (f := fun i => wordAt data (start + 2 * i))
      (List.mem_range.mpr hi)
    rw [← hwords] at hmem
    obtain ⟨w, hw, heq⟩ := List.mem_map.mp hmem
    exact ⟨w, hw, heq ▸ hp⟩

/-! ## Texts -/

/-- There is no text at an offset if there is no zero byte from there on. -/
theorem textAt?_eq_none_iff (data : Bytes) (start offset : Nat) :
    textAt? (data.drop start) offset = none ↔
      ∀ j < data.length, start + offset ≤ j → data[j]? ≠ some 0 := by
  have hmem : 0 ∈ data.drop (start + offset) ↔ ∃ j, start + offset ≤ j ∧ data[j]? = some 0 := by
    rw [List.mem_iff_getElem?]
    constructor
    · rintro ⟨k, hk⟩
      exact ⟨start + offset + k, by omega, by rwa [List.getElem?_drop] at hk⟩
    · rintro ⟨j, hj, h⟩
      obtain ⟨k, rfl⟩ := Nat.exists_eq_add_of_le hj
      exact ⟨k, by rwa [List.getElem?_drop]⟩
  have hnone : textAt? (data.drop start) offset = none ↔ 0 ∉ data.drop (start + offset) := by
    simp [textAt?, List.drop_drop]
  rw [hnone, hmem]
  constructor
  · exact fun h j _ hj hzero => h ⟨j, hj, hzero⟩
  · rintro h ⟨j, hj, hzero⟩
    exact h j (List.getElem?_eq_some_iff.mp hzero).1 hj hzero

/-- The strings of a table cannot be read just if one of their texts is not ended. -/
theorem readStrings?_zip_eq_none_iff (texts : Bytes) {names : List String} {offsets : List UInt16}
    (h : offsets.length ≤ names.length) :
    readStrings? texts (names.zip offsets) = none ↔
      ∃ w ∈ offsets, isAbsentString w = false ∧ textAt? texts w.toNat = none := by
  induction offsets generalizing names with
  | nil => simp [readStrings?]
  | cons w rest ih =>
    cases names with
    | nil => simp at h
    | cons name names =>
      have hle : rest.length ≤ names.length := by simpa using h
      have hrest := ih hle
      rw [List.zip_cons_cons, readStrings?]
      by_cases habsent : isAbsentString w = true
      · simp [habsent, hrest]
      · rw [if_neg habsent]
        cases htext : textAt? texts w.toNat with
        | none => simp [habsent, htext]
        | some text => simp [htext, hrest]

end Terminal.Entry
