import Terminal.Proofs.Entry.Sections

/-!
# The reader and the sections

The reader with the cursor takes an entry apart in many small steps, and each of them can find that
the data have ended.  `read_eq_lift_ofSections` says that together they do what the two length tests
of `ofSections` do: where the names are there and the tables are not, some step on the way ends in
`truncated`, whichever it is.
-/

namespace Terminal.Entry

open Halt

/-! ## Ranges -/

/-- A range is there just if it ends within the data. -/
theorem part?_add (data : Bytes) (start size : Nat) :
    part? data start (start + size) =
      if start + size ≤ data.length then some (slice data start size) else none := by
  have hstart : start ≤ start + size := Nat.le_add_right _ _
  have hsize : start + size - start = size := Nat.add_sub_cancel_left _ _
  simp only [part?, hstart, true_and, hsize, slice]

/-- All that follows a position is there unless the position lies behind the end. -/
theorem part?_length (data : Bytes) (start : Nat) :
    part? data start data.length =
      if start ≤ data.length then some (data.drop start) else none := by
  have htake : (data.drop start).take (data.length - start) = data.drop start :=
    List.take_of_length_le (Nat.le_of_eq List.length_drop)
  simp only [part?, Nat.le_refl, and_true, htake]

/-- The first byte of a section that is not empty. -/
theorem slice_succ {data : Bytes} {start : Nat} (h : start < data.length) (size : Nat) :
    slice data start (size + 1) = data.getD start 0 :: slice data (start + 1) size := by
  rw [slice, List.drop_eq_getElem_cons h, List.take_succ_cons, slice,
    List.getD_eq_getElem?_getD, List.getElem?_eq_getElem h, Option.getD_some]

/-- A text is the bytes up to the first zero byte behind its offset. -/
theorem textAt_eq (heap : Bytes) (offset : Nat) :
    textAt heap offset = require (textAt? heap offset) := by
  rw [textAt, part?_length, textAt?]
  by_cases hoffset : offset ≤ heap.length
  · rw [if_pos hoffset]
    show (require ((heap.drop offset).findIdx? (· == 0)) >>= _) = _
    generalize heap.drop offset = tail
    -- Both look for the first zero, one by its position and one by what stands before it.
    have hsame : (fun b : UInt8 => !decide (b ≠ 0)) = (· == 0) := by
      funext b
      by_cases hb : b = 0 <;> simp [hb]
    cases hfound : tail.findIdx? (· == 0) with
    | none =>
      have hzero : ¬tail.contains 0 = true := by
        rw [List.contains_iff_mem]
        intro hmem
        exact absurd (List.findIdx?_eq_none_iff.mp hfound 0 hmem) (by decide)
      rw [if_neg hzero]
      rfl
    | some size =>
      obtain ⟨hsize, hfirst⟩ := List.findIdx?_eq_some_iff_findIdx_eq.mp hfound
      obtain ⟨b, hb, hzero⟩ := List.findIdx_lt_length.mp (hfirst ▸ hsize)
      obtain rfl : b = 0 := eq_of_beq hzero
      have hmem : tail.contains 0 = true := List.contains_iff_mem.mpr hb
      have htext : tail.takeWhile (· ≠ 0) = tail.take size := by
        rw [List.takeWhile_eq_take_findIdx_not, hsame, hfirst]
      rw [if_pos hmem, htext]
      exact part_eq_ok (Nat.zero_le _) (Nat.le_of_lt hsize)
  · have hnil : heap.drop offset = [] := List.drop_eq_nil_of_le (by omega)
    rw [if_neg hoffset, hnil]
    rfl

/-! ## Single reads -/

namespace Cursor

variable {c : Cursor} {size : Nat}

/-- Bytes that are there are read. -/
theorem readExact_of_le (h : c.position + size ≤ c.bytes.length) :
    c.readExact size = .ok (slice c.bytes c.position size, c.advance size) := by
  have hmin : min c.position c.bytes.length = c.position := by omega
  have hrest : ((c.bytes.drop c.position).take (c.bytes.length - c.position)) =
      c.bytes.drop c.position := List.take_of_length_le (Nat.le_of_eq List.length_drop)
  rw [readExact, part_eq_ok (Nat.min_le_right _ _) Nat.le.refl, hmin, hrest]
  show (if _ then _ else _) = _
  rw [if_neg (by rw [List.length_drop]; omega)]
  rfl

/-- Bytes of which one is missing are not. -/
theorem readExact_of_lt (h : c.bytes.length < c.position + size) (hsize : 0 < size) :
    c.readExact size = .error (.error .truncated) := by
  rw [readExact, part_eq_ok (Nat.min_le_right _ _) Nat.le.refl]
  show (if _ then _ else _) = _
  rw [if_pos (by rw [List.length_take, List.length_drop]; omega)]

/-- A byte that is there is read. -/
theorem readByte_of_le (h : c.position + 1 ≤ c.bytes.length) :
    c.readByte = .ok (c.bytes.getD c.position 0, c.advance 1) := by
  rw [readByte, readExact_of_le h, slice_succ h]
  rfl

/-- A byte behind the end is not. -/
theorem readByte_of_lt (h : c.bytes.length < c.position + 1) :
    c.readByte = .error (.error .truncated) := by
  rw [readByte, readExact_of_lt h Nat.one_pos]
  rfl

/-- A word of which both bytes are there is read. -/
theorem readWord_of_le (h : c.position + 2 ≤ c.bytes.length) :
    c.readWord =
      .ok (word (c.bytes.getD c.position 0) (c.bytes.getD (c.position + 1) 0), c.advance 2) := by
  rw [readWord, readExact_of_le h, slice_succ (by omega), slice_succ (by omega)]
  rfl

/-- A word of which one byte is missing is not. -/
theorem readWord_of_lt (h : c.bytes.length < c.position + 2) :
    c.readWord = .error (.error .truncated) := by
  rw [readWord, readExact_of_lt h Nat.two_pos]
  rfl

/-- A section that is there is taken. -/
theorem readSlice_of_le (h : c.position + size ≤ c.bytes.length)
    (hoffset : c.position + size ≤ greatestOffset) :
    c.readSlice size = .ok (slice c.bytes c.position size, c.advance size) := by
  rw [readSlice, checkedSum, if_pos hoffset]
  show (require (part? c.bytes c.position (c.position + size)) >>= _) = _
  rw [part?_add, if_pos h]
  rfl

/-- A section that ends behind the data is not, not even an empty one. -/
theorem readSlice_of_lt (h : c.bytes.length < c.position + size) :
    c.readSlice size = .error (.error .truncated) := by
  rw [readSlice, checkedSum]
  split
  · show (require (part? c.bytes c.position (c.position + size)) >>= _) = _
    rw [part?_add, if_neg (Nat.not_le_of_lt h)]
    rfl
  · rfl

/-- A word is read, or the data are truncated. -/
theorem readWord_cases (c : Cursor) :
    (∃ w, c.readWord = .ok (w, c.advance 2)) ∨ c.readWord = .error (.error .truncated) := by
  rcases Nat.lt_or_ge c.bytes.length (c.position + 2) with h | h
  · exact .inr (readWord_of_lt h)
  · exact .inl ⟨_, readWord_of_le h⟩

/-- A byte is read, or the data are truncated. -/
theorem readByte_cases (c : Cursor) :
    (∃ b, c.readByte = .ok (b, c.advance 1)) ∨ c.readByte = .error (.error .truncated) := by
  rcases Nat.lt_or_ge c.bytes.length (c.position + 1) with h | h
  · exact .inr (readByte_of_lt h)
  · exact .inl ⟨_, readByte_of_le h⟩

/-- Two steps make one. -/
theorem advance_advance (c : Cursor) (m n : Nat) : (c.advance m).advance n = c.advance (m + n) := by
  simp only [advance, setPosition, Nat.add_assoc]

/-! ## The header -/

/-- The sizes stand behind the magic bytes. -/
theorem readHeader_of_le {data : Bytes} (h : 10 ≤ data.length) :
    readHeader ⟨data, 2⟩ =
      .ok (⟨wordAt data 2, wordAt data 4, wordAt data 6, wordAt data 8⟩, ⟨data, 10⟩) := by
  have hword (i : Nat) (hi : i ≤ 8) : readWord ⟨data, i⟩ =
      .ok (word (data.getD i 0) (data.getD (i + 1) 0), ⟨data, i + 2⟩) :=
    readWord_of_le (c := ⟨data, i⟩) (by show i + 2 ≤ data.length; omega)
  simp only [readHeader, hword 2 (by decide), hword 4 (by decide), hword 6 (by decide),
    hword 8 (by decide), bind, Except.bind, pure, Except.pure, toNat_word, wordAt]

/-- Where the last of the four sizes is missing, one of the reads misses something. -/
theorem readHeader_of_lt {data : Bytes} (h : data.length < 10) :
    readHeader ⟨data, 2⟩ = .error (.error .truncated) := by
  have hlast : readWord (((Cursor.mk data 2).advance 2).advance 2 |>.advance 2) =
      .error (.error .truncated) := readWord_of_lt h
  rw [readHeader]
  rcases readWord_cases ⟨data, 2⟩ with ⟨n, hn⟩ | hn <;> rw [hn]
  · show (readWord _ >>= _) = _
    rcases readWord_cases ((Cursor.mk data 2).advance 2) with ⟨b, hb⟩ | hb <;> rw [hb]
    · show (readWord _ >>= _) = _
      rcases readWord_cases (((Cursor.mk data 2).advance 2).advance 2) with ⟨k, hk⟩ | hk <;> rw [hk]
      · show (readWord _ >>= _) = _
        rw [hlast]
        rfl
      · rfl
    · rfl
  · rfl

/-! ## Tables -/

section Tables

variable {α β : Type} {readItem : Cursor → Reading (α × Cursor)}
  {keep : String → α → Reading (Option β)}

/-- What is kept of a table whose items are given. -/
def keepAll (keep : String → α → Reading (Option β)) : List (String × α) → Reading (List β)
  | [] => .ok []
  | (name, item) :: pairs => do
    let kept ← keep name item
    let rest ← keepAll keep pairs
    return kept.toList ++ rest

/-- A table whose items lie within the data is read item by item. -/
theorem readTable_of_le (keep : String → α → Reading (Option β)) (valueAt : Bytes → Nat → α)
    (hread : ∀ c : Cursor, c.position + size ≤ c.bytes.length →
      readItem c = .ok (valueAt c.bytes c.position, c.advance size))
    (names : List String) (h : c.position + size * names.length ≤ c.bytes.length) :
    c.readTable readItem keep names = (keepAll keep (names.zip ((List.range names.length).map
      fun i => valueAt c.bytes (c.position + size * i)))).map
        fun found => (found, c.advance (size * names.length)) := by
  induction names generalizing c with
  | nil => rfl
  | cons name names ih =>
    have hsize : size * (names.length + 1) = size + size * names.length := by
      rw [Nat.mul_add, Nat.mul_one, Nat.add_comm]
    rw [List.length_cons, hsize] at h
    -- The rest of the table is read in the same way, from one item further on.
    have hrest : (c.advance size).readTable readItem keep names =
        (keepAll keep (names.zip ((List.range names.length).map
          fun i => valueAt c.bytes (c.position + size + size * i)))).map
            fun found => (found, (c.advance size).advance (size * names.length)) := by
      apply ih
      show c.position + size + size * names.length ≤ c.bytes.length
      omega
    have hvalues : (List.range (names.length + 1)).map
          (fun i => valueAt c.bytes (c.position + size * i)) =
        valueAt c.bytes c.position :: (List.range names.length).map
          (fun i => valueAt c.bytes (c.position + size + size * i)) := by
      rw [map_range_succ]
      refine congrArg _ (List.map_congr_left fun i _ => ?_)
      rw [Nat.mul_add, Nat.mul_one, Nat.add_assoc, Nat.add_comm size]
    rw [readTable, hread c (by omega), List.length_cons, hvalues, List.zip_cons_cons, keepAll, hsize,
      ← advance_advance]
    show (keep name _ >>= fun kept => (c.advance size).readTable readItem keep names >>= _) = _
    rw [hrest]
    -- What remains is the same sequence of keeping one item and then the rest, failure by failure.
    cases keep name (valueAt c.bytes c.position) with
    | error e => rfl
    | ok kept =>
      cases keepAll keep (names.zip ((List.range names.length).map
        fun i => valueAt c.bytes (c.position + size + size * i))) <;> rfl

/-- A table of items that are kept or left out as they are. -/
theorem keepAll_eq_ok {kept : String → α → Option β}
    (h : ∀ name item, keep name item = .ok (kept name item)) (pairs : List (String × α)) :
    keepAll keep pairs = .ok (pairs.filterMap fun p => kept p.1 p.2) := by
  induction pairs with
  | nil => rfl
  | cons p pairs ih =>
    rw [keepAll, h, ih, List.filterMap_cons]
    cases kept p.1 p.2 <;> rfl

/-- A table is read to its end unless one of its items is missing. -/
theorem readTable_cases
    (hread : ∀ c : Cursor, (∃ item, readItem c = .ok (item, c.advance size)) ∨
      readItem c = .error (.error .truncated))
    {kept : String → α → Option β} (hkeep : ∀ name item, keep name item = .ok (kept name item))
    (c : Cursor) (names : List String) :
    (∃ found, c.readTable readItem keep names = .ok (found, c.advance (size * names.length))) ∨
      c.readTable readItem keep names = .error (.error .truncated) := by
  induction names generalizing c with
  | nil => exact .inl ⟨[], rfl⟩
  | cons name names ih =>
    rw [readTable]
    -- The first read that runs past the end is the last one that is made.
    rcases hread c with ⟨item, hitem⟩ | hitem
    · rw [hitem]
      show (∃ found, (keep name item >>= _) = _) ∨ (keep name item >>= _) = _
      rw [hkeep]
      rcases ih (c.advance size) with ⟨found, hfound⟩ | hfound
      · refine .inl ⟨(kept name item).toList ++ found, ?_⟩
        show (readTable readItem keep (c.advance size) names >>= _) = _
        rw [hfound, advance_advance, List.length_cons, Nat.mul_add, Nat.mul_one, Nat.add_comm size]
        rfl
      · right
        show (readTable readItem keep (c.advance size) names >>= _) = _
        rw [hfound]
        rfl
    · right
      rw [hitem]
      rfl

end Tables

end Cursor

/-! ## What is kept of a table -/

/-- A table cannot have more items than there are names. -/
theorem zip_take {α : Type} (names : List String) (items : List α) :
    (names.take items.length).zip items = names.zip items := by
  induction items generalizing names with
  | nil => simp
  | cons item items ih =>
    cases names with
    | nil => rfl
    | cons name names => rw [List.length_cons, List.take_succ_cons, List.zip_cons_cons, ih,
        List.zip_cons_cons]

/-- The bytes of a section one by one. -/
theorem map_range_getD {data : Bytes} {start count : Nat} (h : start + count ≤ data.length) :
    ((List.range count).map fun i => data.getD (start + 1 * i) 0) = slice data start count := by
  induction count generalizing start with
  | zero => rfl
  | succ count ih =>
    have hshift : (fun i => data.getD (start + 1 * (i + 1)) 0) =
        fun i => data.getD (start + 1 + 1 * i) 0 := by
      funext i
      congr 1
      omega
    rw [map_range_succ, hshift, ih (by omega), slice_succ (by omega)]
    rfl

/-- The words of a section one by one. -/
theorem map_range_word {data : Bytes} {start count : Nat} (h : start + 2 * count ≤ data.length) :
    ((List.range count).map fun i =>
        word (data.getD (start + 2 * i) 0) (data.getD (start + 2 * i + 1) 0)) =
      words (slice data start (2 * count)) := by
  apply (List.map_inj_right fun _ _ => UInt16.toNat_inj.mp).mp
  rw [map_toNat_words_slice h, List.map_map]
  exact List.map_congr_left fun i _ => toNat_word _ _

section Counted

variable {β : Type} {c : Cursor} {names : List String} {count : Nat}

/-- A table of bytes is a section, with a name for each byte. -/
theorem readTable_readByte {keep : String → UInt8 → Reading (Option β)} (hnames : count ≤ names.length)
    (h : c.position + count ≤ c.bytes.length) :
    c.readTable Cursor.readByte keep (names.take count) =
      (Cursor.keepAll keep (names.zip (slice c.bytes c.position count))).map
        fun found => (found, c.advance count) := by
  have hcount : (names.take count).length = count := List.length_take_of_le hnames
  have hread := Cursor.readTable_of_le (c := c) keep (fun bytes i => bytes.getD i 0)
    (fun _ => Cursor.readByte_of_le) (names.take count) (by rwa [hcount, Nat.one_mul])
  have hzip := zip_take names (slice c.bytes c.position count)
  rw [length_slice h] at hzip
  rw [hread, hcount, map_range_getD h, Nat.one_mul, hzip]

/-- A table of words is a section, with a name for every two bytes. -/
theorem readTable_readWord {keep : String → UInt16 → Reading (Option β)} (hnames : count ≤ names.length)
    (h : c.position + 2 * count ≤ c.bytes.length) :
    c.readTable Cursor.readWord keep (names.take count) =
      (Cursor.keepAll keep (names.zip (words (slice c.bytes c.position (2 * count))))).map
        fun found => (found, c.advance (2 * count)) := by
  have hcount : (names.take count).length = count := List.length_take_of_le hnames
  have hread := Cursor.readTable_of_le (c := c) keep
    (fun bytes i => word (bytes.getD i 0) (bytes.getD (i + 1) 0))
    (fun _ => Cursor.readWord_of_le) (names.take count) (by rwa [hcount])
  have hzip := zip_take names (words (slice c.bytes c.position (2 * count)))
  have hlength : (words (slice c.bytes c.position (2 * count))).length = count := by
    simpa using congrArg List.length (map_toNat_words_slice h)
  rw [hlength] at hzip
  rw [hread, hcount, map_range_word h, hzip]

end Counted

theorem keepBoolean_eq (name : String) (b : UInt8) :
    keepBoolean name b = .ok (if b = 0 then none else some name) := rfl

theorem keepNumber_eq (name : String) (w : UInt16) :
    keepNumber name w = .ok (if isAbsentNumber w then none else some (name, w)) := rfl

/-- The flags that are kept are those whose byte is not zero. -/
theorem keepAll_keepBoolean (pairs : List (String × UInt8)) :
    Cursor.keepAll keepBoolean pairs =
      .ok (pairs.filterMap fun (name, b) => if b = 0 then none else some name) :=
  Cursor.keepAll_eq_ok keepBoolean_eq pairs

/-- The numbers that are kept are those that are not absent. -/
theorem keepAll_keepNumber (pairs : List (String × UInt16)) :
    Cursor.keepAll keepNumber pairs = .ok (pairs.filter fun (_, w) => !isAbsentNumber w) := by
  rw [← List.filterMap_eq_filter]
  refine (Cursor.keepAll_eq_ok keepNumber_eq pairs).trans ?_
  refine congrArg Except.ok (congrArg (List.filterMap · pairs) (funext fun (name, w) => ?_))
  cases hw : isAbsentNumber w <;> simp [Option.guard, hw]

/-- The strings are kept if all their texts are ended. -/
theorem keepAll_keepString (heap : Bytes) (pairs : List (String × UInt16)) :
    Cursor.keepAll (keepString heap) pairs = require (readStrings? heap pairs) := by
  induction pairs with
  | nil => rfl
  | cons p pairs ih =>
    obtain ⟨name, offset⟩ := p
    rw [Cursor.keepAll, keepString, readStrings?, ih]
    by_cases habsent : isAbsentString offset = true
    · rw [if_pos habsent, if_pos habsent]
      cases readStrings? heap pairs <;> rfl
    · rw [if_neg habsent, if_neg habsent, textAt_eq]
      cases textAt? heap offset.toNat with
      | none => rfl
      | some text => cases readStrings? heap pairs <;> rfl

/-! ## Sections -/

variable {h : Header} {data : Bytes}

/-- A header is known if each table has enough names. -/
theorem isKnown_iff_le :
    h.isKnown = true ↔ h.booleanSize - 1 ≤ Capability.booleanNames.length ∧
      h.numberCount ≤ Capability.numberNames.length ∧
        h.stringCount ≤ Capability.stringNames.length := by
  simp only [Header.isKnown, Bool.and_eq_true, decide_eq_true_eq, and_assoc]

/-- The numbers begin at the next even position behind the flags. -/
theorem align_advance (h : Header) (data : Bytes) :
    ((Cursor.mk data h.booleanStart).advance h.booleanSize).align = ⟨data, h.numberStart⟩ := by
  have hnumbers : h.numberStart = (h.booleanStart + h.booleanSize + 1) / 2 * 2 := rfl
  by_cases hodd : (h.booleanStart + h.booleanSize) % 2 = 1
  · refine (if_pos hodd).trans (congrArg (Cursor.mk data) ?_)
    show h.booleanStart + h.booleanSize + 1 = _
    omega
  · refine (if_neg hodd).trans (congrArg (Cursor.mk data) ?_)
    show h.booleanStart + h.booleanSize = _
    omega

/-- Sections that lie within the data are read as a whole. -/
theorem readCapabilities_of_le (hknown : h.isKnown = true) (hend : h.textStart ≤ data.length)
    (hoffset : h.textStart ≤ greatestOffset) (name description : Bytes) :
    readCapabilities h ⟨data, h.booleanStart⟩ name description =
      require (readCapabilities? h data name description) := by
  obtain ⟨hbooleans, hnumbers, hstrings⟩ := isKnown_iff_le.mp hknown
  have hflags : h.booleanStart + h.booleanSize ≤ h.numberStart := by
    rw [Header.numberStart]
    omega
  have hwithin : h.offsetStart + 2 * h.stringCount ≤ data.length := hend
  have hnumberEnd : h.numberStart + 2 * h.numberCount ≤ data.length :=
    Nat.le_trans (Nat.le_add_right _ _) hwithin
  have hbooleanEnd : h.booleanStart + (h.booleanSize - 1) ≤ data.length := by omega
  have hoffsets : (slice data h.offsetStart (2 * h.stringCount)).length = 2 * h.stringCount :=
    length_slice hwithin
  -- Each part is rewritten in the order in which it is read.
  rw [readCapabilities, readTable_readByte hbooleans hbooleanEnd, keepAll_keepBoolean]
  show (Cursor.readTable _ _ (Cursor.align _) _ >>= _) = _
  rw [align_advance, readTable_readWord hnumbers hnumberEnd, keepAll_keepNumber]
  show (Cursor.readSlice ⟨data, h.offsetStart⟩ _ >>= _) = _
  rw [Cursor.readSlice_of_le hwithin hoffset]
  show (require (part? data h.textStart data.length) >>= _) = _
  rw [part?_length, if_pos hend]
  show (Cursor.readTable _ _ ⟨slice data h.offsetStart (2 * h.stringCount), 0⟩ _ >>= _) = _
  rw [readTable_readWord hstrings (Nat.le_of_eq ((Nat.zero_add _).trans hoffsets.symm)),
    keepAll_keepString]
  have hwhole : slice (slice data h.offsetStart (2 * h.stringCount)) 0 (2 * h.stringCount) =
      slice data h.offsetStart (2 * h.stringCount) := by
    rw [slice, List.drop_zero, List.take_of_length_le (Nat.le_of_eq hoffsets)]
  dsimp only
  rw [hwhole, readCapabilities?]
  cases readStrings? (data.drop h.textStart)
    (Capability.stringNames.zip (words (slice data h.offsetStart (2 * h.stringCount)))) <;> rfl

/-- If the tables reach past the end, some read misses something. -/
theorem readCapabilities_of_lt (hknown : h.isKnown = true) (hend : data.length < h.textStart)
    (name description : Bytes) :
    readCapabilities h ⟨data, h.booleanStart⟩ name description = .error (.error .truncated) := by
  obtain ⟨-, hnumbers, -⟩ := isKnown_iff_le.mp hknown
  have hcount : (Capability.numberNames.take h.numberCount).length = h.numberCount :=
    List.length_take_of_le hnumbers
  rw [readCapabilities]
  -- Whichever part runs past the end, the error is the same, and the offsets do so at the latest.
  rcases Cursor.readTable_cases Cursor.readByte_cases keepBoolean_eq ⟨data, h.booleanStart⟩
    (Capability.booleanNames.take (h.booleanSize - 1)) with ⟨booleans, hread⟩ | hread
  · rw [hread]
    show (Cursor.readTable _ _ (Cursor.align _) _ >>= _) = _
    rw [align_advance]
    rcases Cursor.readTable_cases Cursor.readWord_cases keepNumber_eq ⟨data, h.numberStart⟩
      (Capability.numberNames.take h.numberCount) with ⟨numbers, hread⟩ | hread
    · rw [hread, hcount]
      show (Cursor.readSlice _ _ >>= _) = _
      rw [Cursor.readSlice_of_lt hend]
      rfl
    · rw [hread]
      rfl
  · rw [hread]
    rfl

/-- No offset is too great for a machine: the sizes in a header are words. -/
theorem textStart_le_greatestOffset (hknown : h.isKnown = true) (hname : h.nameSize ≤ 65535) :
    h.textStart ≤ greatestOffset := by
  obtain ⟨hbooleans, hnumbers, hstrings⟩ := h.isKnown_iff.mp hknown
  simp only [Header.textStart, Header.offsetStart, Header.numberStart, Header.booleanStart,
    Header.size, greatestOffset]
  omega

/-- Behind the header, the cursor comes to what the sections hold. -/
theorem readBody_eq (hname : h.nameSize ≤ 65535) (position : Nat) :
    readBody h ⟨data, position⟩ = lift (readSections h data) := by
  rw [readBody, readSections]
  cases hknown : h.isKnown with
  | false => rfl
  | true =>
    have hoffset := textStart_le_greatestOffset hknown hname
    have hstart : h.booleanStart ≤ h.textStart := by
      simp only [Header.textStart, Header.offsetStart, Header.numberStart]
      omega
    rw [if_neg (by decide), if_neg (by decide)]
    show (Cursor.readSlice ⟨data, Header.size⟩ h.nameSize >>= _) = _
    -- The tests come in the same order on both sides: the names, a first name, the rest.
    by_cases hnames : data.length < h.booleanStart
    · rw [if_pos hnames, Cursor.readSlice_of_lt hnames]
      rfl
    · rw [if_neg hnames, Cursor.readSlice_of_le (Nat.le_of_not_lt hnames)
        (Nat.le_trans hstart hoffset)]
      dsimp only [bind, Except.bind, Cursor.advance, Cursor.setPosition]
      generalize splitNames (dropTerminator (slice data Header.size h.nameSize)) = names
      obtain ⟨name, description⟩ := names
      dsimp only
      by_cases hempty : name = []
      · rw [if_pos hempty, if_pos hempty]
        rfl
      · rw [if_neg hempty, if_neg hempty]
        show readCapabilities h ⟨data, h.booleanStart⟩ name description = _
        by_cases hend : data.length < h.textStart
        · rw [if_pos hend, readCapabilities_of_lt hknown hend]
          rfl
        · rw [if_neg hend, readCapabilities_of_le hknown (Nat.le_of_not_lt hend) hoffset]
          cases readCapabilities? h data name description <;> rfl

/-- The sizes in a header are words. -/
theorem wordAt_le (data : Bytes) (i : Nat) : wordAt data i ≤ 65535 := by
  have hlow := (data.getD i 0).toNat_lt
  have hhigh := (data.getD (i + 1) 0).toNat_lt
  rw [wordAt]
  omega

/-- The reader with the cursor reads what the sections hold. -/
theorem read_eq_lift_ofSections (data : Bytes) : read data = lift (ofSections data) := by
  rw [read, ofSections]
  -- The mark and the header are read before any size is known.
  by_cases hmagic : data.length < magic.length
  · rw [if_pos hmagic, Cursor.readSlice_of_lt (c := ⟨data, 0⟩) (by rwa [Nat.zero_add])]
    rfl
  · have hwithin : 0 + magic.length ≤ data.length := by omega
    rw [if_neg hmagic, Cursor.readSlice_of_le (c := ⟨data, 0⟩) hwithin
      (show 0 + magic.length ≤ greatestOffset by decide)]
    show (if data.take magic.length ≠ magic then _ else Cursor.readHeader ⟨data, 2⟩ >>= _) = _
    by_cases hmark : data.take magic.length = magic
    · rw [if_neg (not_not_intro hmark), if_neg (not_not_intro hmark)]
      by_cases hheader : data.length < 10
      · rw [Cursor.readHeader_of_lt hheader, Header.ofBytes?_of_lt hheader]
        rfl
      · rw [Cursor.readHeader_of_le (Nat.le_of_not_lt hheader),
          Header.ofBytes?_of_le (Nat.le_of_not_lt hheader)]
        exact readBody_eq (wordAt_le data 2) 10
    · rw [if_pos hmark, if_pos hmark]
      rfl

/-- Bytes are read as the entry in their sections. -/
theorem ofBytes_eq_ofSections (data : Bytes) : ofBytes data = ofSections data := by
  have hlift : (lift (ofBytes data) : Reading Entry) = lift (ofSections data) :=
    (lift_settle (read data) (isSafe_read data)).trans (read_eq_lift_ofSections data)
  exact lift_injective hlift

end Terminal.Entry
