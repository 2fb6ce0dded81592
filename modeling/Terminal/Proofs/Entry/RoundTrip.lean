import Mathlib.Data.List.TakeWhile
import Terminal.Entry.Image
import Terminal.Proofs.Entry.Reader

/-!
# Reading what was written

An image that fits the limits of the compiled form comes back from its bytes as the entry that it
stands for (`ofBytes_bytes`).  Every section is found again because the sizes in the header add up
to its offset, the padding byte included, and every text because the offsets of the table are the
lengths of the texts before it (`readStrings?_offsetsFrom`).
-/

namespace Terminal.Entry

/-! ## What an image stands for -/

/-- The text of a place, if it has one. -/
def Slot.text? : Slot → Option Bytes
  | present text => some text
  | absent | cancelled => none

namespace Image

/-- The entry that an image stands for.  The last of the boolean bytes has no meaning, and neither
have the three words for absent numbers. -/
def entry (i : Image) : Entry where
  name := Utf8.decode ((i.names.splitOn bar).headD [])
  description := Utf8.decode ((i.names.splitOn bar).getD 1 [])
  booleans :=
    ((Capability.booleanNames.zip i.booleans.dropLast).filter fun p => p.2 ≠ 0).map Prod.fst
  numbers :=
    (Capability.numberNames.zip i.numbers).filter fun p => p.2 ≠ 0 ∧ p.2 ≠ 0xffff ∧ p.2 ≠ 0x3737
  strings :=
    (Capability.stringNames.zip i.strings).filterMap fun p => p.2.text?.map (p.1, ·)

/-- The limits of the compiled form. -/
structure Fits (i : Image) : Prop where
  booleans : i.booleans.length ≤ 45
  numbers : i.numbers.length ≤ 39
  strings : i.strings.length ≤ 414
  /-- The size of the names, with the zero byte behind them, is a word. -/
  names : i.names.length + 1 ≤ 65535
  named : (i.names.splitOn bar).headD [] ≠ []
  /-- A zero byte would end the text that holds it. -/
  ended : ∀ text, .present text ∈ i.strings → 0 ∉ text
  /-- The offset of a text is a word that does not stand for an absent or a cancelled string. -/
  reachable : ∀ k text, i.strings[k]? = some (.present text) →
    ((i.strings.take k).flatMap Slot.stored).length < 0xfffe

/-- The sizes in the header, other than that of the texts, are words. -/
structure HasWordSizes (i : Image) : Prop where
  names : i.names.length + 1 ≤ 65535
  booleans : i.booleans.length ≤ 65535
  numbers : i.numbers.length ≤ 65535
  strings : i.strings.length ≤ 65535

/-- The limits of the vocabulary are far below those of a word. -/
theorem Fits.hasWordSizes {i : Image} (h : i.Fits) : i.HasWordSizes :=
  ⟨h.names, Nat.le_trans h.booleans (by decide), Nat.le_trans h.numbers (by decide),
    Nat.le_trans h.strings (by decide)⟩

/-- Every text begins at an offset that is a word and does not stand for an absent or a cancelled
string. -/
def IsAddressable (i : Image) : Prop :=
  ∀ k text, i.strings[k]? = some (.present text) →
    ((i.strings.take k).flatMap Slot.stored).length < 0xfffe

/-- Short texts can all be reached by an offset. -/
theorem isAddressable_of_length_texts_lt {i : Image} (h : i.texts.length < 0xfffe) :
    i.IsAddressable := by
  intro k text _
  have htexts : i.texts =
      (i.strings.take k).flatMap Slot.stored ++ (i.strings.drop k).flatMap Slot.stored := by
    rw [texts, ← List.flatMap_append, List.take_append_drop]
  rw [htexts, List.length_append] at h
  omega

end Image

/-! ## Bytes up to a mark -/

/-- What stands before the first mark is what comes before it. -/
theorem takeWhile_ne_append_cons {mark : UInt8} {bytes : Bytes} (h : mark ∉ bytes) (rest : Bytes) :
    (bytes ++ mark :: rest).takeWhile (· ≠ mark) = bytes := by
  induction bytes with
  | nil => simp
  | cons b bs ih =>
    obtain ⟨hb, hbs⟩ : ¬mark = b ∧ mark ∉ bs := by simpa using h
    rw [List.cons_append, List.takeWhile_cons_of_pos (by simpa using Ne.symm hb), ih hbs]

/-- The first mark begins the rest. -/
theorem dropWhile_ne_append_cons {mark : UInt8} {bytes : Bytes} (h : mark ∉ bytes) (rest : Bytes) :
    (bytes ++ mark :: rest).dropWhile (· ≠ mark) = mark :: rest := by
  induction bytes with
  | nil => simp
  | cons b bs ih =>
    obtain ⟨hb, hbs⟩ : ¬mark = b ∧ mark ∉ bs := by simpa using h
    rw [List.cons_append, List.dropWhile_cons_of_pos (by simpa using Ne.symm hb), ih hbs]

/-! ## Names -/

/-- What stands before the first bar is the first of the parts between bars. -/
theorem takeWhile_eq_headD_splitOn (bytes : Bytes) :
    bytes.takeWhile (· ≠ bar) = (bytes.splitOn bar).headD [] := by
  by_cases hbar : bar ∈ bytes
  · obtain ⟨name, rest, rfl, hname⟩ := List.eq_append_cons_of_mem hbar
    rw [takeWhile_ne_append_cons hname, List.splitOn_append_cons_self_of_not_mem hname]
    rfl
  · have hall : bytes.takeWhile (· ≠ bar) = bytes := by
      refine List.takeWhile_eq_self_iff.mpr fun b hb => ?_
      simpa using fun h : b = bar => hbar (h ▸ hb)
    rw [hall, List.splitOn_eq_singleton hbar]
    rfl

/-- The first two names are the first two parts between bars. -/
theorem splitNames_eq (bytes : Bytes) :
    splitNames bytes = ((bytes.splitOn bar).headD [], (bytes.splitOn bar).getD 1 []) := by
  rw [splitNames, takeWhile_eq_headD_splitOn bytes, takeWhile_eq_headD_splitOn]
  by_cases hbar : bar ∈ bytes
  · obtain ⟨name, rest, rfl, hname⟩ := List.eq_append_cons_of_mem hbar
    rw [dropWhile_ne_append_cons hname, List.splitOn_append_cons_self_of_not_mem hname]
    cases hrest : rest.splitOn bar with
    | nil => exact absurd hrest (List.splitOn_ne_nil bar rest)
    | cons second others => simp [hrest]
  · have hnone : bytes.dropWhile (· ≠ bar) = [] := by
      refine List.dropWhile_eq_nil_iff.mpr fun b hb => ?_
      simpa using fun h : b = bar => hbar (h ▸ hb)
    rw [hnone, List.splitOn_eq_singleton hbar]
    rfl

/-- The zero byte that is written behind the names is dropped. -/
theorem dropTerminator_append_zero (bytes : Bytes) : dropTerminator (bytes ++ [0]) = bytes := by
  simp [dropTerminator]

/-! ## Words and texts -/

/-- Reading the two bytes of a number yields its low sixteen bits. -/
theorem words_wordBytes_append (n : Nat) (rest : Bytes) :
    words (wordBytes n ++ rest) = UInt16.ofNat n :: words rest := by
  have h : word (UInt8.ofNat n) (UInt8.ofNat (n / 256)) = UInt16.ofNat n := by
    apply UInt16.toNat_inj.mp
    simp only [toNat_word, UInt8.toNat_ofNat', UInt16.toNat_ofNat']
    omega
  rw [wordBytes, List.cons_append, List.cons_append, List.nil_append, words, h]

/-- Numbers that were written as words are read as their low sixteen bits. -/
theorem words_flatMap_wordBytes (ns : List Nat) :
    words (ns.flatMap wordBytes) = ns.map UInt16.ofNat := by
  induction ns with
  | nil => rfl
  | cons n ns ih => rw [List.flatMap_cons, words_wordBytes_append, ih, List.map_cons]

/-- Every number takes two bytes. -/
theorem length_flatMap_wordBytes (ns : List Nat) :
    (ns.flatMap wordBytes).length = 2 * ns.length := by
  induction ns with
  | nil => rfl
  | cons n ns ih =>
    rw [List.flatMap_cons, List.length_append, ih, length_wordBytes, List.length_cons]
    omega

/-- A text is found at the length of what stands before it. -/
theorem textAt?_append (before rest : Bytes) {text : Bytes} (h : 0 ∉ text) :
    textAt? (before ++ (text ++ 0 :: rest)) before.length = some text := by
  have htail : (before ++ (text ++ 0 :: rest)).drop before.length = text ++ 0 :: rest := by simp
  rw [textAt?, htail, takeWhile_ne_append_cons h, if_pos (by simp)]

/-- The strings of a table come back if the texts before them have the length at which the offsets
begin. -/
theorem readStrings?_offsetsFrom (before : Bytes) (names : List String) (slots : List Slot)
    (hended : ∀ text, .present text ∈ slots → 0 ∉ text)
    (hreachable : ∀ k text, slots[k]? = some (.present text) →
      before.length + ((slots.take k).flatMap Slot.stored).length < 0xfffe) :
    readStrings? (before ++ slots.flatMap Slot.stored)
        (names.zip ((offsetsFrom before.length slots).map UInt16.ofNat)) =
      some ((names.zip slots).filterMap fun p => p.2.text?.map (p.1, ·)) := by
  induction slots generalizing before names with
  | nil => simp [offsetsFrom, readStrings?]
  | cons slot rest ih =>
    cases names with
    | nil => simp [readStrings?]
    | cons name names =>
      -- the next offset is the length of the texts before it, the stored one included
      have hnext := ih (before ++ slot.stored) names
        (fun text htext => hended text (List.mem_cons_of_mem slot htext))
        (fun k text hk => by
          simpa [Nat.add_assoc] using hreachable (k + 1) text (by simpa using hk))
      rw [List.append_assoc, List.length_append] at hnext
      rw [List.flatMap_cons, offsetsFrom, List.map_cons, List.zip_cons_cons, readStrings?]
      cases slot with
      | absent => exact hnext
      | cancelled => exact hnext
      | present text =>
        have hlt : before.length < 0xfffe := by
          simpa using hreachable 0 text rfl
        have hoffset : (UInt16.ofNat before.length).toNat = before.length := by
          rw [UInt16.toNat_ofNat']
          omega
        have hpresent : ¬isAbsentString (UInt16.ofNat before.length) = true := by
          simp [isAbsentString, ← UInt16.toNat_inj, hoffset]
          omega
        have htext : textAt? (before ++ ((Slot.present text).stored ++ rest.flatMap Slot.stored))
            before.length = some text := by
          simpa [Slot.stored] using
            textAt?_append before (rest.flatMap Slot.stored) (hended text List.mem_cons_self)
        rw [Slot.offset, if_neg hpresent, hoffset, htext, hnext]
        rfl

/-! ## Capabilities -/

/-- The names of the bytes that are not zero. -/
theorem readBooleans_eq (names : List String) (bytes : Bytes) :
    readBooleans names bytes = ((names.zip bytes).filter fun p => p.2 ≠ 0).map Prod.fst := by
  rw [readBooleans]
  induction names.zip bytes with
  | nil => rfl
  | cons p rest ih =>
    obtain ⟨name, b⟩ := p
    by_cases hb : b = 0 <;> simpa [hb] using ih

/-- The numbers of a table, with the three words for absence spelled out. -/
theorem readNumbers_eq (names : List String) (values : List UInt16) :
    readNumbers names values =
      (names.zip values).filter fun p => p.2 ≠ 0 ∧ p.2 ≠ 0xffff ∧ p.2 ≠ 0x3737 := by
  refine List.filter_congr fun p _ => ?_
  simp [isAbsentNumber, Bool.and_assoc, Bool.beq_eq_decide_eq]

/-! ## Sections -/

/-- A section begins at the length of what stands before it. -/
theorem slice_append (before bytes rest : Bytes) {size : Nat} (h : size ≤ bytes.length) :
    slice (before ++ (bytes ++ rest)) before.length size = bytes.take size := by
  simp [slice, List.take_append_of_le_length h]

namespace Image

/-- The sizes that the header of an image holds. -/
def header (i : Image) : Header where
  nameSize := i.names.length + 1
  booleanSize := i.booleans.length
  numberCount := i.numbers.length
  stringCount := i.strings.length

/-- Everything before the names. -/
def heading (i : Image) : Bytes := magic ++ i.sizes.flatMap wordBytes

/-- The section of the numbers. -/
def numberBytes (i : Image) : Bytes := (i.numbers.map UInt16.toNat).flatMap wordBytes

/-- The section of the offsets. -/
def offsetBytes (i : Image) : Bytes := (offsetsFrom 0 i.strings).flatMap wordBytes

/-- The sections in their order. -/
theorem bytes_eq (i : Image) :
    i.bytes = i.front ++ padding i.front ++ i.numberBytes ++ i.offsetBytes ++ i.texts := by
  simp [bytes, numberBytes, offsetBytes, List.flatMap_map]

/-! ### Lengths -/

/-- The magic bytes and the sizes make up the heading. -/
theorem length_heading (i : Image) : i.heading.length = Header.size := by
  rw [heading, List.length_append, length_flatMap_wordBytes]
  rfl

/-- The flags begin behind the names and the zero byte that ends them. -/
theorem length_front (i : Image) : i.front.length = i.header.booleanStart + i.booleans.length := by
  have hheading := i.length_heading
  rw [heading] at hheading
  simp only [front, List.length_append, List.append_assoc, List.length_singleton] at hheading ⊢
  simp only [Header.booleanStart, header]
  omega

/-- The padding byte brings the numbers to the offset that the reader works out. -/
theorem length_front_append_padding (i : Image) :
    (i.front ++ padding i.front).length = i.header.numberStart := by
  have hfront := i.length_front
  have hsize : i.header.booleanSize = i.booleans.length := rfl
  rw [List.length_append, padding, Header.numberStart, hsize, ← hfront]
  -- the reader rounds up just where the writer adds a byte
  split
  · simp
    omega
  · simp
    omega

theorem length_numberBytes (i : Image) : i.numberBytes.length = 2 * i.header.numberCount := by
  rw [numberBytes, length_flatMap_wordBytes, List.length_map]
  rfl

theorem length_offsetBytes (i : Image) : i.offsetBytes.length = 2 * i.header.stringCount := by
  rw [offsetBytes, length_flatMap_wordBytes, length_offsetsFrom]
  rfl

/-- The offsets begin where the header says. -/
theorem length_before_offsets (i : Image) :
    (i.front ++ padding i.front ++ i.numberBytes).length = i.header.offsetStart := by
  rw [List.length_append, length_front_append_padding, length_numberBytes]
  rfl

/-- The texts begin where the header says. -/
theorem length_before_texts (i : Image) :
    (i.front ++ padding i.front ++ i.numberBytes ++ i.offsetBytes).length = i.header.textStart := by
  rw [List.length_append, length_before_offsets, length_offsetBytes]
  rfl

/-! ### Contents -/

/-- The names are found with the zero byte behind them. -/
theorem slice_names (i : Image) :
    slice i.bytes Header.size i.header.nameSize = i.names ++ [0] := by
  have hbytes : i.bytes = i.heading ++ ((i.names ++ [0]) ++
      (i.booleans ++ padding i.front ++ i.numberBytes ++ i.offsetBytes ++ i.texts)) := by
    simp [bytes_eq, front, heading]
  have hsize : i.header.nameSize = (i.names ++ [0]).length := by
    rw [List.length_append]
    rfl
  rw [hbytes, ← i.length_heading, hsize, slice_append _ _ _ (Nat.le_refl _), List.take_length]

/-- The flags are found without the last byte, which has no meaning. -/
theorem slice_booleans (i : Image) :
    slice i.bytes i.header.booleanStart (i.header.booleanSize - 1) = i.booleans.dropLast := by
  have hbytes : i.bytes = (i.heading ++ i.names ++ [0]) ++ (i.booleans ++
      (padding i.front ++ i.numberBytes ++ i.offsetBytes ++ i.texts)) := by
    simp [bytes_eq, front, heading]
  have hstart : i.header.booleanStart = (i.heading ++ i.names ++ [0]).length := by
    rw [List.length_append, List.length_append, i.length_heading]
    rfl
  have hsize : i.header.booleanSize - 1 ≤ i.booleans.length := Nat.sub_le _ _
  rw [hbytes, hstart, slice_append _ _ _ hsize, List.dropLast_eq_take]
  rfl

/-- The numbers are found behind the padding byte. -/
theorem words_numbers (i : Image) :
    words (slice i.bytes i.header.numberStart (2 * i.header.numberCount)) = i.numbers := by
  have hbytes : i.bytes =
      (i.front ++ padding i.front) ++ (i.numberBytes ++ (i.offsetBytes ++ i.texts)) := by
    simp [bytes_eq]
  rw [hbytes, ← i.length_front_append_padding, ← i.length_numberBytes,
    slice_append _ _ _ (Nat.le_refl _), List.take_length, numberBytes, words_flatMap_wordBytes]
  simp [Function.comp_def]

/-- The offsets are found behind the numbers. -/
theorem words_offsets (i : Image) :
    words (slice i.bytes i.header.offsetStart (2 * i.header.stringCount)) =
      (offsetsFrom 0 i.strings).map UInt16.ofNat := by
  have hbytes : i.bytes =
      (i.front ++ padding i.front ++ i.numberBytes) ++ (i.offsetBytes ++ i.texts) := by
    simp [bytes_eq]
  rw [hbytes, ← i.length_before_offsets, ← i.length_offsetBytes,
    slice_append _ _ _ (Nat.le_refl _), List.take_length, offsetBytes, words_flatMap_wordBytes]

/-- The texts are all that is left. -/
theorem drop_textStart (i : Image) : i.bytes.drop i.header.textStart = i.texts := by
  rw [bytes_eq, ← i.length_before_texts, List.drop_left]

/-! ## The round trip -/

/-- The magic bytes and the five sizes come first. -/
theorem bytes_eq_magic_append (i : Image) :
    ∃ rest, i.bytes = magic ++ (i.sizes.flatMap wordBytes ++ rest) :=
  ⟨i.names ++ [0] ++ i.booleans ++ padding i.front ++ i.numberBytes ++ i.offsetBytes ++ i.texts,
    by simp [bytes_eq, front]⟩

/-- The sizes that were written are those that are read. -/
theorem ofBytes?_bytes {i : Image} (h : i.HasWordSizes) :
    Header.ofBytes? i.bytes = some i.header := by
  obtain ⟨rest, hbytes⟩ := i.bytes_eq_magic_append
  have hword {n : Nat} (hn : n ≤ 65535) :
      (word (UInt8.ofNat n) (UInt8.ofNat (n / 256))).toNat = n := by
    simp only [toNat_word, UInt8.toNat_ofNat']
    omega
  rw [hbytes]
  simp only [magic, sizes, wordBytes, List.flatMap_cons, List.cons_append, List.nil_append,
    Header.ofBytes?, hword h.names, hword h.booleans, hword h.numbers, hword h.strings, header]

/-- The sections of an image are read with the sizes of its header. -/
theorem ofBytes_bytes_eq_readSections {i : Image} (h : i.HasWordSizes) :
    ofBytes i.bytes = readSections i.header i.bytes := by
  obtain ⟨rest, hbytes⟩ := i.bytes_eq_magic_append
  have hlength : ¬i.bytes.length < magic.length := by
    rw [hbytes, List.length_append]
    omega
  have hmagic : i.bytes.take magic.length = magic := by rw [hbytes, List.take_left]
  rw [ofBytes_eq_ofSections, ofSections, if_neg hlength, if_neg (by simp [hmagic]), ofBytes?_bytes h]

/-- The sections of an image hold the entry that it stands for. -/
theorem readCapabilities?_bytes {i : Image} (h : i.Fits) :
    readCapabilities? i.header i.bytes ((i.names.splitOn bar).headD [])
      ((i.names.splitOn bar).getD 1 []) = some i.entry := by
  have hstrings := readStrings?_offsetsFrom [] Capability.stringNames i.strings h.ended
    (by simpa using h.reachable)
  rw [List.nil_append, List.length_nil] at hstrings
  rw [readCapabilities?, words_offsets, drop_textStart, texts, hstrings, slice_booleans,
    words_numbers, readBooleans_eq, readNumbers_eq]
  rfl

/-- No test of the reader refuses an image that fits. -/
theorem readSections_bytes {i : Image} (h : i.Fits) :
    readSections i.header i.bytes = .ok i.entry := by
  have hlength : i.header.textStart ≤ i.bytes.length := by
    rw [bytes_eq, List.length_append, length_before_texts]
    exact Nat.le_add_right _ _
  have hbooleans : i.header.booleanStart ≤ i.header.textStart := by
    simp only [Header.textStart, Header.offsetStart, Header.numberStart]
    omega
  have hknown : i.header.isKnown = true :=
    (Header.isKnown_iff _).mpr ⟨h.booleans, h.numbers, h.strings⟩
  rw [readSections, hknown, if_neg (by simp), if_neg (by omega), slice_names,
    dropTerminator_append_zero, splitNames_eq]
  dsimp only
  rw [if_neg h.named, if_neg (by omega), readCapabilities?_bytes h]

end Image

/-- The bytes of an image that fits are read as the entry that it stands for. -/
theorem ofBytes_bytes {i : Image} (h : i.Fits) : ofBytes i.bytes = .ok i.entry := by
  rw [Image.ofBytes_bytes_eq_readSections h.hasWordSizes]
  exact Image.readSections_bytes h

/-- An image with an absent and a cancelled string, words for absent numbers, and a padding byte. -/
def console : Image where
  names := Bytes.ofAscii ['v', 't', '|', 'v', 'i', 'd', 'e', 'o', '|', 'v']
  booleans := [1, 0, 2, 1]
  numbers := [80, 0xffff, 0x3737, 24]
  strings := [.present [0x1b, 0x5a], .absent, .present [0x0d], .cancelled, .present []]

/-- It keeps within the limits. -/
theorem console_fits : console.Fits where
  booleans := by decide
  numbers := by decide
  strings := by decide
  names := by decide
  named := by decide
  ended := by
    intro text htext
    simp [console] at htext
    rcases htext with rfl | rfl | rfl <;> decide
  reachable := by
    rintro (_ | _ | _ | _ | _ | k) text htext <;> simp_all [console, Slot.stored]

/-- Two flags, two numbers and three strings are left of it. -/
theorem ofBytes_bytes_console :
    console.Fits ∧ ofBytes console.bytes = .ok
      { name := "vt"
        description := "video"
        booleans := ["bw", "xsb"]
        numbers := [("cols", 80), ("lm", 24)]
        strings := [("cbt", [0x1b, 0x5a]), ("cr", [0x0d]), ("tbc", [])] } :=
  ⟨console_fits, (ofBytes_bytes console_fits).trans (congrArg Except.ok (by decide))⟩

end Terminal.Entry
