import Terminal.Proofs.Entry.Accessors

/-!
# The bytes that are read

An entry depends on its header, on the names up to the second bar, on which of its flags are set, on
the two tables, and on its texts with the zero bytes that end them.  Bytes that agree so far are
`ReadsAlike` and hold the same entry (`ReadsAlike.ofBytes_eq`).  All other places are free: the size
of the texts in the header, aliases, the byte behind the flags, the one that brings the numbers to an
even offset, and whatever lies between the texts (`ofBytes_of_isFree`).
-/

namespace Terminal.Entry

/-! ## Accepted bytes -/

/-- The bytes have a header, a name, and room for all sections but the texts. -/
structure IsComplete (data : Bytes) : Prop where
  header : 10 ≤ data.length
  magic : data.take magic.length = magic
  known : (headerOf data).isKnown = true
  within : textsAt data ≤ data.length
  named : (namesIn data).headD [] ≠ []

/-- An entry is read from bytes that are complete and end all of its texts. -/
theorem ofBytes_eq_ok_iff {data : Bytes} {e : Entry} :
    ofBytes data = .ok e ↔ IsComplete data ∧
      readCapabilities? (headerOf data) data ((namesIn data).headD []) ((namesIn data).getD 1 []) =
        some e := by
  constructor
  · intro h
    have hsections := readSections_of_ofBytes h
    obtain ⟨hwithin, hnamed, hread⟩ := readCapabilities?_of_readSections hsections
    obtain ⟨hknown, -⟩ := of_guard_eq_ok hsections
    rw [ofBytes_eq_ofSections] at h
    obtain ⟨-, h⟩ := of_guard_eq_ok h
    obtain ⟨hmagic, -⟩ := of_guard_eq_ok h
    refine ⟨⟨?_, not_not.mp hmagic, by simpa using hknown, hwithin, hnamed⟩, hread⟩
    -- The header is complete because the texts begin behind it.
    simp only [textsAt, offsetsAt, numbersAt] at hwithin
    omega
  · rintro ⟨hcomplete, hread⟩
    have hheader := hcomplete.header
    have hwithin := hcomplete.within
    have hbooleans : (headerOf data).booleanStart ≤ textsAt data := by
      simp only [Header.booleanStart, Header.size, headerOf, textsAt, offsetsAt, numbersAt]
      omega
    have hnames : splitNames (dropTerminator (slice data Header.size (headerOf data).nameSize)) =
        ((namesIn data).headD [], (namesIn data).getD 1 []) := splitNames_eq _
    have hlength : ¬data.length < magic.length := by
      simp only [magic, List.length_cons, List.length_nil]
      omega
    -- All the conditions on the way hold, so none of the errors is reached.
    rw [ofBytes_eq_ofSections, ofSections, if_neg hlength, if_neg (not_not.mpr hcomplete.magic),
      Header.ofBytes?_of_le hheader]
    show readSections (headerOf data) data = .ok e
    rw [readSections, hcomplete.known, if_neg (by simp), if_neg (by omega), hnames]
    dsimp only
    rw [if_neg hcomplete.named, if_neg (by rw [textStart_headerOf]; omega), hread]

/-! ## The texts -/

/-- The offsets in the table that belong to texts. -/
def textOffsets (data : Bytes) : List Nat :=
  ((List.range (wordAt data 8)).map fun i => wordAt data (offsetsAt data + 2 * i)).filter
    fun offset => offset ≠ 0xffff ∧ offset ≠ 0xfffe

/-- The position behind the text at an offset, with the zero byte that ends the text. -/
def textEnd (data : Bytes) (offset : Nat) : Nat :=
  textsAt data + offset + ((data.drop (textsAt data + offset)).takeWhile (· ≠ 0)).length + 1

/-- The offsets of texts are the words of the table that stand for no absence. -/
theorem mem_textOffsets_iff {data : Bytes} (h : textsAt data ≤ data.length) {offset : Nat} :
    offset ∈ textOffsets data ↔
      ∃ w ∈ offsetWords data, isAbsentString w = false ∧ w.toNat = offset := by
  have hwords : (offsetWords data).map UInt16.toNat = _ := map_toNat_words_slice h
  rw [textOffsets, ← hwords, List.mem_filter, List.mem_map, decide_eq_true_iff]
  simp only [isAbsentString_eq_false_iff]
  constructor
  · rintro ⟨⟨w, hw, rfl⟩, hpresent⟩
    exact ⟨w, hw, hpresent, rfl⟩
  · rintro ⟨w, hw, hpresent, rfl⟩
    exact ⟨⟨w, hw, rfl⟩, hpresent⟩

/-- In bytes from which an entry is read, all texts are ended. -/
theorem exists_textAt?_of_ofBytes {data : Bytes} {e : Entry} (h : ofBytes data = .ok e)
    {offset : Nat} (hoffset : offset ∈ textOffsets data) :
    ∃ text, textAt? (data.drop (textsAt data)) offset = some text := by
  obtain ⟨hcomplete, hread⟩ := ofBytes_eq_ok_iff.mp h
  obtain ⟨-, -, hcount⟩ := (Header.isKnown_iff _).mp hcomplete.known
  obtain ⟨hmem, hpresent⟩ := List.mem_filter.mp hoffset
  obtain ⟨i, hi, rfl⟩ := List.mem_map.mp hmem
  obtain ⟨hnone, hcancelled⟩ : _ ≠ 0xffff ∧ _ ≠ 0xfffe := by simpa using hpresent
  have hended := mt (readCapabilities?_eq_none_iff hcount
    (by rw [textStart_headerOf]; exact hcomplete.within) _ _).mpr (by rw [hread]; simp)
  rw [textStart_headerOf, offsetStart_headerOf] at hended
  rw [← Option.ne_none_iff_exists']
  intro htext
  exact hended ⟨i, List.mem_range.mp hi, hnone, hcancelled, (textAt?_eq_none_iff _ _ _).mp htext⟩

/-- A text that is ended takes its bytes and one more. -/
theorem textEnd_eq {data text : Bytes} {offset : Nat} (hended : 0 ∉ text)
    (htext : text ++ [0] <+: data.drop (textsAt data + offset)) :
    textEnd data offset = textsAt data + offset + (text ++ [0]).length := by
  obtain ⟨rest, hrest⟩ := htext
  have hwhile : (data.drop (textsAt data + offset)).takeWhile (· ≠ 0) = text := by
    rw [← hrest, List.append_assoc]
    exact takeWhile_ne_append_cons hended rest
  rw [textEnd, hwhile, List.length_append]
  rfl

/-! ## Sections that agree -/

section Agreement

variable {data data' : Bytes}

/-- A word depends on its two bytes. -/
theorem wordAt_congr {i : Nat} (hlow : data'[i]? = data[i]?) (hhigh : data'[i + 1]? = data[i + 1]?) :
    wordAt data' i = wordAt data i := by
  simp only [wordAt, List.getD_eq_getElem?_getD, hlow, hhigh]

/-- A section depends on the bytes between its ends. -/
theorem slice_congr {start size : Nat}
    (h : ∀ i, start ≤ i → i < start + size → data'[i]? = data[i]?) :
    slice data' start size = slice data start size := by
  apply List.ext_getElem?
  intro i
  rw [getElem?_slice, getElem?_slice]
  split
  · exact h (start + i) (by omega) (by omega)
  · rfl

/-- What stands at a position still stands there. -/
theorem isPrefix_drop_congr {text : Bytes} {start : Nat} (htext : text <+: data.drop start)
    (h : ∀ i, start ≤ i → i < start + text.length → data'[i]? = data[i]?) :
    text <+: data'.drop start := by
  have hslice : slice data' start text.length = text := by
    rw [slice_congr h, slice, ← List.prefix_iff_eq_take.mp htext]
  rw [← hslice]
  exact List.take_prefix _ _

end Agreement

/-! ## Names -/

/-- Only a zero byte behind the last bar can be dropped. -/
theorem dropTerminator_append_bar (front rest : Bytes) :
    dropTerminator (front ++ bar :: rest) = front ++ bar :: dropTerminator rest := by
  induction front with
  | nil =>
    cases rest with
    | nil => rfl
    | cons b rest => exact dropTerminator_cons_cons bar b rest
  | cons b front ih =>
    have hcons : ∃ c others, front ++ bar :: rest = c :: others := by
      cases front <;> simp
    obtain ⟨c, others, hcons⟩ := hcons
    rw [List.cons_append, hcons, dropTerminator_cons_cons, ← hcons, ih, List.cons_append]

/-- Nothing behind the second bar belongs to the first two names. -/
theorem splitNames_dropTerminator {name description : Bytes} (hname : bar ∉ name)
    (hdescription : bar ∉ description) (rest : Bytes) :
    splitNames (dropTerminator (name ++ bar :: (description ++ bar :: rest))) =
      (name, description) := by
  rw [dropTerminator_append_bar, dropTerminator_append_bar, splitNames,
    takeWhile_ne_append_cons hname, dropWhile_ne_append_cons hname]
  simp only [List.drop_succ_cons, List.drop_zero, takeWhile_ne_append_cons hdescription]

/-- Names that agree up to the second bar have the same first two parts. -/
theorem splitNames_dropTerminator_congr {names names' : Bytes} (hlength : names'.length = names.length)
    (h : ∀ i, (names.take i).count bar < 2 → names'[i]? = names[i]?) :
    splitNames (dropTerminator names') = splitNames (dropTerminator names) := by
  by_cases hbars : names.count bar < 2
  · have hsame : names' = names := by
      apply List.ext_getElem?
      intro i
      exact h i (Nat.lt_of_le_of_lt ((List.take_sublist i names).count_le bar) hbars)
    rw [hsame]
  · have hfirst : bar ∈ names := List.count_pos_iff.mp (by omega)
    obtain ⟨name, others, rfl, hname⟩ := List.eq_append_cons_of_mem hfirst
    have hsecond : bar ∈ others := by
      rw [List.count_append, List.count_cons_self, List.count_eq_zero.mpr hname] at hbars
      exact List.count_pos_iff.mp (by omega)
    obtain ⟨description, rest, rfl, hdescription⟩ := List.eq_append_cons_of_mem hsecond
    -- up to the second bar, that is, through `name|description|`, there are fewer than two
    have hsame : name ++ bar :: (description ++ [bar]) <+: names' := by
      have hnames : name ++ bar :: (description ++ [bar]) <+:
          (name ++ bar :: (description ++ bar :: rest)).drop 0 := ⟨rest, by simp⟩
      refine isPrefix_drop_congr hnames fun i _ hi => h i ?_
      have hi : i ≤ (name ++ bar :: description).length := by
        simp only [List.length_append, List.length_cons, List.length_nil] at hi ⊢
        omega
      have hassoc : name ++ bar :: (description ++ bar :: rest) =
          (name ++ bar :: description) ++ bar :: rest := by simp
      rw [hassoc, List.take_append_of_le_length hi]
      refine Nat.lt_of_le_of_lt ((List.take_sublist i _).count_le bar) ?_
      simp [List.count_eq_zero.mpr hname, List.count_eq_zero.mpr hdescription]
    obtain ⟨rest', rfl⟩ := hsame
    have hassoc : name ++ bar :: (description ++ [bar]) ++ rest' =
        name ++ bar :: (description ++ bar :: rest') := by simp
    rw [hassoc, splitNames_dropTerminator hname hdescription,
      splitNames_dropTerminator hname hdescription]

/-! ## Flags and strings -/

/-- A flag counts by whether its byte is zero. -/
theorem readBooleans_congr (names : List String) {bytes bytes' : Bytes}
    (hlength : bytes'.length = bytes.length)
    (h : ∀ i : Nat, bytes'[i]? = some 0 ↔ bytes[i]? = some 0) :
    readBooleans names bytes' = readBooleans names bytes := by
  induction names generalizing bytes bytes' with
  | nil => rfl
  | cons name names ih =>
    cases bytes with
    | nil =>
      obtain rfl := List.length_eq_zero_iff.mp hlength
      rfl
    | cons b bs =>
      obtain ⟨b', bs', rfl⟩ := List.exists_cons_of_length_eq_add_one hlength
      have hrest : readBooleans names bs' = readBooleans names bs :=
        ih (by simpa using hlength) fun i => by simpa using h (i + 1)
      have hhead : b' = 0 ↔ b = 0 := by simpa using h 0
      simp only [readBooleans] at hrest
      simp only [readBooleans, List.zip_cons_cons, List.filterMap_cons, hrest]
      by_cases hb : b = 0
      · rw [if_pos hb, if_pos (hhead.mpr hb)]
      · rw [if_neg hb, if_neg (mt hhead.mp hb)]

/-- Strings are the same if their texts are. -/
theorem readStrings?_congr {texts texts' : Bytes} {pairs : List (String × UInt16)}
    (h : ∀ p ∈ pairs, isAbsentString p.2 = false →
      textAt? texts' p.2.toNat = textAt? texts p.2.toNat) :
    readStrings? texts' pairs = readStrings? texts pairs := by
  induction pairs with
  | nil => rfl
  | cons p rest ih =>
    obtain ⟨name, offset⟩ := p
    have hrest := ih fun q hq => h q (List.mem_cons_of_mem _ hq)
    rw [readStrings?, readStrings?, hrest]
    by_cases habsent : isAbsentString offset = true
    · rw [if_pos habsent, if_pos habsent]
    · rw [if_neg habsent, if_neg habsent]
      rw [h (name, offset) List.mem_cons_self (by simpa using habsent)]

/-- The entry in the sections, by the positions in the data. -/
theorem readCapabilities?_eq (data name description : Bytes) :
    readCapabilities? (headerOf data) data name description =
      (readStrings? (data.drop (textsAt data))
        (Capability.stringNames.zip (offsetWords data))).map fun strings =>
          { name := Utf8.decode name
            description := Utf8.decode description
            booleans := readBooleans Capability.booleanNames (flagBytes data)
            numbers := readNumbers Capability.numberNames (numberWords data)
            strings } := by
  rw [readCapabilities?, numberStart_headerOf, offsetStart_headerOf, textStart_headerOf]
  rfl

/-! ## Bytes that are read alike -/

/-- The bytes agree wherever one of them is read, flags only in whether they are set. -/
structure ReadsAlike (data data' : Bytes) : Prop where
  within : textsAt data ≤ data'.length
  header : ∀ i < 10, data'[i]? = data[i]?
  names : ∀ i < wordAt data 2, ((slice data 12 (wordAt data 2)).take i).count bar < 2 →
    data'[12 + i]? = data[12 + i]?
  flags : ∀ i, i + 1 < wordAt data 4 →
    (data'[12 + wordAt data 2 + i]? = some 0 ↔ data[12 + wordAt data 2 + i]? = some 0)
  tables : ∀ i, numbersAt data ≤ i → i < textsAt data → data'[i]? = data[i]?
  texts : ∀ offset ∈ textOffsets data, ∀ i, textsAt data + offset ≤ i → i < textEnd data offset →
    data'[i]? = data[i]?

namespace ReadsAlike

variable {data data' : Bytes} (h : ReadsAlike data data')
include h

/-- The sizes in the header are the same in both data. -/
theorem wordAt_eq {i : Nat} (hi : i + 1 < 10) : wordAt data' i = wordAt data i :=
  wordAt_congr (h.header i (by omega)) (h.header (i + 1) hi)

/-- So is the whole header. -/
theorem headerOf_eq : headerOf data' = headerOf data := by
  simp only [headerOf, h.wordAt_eq (i := 2) (by decide), h.wordAt_eq (i := 4) (by decide),
    h.wordAt_eq (i := 6) (by decide), h.wordAt_eq (i := 8) (by decide)]

theorem numbersAt_eq : numbersAt data' = numbersAt data := by
  rw [← numberStart_headerOf, ← numberStart_headerOf, h.headerOf_eq]

theorem offsetsAt_eq : offsetsAt data' = offsetsAt data := by
  rw [← offsetStart_headerOf, ← offsetStart_headerOf, h.headerOf_eq]

/-- Every section begins at the same place. -/
theorem textsAt_eq : textsAt data' = textsAt data := by
  rw [← textStart_headerOf, ← textStart_headerOf, h.headerOf_eq]

/-- The names take as many bytes as before. -/
theorem nameBytes_length (hwithin : textsAt data ≤ data.length) :
    (slice data' 12 (wordAt data 2)).length = (slice data 12 (wordAt data 2)).length := by
  have hwithin' := h.within
  simp only [textsAt, offsetsAt, numbersAt] at hwithin hwithin'
  rw [length_slice (by omega), length_slice (by omega)]

/-- Both data have the same primary name and the same description. -/
theorem splitNames_eq (hwithin : textsAt data ≤ data.length) :
    ((namesIn data').headD [], (namesIn data').getD 1 []) =
      ((namesIn data).headD [], (namesIn data).getD 1 []) := by
  have hlength := h.nameBytes_length hwithin
  rw [namesIn, namesIn, ← Entry.splitNames_eq, ← Entry.splitNames_eq, h.wordAt_eq (i := 2) (by decide)]
  refine splitNames_dropTerminator_congr hlength fun i hi => ?_
  rw [getElem?_slice, getElem?_slice]
  split
  · next hlt => exact h.names i hlt hi
  · rfl

/-- Both data have the same numbers. -/
theorem numberWords_eq : numberWords data' = numberWords data := by
  rw [numberWords, numberWords, h.numbersAt_eq, h.wordAt_eq (i := 6) (by decide)]
  refine congrArg words (slice_congr fun i hlow hhigh => h.tables i hlow ?_)
  simp only [textsAt, offsetsAt]
  omega

/-- Both data have the same offsets. -/
theorem offsetWords_eq : offsetWords data' = offsetWords data := by
  rw [offsetWords, offsetWords, h.offsetsAt_eq, h.wordAt_eq (i := 8) (by decide)]
  refine congrArg words (slice_congr fun i hlow hhigh => h.tables i ?_ hhigh)
  simp only [offsetsAt] at hlow
  omega

/-- Both data have the same flags, though the bytes behind them may differ. -/
theorem readBooleans_eq (hwithin : textsAt data ≤ data.length) (names : List String) :
    readBooleans names (flagBytes data') = readBooleans names (flagBytes data) := by
  have hwithin' := h.within
  simp only [textsAt, offsetsAt, numbersAt] at hwithin hwithin'
  rw [flagBytes, flagBytes, h.wordAt_eq (i := 2) (by decide), h.wordAt_eq (i := 4) (by decide)]
  refine readBooleans_congr names ?_ fun i => ?_
  · rw [length_slice (by omega), length_slice (by omega)]
  · rw [getElem?_slice, getElem?_slice]
    split
    · next hi => exact h.flags i (by omega)
    · rfl

/-- A text that is ended still stands at its offset. -/
theorem textAt?_eq {offset : Nat} (hoffset : offset ∈ textOffsets data) {text : Bytes}
    (htext : textAt? (data.drop (textsAt data)) offset = some text) :
    textAt? (data'.drop (textsAt data)) offset = some text := by
  obtain ⟨hended, hprefix⟩ := textAt?_eq_some_iff.mp htext
  rw [List.drop_drop] at hprefix
  refine textAt?_eq_some_iff.mpr ⟨hended, ?_⟩
  rw [List.drop_drop]
  refine isPrefix_drop_congr hprefix fun i hlow hhigh => h.texts offset hoffset i hlow ?_
  rwa [textEnd_eq hended hprefix]

/-- What is complete stays so. -/
theorem isComplete (hcomplete : IsComplete data) : IsComplete data' where
  header := by
    have hwithin := h.within
    simp only [textsAt, offsetsAt, numbersAt] at hwithin
    omega
  magic := by
    have hmagic : slice data' 0 2 = slice data 0 2 :=
      slice_congr fun i _ hi => h.header i (by omega)
    exact hmagic.trans hcomplete.magic
  known := by
    rw [h.headerOf_eq]
    exact hcomplete.known
  within := by
    rw [h.textsAt_eq]
    exact h.within
  named := by
    rw [(Prod.mk.inj (h.splitNames_eq hcomplete.within)).1]
    exact hcomplete.named

/-- Bytes that are read alike hold the same entry. -/
theorem ofBytes_eq {e : Entry} (he : ofBytes data = .ok e) : ofBytes data' = .ok e := by
  obtain ⟨hcomplete, hread⟩ := ofBytes_eq_ok_iff.mp he
  refine ofBytes_eq_ok_iff.mpr ⟨h.isComplete hcomplete, ?_⟩
  obtain ⟨hname, hdescription⟩ := Prod.mk.inj (h.splitNames_eq hcomplete.within)
  obtain ⟨hstrings, hentry⟩ := eq_of_readCapabilities? hread
  have hstrings' : readStrings? (data'.drop (textsAt data))
      (Capability.stringNames.zip (offsetWords data)) = some e.strings := by
    rw [← hstrings]
    refine readStrings?_congr fun p hp hpresent => ?_
    have hoffset := (mem_textOffsets_iff hcomplete.within).mpr
      ⟨p.2, (List.of_mem_zip hp).2, hpresent, rfl⟩
    obtain ⟨text, htext⟩ := exists_textAt?_of_ofBytes he hoffset
    rw [htext]
    exact h.textAt?_eq hoffset htext
  rw [hname, hdescription, readCapabilities?_eq, h.textsAt_eq, h.offsetWords_eq, h.numberWords_eq,
    h.readBooleans_eq hcomplete.within, hstrings']
  exact congrArg some hentry.symm

end ReadsAlike

/-! ## Bytes that are not read -/

/-- The places at which other bytes make no difference. -/
inductive IsFree (data data' : Bytes) (i : Nat) : Prop where
  /-- The size of the texts. -/
  | textSize (hi : i = 10 ∨ i = 11)
  /-- An alias, or the zero byte behind it. -/
  | laterName (hlow : 12 ≤ i) (hhigh : i < 12 + wordAt data 2)
      (hbars : 2 ≤ (slice data 12 (i - 12)).count bar)
  /-- A flag that is set, before and after. -/
  | flag (hlow : 12 + wordAt data 2 ≤ i) (hhigh : i + 1 < 12 + wordAt data 2 + wordAt data 4)
      (hset : data[i]? ≠ some 0) (hset' : data'[i]? ≠ some 0)
  /-- The byte behind the flags, which has no meaning. -/
  | lastFlag (hi : i + 1 = 12 + wordAt data 2 + wordAt data 4) (hsize : 1 ≤ wordAt data 4)
  /-- The byte that brings the numbers to an even offset. -/
  | alignment (hlow : 12 + wordAt data 2 + wordAt data 4 ≤ i) (hhigh : i < numbersAt data)
  /-- A byte among the texts that belongs to none of them. -/
  | unused (hlow : textsAt data ≤ i) (htext : ∀ offset ∈ textOffsets data,
      ¬(textsAt data + offset ≤ i ∧ i < textEnd data offset))

/-- What is left of the bytes if the free places are taken away is all that is read. -/
theorem readsAlike_of_isFree {data data' : Bytes} (hwithin : textsAt data ≤ data.length)
    (hlength : data'.length = data.length)
    (hdiff : ∀ i, data'[i]? ≠ data[i]? → IsFree data data' i) : ReadsAlike data data' := by
  have hsame {i : Nat} (h : ¬IsFree data data' i) : data'[i]? = data[i]? :=
    not_not.mp (mt (hdiff i) h)
  have hnumbers : 12 + wordAt data 2 + wordAt data 4 ≤ numbersAt data := Nat.le_add_right _ _
  have htexts : numbersAt data ≤ textsAt data := by
    simp only [textsAt, offsetsAt]
    omega
  -- No place that reading depends on is free; the flags may differ where both are set.
  refine
    { within := hlength ▸ hwithin
      header := fun i hi => hsame ?header
      names := fun i hi hbars => hsame ?names
      flags := fun i hi => ?flags
      tables := fun i hlow hhigh => hsame ?tables
      texts := fun offset hoffset i hlow hhigh => hsame ?texts }
  case header =>
    intro hfree
    cases hfree <;> omega
  case names =>
    intro hfree
    cases hfree with
    | laterName hlow hhigh hbars' =>
      have hslice : slice data 12 (12 + i - 12) = (slice data 12 (wordAt data 2)).take i := by
        rw [slice, slice, List.take_take, Nat.add_sub_cancel_left, Nat.min_eq_left (by omega)]
      -- A name place is free only behind the first two bars, and before this one fewer stand.
      rw [hslice] at hbars'
      omega
    | _ => omega
  case flags =>
    by_cases hfree : IsFree data data' (12 + wordAt data 2 + i)
    · cases hfree with
      | flag hlow hhigh hset hset' => exact iff_of_false hset' hset
      | _ => omega
    · rw [hsame hfree]
  case tables =>
    intro hfree
    cases hfree <;> omega
  case texts =>
    intro hfree
    cases hfree with
    | unused _ hunused => exact hunused offset hoffset ⟨hlow, hhigh⟩
    | _ => omega

/-- However many of the free places of an entry get other bytes, the same entry is read. -/
theorem ofBytes_of_isFree {data data' : Bytes} {e : Entry} (h : ofBytes data = .ok e)
    (hlength : data'.length = data.length)
    (hdiff : ∀ i, data'[i]? ≠ data[i]? → IsFree data data' i) : ofBytes data' = .ok e :=
  (readsAlike_of_isFree (ofBytes_eq_ok_iff.mp h).1.within hlength hdiff).ofBytes_eq h

/-- A terminal with an alias, a padding byte, and bytes around its only text. -/
def spare : Bytes :=
  [0x1a, 0x01, 8, 0, 3, 0, 1, 0, 2, 0, 6, 0] ++ Bytes.ofAscii ['v', 't', '|', 'v', '|', 'a', 'l'] ++
    [0, 1, 0, 1, 0, 80, 0, 2, 0, 0xff, 0xff, 0x41, 0, 0x1b, 0x5a, 0, 0x33]

/-- The same with other bytes wherever they are free. -/
def overwritten : Bytes :=
  [0x1a, 0x01, 8, 0, 3, 0, 1, 0, 2, 0, 0xff, 0x7f] ++
    Bytes.ofAscii ['v', 't', '|', 'v', '|', 'z', '|'] ++
    [7, 9, 0, 0, 5, 80, 0, 2, 0, 0xff, 0xff, 1, 2, 0x1b, 0x5a, 0, 4]

def spareEntry : Entry where
  name := "vt"
  description := "v"
  booleans := ["bw"]
  numbers := [("cols", 80)]
  strings := [("cbt", [0x1b, 0x5a])]

set_option maxRecDepth 4000 in
/-- An entry with room in every place that a reader does not look at. -/
theorem ofBytes_spare : ofBytes spare = .ok spareEntry := rfl

/-- Every byte that differs stands in one of these places. -/
theorem isFree_overwritten (i : Nat) (hi : overwritten[i]? ≠ spare[i]?) :
    IsFree spare overwritten i := by
  have hlt : i < 36 := by
    by_contra hge
    refine hi ?_
    rw [List.getElem?_eq_none (Nat.le_of_not_lt hge), List.getElem?_eq_none (Nat.le_of_not_lt hge)]
  -- Finding the places that differ is a computation; what each is free for is not.
  have hplaces : ∀ i < 36, overwritten[i]? ≠ spare[i]? →
      i ∈ [10, 11, 17, 18, 19, 20, 22, 23, 30, 31, 35] := by decide
  have hmem := hplaces i hlt hi
  simp only [List.mem_cons, List.not_mem_nil, or_false] at hmem
  rcases hmem with rfl | rfl | rfl | rfl | rfl | rfl | rfl | rfl | rfl | rfl | rfl
  · exact .textSize (.inl rfl)
  · exact .textSize (.inr rfl)
  · exact .laterName (by decide) (by decide) (by decide)
  · exact .laterName (by decide) (by decide) (by decide)
  · exact .laterName (by decide) (by decide) (by decide)
  · exact .flag (by decide) (by decide) (by decide) (by decide)
  · exact .lastFlag (by decide) (by decide)
  · exact .alignment (by decide) (by decide)
  · exact .unused (by decide) (by decide)
  · exact .unused (by decide) (by decide)
  · exact .unused (by decide) (by decide)

/-- Overwriting all of them at once makes no difference. -/
theorem ofBytes_of_isFree_overwritten :
    ofBytes spare = .ok spareEntry ∧ ofBytes overwritten = .ok spareEntry :=
  ⟨ofBytes_spare, ofBytes_of_isFree ofBytes_spare rfl isFree_overwritten⟩

end Terminal.Entry
