import Terminal.Proofs.Capability.Distinct
import Terminal.Proofs.Entry.Errors
import Terminal.Proofs.Entry.RoundTrip

/-!
# Capabilities by position

The capability of a name is what stands at the position of the name, in the section of its kind
(`isReadFrom`).  Each of the three lists of an entry is a `table` of names and places, and since no
name has two places, looking up the name and going to its place find the same (`lookup_table`).
-/

namespace Terminal.Entry

/-! ## Where the sections begin -/

/-- Where the numbers begin, at the first even offset behind the flags. -/
def numbersAt (data : Bytes) : Nat :=
  let flagsEnd := 12 + wordAt data 2 + wordAt data 4
  flagsEnd + flagsEnd % 2

/-- Where the offsets of the texts begin. -/
def offsetsAt (data : Bytes) : Nat := numbersAt data + 2 * wordAt data 6

/-- Where the texts begin. -/
def textsAt (data : Bytes) : Nat := offsetsAt data + 2 * wordAt data 8

/-- The names between the bars, without the zero byte behind them. -/
def namesIn (data : Bytes) : List Bytes :=
  (dropTerminator (slice data 12 (wordAt data 2))).splitOn bar

/-! ## What an entry has to do with its bytes -/

/-- An entry gives what the bytes hold at the position of a name, and nothing else.  A name of
several kinds, such as `OTbs`, has a place for each of them. -/
structure IsReadFrom (e : Entry) (data : Bytes) : Prop where
  within : textsAt data ≤ data.length
  flag : ∀ name, e.flag name = true ↔
    ∃ i b, Capability.position? .boolean name = some i ∧ i + 1 < wordAt data 4 ∧
      data[12 + wordAt data 2 + i]? = some b ∧ b ≠ 0
  number : ∀ name value, e.number? name = some value ↔
    ∃ i, Capability.position? .number name = some i ∧ i < wordAt data 6 ∧
      wordAt data (numbersAt data + 2 * i) = value.toNat ∧
      value ≠ 0 ∧ value ≠ 0xffff ∧ value ≠ 0x3737
  /-- A text ends before the first zero byte, wherever the texts of other names begin or end. -/
  string : ∀ name text, e.string? name = some text ↔
    ∃ i offset, Capability.position? .string name = some i ∧ i < wordAt data 8 ∧
      wordAt data (offsetsAt data + 2 * i) = offset ∧ offset ≠ 0xffff ∧ offset ≠ 0xfffe ∧
      0 ∉ text ∧ text ++ [0] <+: data.drop (textsAt data + offset)
  name : e.name = Utf8.decode ((namesIn data).headD [])
  description : e.description = Utf8.decode ((namesIn data).getD 1 [])
  named : e.name ≠ ""

/-! ## Tables -/

section Tables

variable {α β : Type}

/-- The names whose place holds a value, with that value. -/
def table (read : α → Option β) (names : List String) (places : List α) : List (String × β) :=
  (names.zip places).filterMap fun p => (read p.2).map (p.1, ·)

/-- A table begins with what its first place holds, if anything. -/
theorem table_cons (read : α → Option β) (name : String) (names : List String) (place : α)
    (places : List α) : table read (name :: names) (place :: places) =
      ((read place).map (name, ·)).toList ++ table read names places := by
  cases hplace : read place <;> simp [table, hplace]

/-- Without duplicates among the names, the value of a name is the one at its position. -/
theorem lookup_table (read : α → Option β) {names : List String} (hnames : names.Nodup)
    (places : List α) (name : String) :
    (table read names places).lookup name =
      (names.idxOf? name).bind fun i => places[i]?.bind read := by
  induction names generalizing places with
  | nil => rfl
  | cons first names ih =>
    obtain ⟨hfirst, hrest⟩ := List.nodup_cons.mp hnames
    cases places with
    | nil => simp [table]
    | cons place places =>
      have htail := ih hrest places
      rw [table_cons, List.idxOf?_cons]
      by_cases hname : first = name
      · subst hname
        have habsent : names.idxOf? first = none := List.idxOf?_eq_none_iff.mpr hfirst
        rw [habsent] at htail
        -- a place without a value is the only one that the name has
        cases hplace : read place with
        | none => simpa [hplace] using htail
        | some value => simp [hplace]
      · have hne : (name == first) = false := by simpa using Ne.symm hname
        have hskip : (((read place).map (first, ·)).toList ++ table read names places).lookup name =
            (table read names places).lookup name := by
          cases read place <;> simp [List.lookup_cons, hne]
        rw [hskip, htail, if_neg (by simpa using hname)]
        cases names.idxOf? name <;> rfl

/-- Where a value stands in a list of pairs. -/
theorem lookup_table_eq_some_iff {read : α → Option β} {names : List String}
    (hnames : names.Nodup) {places : List α} {name : String} {value : β} :
    (table read names places).lookup name = some value ↔
      ∃ i place, names.idxOf? name = some i ∧ places[i]? = some place ∧
        read place = some value := by
  rw [lookup_table read hnames]
  simp only [Option.bind_eq_some_iff]
  constructor
  · rintro ⟨i, hi, place, hplace, hread⟩
    exact ⟨i, place, hi, hplace, hread⟩
  · rintro ⟨i, place, hi, hplace, hread⟩
    exact ⟨i, hi, place, hplace, hread⟩

end Tables

/-! ## The three lists -/

/-- The flags that are set are a table of the bytes that are not zero. -/
theorem readBooleans_eq_map_table (names : List String) (bytes : Bytes) :
    readBooleans names bytes =
      (table (fun b => if b = 0 then none else some b) names bytes).map Prod.fst := by
  rw [readBooleans, table, List.map_filterMap]
  refine List.filterMap_congr fun p _ => ?_
  by_cases hp : p.2 = 0 <;> simp [hp]

/-- The numbers are a table of the words that stand for one. -/
theorem readNumbers_eq_table (names : List String) (values : List UInt16) :
    readNumbers names values = table (Option.guard fun w => !isAbsentNumber w) names values := by
  rw [readNumbers, table, ← List.filterMap_eq_filter]
  refine List.filterMap_congr fun p _ => ?_
  by_cases hp : isAbsentNumber p.2 = true <;> simp [Option.guard, hp]

/-- A word stands for itself unless it is one of the three for absent numbers. -/
theorem guard_isAbsentNumber_eq_some_iff {w value : UInt16} :
    Option.guard (fun w => !isAbsentNumber w) w = some value ↔
      w = value ∧ value ≠ 0 ∧ value ≠ 0xffff ∧ value ≠ 0x3737 := by
  rw [Option.guard_eq_some_iff]
  constructor
  · rintro ⟨rfl, hw⟩
    simpa [isAbsentNumber, and_assoc] using hw
  · rintro ⟨rfl, hw⟩
    simpa [isAbsentNumber, and_assoc] using hw

/-- Strings that can all be read are a table of their texts. -/
theorem eq_table_of_readStrings? {texts : Bytes} {names : List String} {offsets : List UInt16}
    {strings : List (String × Bytes)}
    (h : readStrings? texts (names.zip offsets) = some strings) :
    strings =
      table (fun w => if isAbsentString w then none else textAt? texts w.toNat) names offsets := by
  rw [table]
  generalize names.zip offsets = pairs at h ⊢
  induction pairs generalizing strings with
  | nil => simpa [readStrings?] using h.symm
  | cons p rest ih =>
    obtain ⟨name, offset⟩ := p
    rw [readStrings?] at h
    by_cases habsent : isAbsentString offset = true
    · rw [if_pos habsent] at h
      simpa [habsent] using ih h
    · rw [if_neg habsent] at h
      cases htext : textAt? texts offset.toNat with
      | none => simp [htext] at h
      | some text =>
        simp only [htext] at h
        obtain ⟨others, hothers, rfl⟩ := Option.map_eq_some_iff.mp h
        simp [habsent, htext, ih hothers]

section Lists

variable {names : List String} (hnames : names.Nodup) {name : String}
include hnames

/-- A flag is set if the byte at its position is not zero. -/
theorem contains_readBooleans_iff {bytes : Bytes} :
    (readBooleans names bytes).contains name = true ↔
      ∃ i b, names.idxOf? name = some i ∧ bytes[i]? = some b ∧ b ≠ 0 := by
  have hlookup (l : List (String × UInt8)) :
      (l.map Prod.fst).contains name = true ↔ ∃ b, l.lookup name = some b := by
    rw [← Option.isSome_iff_exists, List.lookup_isSome_iff]
    simp
  rw [readBooleans_eq_map_table, hlookup]
  simp only [lookup_table_eq_some_iff hnames]
  constructor
  · rintro ⟨_, i, b, hi, hb, hset⟩
    refine ⟨i, b, hi, hb, fun hzero => ?_⟩
    rw [if_pos hzero] at hset
    cases hset
  · rintro ⟨i, b, hi, hb, hset⟩
    exact ⟨b, i, b, hi, hb, if_neg hset⟩

/-- A number is that of the word at the position of its name. -/
theorem lookup_readNumbers_eq_some_iff {values : List UInt16} {value : UInt16} :
    (readNumbers names values).lookup name = some value ↔
      ∃ i, names.idxOf? name = some i ∧ values[i]? = some value ∧
        value ≠ 0 ∧ value ≠ 0xffff ∧ value ≠ 0x3737 := by
  rw [readNumbers_eq_table, lookup_table_eq_some_iff hnames]
  simp only [guard_isAbsentNumber_eq_some_iff]
  constructor
  · rintro ⟨i, w, hi, hw, rfl, hvalue⟩
    exact ⟨i, hi, hw, hvalue⟩
  · rintro ⟨i, hi, hw, hvalue⟩
    exact ⟨i, value, hi, hw, rfl, hvalue⟩

/-- A string is the text at the offset in the word at the position of its name. -/
theorem lookup_eq_some_iff_of_readStrings? {texts text : Bytes} {offsets : List UInt16}
    {strings : List (String × Bytes)}
    (h : readStrings? texts (names.zip offsets) = some strings) :
    strings.lookup name = some text ↔
      ∃ i w, names.idxOf? name = some i ∧ offsets[i]? = some w ∧
        isAbsentString w = false ∧ textAt? texts w.toNat = some text := by
  rw [eq_table_of_readStrings? h, lookup_table_eq_some_iff hnames]
  simp only [ite_eq_iff, reduceCtorEq, and_false, false_or, Bool.not_eq_true]

end Lists

/-! ## Places -/

/-- The bytes of a section stand in the data. -/
theorem getElem?_slice_eq_some_iff {data : Bytes} {start size i : Nat} {b : UInt8} :
    (slice data start size)[i]? = some b ↔ i < size ∧ data[start + i]? = some b := by
  simp [getElem?_slice]

/-- Two bytes make a word. -/
theorem exists_toNat_eq_wordAt (data : Bytes) (i : Nat) : ∃ w : UInt16, w.toNat = wordAt data i :=
  ⟨word (data.getD i 0) (data.getD (i + 1) 0), toNat_word _ _⟩

/-- The words of a section are those at its even places. -/
theorem getElem?_words_slice_eq_some_iff {data : Bytes} {start count i : Nat} {w : UInt16}
    (h : start + 2 * count ≤ data.length) :
    (words (slice data start (2 * count)))[i]? = some w ↔
      i < count ∧ wordAt data (start + 2 * i) = w.toNat := by
  have hinj : ∀ v w : UInt16, v.toNat = w.toNat → v = w := fun _ _ => UInt16.toNat_inj.mp
  rw [← Option.map_inj_right hinj, ← List.getElem?_map, map_toNat_words_slice h, List.getElem?_map]
  by_cases hi : i < count
  · simp [hi]
  · simp [hi]

/-- The text at an offset is what stands there before the first zero byte. -/
theorem textAt?_eq_some_iff {texts text : Bytes} {offset : Nat} :
    textAt? texts offset = some text ↔ 0 ∉ text ∧ text ++ [0] <+: texts.drop offset := by
  rw [textAt?]
  generalize texts.drop offset = tail
  constructor
  · intro h
    by_cases hzero : 0 ∈ tail
    · obtain ⟨front, rest, rfl, hfront⟩ := List.eq_append_cons_of_mem hzero
      rw [takeWhile_ne_append_cons hfront, if_pos (by simp), Option.some.injEq] at h
      subst h
      exact ⟨hfront, rest, by simp⟩
    · simp [hzero] at h
  · rintro ⟨htext, rest, rfl⟩
    have htail : text ++ [0] ++ rest = text ++ 0 :: rest := by simp
    rw [htail, takeWhile_ne_append_cons htext, if_pos (by simp)]

/-! ## Reading by position -/

/-- The sizes that the header of some bytes holds. -/
def headerOf (data : Bytes) : Header :=
  ⟨wordAt data 2, wordAt data 4, wordAt data 6, wordAt data 8⟩

/-- The numbers begin where the sizes in the data say. -/
theorem numberStart_headerOf (data : Bytes) : (headerOf data).numberStart = numbersAt data := by
  simp only [Header.numberStart, Header.booleanStart, Header.size, headerOf, numbersAt]
  omega

theorem offsetStart_headerOf (data : Bytes) : (headerOf data).offsetStart = offsetsAt data :=
  congrArg (· + 2 * wordAt data 6) (numberStart_headerOf data)

theorem textStart_headerOf (data : Bytes) : (headerOf data).textStart = textsAt data :=
  congrArg (· + 2 * wordAt data 8) (offsetStart_headerOf data)

/-- The bytes of the flags, without the last one, which has no meaning. -/
def flagBytes (data : Bytes) : Bytes := slice data (12 + wordAt data 2) (wordAt data 4 - 1)

/-- The words of the numbers. -/
def numberWords (data : Bytes) : List UInt16 :=
  words (slice data (numbersAt data) (2 * wordAt data 6))

/-- The words of the offsets. -/
def offsetWords (data : Bytes) : List UInt16 :=
  words (slice data (offsetsAt data) (2 * wordAt data 8))

/-- A test that a reading has passed has not failed. -/
theorem of_guard_eq_ok {p : Prop} [Decidable p] {err : Error} {r : Except Error Entry} {e : Entry}
    (h : (if p then .error err else r) = .ok e) : ¬p ∧ r = .ok e := by
  by_cases hp : p
  · rw [if_pos hp] at h
    cases h
  · rw [if_neg hp] at h
    exact ⟨hp, h⟩

/-- An entry that is read comes from the sections behind the header of the data. -/
theorem readSections_of_ofBytes {data : Bytes} {e : Entry} (h : ofBytes data = .ok e) :
    readSections (headerOf data) data = .ok e := by
  rw [ofBytes_eq_ofSections, ofSections] at h
  obtain ⟨-, h⟩ := of_guard_eq_ok h
  obtain ⟨-, h⟩ := of_guard_eq_ok h
  by_cases hheader : data.length < 10
  · rw [Header.ofBytes?_of_lt hheader] at h
    cases h
  · rw [Header.ofBytes?_of_le (Nat.le_of_not_lt hheader)] at h
    exact h

/-- Sections from which an entry is read hold all offsets and a name. -/
theorem readCapabilities?_of_readSections {data : Bytes} {e : Entry}
    (h : readSections (headerOf data) data = .ok e) :
    textsAt data ≤ data.length ∧ (namesIn data).headD [] ≠ [] ∧
      readCapabilities? (headerOf data) data ((namesIn data).headD []) ((namesIn data).getD 1 []) =
        some e := by
  have hnames : splitNames (dropTerminator (slice data Header.size (headerOf data).nameSize)) =
      ((namesIn data).headD [], (namesIn data).getD 1 []) := splitNames_eq _
  rw [readSections, hnames] at h
  obtain ⟨-, h⟩ := of_guard_eq_ok h
  obtain ⟨-, h⟩ := of_guard_eq_ok h
  obtain ⟨hname, h⟩ := of_guard_eq_ok h
  obtain ⟨htexts, h⟩ := of_guard_eq_ok h
  rw [textStart_headerOf] at htexts
  refine ⟨Nat.le_of_not_lt htexts, hname, ?_⟩
  cases hread : readCapabilities? (headerOf data) data ((namesIn data).headD [])
      ((namesIn data).getD 1 []) with
  | none =>
    rw [hread] at h
    cases h
  | some entry =>
    rw [hread] at h
    exact congrArg some (Except.ok.inj h)

/-- The parts of an entry, each from its section. -/
theorem eq_of_readCapabilities? {data name description : Bytes} {e : Entry}
    (h : readCapabilities? (headerOf data) data name description = some e) :
    readStrings? (data.drop (textsAt data)) (Capability.stringNames.zip (offsetWords data)) =
        some e.strings ∧
      e = { name := Utf8.decode name
            description := Utf8.decode description
            booleans := readBooleans Capability.booleanNames (flagBytes data)
            numbers := readNumbers Capability.numberNames (numberWords data)
            strings := e.strings } := by
  rw [readCapabilities?, numberStart_headerOf, offsetStart_headerOf, textStart_headerOf] at h
  obtain ⟨strings, hstrings, rfl⟩ := Option.map_eq_some_iff.mp h
  exact ⟨hstrings, rfl⟩

/-- What an entry answers for a name stands in its bytes at the position of the name. -/
theorem isReadFrom {data : Bytes} {e : Entry} (h : ofBytes data = .ok e) : e.IsReadFrom data := by
  obtain ⟨hwithin, hnamed, hread⟩ := readCapabilities?_of_readSections (readSections_of_ofBytes h)
  obtain ⟨hstrings, he⟩ := eq_of_readCapabilities? hread
  have hoffsets : offsetsAt data ≤ data.length := Nat.le_trans (Nat.le_add_right _ _) hwithin
  refine
    { within := hwithin
      flag := fun name => ?flag
      number := fun name value => ?number
      string := fun name text => ?string
      name := by rw [he]
      description := by rw [he]
      named := ?named }
  case flag =>
    rw [flag, he]
    -- The names of a kind are distinct, so a name stands for one place of its table.
    refine (contains_readBooleans_iff (Capability.Kind.nodup_names .boolean)).trans ?_
    refine exists_congr fun i => exists_congr fun b => and_congr_right fun _ => ?_
    rw [flagBytes, getElem?_slice_eq_some_iff, and_assoc, Nat.lt_sub_iff_add_lt]
  case number =>
    rw [number?, he]
    refine (lookup_readNumbers_eq_some_iff (Capability.Kind.nodup_names .number)).trans ?_
    refine exists_congr fun i => and_congr_right fun _ => ?_
    rw [numberWords, getElem?_words_slice_eq_some_iff hoffsets, and_assoc]
  case string =>
    have hlookup : e.string? name = some text ↔ _ :=
      lookup_eq_some_iff_of_readStrings? (Capability.Kind.nodup_names .string) hstrings
    simp only [offsetWords, getElem?_words_slice_eq_some_iff hwithin, textAt?_eq_some_iff,
      isAbsentString_eq_false_iff, List.drop_drop] at hlookup
    -- Both sides say the same, once with the word read and once with its number.
    refine hlookup.trans ⟨?_, ?_⟩
    · rintro ⟨i, w, hi, ⟨hlt, hw⟩, ⟨hnone, hcancelled⟩, htext⟩
      exact ⟨i, w.toNat, hi, hlt, hw, hnone, hcancelled, htext⟩
    · rintro ⟨i, offset, hi, hlt, hoffset, hnone, hcancelled, htext⟩
      obtain ⟨w, hw⟩ := exists_toNat_eq_wordAt data (offsetsAt data + 2 * i)
      obtain rfl : w.toNat = offset := hw.trans hoffset
      exact ⟨i, w, hi, ⟨hlt, hoffset⟩, ⟨hnone, hcancelled⟩, htext⟩
  case named =>
    rw [he]
    exact mt (Utf8.decode_eq_empty_iff _).mp hnamed

/-- A flag, a number, a word without a number, two strings of which one ends the other, and a
cancelled one.  The names and the flags end at an odd offset. -/
def shared : Bytes :=
  [0x1a, 0x01, 5, 0, 2, 0, 2, 0, 3, 0, 0, 0] ++ Bytes.ofAscii ['v', 't', '|', 'v'] ++
    [0, 1, 1, 0, 80, 0, 0x37, 0x37, 0, 0, 1, 0, 0xfe, 0xff, 0x1b, 0x5b, 0x5a, 0]

def sharedEntry : Entry where
  name := "vt"
  description := "v"
  booleans := ["bw"]
  numbers := [("cols", 80)]
  strings := [("cbt", [0x1b, 0x5b, 0x5a]), ("bel", [0x5b, 0x5a])]

set_option maxRecDepth 4000 in
/-- Two of its offsets lead into one text. -/
theorem ofBytes_shared : ofBytes shared = .ok sharedEntry := rfl

/-- The bell is the end of another string, from the offset that its own word holds. -/
theorem isReadFrom_shared :
    ofBytes shared = .ok sharedEntry ∧ sharedEntry.IsReadFrom shared ∧
      sharedEntry.string? "bel" = some [0x5b, 0x5a] :=
  have hread : sharedEntry.IsReadFrom shared := isReadFrom ofBytes_shared
  have hplace : [0x5b, 0x5a] ++ [0] <+: shared.drop (textsAt shared + 1) := ⟨[], rfl⟩
  have hbell : sharedEntry.string? "bel" = some [0x5b, 0x5a] :=
    (hread.string "bel" _).mpr
      ⟨1, 1, rfl, by decide, rfl, by decide, by decide, by decide, hplace⟩
  ⟨ofBytes_shared, hread, hbell⟩

end Terminal.Entry
