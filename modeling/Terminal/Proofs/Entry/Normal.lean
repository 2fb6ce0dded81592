import Terminal.Proofs.Entry.Accessors
import Terminal.Proofs.Text.Utf8

/-!
# Entries that were read

What a reader makes of any bytes is in normal form (`IsNormal`): the names of the capabilities come
from the vocabulary, in its order, and no value is one that the compiled form cannot hold.  An entry
in normal form is the one that its image stands for (`IsNormal.entry_ofEntry`), so writing an entry
that was read, and reading it again, changes nothing (`isNormalForm`).
-/

namespace Terminal.Entry

attribute [ext] Entry

/-- An entry holds nothing but what the compiled form can express. -/
structure IsNormal (e : Entry) : Prop where
  /-- The names of each kind are in the order of the vocabulary, and none stands twice. -/
  booleans : e.booleans.Sublist Capability.booleanNames
  numbers : (e.numbers.map Prod.fst).Sublist Capability.numberNames
  strings : (e.strings.map Prod.fst).Sublist Capability.stringNames
  /-- A boolean capability is listed only if the terminal has it. -/
  flag : ∀ name ∈ e.booleans, e.flag name = true
  number : ∀ p ∈ e.numbers, p.2 ≠ 0 ∧ p.2 ≠ 0xffff ∧ p.2 ≠ 0x3737
  string : ∀ p ∈ e.strings, 0 ∉ p.2
  named : e.name ≠ ""
  name : '|' ∉ e.name.toList
  description : '|' ∉ e.description.toList

/-! ## Tables -/

section Tables

variable {α β : Type} {read : α → Option β} {names : List String}

/-- A table has its names in their order. -/
theorem map_fst_table_sublist (read : α → Option β) (names : List String) (places : List α) :
    ((table read names places).map Prod.fst).Sublist names := by
  induction names generalizing places with
  | nil => exact List.Sublist.slnil
  | cons name names ih =>
    cases places with
    | nil => simp [table]
    | cons place places =>
      have hrest := ih places
      rw [table_cons]
      cases read place with
      | none => exact hrest.cons name
      | some value => exact hrest.cons_cons name

/-- The values of a table are read from its places. -/
theorem exists_read_of_mem_table {places : List α} {p : String × β}
    (h : p ∈ table read names places) : ∃ place, read place = some p.2 := by
  obtain ⟨⟨name, place⟩, -, hp⟩ := List.mem_filterMap.mp h
  obtain ⟨value, hvalue, rfl⟩ := Option.map_eq_some_iff.mp hp
  exact ⟨place, hvalue⟩

/-- Pairs in the order of the names are the table of the places from which they are looked up. -/
theorem table_map_eq (hnames : names.Nodup) {pairs : List (String × β)}
    (hpairs : (pairs.map Prod.fst).Sublist names) {place : String → α}
    (hplace : ∀ name ∈ names, read (place name) = pairs.lookup name) :
    table read names (names.map place) = pairs := by
  induction names generalizing pairs with
  | nil =>
    rw [List.sublist_nil, List.map_eq_nil_iff] at hpairs
    rw [hpairs]
    rfl
  | cons name names ih =>
    obtain ⟨hname, hrest⟩ := List.nodup_cons.mp hnames
    rw [List.map_cons, table_cons, hplace name List.mem_cons_self]
    -- The first name either has no pair or the first of the pairs.
    rcases List.sublist_cons_iff.mp hpairs with hskip | ⟨keys, hkeys, hsub⟩
    · have hnone : pairs.lookup name = none := by
        rw [List.lookup_eq_none_iff]
        intro p hp
        have hmem := hskip.subset (List.mem_map_of_mem hp)
        rw [bne_iff_ne]
        rintro rfl
        exact hname hmem
      rw [hnone, ih hrest hskip fun n hn => hplace n (List.mem_cons_of_mem name hn)]
      rfl
    · obtain ⟨⟨key, value⟩, rest, rfl, rfl, rfl⟩ := List.map_eq_cons_iff.mp hkeys
      have hplace' : ∀ n ∈ names, read (place n) = rest.lookup n := by
        intro n hn
        have hne : ¬n = key := by
          rintro rfl
          exact hname hn
        rw [hplace n (List.mem_cons_of_mem key hn), List.lookup_cons, beq_eq_false_iff_ne.mpr hne]
      rw [List.lookup_cons_self, ih hrest hsub hplace']
      rfl

end Tables

/-! ## What a reader makes of bytes -/

/-- A name that has been split off holds no bar. -/
theorem bar_notMem_splitNames (bytes : Bytes) :
    bar ∉ (splitNames bytes).1 ∧ bar ∉ (splitNames bytes).2 := by
  have hwhile (bs : Bytes) : bar ∉ bs.takeWhile (· ≠ bar) := by
    intro hmem
    simpa using List.mem_takeWhile_imp hmem
  exact ⟨hwhile _, hwhile _⟩

/-- Each part of what is read from sections is in normal form. -/
theorem isNormal_of_readCapabilities? {data name description : Bytes} {e : Entry}
    (h : readCapabilities? (headerOf data) data name description = some e) (hnamed : name ≠ [])
    (hname : bar ∉ name) (hdescription : bar ∉ description) : e.IsNormal := by
  obtain ⟨hstrings, he⟩ := eq_of_readCapabilities? h
  have htable := eq_table_of_readStrings? hstrings
  rw [he]
  -- Everything a normal entry asks of its lists holds of any table that is read.
  refine
    { booleans := ?booleans
      numbers := ?numbers
      strings := ?strings
      flag := fun name hmem => by rwa [flag, List.contains_iff_mem]
      number := fun p hp => ?number
      string := fun p hp => ?string
      named := mt (Utf8.decode_eq_empty_iff name).mp hnamed
      name := Utf8.bar_notMem_decode hname
      description := Utf8.bar_notMem_decode hdescription }
  case booleans =>
    rw [readBooleans_eq_map_table]
    exact map_fst_table_sublist _ _ _
  case numbers =>
    rw [readNumbers_eq_table]
    exact map_fst_table_sublist _ _ _
  case strings =>
    rw [htable]
    exact map_fst_table_sublist _ _ _
  case number =>
    rw [readNumbers_eq_table] at hp
    obtain ⟨w, hw⟩ := exists_read_of_mem_table hp
    exact (guard_isAbsentNumber_eq_some_iff.mp hw).2
  case string =>
    rw [htable] at hp
    obtain ⟨w, hw⟩ := exists_read_of_mem_table hp
    split at hw
    · cases hw
    · exact (textAt?_eq_some_iff.mp hw).1

/-- Whatever the bytes are, the entry that is read from them is in normal form. -/
theorem isNormal_of_ofBytes {data : Bytes} {e : Entry} (h : ofBytes data = .ok e) : e.IsNormal := by
  obtain ⟨-, hnamed, hread⟩ := readCapabilities?_of_readSections (readSections_of_ofBytes h)
  have hbars := bar_notMem_splitNames (dropTerminator (slice data 12 (wordAt data 2)))
  rw [splitNames_eq] at hbars
  exact isNormal_of_readCapabilities? hread hnamed hbars.1 hbars.2

/-! ## The image of an entry in normal form -/

/-- In a table of flags that are set, every name stands for one. -/
theorem lookup_map_one (flags : List String) (name : String) :
    (flags.map (·, (1 : UInt8))).lookup name = if flags.contains name then some 1 else none := by
  induction flags with
  | nil => rfl
  | cons first flags ih =>
    rw [List.map_cons, List.lookup_cons, List.contains_cons, ih]
    cases name == first <;> rfl

section Lists

variable {names : List String} (hnames : names.Nodup)
include hnames

/-- Flags in the order of the names are read from a byte for each name. -/
theorem readBooleans_map {flags : List String} (h : flags.Sublist names) :
    readBooleans names (names.map fun name => if flags.contains name then 1 else 0) = flags := by
  have hkeys : (flags.map fun name => (name, (1 : UInt8))).map Prod.fst = flags := by
    simp [Function.comp_def]
  rw [readBooleans_eq_map_table, table_map_eq hnames (hkeys.symm ▸ h) fun name _ => ?_, hkeys]
  rw [lookup_map_one]
  cases flags.contains name <;> rfl

/-- Numbers in the order of the names are read from a word for each name, if none of them is a word
that stands for an absent number. -/
theorem readNumbers_map {numbers : List (String × UInt16)}
    (h : (numbers.map Prod.fst).Sublist names)
    (hpresent : ∀ p ∈ numbers, p.2 ≠ 0 ∧ p.2 ≠ 0xffff ∧ p.2 ≠ 0x3737) :
    readNumbers names (names.map fun name => (numbers.lookup name).getD 0xffff) = numbers := by
  rw [readNumbers_eq_table]
  refine table_map_eq hnames h fun name _ => ?_
  cases hlookup : numbers.lookup name with
  | none => rfl
  | some value =>
    obtain ⟨before, after, rfl, -⟩ := List.lookup_eq_some_iff.mp hlookup
    have hvalue := hpresent (name, value) (by simp)
    exact guard_isAbsentNumber_eq_some_iff.mpr ⟨rfl, hvalue⟩

end Lists

namespace IsNormal

variable {e : Entry} (h : e.IsNormal)
include h

/-- The names section of an entry has two names and no aliases. -/
theorem splitOn_names_ofEntry :
    (Image.ofEntry e).names.splitOn bar =
      [Bytes.ofString e.name, Bytes.ofString e.description] := by
  have hname : bar ∉ Bytes.ofString e.name := Utf8.bar_notMem_ofString h.name
  have hdescription : bar ∉ Bytes.ofString e.description := Utf8.bar_notMem_ofString h.description
  rw [Image.ofEntry, List.splitOn_append_cons_self_of_not_mem hname,
    List.splitOn_eq_singleton hdescription]

/-- The flags of a normal entry come back from its image. -/
theorem booleans_entry_ofEntry : (Image.ofEntry e).entry.booleans = e.booleans := by
  refine (readBooleans_eq _ _).symm.trans ?_
  rw [Image.ofEntry, List.dropLast_concat]
  exact readBooleans_map (Capability.Kind.nodup_names .boolean) h.booleans

/-- So do its numbers. -/
theorem numbers_entry_ofEntry : (Image.ofEntry e).entry.numbers = e.numbers :=
  (readNumbers_eq _ _).symm.trans
    (readNumbers_map (Capability.Kind.nodup_names .number) h.numbers h.number)

/-- So do its strings. -/
theorem strings_entry_ofEntry : (Image.ofEntry e).entry.strings = e.strings := by
  have hplace (name : String) : (Image.slotOf e name).text? = e.string? name := by
    unfold Image.slotOf
    cases e.string? name <;> rfl
  exact table_map_eq (Capability.Kind.nodup_names .string) h.strings fun name _ => hplace name

/-- An entry in normal form is the one that its image stands for. -/
theorem entry_ofEntry : (Image.ofEntry e).entry = e := by
  apply Entry.ext
  · rw [Image.entry, h.splitOn_names_ofEntry]
    exact Utf8.decode_ofString e.name
  · rw [Image.entry, h.splitOn_names_ofEntry]
    exact Utf8.decode_ofString e.description
  · exact h.booleans_entry_ofEntry
  · exact h.numbers_entry_ofEntry
  · exact h.strings_entry_ofEntry

/-- The image fits if its names and the offsets of its texts do. -/
theorem fits_ofEntry (hnames : (Image.ofEntry e).names.length + 1 ≤ 65535)
    (haddressable : (Image.ofEntry e).IsAddressable) : (Image.ofEntry e).Fits where
  booleans := by simp [Image.ofEntry, Capability.length_booleanNames]
  numbers := by simp [Image.ofEntry, Capability.length_numberNames]
  strings := by simp [Image.ofEntry, Capability.length_stringNames]
  names := hnames
  named := by
    rw [h.splitOn_names_ofEntry]
    intro hempty
    apply h.named
    rw [← Utf8.decode_ofString e.name]
    exact (Utf8.decode_eq_empty_iff _).mpr hempty
  ended := by
    intro text htext
    -- A text in a slot was a string of the entry, which normal form keeps free of zeros.
    obtain ⟨name, -, hslot⟩ := List.mem_map.mp htext
    unfold Image.slotOf at hslot
    split at hslot
    · next found hfound =>
      obtain rfl : found = text := Slot.present.inj hslot
      obtain ⟨before, after, hstrings, -⟩ := List.lookup_eq_some_iff.mp hfound
      exact h.string (name, found) (by simp [hstrings])
    · cases hslot
  reachable := haddressable

/-- An entry in normal form comes back from the bytes of its image. -/
theorem ofBytes_bytes_ofEntry (hnames : (Image.ofEntry e).names.length + 1 ≤ 65535)
    (haddressable : (Image.ofEntry e).IsAddressable) : ofBytes (Image.ofEntry e).bytes = .ok e := by
  have hfits := h.fits_ofEntry hnames haddressable
  rw [Image.ofBytes_bytes_eq_readSections hfits.hasWordSizes, Image.readSections_bytes hfits,
    h.entry_ofEntry]

end IsNormal

/-- An entry that was read is in normal form, and writing it changes nothing. -/
theorem isNormalForm {data : Bytes} {e : Entry} (h : ofBytes data = .ok e) :
    e.IsNormal ∧
      ((Image.ofEntry e).names.length + 1 ≤ 65535 → (Image.ofEntry e).IsAddressable →
        ofBytes (Image.ofEntry e).bytes = .ok e) := by
  have hnormal := isNormal_of_ofBytes h
  exact ⟨hnormal, hnormal.ofBytes_bytes_ofEntry⟩

/-- Names that are not well-formed, with an alias, a flag, a number that is zero, and texts of which
one ends the other. -/
def garbled : Bytes :=
  [0x1a, 0x01, 7, 0, 2, 0, 2, 0, 3, 0, 0, 0, 0xff, 0x7c, 0xe2, 0x82, 0x7c, 0x76, 0, 2, 1, 0,
    80, 0, 0, 0, 0, 0, 1, 0, 0xfe, 0xff, 0x1b, 0x5a, 0]

def garbledEntry : Entry where
  name := "\uFFFD"
  description := "\uFFFD"
  booleans := ["bw"]
  numbers := [("cols", 80)]
  strings := [("cbt", [0x1b, 0x5a]), ("bel", [0x5a])]

set_option maxRecDepth 4000 in
/-- A name that is not UTF-8 is read with a replacement character. -/
theorem ofBytes_garbled : ofBytes garbled = .ok garbledEntry := rfl

/-- Its texts are short enough for all offsets. -/
theorem length_texts_garbled : (Image.ofEntry garbledEntry).texts.length = 5 := by
  decide +kernel

/-- Each text is stored once when the entry is written, and the names are well-formed. -/
theorem isNormalForm_garbled :
    ofBytes garbled = .ok garbledEntry ∧ garbledEntry.IsNormal ∧
      ofBytes (Image.ofEntry garbledEntry).bytes = .ok garbledEntry := by
  obtain ⟨hnormal, hwritten⟩ := isNormalForm ofBytes_garbled
  refine ⟨ofBytes_garbled, hnormal, hwritten (by decide) ?_⟩
  refine Image.isAddressable_of_length_texts_lt ?_
  rw [length_texts_garbled]
  decide

end Terminal.Entry
