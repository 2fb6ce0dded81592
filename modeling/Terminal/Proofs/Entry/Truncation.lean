import Terminal.Proofs.Entry.Footprint

/-!
# Truncated entries

How many of its bytes an entry needs is its `reach`.  Bytes that agree so far hold the same entry, so
what stands behind it does not matter (`ofBytes_append`).  With fewer bytes the reader misses the
rest: whatever else it made of them would stand whatever follows (`ofBytes_take_of_lt_reach`).  What
was written from an image is needed to its end just if the last text has no zero byte inside
(`Image.reach_bytes_eq_iff`).
-/

namespace Terminal.Entry

/-! ## How far an entry reaches -/

/-- The number of bytes that an entry needs: up to the end of the offset table, or up to the end of
the text that ends last. -/
def reach (data : Bytes) : Nat :=
  ((textOffsets data).map (textEnd data)).foldr max (textsAt data)

/-- The maximum of some numbers is bounded just if all of them are. -/
theorem foldr_max_le_iff {l : List Nat} {start n : Nat} :
    l.foldr max start ≤ n ↔ start ≤ n ∧ ∀ k ∈ l, k ≤ n := by
  induction l with
  | nil => simp
  | cons k l ih =>
    rw [List.foldr_cons, Nat.max_le, ih, List.forall_mem_cons]
    exact and_left_comm

/-- A reader needs no more than the tables and every text with its end. -/
theorem reach_le_iff {data : Bytes} {n : Nat} :
    reach data ≤ n ↔ textsAt data ≤ n ∧ ∀ offset ∈ textOffsets data, textEnd data offset ≤ n := by
  rw [reach, foldr_max_le_iff, List.forall_mem_map]

/-- It needs all tables. -/
theorem textsAt_le_reach (data : Bytes) : textsAt data ≤ reach data :=
  (reach_le_iff.mp (Nat.le_refl _)).1

/-- It needs every text with its end. -/
theorem textEnd_le_reach {data : Bytes} {offset : Nat} (h : offset ∈ textOffsets data) :
    textEnd data offset ≤ reach data :=
  (reach_le_iff.mp (Nat.le_refl _)).2 offset h

/-- An entry lies within its bytes. -/
theorem reach_le_length {data : Bytes} {e : Entry} (h : ofBytes data = .ok e) :
    reach data ≤ data.length := by
  refine reach_le_iff.mpr ⟨(ofBytes_eq_ok_iff.mp h).1.within, fun offset hoffset => ?_⟩
  obtain ⟨text, htext⟩ := exists_textAt?_of_ofBytes h hoffset
  obtain ⟨hended, hprefix⟩ := textAt?_eq_some_iff.mp htext
  rw [List.drop_drop] at hprefix
  have hlength := hprefix.length_le
  rw [textEnd_eq hended hprefix]
  rw [List.length_drop, List.length_append, List.length_singleton] at hlength
  rw [List.length_append, List.length_singleton]
  omega

section Agreement

variable {data data' : Bytes} {e : Entry}

/-- Bytes that agree as far as an entry reaches are read alike. -/
theorem readsAlike_of_reach (hlength : reach data ≤ data'.length)
    (h : ∀ i < reach data, data'[i]? = data[i]?) : ReadsAlike data data' := by
  have htexts := textsAt_le_reach data
  have hsections : 12 + wordAt data 2 + wordAt data 4 ≤ numbersAt data ∧
      numbersAt data ≤ textsAt data := by
    simp only [textsAt, offsetsAt, numbersAt]
    omega
  refine
    { within := Nat.le_trans htexts hlength
      header := fun i hi => h i (by omega)
      names := fun i hi _ => h (12 + i) (by omega)
      flags := fun i hi => by rw [h (12 + wordAt data 2 + i) (by omega)]
      tables := fun i _ hi => h i (by omega)
      texts := fun offset hoffset i _ hi => h i ?_ }
  exact Nat.lt_of_lt_of_le hi (textEnd_le_reach hoffset)

/-- It makes no difference to an entry what stands behind it. -/
theorem readsAlike_append (he : ofBytes data = .ok e) (rest : Bytes) :
    ReadsAlike data (data ++ rest) := by
  have hlength := reach_le_length he
  refine readsAlike_of_reach ?_ fun i hi => ?_
  · rw [List.length_append]
    omega
  · exact List.getElem?_append_left (by omega)

/-- Bytes that are read alike reach as far. -/
theorem reach_eq_of_readsAlike (he : ofBytes data = .ok e) (h : ReadsAlike data data') :
    reach data' = reach data := by
  have hoffsets : textOffsets data' = textOffsets data := by
    rw [textOffsets, textOffsets, h.wordAt_eq (i := 8) (by decide), h.offsetsAt_eq]
    refine congrArg (List.filter _) (List.map_congr_left fun i hi => ?_)
    have hi := List.mem_range.mp hi
    refine wordAt_congr (h.tables _ ?_ ?_) (h.tables _ ?_ ?_) <;> simp only [textsAt, offsetsAt] <;>
      omega
  have hends : (textOffsets data).map (textEnd data') = (textOffsets data).map (textEnd data) := by
    refine List.map_congr_left fun offset hoffset => ?_
    obtain ⟨text, htext⟩ := exists_textAt?_of_ofBytes he hoffset
    obtain ⟨hended, hprefix⟩ := textAt?_eq_some_iff.mp htext
    obtain ⟨-, hprefix'⟩ := textAt?_eq_some_iff.mp (h.textAt?_eq hoffset htext)
    rw [List.drop_drop] at hprefix hprefix'
    rw [← h.textsAt_eq] at hprefix'
    rw [textEnd_eq hended hprefix, textEnd_eq hended hprefix', h.textsAt_eq]
  rw [reach, reach, hoffsets, hends, h.textsAt_eq]

end Agreement

/-! ## Bytes behind an entry -/

/-- An error other than truncation lies behind a length test that was passed. -/
theorem of_ite_truncated {p : Prop} [Decidable p] {r : Option Error} {err : Error}
    (h : (if p then some .truncated else r) = some err) (herr : err ≠ .truncated) :
    ¬p ∧ r = some err := by
  by_cases hp : p
  · rw [if_pos hp] at h
    exact absurd (Option.some.inj h).symm herr
  · rw [if_neg hp] at h
    exact ⟨hp, h⟩

/-- Data do not get shorter by what is appended. -/
theorem not_length_append_lt {data : Bytes} {n : Nat} (h : ¬data.length < n) (rest : Bytes) :
    ¬(data ++ rest).length < n := by
  rw [List.length_append]
  omega

/-- A word within the data stays where it is. -/
theorem wordAt_append {data : Bytes} {i : Nat} (h : i + 1 < data.length) (rest : Bytes) :
    wordAt (data ++ rest) i = wordAt data i :=
  wordAt_congr (List.getElem?_append_left (by omega)) (List.getElem?_append_left h)

/-- Whether there is a name is told from the section of the names. -/
theorem isNameless_append {data : Bytes} {size : Nat} (h : 12 + size ≤ data.length)
    (rest : Bytes) : IsNameless (data ++ rest) size ↔ IsNameless data size := by
  by_cases hsize : size = 0
  · exact iff_of_true (.inl hsize) (.inl hsize)
  · unfold IsNameless
    rw [List.getElem?_append_left (by omega)]

/-- An error in the sections stays if more data follow, unless it was that they ended. -/
theorem sectionError_append {data : Bytes} {names booleans numbers strings : Nat} {err : Error}
    (h : sectionError data names booleans numbers strings = some err) (herr : err ≠ .truncated)
    (rest : Bytes) : sectionError (data ++ rest) names booleans numbers strings = some err := by
  unfold sectionError at h ⊢
  split at h
  · next hcount => rwa [if_pos hcount]
  · next hcount =>
    obtain ⟨hnames, h⟩ := of_ite_truncated h herr
    rw [if_neg hcount, if_neg (not_length_append_lt hnames rest)]
    split at h
    · next hnameless =>
      rwa [if_pos ((isNameless_append (Nat.le_of_not_lt hnames) rest).mpr hnameless)]
    · -- behind the names, nothing but the end of the bytes is reported
      obtain ⟨-, h⟩ := of_ite_truncated h herr
      obtain ⟨-, h⟩ := of_ite_truncated h herr
      cases h

/-- So does any first error. -/
theorem firstError_append {data : Bytes} {err : Error} (h : firstError data = some err)
    (herr : err ≠ .truncated) (rest : Bytes) : firstError (data ++ rest) = some err := by
  unfold firstError at h ⊢
  obtain ⟨hmagic, h⟩ := of_ite_truncated h herr
  rw [if_neg (not_length_append_lt hmagic rest), List.take_append_of_le_length (Nat.le_of_not_lt hmagic)]
  split at h
  · next hne => rwa [if_pos hne]
  · next heq =>
    obtain ⟨hheader, h⟩ := of_ite_truncated h herr
    rw [if_neg heq, if_neg (not_length_append_lt hheader rest), wordAt_append (by omega), wordAt_append (by omega),
      wordAt_append (by omega), wordAt_append (by omega)]
    exact sectionError_append h herr rest

/-- Bytes are refused for their first error. -/
theorem ofBytes_eq_error_of_firstError {data : Bytes} {err : Error}
    (h : firstError data = some err) : ofBytes data = .error err := by
  rw [← error?_ofBytes] at h
  cases hread : ofBytes data with
  | ok e => simp [hread, error?] at h
  | error err' =>
    rw [hread] at h
    exact congrArg Except.error (Option.some.inj h)

/-- Unless the bytes end too early, it makes no difference what stands behind them. -/
theorem ofBytes_append {data : Bytes} (h : ofBytes data ≠ .error .truncated) (rest : Bytes) :
    ofBytes (data ++ rest) = ofBytes data := by
  cases hread : ofBytes data with
  | ok e => exact (readsAlike_append hread rest).ofBytes_eq hread
  | error err =>
    have herror : firstError data = some err := by
      rw [← error?_ofBytes, hread]
      rfl
    have herr : err ≠ .truncated := by
      rintro rfl
      exact h hread
    exact ofBytes_eq_error_of_firstError (firstError_append herror herr rest)

/-! ## Bytes that are cut off -/

/-- An entry reaches as far whatever stands behind it. -/
theorem reach_append {data : Bytes} {e : Entry} (h : ofBytes data = .ok e) (rest : Bytes) :
    reach (data ++ rest) = reach data :=
  reach_eq_of_readsAlike h (readsAlike_append h rest)

/-- The first bytes of an entry are the entry if they reach as far. -/
theorem ofBytes_take_of_reach_le {data : Bytes} {e : Entry} (h : ofBytes data = .ok e) {k : Nat}
    (hk : reach data ≤ k) : ofBytes (data.take k) = .ok e := by
  have hlength := reach_le_length h
  refine (readsAlike_of_reach ?_ fun i hi => ?_).ofBytes_eq h
  · rw [List.length_take]
    omega
  · exact List.getElem?_take_of_lt (by omega)

/-- With fewer bytes, the rest is missed. -/
theorem ofBytes_take_of_lt_reach {data : Bytes} {e : Entry} (h : ofBytes data = .ok e) {k : Nat}
    (hk : k < reach data) : ofBytes (data.take k) = .error .truncated := by
  by_contra hne
  -- what is read from the first bytes would be read from all of them, and reach as far
  have happend := ofBytes_append hne (data.drop k)
  rw [List.take_append_drop, h] at happend
  have hreach := reach_append happend.symm (data.drop k)
  rw [List.take_append_drop] at hreach
  have hlength := reach_le_length happend.symm
  rw [List.length_take] at hlength
  omega

/-! ## The end of what was written -/

/-- A text is read up to its first zero byte, whatever follows it. -/
theorem takeWhile_ne_zero_append (text rest : Bytes) :
    (text ++ 0 :: rest).takeWhile (· ≠ 0) = text.takeWhile (· ≠ 0) := by
  induction text with
  | nil => rfl
  | cons b bs ih =>
    rw [List.cons_append]
    by_cases hb : b = 0
    · rw [List.takeWhile_cons_of_neg (by simp [hb]), List.takeWhile_cons_of_neg (by simp [hb])]
    · rw [List.takeWhile_cons_of_pos (by simp [hb]), List.takeWhile_cons_of_pos (by simp [hb]), ih]

/-- A text that holds a zero byte is read up to there only. -/
theorem length_takeWhile_ne_zero_lt {text : Bytes} (h : 0 ∈ text) :
    (text.takeWhile (· ≠ 0)).length < text.length := by
  obtain ⟨front, rest, rfl, hfront⟩ := List.eq_append_cons_of_mem h
  rw [takeWhile_ne_append_cons hfront, List.length_append, List.length_cons]
  omega

/-- The offsets of a table, each at the length of the texts before it. -/
theorem mem_offsetsFrom_iff {start n : Nat} {slots : List Slot} :
    n ∈ offsetsFrom start slots ↔ ∃ before slot after, slots = before ++ slot :: after ∧
      n = slot.offset (start + (before.flatMap Slot.stored).length) := by
  induction slots generalizing start with
  | nil => simp [offsetsFrom]
  | cons first rest ih =>
    rw [offsetsFrom, List.mem_cons, ih]
    constructor
    · rintro (rfl | ⟨before, slot, after, rfl, rfl⟩)
      · exact ⟨[], first, rest, rfl, rfl⟩
      · exact ⟨first :: before, slot, after, rfl, by simp [Nat.add_assoc]⟩
    · rintro ⟨before, slot, after, hslots, rfl⟩
      cases before with
      | nil =>
        obtain ⟨rfl, rfl⟩ := List.cons.inj hslots
        exact .inl rfl
      | cons other before =>
        obtain ⟨rfl, rfl⟩ := List.cons.inj hslots
        exact .inr ⟨before, slot, after, rfl, by simp [Nat.add_assoc]⟩

namespace Image

/-- The text that is stored last. -/
def lastText? (i : Image) : Option Bytes := (i.strings.filterMap Slot.text?).getLast?

/-- Places store nothing if they have no text. -/
theorem flatMap_stored_eq_nil_iff {slots : List Slot} :
    slots.flatMap Slot.stored = [] ↔ slots.filterMap Slot.text? = [] := by
  rw [List.flatMap_eq_nil_iff, List.filterMap_eq_nil_iff]
  refine forall_congr' fun slot => imp_congr_right fun _ => ?_
  cases slot <;> simp [Slot.stored, Slot.text?]

/-- A text behind which there is no other is the last one. -/
theorem lastText?_of_eq_append {i : Image} {before after : List Slot} {text : Bytes}
    (hstrings : i.strings = before ++ .present text :: after)
    (hafter : after.filterMap Slot.text? = []) : i.lastText? = some text := by
  have hpresent : (Slot.present text).text? = some text := rfl
  rw [lastText?, hstrings, List.filterMap_append, List.filterMap_cons_some hpresent, hafter]
  exact List.getLast?_concat

/-- Behind the last text there are only places without one. -/
theorem exists_append_of_lastText? {i : Image} {text : Bytes} (h : i.lastText? = some text) :
    ∃ before after, i.strings = before ++ .present text :: after ∧
      after.filterMap Slot.text? = [] := by
  obtain ⟨texts, htexts⟩ := List.getLast?_eq_some_iff.mp h
  obtain ⟨before, rest, hstrings, -, hrest⟩ := List.filterMap_eq_append_iff.mp htexts
  obtain ⟨absent, slot, after, rfl, -, hslot, hafter⟩ := List.filterMap_eq_cons_iff.mp hrest
  obtain rfl : slot = .present text := by
    cases slot <;> simp_all [Slot.text?]
  exact ⟨before ++ absent, after, by rw [hstrings, List.append_assoc], hafter⟩

variable {i : Image}

/-- The texts begin where the header says, and nothing follows them. -/
theorem length_bytes (i : Image) : i.bytes.length = i.header.textStart + i.texts.length := by
  rw [bytes_eq, List.length_append, length_before_texts]

/-- The header of an image is found in its bytes. -/
theorem headerOf_bytes (h : i.HasWordSizes) : headerOf i.bytes = i.header := by
  have hheader := ofBytes?_bytes h
  by_cases hlength : 10 ≤ i.bytes.length
  · rw [Header.ofBytes?_of_le hlength] at hheader
    exact Option.some.inj hheader
  · rw [Header.ofBytes?_of_lt (Nat.lt_of_not_le hlength)] at hheader
    cases hheader

theorem textsAt_bytes (h : i.HasWordSizes) : textsAt i.bytes = i.header.textStart := by
  rw [← textStart_headerOf, headerOf_bytes h]

/-- The offsets of an image are found in its bytes. -/
theorem offsetWords_bytes (h : i.HasWordSizes) :
    offsetWords i.bytes = (offsetsFrom 0 i.strings).map UInt16.ofNat := by
  have hcount : wordAt i.bytes 8 = i.header.stringCount :=
    congrArg Header.stringCount (headerOf_bytes h)
  rw [offsetWords, ← offsetStart_headerOf, headerOf_bytes h, hcount, words_offsets]

/-- An offset that can be written is not one of the two words for absence. -/
theorem IsAddressable.length_lt (h : i.IsAddressable) {before after : List Slot} {text : Bytes}
    (hstrings : i.strings = before ++ .present text :: after) :
    (before.flatMap Slot.stored).length < 0xfffe := by
  have hbefore : i.strings.take before.length = before := by rw [hstrings, List.take_left]
  have hplace : i.strings[before.length]? = some (.present text) := by simp [hstrings]
  simpa only [hbefore] using h before.length text hplace

/-- The offsets of the texts are the lengths of what is stored before them. -/
theorem mem_textOffsets_bytes_iff (hsizes : i.HasWordSizes) (h : i.IsAddressable)
    {offset : Nat} :
    offset ∈ textOffsets i.bytes ↔ ∃ before text after,
      i.strings = before ++ .present text :: after ∧
        offset = (before.flatMap Slot.stored).length := by
  have hwithin : textsAt i.bytes ≤ i.bytes.length := by
    rw [textsAt_bytes hsizes, length_bytes]
    exact Nat.le_add_right _ _
  have hword {n : Nat} (hn : n < 0xfffe) : (UInt16.ofNat n).toNat = n := by
    rw [UInt16.toNat_ofNat']
    omega
  rw [mem_textOffsets_iff hwithin, offsetWords_bytes hsizes]
  constructor
  · rintro ⟨w, hw, hpresent, rfl⟩
    obtain ⟨n, hn, rfl⟩ := List.mem_map.mp hw
    obtain ⟨before, slot, after, hstrings, rfl⟩ := mem_offsetsFrom_iff.mp hn
    -- Only a present text has an offset below the marks of absence and cancellation.
    cases slot with
    | absent | cancelled => simp [Slot.offset, isAbsentString] at hpresent
    | present text =>
      refine ⟨before, text, after, hstrings, ?_⟩
      rw [Slot.offset, Nat.zero_add, hword (h.length_lt hstrings)]
  · rintro ⟨before, text, after, hstrings, rfl⟩
    have hlt := h.length_lt hstrings
    have hmem : (before.flatMap Slot.stored).length ∈ offsetsFrom 0 i.strings :=
      mem_offsetsFrom_iff.mpr ⟨before, .present text, after, hstrings, (Nat.zero_add _).symm⟩
    refine ⟨_, List.mem_map_of_mem hmem, ?_, hword hlt⟩
    rw [isAbsentString_eq_false_iff, hword hlt]
    omega

/-- A text is read from its own place to the first zero byte in it or behind it. -/
theorem textEnd_bytes (hsizes : i.HasWordSizes) {before after : List Slot} {text : Bytes}
    (hstrings : i.strings = before ++ .present text :: after) :
    textEnd i.bytes (before.flatMap Slot.stored).length =
      i.header.textStart + (before.flatMap Slot.stored).length +
        (text.takeWhile (· ≠ 0)).length + 1 := by
  have htexts : i.texts.drop (before.flatMap Slot.stored).length =
      text ++ 0 :: after.flatMap Slot.stored := by
    rw [texts, hstrings, List.flatMap_append, List.drop_left]
    simp [Slot.stored]
  rw [textEnd, textsAt_bytes hsizes, ← List.drop_drop, drop_textStart, htexts,
    takeWhile_ne_zero_append]

/-- The texts around one of them, by their sizes. -/
theorem length_texts {before after : List Slot} {text : Bytes}
    (hstrings : i.strings = before ++ .present text :: after) :
    i.texts.length = (before.flatMap Slot.stored).length + text.length + 1 +
      (after.flatMap Slot.stored).length := by
  rw [texts, hstrings, List.flatMap_append, List.flatMap_cons, Slot.stored]
  simp only [List.length_append, List.length_singleton]
  omega

/-- An image is needed to its end just if its last text is read to its end. -/
theorem reach_bytes_eq_iff (hsizes : i.HasWordSizes) (h : i.IsAddressable) {e : Entry}
    (hread : ofBytes i.bytes = .ok e) :
    reach i.bytes = i.bytes.length ↔ ∀ text ∈ i.lastText?, 0 ∉ text := by
  have hlength := i.length_bytes
  have hstart := textsAt_bytes hsizes
  constructor
  · intro hreach last hlast hzero
    obtain ⟨before, after, hstrings, -⟩ := exists_append_of_lastText? hlast
    have htexts := length_texts hstrings
    -- every text ends before the last byte: the last one early, and the others where they end
    have hearly : reach i.bytes ≤ i.bytes.length - 1 := by
      refine reach_le_iff.mpr ⟨by omega, fun offset hoffset => ?_⟩
      obtain ⟨before', text, after', hstrings', rfl⟩ := (mem_textOffsets_bytes_iff hsizes h).mp hoffset
      have htexts' := length_texts hstrings'
      have hwhile := (text.takeWhile_sublist (· ≠ 0)).length_le
      rw [textEnd_bytes hsizes hstrings']
      by_cases hafter : after'.flatMap Slot.stored = []
      · have hsame := lastText?_of_eq_append hstrings' (flatMap_stored_eq_nil_iff.mp hafter)
        obtain rfl : text = last := Option.some.inj (hsame.symm.trans hlast)
        have hlt := length_takeWhile_ne_zero_lt hzero
        omega
      · have hpos := List.length_pos_iff.mpr hafter
        omega
    omega
  · intro hended
    refine Nat.le_antisymm (reach_le_length hread) ?_
    cases hlast : i.lastText? with
    | none =>
      have htexts : i.texts = [] :=
        flatMap_stored_eq_nil_iff.mpr (List.getLast?_eq_none_iff.mp hlast)
      have hle := textsAt_le_reach i.bytes
      rw [htexts, List.length_nil] at hlength
      omega
    | some text =>
      obtain ⟨before, after, hstrings, hafter⟩ := exists_append_of_lastText? hlast
      have htexts := length_texts hstrings
      have hwhile : text.takeWhile (· ≠ 0) = text := by
        refine List.takeWhile_eq_self_iff.mpr fun b hb => ?_
        simpa using fun hzero : b = 0 => hended text hlast (hzero ▸ hb)
      have hplace : (before.flatMap Slot.stored).length ∈ textOffsets i.bytes :=
        (mem_textOffsets_bytes_iff hsizes h).mpr ⟨before, text, after, hstrings, rfl⟩
      have hle := textEnd_le_reach hplace
      rw [textEnd_bytes hsizes hstrings, hwhile] at hle
      rw [flatMap_stored_eq_nil_iff.mpr hafter, List.length_nil] at htexts
      omega

end Image

/-! ## Entries delimit themselves -/

/-- The first bytes of some data hold the entry exactly if they are so many. -/
structure IsNeeded (data : Bytes) (e : Entry) (size : Nat) : Prop where
  within : size ≤ data.length
  enough : ∀ k, size ≤ k → k ≤ data.length → ofBytes (data.take k) = .ok e
  short : ∀ k < size, ofBytes (data.take k) = .error .truncated

/-- What stands behind an entry or an error makes no difference, and what is cut off an entry is
missed exactly if the entry reaches so far.  An image reaches to its end unless its last text is
split by a zero byte. -/
theorem isSelfDelimiting :
    (∀ data rest : Bytes, ofBytes data ≠ .error .truncated →
        ofBytes (data ++ rest) = ofBytes data) ∧
      (∀ (data : Bytes) (e : Entry), ofBytes data = .ok e → IsNeeded data e (reach data)) ∧
      ∀ (i : Image) (e : Entry), i.HasWordSizes → i.IsAddressable → ofBytes i.bytes = .ok e →
        (reach i.bytes = i.bytes.length ↔ ∀ text ∈ i.lastText?, 0 ∉ text) := by
  refine ⟨fun data rest h => ofBytes_append h rest, fun data e h => ?_, fun i e hsizes h hread =>
    Image.reach_bytes_eq_iff hsizes h hread⟩
  exact ⟨reach_le_length h, fun _ hk _ => ofBytes_take_of_reach_le h hk,
    fun _ hk => ofBytes_take_of_lt_reach h hk⟩

/-- An image whose only text holds a zero byte. -/
def split : Image where
  names := Bytes.ofAscii ['v', 't']
  booleans := [0]
  numbers := []
  strings := [.present [0x61, 0, 0x62]]

def splitEntry : Entry where
  name := "vt"
  description := ""
  booleans := []
  numbers := []
  strings := [("cbt", [0x61])]

set_option maxRecDepth 4000 in
/-- The image of a text that holds a zero byte is read. -/
theorem ofBytes_split : ofBytes split.bytes = .ok splitEntry := rfl

set_option maxRecDepth 4000 in
/-- It is also read without its last byte, behind that zero byte. -/
theorem ofBytes_take_split : ofBytes (split.bytes.take 21) = .ok splitEntry := rfl

/-- The two bytes behind the zero byte are not needed. -/
theorem not_isNeeded_split :
    ofBytes split.bytes = .ok splitEntry ∧
      ¬IsNeeded split.bytes splitEntry split.bytes.length := by
  refine ⟨ofBytes_split, fun h => ?_⟩
  have hmissed := h.short 21 (by decide)
  rw [ofBytes_take_split] at hmissed
  cases hmissed

end Terminal.Entry
