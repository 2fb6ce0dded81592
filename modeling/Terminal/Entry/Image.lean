import Terminal.Entry.Compiled

/-!
# Writing compiled entries

An `Image` is what the sections of a compiled entry hold, before it is laid out.  `Image.bytes` lays
it out: every text is stored once, in the order of the offsets.  `Image.ofEntry` is the image of an
entry, with a place for every name of the vocabulary.
-/

namespace Terminal.Entry

/-- A place in the string section. -/
inductive Slot where
  | absent
  | cancelled
  | present (text : Bytes)
deriving DecidableEq

/-- The sections of a compiled entry.  The last of the boolean bytes has no meaning. -/
structure Image where
  names : Bytes
  booleans : Bytes
  numbers : List UInt16
  strings : List Slot
deriving DecidableEq

/-! ## Layout -/

/-- The two bytes of a number, the lower one first; higher bits are lost. -/
def wordBytes (n : Nat) : Bytes := [UInt8.ofNat n, UInt8.ofNat (n / 256)]

@[simp] theorem length_wordBytes (n : Nat) : (wordBytes n).length = 2 := rfl

namespace Slot

/-- The bytes that a place takes among the texts. -/
def stored : Slot → Bytes
  | present text => text ++ [0]
  | absent | cancelled => []

/-- The word of a place whose text would begin at an offset. -/
def offset (start : Nat) : Slot → Nat
  | present _ => start
  | absent => 0xffff
  | cancelled => 0xfffe

end Slot

/-- The words of the string section, for texts that begin at an offset. -/
def offsetsFrom (start : Nat) : List Slot → List Nat
  | [] => []
  | slot :: rest => slot.offset start :: offsetsFrom (start + slot.stored.length) rest

/-- There is a word for every place, with a text or without. -/
@[simp] theorem length_offsetsFrom (start : Nat) (slots : List Slot) :
    (offsetsFrom start slots).length = slots.length := by
  induction slots generalizing start with
  | nil => rfl
  | cons slot rest ih => simp [offsetsFrom, ih]

namespace Image

/-- All the texts, each ended by a zero byte. -/
def texts (i : Image) : Bytes := i.strings.flatMap Slot.stored

/-- The five sizes behind the magic bytes. -/
def sizes (i : Image) : List Nat :=
  [i.names.length + 1, i.booleans.length, i.numbers.length, i.strings.length, i.texts.length]

/-- Everything before the padding byte. -/
def front (i : Image) : Bytes :=
  magic ++ i.sizes.flatMap wordBytes ++ i.names ++ [0] ++ i.booleans

/-- A byte that brings a section to an even size, if it needs one. -/
def padding (front : Bytes) : Bytes := if front.length % 2 = 0 then [] else [0]

/-- The compiled entry. -/
def bytes (i : Image) : Bytes :=
  i.front ++ padding i.front ++ i.numbers.flatMap (wordBytes ·.toNat) ++
    (offsetsFrom 0 i.strings).flatMap wordBytes ++ i.texts

/-! ## The image of an entry -/

/-- The place of a name in the string section. -/
def slotOf (e : Entry) (name : String) : Slot :=
  match e.string? name with
  | some text => .present text
  | none => .absent

/-- The image of an entry.  An absent number is the largest word. -/
def ofEntry (e : Entry) : Image where
  names := Bytes.ofString e.name ++ bar :: Bytes.ofString e.description
  booleans := (Capability.booleanNames.map fun name => if e.flag name then 1 else 0) ++ [0]
  numbers := Capability.numberNames.map fun name => (e.number? name).getD 0xffff
  strings := Capability.stringNames.map (slotOf e)

end Image

end Terminal.Entry
