import Terminal.Capability
import Terminal.Entry
import Terminal.Entry.Cursor
import Terminal.Text.Utf8

/-!
# Compiled entries

The binary form of an entry.  It begins with two magic bytes and a `Header` of five little-endian
words, of which the last one, the size of the text section, is not needed.  The sections follow:

* the names of the terminal, separated by bars and ended by a zero byte;
* a byte for each boolean capability, and one more that has no meaning;
* a padding byte where the next section would begin at an odd offset;
* a word for each numeric capability;
* a word for each string capability, which is an offset into the last section;
* the texts, each ended by a zero byte.

A capability is known by its position only.  `Entry.read` goes through this form with a cursor and
looks at nothing behind the last text that some offset reaches, so sections added after it do no
harm.  It never faults (`isSafe_read`); `Entry.ofBytes` is what it makes of some bytes.
-/

namespace Terminal.Entry

/-! ## The header -/

/-- The two bytes at the start of every compiled entry. -/
def magic : Bytes := [0x1a, 0x01]

/-- The sizes of the sections. -/
structure Header where
  nameSize : Nat
  booleanSize : Nat
  numberCount : Nat
  stringCount : Nat
deriving DecidableEq

namespace Header

/-- The number of bytes before the names. -/
def size : Nat := 12

/-- The vocabulary has a name for every capability.  The byte behind the boolean capabilities stands
for none. -/
def isKnown (h : Header) : Bool :=
  h.booleanSize - 1 ≤ Capability.booleanNames.length &&
    h.numberCount ≤ Capability.numberNames.length &&
    h.stringCount ≤ Capability.stringNames.length

end Header

/-! ## Names -/

/-- The byte that separates the names of a terminal. -/
def bar : UInt8 := 0x7c

/-- A section without the zero byte at its end, if it has one. -/
def dropTerminator (bytes : Bytes) : Bytes :=
  if bytes.getLast? = some 0 then bytes.dropLast else bytes

/-- The primary name and the description: the first two of the names, as they stand in the bytes.
Further names are aliases, which an entry does not keep. -/
def splitNames (bytes : Bytes) : Bytes × Bytes :=
  (bytes.takeWhile (· ≠ bar), ((bytes.dropWhile (· ≠ bar)).drop 1).takeWhile (· ≠ bar))

/-! ## Capabilities -/

/-- The words that stand for an absent number: zero, the largest word, and two ASCII sevens, which
some compilers leave in unused places. -/
def isAbsentNumber (w : UInt16) : Bool := w == 0 || w == 0xffff || w == 0x3737

/-- The words that stand for an absent or a cancelled string. -/
def isAbsentString (w : UInt16) : Bool := w == 0xffff || w == 0xfffe

/-- A boolean capability whose byte is not zero belongs to the entry. -/
def keepBoolean (name : String) (b : UInt8) : Reading (Option String) :=
  .ok (if b = 0 then none else some name)

/-- A numeric capability belongs to the entry unless its word says that it is absent. -/
def keepNumber (name : String) (w : UInt16) : Reading (Option (String × UInt16)) :=
  .ok (if isAbsentNumber w then none else some (name, w))

/-- A string capability belongs to the entry, with the text at its offset, unless its word says that
it is absent or cancelled. -/
def keepString (heap : Bytes) (name : String) (w : UInt16) : Reading (Option (String × Bytes)) :=
  if isAbsentString w then .ok none else do
    let text ← textAt heap w.toNat
    return some (name, text)

namespace Cursor

/-- Reads the sizes that follow the magic bytes. -/
def readHeader (c : Cursor) : Reading (Header × Cursor) := do
  let (nameSize, c) ← c.readWord
  let (booleanSize, c) ← c.readWord
  let (numberCount, c) ← c.readWord
  let (stringCount, c) ← c.readWord
  return (⟨nameSize.toNat, booleanSize.toNat, numberCount.toNat, stringCount.toNat⟩, c)

/-- Reads an item for each name, and keeps what `keep` makes of them. -/
def readTable {α β : Type} (readItem : Cursor → Reading (α × Cursor))
    (keep : String → α → Reading (Option β)) (c : Cursor) :
    List String → Reading (List β × Cursor)
  | [] => .ok ([], c)
  | name :: names => do
    let (item, c) ← readItem c
    let kept ← keep name item
    let (rest, c) ← c.readTable readItem keep names
    return (kept.toList ++ rest, c)

end Cursor

/-! ## Entries -/

/-- Reads what follows the names.  The last of the boolean bytes is passed over, and so is a byte
where the numbers would begin at an odd position. -/
def readCapabilities (h : Header) (c : Cursor) (name description : Bytes) : Reading Entry := do
  let (booleans, _) ←
    c.readTable Cursor.readByte keepBoolean (Capability.booleanNames.take (h.booleanSize - 1))
  let c := (c.advance h.booleanSize).align
  let (numbers, c) ←
    c.readTable Cursor.readWord keepNumber (Capability.numberNames.take h.numberCount)
  let (offsets, c) ← c.readSlice (2 * h.stringCount)
  let heap ← require (part? c.bytes c.position c.bytes.length)
  let (strings, _) ← Cursor.readTable Cursor.readWord (keepString heap) ⟨offsets, 0⟩
    (Capability.stringNames.take h.stringCount)
  return { name := Utf8.decode name, description := Utf8.decode description,
           booleans, numbers, strings }

/-- Reads the sections behind the header. -/
def readBody (h : Header) (c : Cursor) : Reading Entry :=
  if !h.isKnown then .error (.error .tooManyCapabilities)
  else do
    let (names, c) ← (c.setPosition Header.size).readSlice h.nameSize
    let (name, description) := splitNames (dropTerminator names)
    if name = [] then .error (.error .emptyName)
    else readCapabilities h c name description

/-- Reads a compiled entry from its first byte on. -/
def read (data : Bytes) : Reading Entry := do
  let (mark, c) ← Cursor.readSlice ⟨data, 0⟩ magic.length
  if mark ≠ magic then .error (.error .unknownMagic)
  else
    let (h, c) ← c.readHeader
    readBody h c

/-! ## No reading faults -/

open Halt

namespace Cursor

/-- The header is read word by word. -/
theorem isSafe_readHeader (c : Cursor) : IsSafe c.readHeader :=
  c.isSafe_readWord.bind fun q _ => q.2.isSafe_readWord.bind fun q _ =>
    q.2.isSafe_readWord.bind fun q _ => q.2.isSafe_readWord.bind fun _ _ => isSafe_ok _

/-- A table is read without a fault if its items are. -/
theorem isSafe_readTable {α β : Type} {readItem : Cursor → Reading (α × Cursor)}
    {keep : String → α → Reading (Option β)} (hread : ∀ c, IsSafe (readItem c))
    (hkeep : ∀ name item, IsSafe (keep name item)) (c : Cursor) (names : List String) :
    IsSafe (c.readTable readItem keep names) := by
  induction names generalizing c with
  | nil => exact isSafe_ok _
  | cons name names ih =>
    exact (hread c).bind fun q _ => (hkeep name q.1).bind fun _ _ =>
      (ih q.2).bind fun _ _ => isSafe_ok _

end Cursor

theorem isSafe_keepString (heap : Bytes) (name : String) (w : UInt16) :
    IsSafe (keepString heap name w) := by
  rw [keepString]
  split
  · exact isSafe_ok _
  · exact (isSafe_textAt heap _).bind fun _ _ => isSafe_ok _

/-- Behind the names, tables and sections follow each other, and none of them faults. -/
theorem isSafe_readCapabilities (h : Header) (c : Cursor) (name description : Bytes) :
    IsSafe (readCapabilities h c name description) :=
  (Cursor.isSafe_readTable Cursor.isSafe_readByte (fun _ _ => isSafe_ok _) _ _).bind fun _ _ =>
    (Cursor.isSafe_readTable Cursor.isSafe_readWord (fun _ _ => isSafe_ok _) _ _).bind fun q _ =>
      (q.2.isSafe_readSlice _).bind fun _ _ => (isSafe_require _).bind fun heap _ =>
        (Cursor.isSafe_readTable Cursor.isSafe_readWord (isSafe_keepString heap) _ _).bind
          fun _ _ => isSafe_ok _

/-- The tests behind the header end in errors or go on. -/
theorem isSafe_readBody (h : Header) (c : Cursor) : IsSafe (readBody h c) := by
  rw [readBody]
  split
  · exact isSafe_error _
  · refine (Cursor.isSafe_readSlice _ _).bind fun ⟨names, c⟩ _ => ?_
    rcases splitNames (dropTerminator names) with ⟨name, description⟩
    dsimp only
    split
    · exact isSafe_error _
    · exact isSafe_readCapabilities _ _ _ _

/-- Whatever the bytes are, the reader takes none from where there are none. -/
theorem isSafe_read (data : Bytes) : IsSafe (read data) := by
  refine (Cursor.isSafe_readSlice _ _).bind fun ⟨mark, c⟩ _ => ?_
  dsimp only
  split
  · exact isSafe_error _
  · exact c.isSafe_readHeader.bind fun _ _ => isSafe_readBody _ _

/-- Reads a compiled entry: an entry or an error, since the reader never faults. -/
def ofBytes (data : Bytes) : Except Error Entry := settle (read data) (isSafe_read data)

end Terminal.Entry
