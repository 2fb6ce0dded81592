import Terminal.Entry.Error
import Terminal.Text.Bytes

/-!
# Reading at a cursor

A `Cursor` stands at a position in some bytes, which may lie behind their end.  There are two ways to
take bytes.  `part?` asks whether they are there, and `require` turns a refusal into the error
`truncated`.  `part` relies on it, and faults if they are not.  Every read below is put together
from these two, and none of them faults (`isSafe_readExact` and its companions).

Positions are natural numbers.  Where the end of a section is computed from its start and its size,
the sum has to be an offset that a machine can express, `checkedSum`.
-/

namespace Terminal.Entry

/-! ## Ranges -/

/-- The bytes from `start` up to `stop`, if all of them are there. -/
def part? (bytes : Bytes) (start stop : Nat) : Option Bytes :=
  if start ≤ stop ∧ stop ≤ bytes.length then some ((bytes.drop start).take (stop - start)) else none

/-- The bytes from `start` up to `stop`, which must be there. -/
def part (bytes : Bytes) (start stop : Nat) : Reading Bytes :=
  match part? bytes start stop with
  | some taken => .ok taken
  | none => .error (.fault .range)

/-- Something without which the data are truncated. -/
def require {α : Type} : Option α → Reading α
  | some a => .ok a
  | none => .error (.error .truncated)

/-- The greatest offset. -/
def greatestOffset : Nat := 18446744073709551615

/-- The sum of two offsets, if it is one. -/
def checkedSum (a b : Nat) : Option Nat := if a + b ≤ greatestOffset then some (a + b) else none

/-- The number of two bytes, the lower one first. -/
def word (low high : UInt8) : UInt16 := UInt16.ofNat (low.toNat + 256 * high.toNat)

/-- The two bytes make no number that a word could not hold. -/
theorem toNat_word (low high : UInt8) : (word low high).toNat = low.toNat + 256 * high.toNat := by
  have hl := low.toNat_lt
  have hh := high.toNat_lt
  simp only [word, UInt16.toNat_ofNat']
  omega

/-- The text at an offset, up to the zero byte that ends it. -/
def textAt (heap : Bytes) (offset : Nat) : Reading Bytes := do
  let tail ← require (part? heap offset heap.length)
  let size ← require (tail.findIdx? (· == 0))
  part tail 0 size

/-! ## Cursors -/

/-- A position in some bytes. -/
structure Cursor where
  bytes : Bytes
  position : Nat
deriving DecidableEq

namespace Cursor

/-- The cursor at another position in the same bytes. -/
def setPosition (c : Cursor) (position : Nat) : Cursor := { c with position }

/-- The cursor at the next even position. -/
def align (c : Cursor) : Cursor :=
  if c.position % 2 = 1 then c.setPosition (c.position + 1) else c

/-- The cursor some bytes further on. -/
def advance (c : Cursor) (size : Nat) : Cursor := c.setPosition (c.position + size)

/-- Reads as many bytes as are asked for.  What is left begins at the end where the cursor stands
behind it. -/
def readExact (c : Cursor) (size : Nat) : Reading (Bytes × Cursor) := do
  let rest ← part c.bytes (min c.position c.bytes.length) c.bytes.length
  if rest.length < size then .error (.error .truncated)
  else .ok (rest.take size, c.advance size)

/-- Reads a byte. -/
def readByte (c : Cursor) : Reading (UInt8 × Cursor) := do
  let (bytes, c) ← c.readExact 1
  return (bytes.getD 0 0, c)

/-- Reads a word. -/
def readWord (c : Cursor) : Reading (UInt16 × Cursor) := do
  let (bytes, c) ← c.readExact 2
  return (word (bytes.getD 0 0) (bytes.getD 1 0), c)

/-- Takes a section of some size.  Even an empty one has to begin within the bytes. -/
def readSlice (c : Cursor) (size : Nat) : Reading (Bytes × Cursor) := do
  let stop ← require (checkedSum c.position size)
  let bytes ← require (part? c.bytes c.position stop)
  return (bytes, c.setPosition stop)

end Cursor

/-! ## No read faults -/

open Halt

/-- What is missing is an error, not a fault. -/
theorem isSafe_require {α : Type} (a? : Option α) : IsSafe (require a?) := by
  intro f
  cases a? <;> nofun

/-- What has been required is there. -/
theorem eq_some_of_require {α : Type} {a? : Option α} {a : α} (h : require a? = .ok a) :
    a? = some a := by
  cases a? with
  | none => cases h
  | some b =>
    cases h
    rfl

/-- A range between two positions within the bytes can be taken. -/
theorem part_eq_ok {bytes : Bytes} {start stop : Nat} (h : start ≤ stop) (hstop : stop ≤ bytes.length) :
    part bytes start stop = .ok ((bytes.drop start).take (stop - start)) := by
  rw [part, part?, if_pos ⟨h, hstop⟩]

/-- The zero byte that was found lies behind the text that it ends. -/
theorem isSafe_textAt (heap : Bytes) (offset : Nat) : IsSafe (textAt heap offset) := by
  refine (isSafe_require _).bind fun tail _ => (isSafe_require _).bind fun size hsize => ?_
  have hfound := eq_some_of_require hsize
  obtain ⟨hsize, -⟩ := List.findIdx?_eq_some_iff_getElem.mp hfound
  rw [part_eq_ok (Nat.zero_le _) (Nat.le_of_lt hsize)]
  exact isSafe_ok _

namespace Cursor

/-- What is left begins at the end of the bytes at the latest. -/
theorem isSafe_readExact (c : Cursor) (size : Nat) : IsSafe (c.readExact size) := by
  rw [readExact, part_eq_ok (Nat.min_le_right _ _) Nat.le.refl]
  refine (isSafe_ok _).bind fun rest _ => ?_
  split
  · exact isSafe_error _
  · exact isSafe_ok _

theorem isSafe_readByte (c : Cursor) : IsSafe c.readByte :=
  (c.isSafe_readExact 1).bind fun _ _ => isSafe_ok _

theorem isSafe_readWord (c : Cursor) : IsSafe c.readWord :=
  (c.isSafe_readExact 2).bind fun _ _ => isSafe_ok _

/-- A section is asked for before it is taken. -/
theorem isSafe_readSlice (c : Cursor) (size : Nat) : IsSafe (c.readSlice size) :=
  (isSafe_require _).bind fun _ _ => (isSafe_require _).bind fun _ _ => isSafe_ok _

end Cursor

end Terminal.Entry
