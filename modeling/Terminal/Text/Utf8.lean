import Terminal.Text.Bytes

/-!
# Reading UTF-8 leniently

`Utf8.decode` reads any bytes as a text.  Well-formed sequences become their characters; every
maximal part that begins a well-formed sequence and does not finish it, and every byte that can
begin none, becomes one replacement character U+FFFD.

The reader is a fold over the bytes.  Between two bytes it holds at most one unfinished sequence,
a `Pending`; a byte that does not continue it is read afresh as the first byte of the next one.
-/

namespace Terminal.Utf8

/-- The character that stands for an ill-formed part. -/
def replacement : Char := '\uFFFD'

/-- An unfinished sequence: how many bytes it still takes, the range that the next of them must lie
in, and the bits read so far. -/
structure Pending where
  missing : Nat
  low : UInt8
  high : UInt8
  bits : Nat

/-- What is known after a byte: a whole character, or a sequence that needs another byte. -/
inductive Reading where
  | character (c : Char)
  | pending (p : Pending)

/-- Reads the first byte of a sequence.  The range of the second byte rules out spellings that are
longer than necessary, surrogates, and numbers above the last character. -/
def first (b : UInt8) : Reading :=
  if b < 0x80 then .character (Char.ofUInt8 b)
  else if b < 0xC2 then .character replacement
  else if b < 0xE0 then .pending ⟨1, 0x80, 0xBF, b.toNat - 0xC0⟩
  else if b < 0xF0 then
    .pending ⟨2, if b = 0xE0 then 0xA0 else 0x80, if b = 0xED then 0x9F else 0xBF, b.toNat - 0xE0⟩
  else if b < 0xF5 then
    .pending ⟨3, if b = 0xF0 then 0x90 else 0x80, if b = 0xF4 then 0x8F else 0xBF, b.toNat - 0xF0⟩
  else .character replacement

/-- A byte continues a sequence if it lies in the range that the sequence allows. -/
def Pending.accepts (p : Pending) (b : UInt8) : Bool := p.low ≤ b && b ≤ p.high

/-- Adds the six bits of a byte that continues the sequence. -/
def Pending.extend (p : Pending) (b : UInt8) : Reading :=
  let bits := p.bits * 64 + (b.toNat - 0x80)
  if p.missing ≤ 1 then .character (Char.ofNat bits)
  else .pending ⟨p.missing - 1, 0x80, 0xBF, bits⟩

/-- The characters that are certain after a byte, and the sequence that is left unfinished. -/
def Reading.emit : Reading → List Char × Option Pending
  | .character c => ([c], none)
  | .pending p => ([], some p)

/-- Reads one byte with or without an unfinished sequence before it. -/
def step (held : Option Pending) (b : UInt8) : List Char × Option Pending :=
  match held with
  | none => (first b).emit
  | some p =>
    if p.accepts b then (p.extend b).emit
    else (replacement :: (first b).emit.1, (first b).emit.2)

/-- A sequence left unfinished at the end is ill-formed. -/
def finish : Option Pending → List Char
  | none => []
  | some _ => [replacement]

/-- Reads bytes after a held sequence, with the characters already read in reverse order. -/
def decodeOnto (read : List Char) (held : Option Pending) : Bytes → List Char
  | [] => ((finish held).reverse ++ read).reverse
  | b :: bs => decodeOnto ((step held b).1.reverse ++ read) (step held b).2 bs

/-- The characters of the bytes that follow a held sequence. -/
def decodeFrom (held : Option Pending) (bs : Bytes) : List Char := decodeOnto [] held bs

/-- The text of any bytes, with U+FFFD for each ill-formed part. -/
def decode (bs : Bytes) : String := String.ofList (decodeFrom none bs)

example : decode [0x41, 0xE2, 0x82, 0x42, 0xC3, 0xA9] = "A\uFFFDB\u00E9" := by decide

/-! ## The reader byte by byte -/

/-- The loop with an accumulator is `decodeFrom` behind the characters read before. -/
theorem decodeOnto_eq (read : List Char) (held : Option Pending) (bs : Bytes) :
    decodeOnto read held bs = read.reverse ++ decodeFrom held bs := by
  induction bs generalizing read held with
  | nil => simp [decodeFrom, decodeOnto]
  | cons b bs ih =>
    rw [decodeFrom, decodeOnto, decodeOnto, ih, ih (_ ++ [])]
    simp

/-- At the end of the bytes, an unfinished character becomes a replacement. -/
@[simp] theorem decodeFrom_nil (held : Option Pending) : decodeFrom held [] = finish held := by
  simp [decodeFrom, decodeOnto]

/-- Bytes are decoded one at a time, each by `step`. -/
theorem decodeFrom_cons (held : Option Pending) (b : UInt8) (bs : Bytes) :
    decodeFrom held (b :: bs) = (step held b).1 ++ decodeFrom (step held b).2 bs := by
  rw [decodeFrom, decodeOnto, decodeOnto_eq]
  simp

/-! ## Texts that are not empty -/

/-- A sequence that has begun becomes a character, if only the replacement. -/
theorem decodeFrom_some_ne_nil (p : Pending) (bs : Bytes) : decodeFrom (some p) bs ≠ [] := by
  induction bs generalizing p with
  | nil => simp [finish]
  | cons b bs ih =>
    rw [decodeFrom_cons, step]
    by_cases haccepts : p.accepts b = true
    · rw [if_pos haccepts]
      cases p.extend b with
      | character c => exact List.cons_ne_nil c _
      | pending q => exact ih q
    · rw [if_neg haccepts]
      exact List.cons_ne_nil replacement _

/-- Only no bytes at all are the empty text. -/
theorem decode_eq_empty_iff (bs : Bytes) : decode bs = "" ↔ bs = [] := by
  have hempty : decode bs = "" ↔ decodeFrom none bs = [] := String.ofList_eq_empty_iff
  rw [hempty]
  cases bs with
  | nil => simp [finish]
  | cons b bs =>
    rw [decodeFrom_cons, step]
    refine iff_of_false ?_ (List.cons_ne_nil b bs)
    cases first b with
    | character c => exact List.cons_ne_nil c _
    | pending p => exact decodeFrom_some_ne_nil p bs

end Terminal.Utf8
