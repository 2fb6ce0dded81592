import Mathlib.Tactic.IntervalCases
import Terminal.Text.Utf8

/-!
# Texts and their UTF-8 forms

The UTF-8 form of a text is read back as that text (`decode_ofString`).  The byte of a bar stands
for a bar and for nothing else: without it no bar is read, not even from ill-formed bytes
(`bar_notMem_decode`), and it is written for no other character (`bar_notMem_ofString`).
-/

namespace Terminal.Utf8

/-! ## First bytes -/

/-- A byte below 128 is a character by itself. -/
theorem first_one {n : Nat} (h : n < 128) : first (UInt8.ofNat n) = .character (Char.ofNat n) := by
  interval_cases n <;> rfl

/-- Fewer than two would be a longer spelling of an ASCII character. -/
theorem first_two {n : Nat} (hlow : 2 ≤ n) (hhigh : n < 32) :
    first (UInt8.ofNat (n + 192)) = .pending ⟨1, 0x80, 0xBF, n⟩ := by
  interval_cases n <;> rfl

/-- A byte that begins a character of three bytes, with the bounds on the second byte. -/
theorem first_three {n : Nat} (h : n < 16) :
    first (UInt8.ofNat (n + 224)) =
      .pending ⟨2, if n = 0 then 0xA0 else 0x80, if n = 13 then 0x9F else 0xBF, n⟩ := by
  interval_cases n <;> rfl

/-- A byte that begins a character of four bytes, with the bounds on the second byte. -/
theorem first_four {n : Nat} (h : n < 5) :
    first (UInt8.ofNat (n + 240)) =
      .pending ⟨3, if n = 0 then 0x90 else 0x80, if n = 4 then 0x8F else 0xBF, n⟩ := by
  interval_cases n <;> rfl

/-! ## The bytes after the first -/

section Continuation

variable {low high : UInt8} {n : Nat}

/-- A continuation byte as a number. -/
theorem toNat_ofNat_add_128 (hn : n < 64) : (UInt8.ofNat (n + 128)).toNat = n + 128 := by
  rw [UInt8.toNat_ofNat']
  omega

/-- A continuation byte within the bounds is accepted. -/
theorem accepts_ofNat {missing bits : Nat} (hn : n < 64) (hlow : low.toNat ≤ n + 128)
    (hhigh : n + 128 ≤ high.toNat) :
    (Pending.mk missing low high bits).accepts (UInt8.ofNat (n + 128)) = true := by
  simp only [Pending.accepts, Bool.and_eq_true, decide_eq_true_eq, UInt8.le_iff_toNat_le,
    toNat_ofNat_add_128 hn]
  exact ⟨hlow, hhigh⟩

/-- The last byte of a sequence. -/
theorem decodeFrom_last (bits : Nat) (rest : Bytes) (hn : n < 64) (hlow : low.toNat ≤ n + 128)
    (hhigh : n + 128 ≤ high.toNat) :
    decodeFrom (some ⟨1, low, high, bits⟩) (UInt8.ofNat (n + 128) :: rest) =
      Char.ofNat (bits * 64 + n) :: decodeFrom none rest := by
  rw [decodeFrom_cons, step, if_pos (accepts_ofNat hn hlow hhigh)]
  simp only [Pending.extend, toNat_ofNat_add_128 hn]
  rw [if_pos (Nat.le_refl 1), Nat.add_sub_cancel]
  rfl

/-- A byte of a sequence that takes more. -/
theorem decodeFrom_more (missing bits : Nat) (rest : Bytes) (hn : n < 64)
    (hlow : low.toNat ≤ n + 128) (hhigh : n + 128 ≤ high.toNat) :
    decodeFrom (some ⟨missing + 2, low, high, bits⟩) (UInt8.ofNat (n + 128) :: rest) =
      decodeFrom (some ⟨missing + 1, 0x80, 0xBF, bits * 64 + n⟩) rest := by
  rw [decodeFrom_cons, step, if_pos (accepts_ofNat hn hlow hhigh)]
  simp only [Pending.extend, toNat_ofNat_add_128 hn]
  rw [if_neg (by omega), Nat.add_sub_cancel]
  rfl

end Continuation

/-! ## Reading the UTF-8 form -/

/-- A byte that is a character by itself is decoded first, and the rest afresh. -/
theorem decodeFrom_character {b : UInt8} {c : Char} (h : first b = .character c) (rest : Bytes) :
    decodeFrom none (b :: rest) = c :: decodeFrom none rest := by
  rw [decodeFrom_cons, step, h]
  rfl

/-- A byte that begins a longer character is held, and the rest is decoded behind it. -/
theorem decodeFrom_pending {b : UInt8} {p : Pending} (h : first b = .pending p) (rest : Bytes) :
    decodeFrom none (b :: rest) = decodeFrom (some p) rest := by
  rw [decodeFrom_cons, step, h]
  rfl

/-- The numbers of characters leave out the surrogates. -/
theorem toNat_lt (c : Char) : c.toNat < 0xD800 ∨ 0xDFFF < c.toNat ∧ c.toNat < 0x110000 := c.valid

/-- The bytes of a character are read as that character, whatever follows. -/
theorem decodeFrom_utf8EncodeChar_append (c : Char) (rest : Bytes) :
    decodeFrom none (String.utf8EncodeChar c ++ rest) = c :: decodeFrom none rest := by
  have hvalid := toNat_lt c
  have hchar : Char.ofNat c.toNat = c := Char.ofNat_toNat c
  have hval : c.val.toNat = c.toNat := rfl
  simp only [String.utf8EncodeChar, hval]
  -- From here on the character is known by its code point alone.
  generalize c.toNat = n at hvalid hchar ⊢
  subst hchar
  have hdigit (k : Nat) : k % 64 < 64 := Nat.mod_lt k (by decide)
  have hlow (k : Nat) : (0x80 : UInt8).toNat ≤ k + 128 := Nat.le_add_left _ _
  have hhigh (k : Nat) : k % 64 + 128 ≤ (0xBF : UInt8).toNat := by
    have := hdigit k
    simp
    omega
  -- One to four bytes, by the size of the code point.
  split
  · next hone => exact decodeFrom_character (first_one (by omega)) rest
  split
  · next htwo =>
    have hlead : n / 64 % 32 = n / 64 := by omega
    simp only [List.cons_append, List.nil_append, hlead]
    rw [decodeFrom_pending (first_two (by omega) (by omega)),
      decodeFrom_last _ _ (hdigit n) (hlow _) (hhigh n)]
    congr 2
    omega
  split
  · next hthree =>
    have hlead : n / 4096 % 16 = n / 4096 := by omega
    simp only [List.cons_append, List.nil_append, hlead]
    rw [decodeFrom_pending (first_three (by omega)),
      decodeFrom_more 0 _ _ (hdigit _) ?_ ?_, decodeFrom_last _ _ (hdigit n) (hlow _) (hhigh n)]
    · congr 2
      omega
    -- The bounds on the second byte rule out overlong forms and surrogates; a character is neither.
    · split
      · simp
        omega
      · exact hlow _
    · split
      · simp
        omega
      · exact hhigh _
  · have hlead : n / 262144 % 8 = n / 262144 := by omega
    simp only [List.cons_append, List.nil_append, hlead]
    rw [decodeFrom_pending (first_four (by omega)),
      decodeFrom_more 1 _ _ (hdigit _) ?_ ?_, decodeFrom_more 0 _ _ (hdigit _) (hlow _) (hhigh _),
      decodeFrom_last _ _ (hdigit n) (hlow _) (hhigh n)]
    · congr 2
      omega
    · split
      · simp
        omega
      · exact hlow _
    · split
      · simp
        omega
      · exact hhigh _

/-- A text is read back from its UTF-8 form. -/
theorem decode_ofString (s : String) : decode (Bytes.ofString s) = s := by
  have hlist (cs : List Char) : decodeFrom none (cs.flatMap String.utf8EncodeChar) = cs := by
    induction cs with
    | nil => rfl
    | cons c cs ih => rw [List.flatMap_cons, decodeFrom_utf8EncodeChar_append, ih]
  rw [decode, Bytes.ofString, hlist, String.ofList_toList]

/-! ## Bars -/

/-- The number of a finished sequence is not that of an ASCII character: what is read so far is
large enough, or the next byte brings it there. -/
def Pending.IsWide (p : Pending) : Prop :=
  2 ≤ p.bits ∨ 1 < p.missing ∧ 2 ≤ p.bits * 64 + (p.low.toNat - 0x80)

/-- What is known after a byte does not lead to a bar. -/
def Reading.Avoids : Reading → Prop
  | .character c => c ≠ '|'
  | .pending p => p.IsWide

/-- Only one code point is the vertical bar. -/
theorem ofNat_ne_bar {n : Nat} (h : n ≠ 0x7c) : Char.ofNat n ≠ '|' := by
  intro hbar
  unfold Char.ofNat at hbar
  by_cases hvalid : n.isValidChar
  · rw [dif_pos hvalid] at hbar
    exact h (congrArg Char.toNat hbar)
  · rw [dif_neg hvalid] at hbar
    exact absurd hbar (by decide)

/-- A first byte that carries no bits leaves a smaller range for the second one. -/
theorem isWide_of_lead {missing lead : Nat} {b low high : UInt8} (hmissing : 1 < missing)
    (hlead : lead ≤ b.toNat) (hlow : 0x82 ≤ low.toNat) :
    (Pending.mk missing (if b.toNat = lead then low else 0x80) high (b.toNat - lead)).IsWide := by
  refine .inr ⟨hmissing, ?_⟩
  split
  · show 2 ≤ (b.toNat - lead) * 64 + (low.toNat - 0x80)
    omega
  · show 2 ≤ (b.toNat - lead) * 64 + _
    omega

/-- The first byte of a character gives a vertical bar only if it is one. -/
theorem first_avoids {b : UInt8} (h : b ≠ 0x7c) : (first b).Avoids := by
  unfold first
  simp only [UInt8.lt_iff_toNat_lt, ← UInt8.toNat_inj, UInt8.reduceToNat]
  split
  · intro hbar
    exact h (UInt8.toNat_inj.mp (congrArg Char.toNat hbar))
  split
  · exact ofNat_ne_bar (by decide)
  split
  · left
    show 2 ≤ b.toNat - 0xC0
    omega
  split
  · exact isWide_of_lead (by decide) (by omega) (by decide)
  split
  · exact isWide_of_lead (by decide) (by omega) (by decide)
  · exact ofNat_ne_bar (by decide)

/-- A continuation byte never completes a vertical bar. -/
theorem extend_avoids {p : Pending} {b : UInt8} (hp : p.IsWide) (hb : p.accepts b = true) :
    (p.extend b).Avoids := by
  have hlow : p.low.toNat ≤ b.toNat := by
    rw [Pending.accepts, Bool.and_eq_true, decide_eq_true_eq] at hb
    exact UInt8.le_iff_toNat_le.mp hb.1
  unfold Pending.extend
  dsimp only
  split
  · refine ofNat_ne_bar ?_
    unfold Pending.IsWide at hp
    omega
  · left
    unfold Pending.IsWide at hp
    simp only
    omega

/-- A reading that avoids the vertical bar emits none and holds nothing that could become one. -/
theorem mem_emit_of_avoids {r : Reading} (h : r.Avoids) :
    '|' ∉ r.emit.1 ∧ ∀ p ∈ r.emit.2, p.IsWide := by
  cases r with
  | character c => exact ⟨by simpa [Reading.emit] using Ne.symm h, by simp [Reading.emit]⟩
  | pending p => exact ⟨List.not_mem_nil, fun q hq => Option.mem_some.mp hq ▸ h⟩

/-- Other bytes than the bar read no bar, and leave no sequence that becomes one. -/
theorem step_avoids {held : Option Pending} {b : UInt8} (hheld : ∀ p ∈ held, p.IsWide)
    (hb : b ≠ 0x7c) : '|' ∉ (step held b).1 ∧ ∀ p ∈ (step held b).2, p.IsWide := by
  obtain ⟨hfirst, hnext⟩ := mem_emit_of_avoids (first_avoids hb)
  unfold step
  split
  · exact ⟨hfirst, hnext⟩
  · next p =>
    split
    · next haccepts => exact mem_emit_of_avoids (extend_avoids (hheld p rfl) haccepts)
    · refine ⟨?_, hnext⟩
      rw [List.mem_cons, not_or]
      exact ⟨by decide, hfirst⟩

/-- Bytes without a vertical bar decode to characters without one. -/
theorem bar_notMem_decodeFrom {held : Option Pending} (hheld : ∀ p ∈ held, p.IsWide) {bs : Bytes}
    (hbs : 0x7c ∉ bs) : '|' ∉ decodeFrom held bs := by
  induction bs generalizing held with
  | nil => cases held <;> simp [finish, replacement]
  | cons b bs ih =>
    rw [List.mem_cons, not_or] at hbs
    obtain ⟨hread, hnext⟩ := step_avoids hheld (Ne.symm hbs.1)
    rw [decodeFrom_cons, List.mem_append, not_or]
    exact ⟨hread, ih hnext hbs.2⟩

/-- Only a bar is read as a bar, however ill-formed the bytes are. -/
theorem bar_notMem_decode {bs : Bytes} (h : 0x7c ∉ bs) : '|' ∉ (decode bs).toList := by
  rw [decode, String.toList_ofList]
  exact bar_notMem_decodeFrom (by simp) h

/-- Only a bar is written as a bar: the bytes of the other characters are another ASCII byte, or
none at all. -/
theorem eq_bar_of_mem_utf8EncodeChar {c : Char} (h : 0x7c ∈ String.utf8EncodeChar c) : c = '|' := by
  have hbyte {n : Nat} (hn : n < 256) : 0x7c = UInt8.ofNat n ↔ n = 124 := by
    rw [← UInt8.toNat_inj, UInt8.toNat_ofNat']
    simp
    omega
  have hval : c.val.toNat = c.toNat := rfl
  simp only [String.utf8EncodeChar, hval] at h
  -- All bytes of a longer encoding are at least 128.
  split at h
  · next hone =>
    rw [List.mem_singleton, hbyte (by omega)] at h
    exact Char.toNat_inj.mp h
  split at h
  · rw [List.mem_cons, List.mem_singleton, hbyte (by omega), hbyte (by omega)] at h
    omega
  split at h
  · rw [List.mem_cons, List.mem_cons, List.mem_singleton, hbyte (by omega), hbyte (by omega),
      hbyte (by omega)] at h
    omega
  · rw [List.mem_cons, List.mem_cons, List.mem_cons, List.mem_singleton, hbyte (by omega),
      hbyte (by omega), hbyte (by omega), hbyte (by omega)] at h
    omega

/-- A string without a vertical bar is encoded without one. -/
theorem bar_notMem_ofString {s : String} (h : '|' ∉ s.toList) : 0x7c ∉ Bytes.ofString s := by
  intro hmem
  obtain ⟨c, hc, hbar⟩ := List.mem_flatMap.mp hmem
  exact h (eq_bar_of_mem_utf8EncodeChar hbar ▸ hc)

end Terminal.Utf8
