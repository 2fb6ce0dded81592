import Terminal.Template.Format

/-!
# Characters of templates

A template is read as characters of one byte.  `ofUInt8_toUInt8` and `toUInt8_ofUInt8` take a byte
back to its character and a character to its byte, and the digits and the characters of a format are single bytes other than `%`.
-/

namespace Terminal

open Template

/-- A character that fits a byte is read back from it. -/
theorem ofUInt8_toUInt8 {c : Char} (h : c.toNat < 256) : Char.ofUInt8 c.toUInt8 = c := by
  apply Char.toNat_inj.mp
  have hc : c.toUInt8.toNat = c.toNat % 256 := UInt32.toNat_toUInt8 c.val
  calc (Char.ofUInt8 c.toUInt8).toNat = c.toUInt8.toNat := UInt8.toNat_toUInt32 c.toUInt8
    _ = c.toNat := by omega

/-- A byte is the byte of its character. -/
theorem toUInt8_ofUInt8 (b : UInt8) : (Char.ofUInt8 b).toUInt8 = b := by
  apply UInt8.toNat_inj.mp
  have hb := b.toNat_lt
  calc (Char.ofUInt8 b).toUInt8.toNat = (Char.ofUInt8 b).toNat % 256 := UInt32.toNat_toUInt8 _
    _ = b.toNat % 256 := congrArg (· % 256) (UInt8.toNat_toUInt32 b)
    _ = b.toNat := by omega

/-- Only the character `%` has its byte. -/
theorem toUInt8_ne_percent {c : Char} (h : c.toNat < 256) (hc : c ≠ '%') : c.toUInt8 ≠ 0x25 := by
  intro hbyte
  apply hc
  rw [← ofUInt8_toUInt8 h, hbyte]
  rfl

namespace Numeral

/-- The digit character of a number below ten reads as that number. -/
theorem digit?_digitChar {d : Nat} (h : d < 10) : digit? d.digitChar = some d := by
  have all : ∀ d : Fin 10, digit? d.val.digitChar = some d.val := by decide
  exact all ⟨d, h⟩

/-- A digit character survives the way through its byte. -/
theorem ofUInt8_toUInt8_digitChar {d : Nat} (h : d < 10) :
    Char.ofUInt8 d.digitChar.toUInt8 = d.digitChar := by
  apply ofUInt8_toUInt8
  rw [Nat.toNat_digitChar_of_lt_ten h]
  omega

/-- The digits are `0` to `9`. -/
theorem toNat_le_of_digit? {c : Char} (h : (digit? c).isSome) : 48 ≤ c.toNat ∧ c.toNat ≤ 57 := by
  unfold digit? at h
  split at h
  · next hc =>
    obtain ⟨h0, h9⟩ := hc
    exact ⟨UInt32.le_iff_toNat_le.mp h0, UInt32.le_iff_toNat_le.mp h9⟩
  · simp at h

end Numeral

namespace Template.Format

/-- The characters of a specification lie before the letters, and `%` is none of them. -/
theorem toNat_lt_of_isSpec {c : Char} (h : isSpec c = true) : c.toNat < 64 ∧ c ≠ '%' := by
  simp only [isSpec, Bool.or_eq_true, beq_iff_eq] at h
  rcases h with ((((rfl | rfl) | rfl) | rfl) | rfl) | h
  · decide
  · decide
  · decide
  · decide
  · decide
  · have range := Numeral.toNat_le_of_digit? h
    refine ⟨by omega, ?_⟩
    rintro rfl
    simp at range

/-- The characters that may begin a format right behind the percent sign, listed. -/
theorem mem_of_isBareStart {c : Char} (h : isBareStart c = true) :
    c ∈ ['#', ' ', '.', '0', '1', '2', '3', '4', '5', '6', '7', '8', '9'] := by
  simp only [isBareStart, Bool.or_eq_true, beq_iff_eq] at h
  rcases h with ((rfl | rfl) | rfl) | h
  · decide
  · decide
  · decide
  · obtain ⟨low, high⟩ := Numeral.toNat_le_of_digit? h
    have all : ∀ d : Fin 10, Char.ofNat (48 + d) ∈
        ['#', ' ', '.', '0', '1', '2', '3', '4', '5', '6', '7', '8', '9'] := by decide
    have hc := all ⟨c.toNat - 48, by omega⟩
    simpa [show 48 + (c.toNat - 48) = c.toNat by omega] using hc

/-- None of the marks of a conditional can begin a specification. -/
theorem notMem_marks_of_isBareStart {c : Char} (h : isBareStart c = true) :
    Char.ofUInt8 c.toUInt8 ∉ [';', 'e', '?'] := by
  have hmem := mem_of_isBareStart h
  simp only [List.mem_cons, List.not_mem_nil, or_false] at hmem
  rcases hmem with rfl | rfl | rfl | rfl | rfl | rfl | rfl | rfl | rfl | rfl | rfl | rfl | rfl <;>
    decide

end Template.Format

end Terminal
