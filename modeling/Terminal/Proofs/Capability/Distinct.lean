import Mathlib.Data.List.Nodup
import Terminal.Capability

/-!
# Distinct names

No kind of capability uses a name twice, so every position has a name of its own.  The four hundred
strings are not compared pair by pair: names that are equal have equal byte sums, and only those
with the same sum are compared.
-/

namespace Terminal.Capability

/-- A list has no duplicates if no class of it has, for classes that equal elements share. -/
theorem nodup_of_nodup_classes {α : Type} [DecidableEq α] {l : List α} (n : Nat) (key : α → Nat)
    (hkey : ∀ a, key a < n) (h : ∀ k < n, (l.filter fun a => key a = k).Nodup) : l.Nodup := by
  rw [List.nodup_iff_count_le_one]
  intro a
  have hclass := List.nodup_iff_count_le_one.mp (h (key a) (hkey a)) a
  rwa [List.count_filter (by simp)] at hclass

/-- The sum of the bytes of a name, up to multiples of thirty-two. -/
def byteSum (name : String) : Nat :=
  name.toByteArray.data.toList.foldl (fun n b => n + b.toNat) 0 % 32

/-- There are thirty-two classes of names. -/
theorem byteSum_lt (name : String) : byteSum name < 32 := Nat.mod_lt _ (by decide)

/-- No name stands for two positions of a kind. -/
theorem Kind.nodup_names (kind : Kind) : kind.names.Nodup := by
  have hclasses : ∀ k < 32, (kind.names.filter fun s => byteSum s = k).Nodup := by
    cases kind <;> decide +kernel
  exact nodup_of_nodup_classes 32 byteSum byteSum_lt hclasses

end Terminal.Capability
