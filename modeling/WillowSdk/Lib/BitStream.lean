/-
# Bits of a byte string

A byte string read as one little-endian number: bit `i` of the number is bit
`i % 8` of byte `i / 8` (`testBit_packed`).
-/
import Mathlib.Algebra.Ring.Nat
import Mathlib.Data.List.Basic
import Mathlib.Data.Nat.Bitwise

namespace BitStream

/-- Bit `i` of the bytes. -/
def Bit (bytes : List UInt8) (i : ℕ) : Prop :=
  ∃ b, bytes[i / 8]? = some b ∧ b.toNat.testBit (i % 8) = true

/-- The bytes from the `k`th on, each shifted to its place and added to the bits. -/
def packedFrom (bits k : ℕ) (bytes : List UInt8) : ℕ :=
  (bytes.zipIdx k).foldl (fun bits e => bits ||| e.1.toNat <<< (8 * e.2)) bits

/-- The number the bytes are. -/
def packed (bytes : List UInt8) : ℕ := packedFrom 0 0 bytes

/-- A byte at its place has that place's bits only. -/
theorem testBit_shifted (b : UInt8) (k i : ℕ) :
    (b.toNat <<< (8 * k)).testBit i = true ↔ i / 8 = k ∧ b.toNat.testBit (i % 8) = true := by
  rw [Nat.testBit_shiftLeft, Bool.and_eq_true, decide_eq_true_eq]
  by_cases hplace : i / 8 = k
  · have hge : i ≥ 8 * k := by omega
    have hbit : i - 8 * k = i % 8 := by omega
    rw [hbit]
    exact iff_of_eq (by simp [hplace, hge])
  · refine iff_of_false (fun h => ?_) fun h => hplace h.1
    obtain ⟨hge, hbit⟩ := h
    have hhigh : 2 ^ 8 ≤ 2 ^ (i - 8 * k) := Nat.pow_le_pow_right (by decide) (by omega)
    have hlt : b.toNat < 2 ^ (i - 8 * k) := b.toNat_lt.trans_le hhigh
    rw [Nat.testBit_lt_two_pow hlt] at hbit
    cases hbit

theorem testBit_packedFrom (bytes : List UInt8) (bits k i : ℕ) :
    (packedFrom bits k bytes).testBit i = true ↔ bits.testBit i = true ∨
      ∃ j b, bytes[j]? = some b ∧ i / 8 = k + j ∧ b.toNat.testBit (i % 8) = true := by
  induction bytes generalizing bits k with
  | nil => simp [packedFrom]
  | cons first bytes ih =>
    have hstep : packedFrom bits k (first :: bytes) =
        packedFrom (bits ||| first.toNat <<< (8 * k)) (k + 1) bytes := rfl
    rw [hstep, ih, Nat.testBit_or, Bool.or_eq_true, testBit_shifted, or_assoc]
    refine or_congr_right ⟨fun h => ?_, fun h => ?_⟩
    · rcases h with ⟨hplace, hbit⟩ | ⟨j, b, hb, hplace, hbit⟩
      · exact ⟨0, first, rfl, hplace, hbit⟩
      · exact ⟨j + 1, b, hb, by omega, hbit⟩
    · obtain ⟨j, b, hb, hplace, hbit⟩ := h
      cases j with
      | zero =>
        obtain rfl := Option.some.inj hb
        exact .inl ⟨hplace, hbit⟩
      | succ j => exact .inr ⟨j, b, hb, by omega, hbit⟩

/-- **Where each bit comes from.** -/
theorem testBit_packed (bytes : List UInt8) (i : ℕ) :
    (packed bytes).testBit i = true ↔ Bit bytes i := by
  rw [packed, testBit_packedFrom, Nat.zero_testBit]
  refine ⟨fun h => ?_, fun h => ?_⟩
  · rcases h with h | ⟨j, b, hb, hplace, hbit⟩
    · cases h
    · rw [Nat.zero_add] at hplace
      exact ⟨b, hplace ▸ hb, hbit⟩
  · obtain ⟨b, hb, hbit⟩ := h
    exact .inr ⟨i / 8, b, hb, (Nat.zero_add _).symm, hbit⟩

end BitStream
