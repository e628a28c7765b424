/-
# The nonces an answer shows used

The bytes of an `account_nonce_state` answer (src/nonces.rs): the base, then a
bit for each nonce of the window. The decoder, the list of used nonces and the
membership test read the bits each in its own way, and agree
(`nonce_state_decodes_to_one_set`).
-/
import WillowSdk.Nonces
import WillowSdk.Lib.BitStream

namespace WillowSdk
namespace AccountNonceState

/-- The base of an answer: its first 8 bytes, big-endian. -/
def wireBase (answer : Bytes) : ℕ := (answer.take 8).foldl (fun n b => n * 256 + b.toNat) 0

/-- Bit `i % 8` of byte `i / 8` after the base. -/
def WireBit (answer : Bytes) (i : ℕ) : Prop := BitStream.Bit (answer.drop 8) i

section Decoded

variable {answer : Bytes} {s : AccountNonceState} {i n : ℕ}

theorem fromBytes_eq (hlen : answer.length = 8 ∨ answer.length = 11) :
    fromBytes answer = .ok ⟨wireBase answer, BitStream.packed (answer.drop 8)⟩ := by
  unfold fromBytes
  rcases hlen with hlen | hlen
  · rw [hlen]
    rfl
  · rw [hlen]
    rfl

theorem mem_usedNonces : n ∈ s.usedNonces ↔
    ∃ i < nonceWindow, s.used.testBit i = true ∧ saturatingAdd s.base (1 + i) = n := by
  unfold usedNonces
  simp only [List.mem_map, List.mem_filter, List.mem_range, and_assoc]

/-- Within the window no two bits are one nonce. -/
theorem saturatingAdd_window (hs : s.base ≤ u64Max - nonceWindow) (hi : i < nonceWindow) :
    saturatingAdd s.base (1 + i) = s.base + 1 + i := by
  unfold saturatingAdd u64Max nonceWindow at *
  omega

theorem usedNonces_increasing (hs : s.base ≤ u64Max - nonceWindow) :
    s.usedNonces.Pairwise (· < ·) := by
  unfold usedNonces
  rw [List.pairwise_map]
  have hrange : (List.range nonceWindow).Pairwise (· < ·) := List.pairwise_lt_range
  refine (hrange.filter _).imp_of_mem fun hi hj hlt => ?_
  have hi' := List.mem_range.mp (List.mem_of_mem_filter hi)
  have hj' := List.mem_range.mp (List.mem_of_mem_filter hj)
  rw [saturatingAdd_window hs hi', saturatingAdd_window hs hj']
  omega

theorem base_lt_of_mem (hs : s.base ≤ u64Max - nonceWindow) (h : n ∈ s.usedNonces) :
    s.base < n := by
  obtain ⟨i, hi, -, rfl⟩ := mem_usedNonces.mp h
  rw [saturatingAdd_window hs hi]
  omega

end Decoded

/-- **The nonce state decodes to one set of used nonces.** An answer of 8 or 11
bytes decodes to its base and bits. If the base leaves room for the window, the
used nonces are listed in increasing order, none twice: `base + 1 + i` for each
of the window's bits that is set, which are those above the base that the
membership test finds used. -/
theorem nonce_state_decodes_to_one_set (answer : Bytes)
    (hlen : answer.length = 8 ∨ answer.length = 11)
    (hbase : wireBase answer ≤ u64Max - 24) :
    ∃ s, fromBytes answer = .ok s ∧ s.base = wireBase answer ∧
      s.usedNonces.Pairwise (· < ·) ∧
      (∀ n, n ∈ s.usedNonces ↔ ∃ i < 24, WireBit answer i ∧ n = s.base + 1 + i) ∧
      ∀ n, n ∈ s.usedNonces ↔ s.base < n ∧ s.isUsed n = true := by
  refine ⟨_, fromBytes_eq hlen, rfl, usedNonces_increasing hbase, fun n => ?_, fun n => ?_⟩
  · rw [mem_usedNonces]
    refine exists_congr fun i => and_congr_right fun hi => ?_
    rw [BitStream.testBit_packed, saturatingAdd_window hbase hi, eq_comm]
    rfl
  · rw [isUsed_iff hbase]
    refine ⟨fun h => ⟨base_lt_of_mem hbase h, .inr h⟩, fun h => ?_⟩
    obtain ⟨hlt, hle | hmem⟩ := h
    · exact absurd hle (Nat.not_le.mpr hlt)
    · exact hmem

/-- Bit 0 of the first byte is nonce 8, and bit 1 of the third nonce 25. -/
theorem nonce_state_decodes_to_one_set_sample :
    ∃ s, fromBytes [0, 0, 0, 0, 0, 0, 0, 7, 1, 0, 2] = .ok s ∧ s.base = 7 ∧
      25 ∈ s.usedNonces ∧ s.usedNonces.Pairwise (· < ·) := by
  obtain ⟨s, hs, hbase, hincreasing, hbits, -⟩ := nonce_state_decodes_to_one_set
    [0, 0, 0, 0, 0, 0, 0, 7, 1, 0, 2] (.inr rfl) (by decide)
  have hseven : s.base = 7 := hbase
  have hbit : WireBit [0, 0, 0, 0, 0, 0, 0, 7, 1, 0, 2] 17 := ⟨2, rfl, rfl⟩
  refine ⟨s, hs, hseven, (hbits 25).mpr ⟨17, by decide, hbit, ?_⟩, hincreasing⟩
  rw [hseven]

end AccountNonceState
end WillowSdk
