/-
# RLP

Ethereum's recursive length prefix encoding of numbers below `2^256`, of
words of 32 bytes and of lists of them. A number's encoding tells where it
ends (`number_append_inj`), and a list's encoding is one payload's
(`list_inj`).
-/
import WillowSdk.Lib.BigEndian

namespace Rlp

/-- A number of one digit below 128 is itself; another is its bytes, after
how many they are. -/
def number (n : ℕ) : List UInt8 :=
  if 0 < n ∧ n < 128 then [.ofNat n]
  else
    let digits := BigEndian.trimmed 32 n
    .ofNat (128 + digits.length) :: digits

/-- A string of 32 bytes, or of any other length from 2 to 55. -/
def word (bytes : List UInt8) : List UInt8 := .ofNat (128 + bytes.length) :: bytes

/-- Encoded items one after the other, after how long they are together. -/
def list (items : List (List UInt8)) : List UInt8 :=
  let payload := items.flatten
  if payload.length < 56 then .ofNat (192 + payload.length) :: payload
  else
    let length := BigEndian.trimmed 8 payload.length
    .ofNat (247 + length.length) :: (length ++ payload)

theorem ofNat_inj {a b : ℕ} (ha : a < 256) (hb : b < 256) (h : UInt8.ofNat a = UInt8.ofNat b) :
    a = b := by
  calc a = (UInt8.ofNat a).toNat := (UInt8.toNat_ofNat_of_lt ha).symm
    _ = (UInt8.ofNat b).toNat := by rw [h]
    _ = b := UInt8.toNat_ofNat_of_lt hb

/-- Numbers are told apart whatever follows them. -/
theorem number_append_inj {m n : ℕ} (hm : m < 256 ^ 32) (hn : n < 256 ^ 32) {xs ys : List UInt8}
    (h : number m ++ xs = number n ++ ys) : m = n ∧ xs = ys := by
  have hlm := BigEndian.length_trimmed_le 32 m
  have hln := BigEndian.length_trimmed_le 32 n
  by_cases hm' : 0 < m ∧ m < 128 <;> by_cases hn' : 0 < n ∧ n < 128
  · rw [number, if_pos hm', number, if_pos hn'] at h
    obtain ⟨hhead, htail⟩ := List.cons.inj h
    exact ⟨ofNat_inj (by omega) (by omega) hhead, htail⟩
  · rw [number, if_pos hm', number, if_neg hn'] at h
    have hhead := ofNat_inj (by omega) (by omega) (List.cons.inj h).1
    omega
  · rw [number, if_neg hm', number, if_pos hn'] at h
    have hhead := ofNat_inj (by omega) (by omega) (List.cons.inj h).1
    omega
  · rw [number, if_neg hm', number, if_neg hn'] at h
    obtain ⟨hhead, htail⟩ := List.cons.inj h
    have hlen := ofNat_inj (by omega) (by omega) hhead
    obtain ⟨hdigits, hrest⟩ := List.append_inj htail (by omega)
    exact ⟨BigEndian.trimmed_inj hm hn hdigits, hrest⟩

theorem number_inj {m n : ℕ} (hm : m < 256 ^ 32) (hn : n < 256 ^ 32)
    (h : number m = number n) : m = n :=
  (number_append_inj hm hn (congrArg (· ++ []) h)).1

/-- A payload's length is in its list's first byte, or after it. -/
theorem short_ne_long {p q : List UInt8} (hp : p.length < 56) (hq : ¬ q.length < 56) :
    UInt8.ofNat (192 + p.length) :: p ≠
      .ofNat (247 + (BigEndian.trimmed 8 q.length).length) ::
        (BigEndian.trimmed 8 q.length ++ q) := by
  intro h
  have hlq := BigEndian.length_trimmed_le 8 q.length
  obtain ⟨hhead, htail⟩ := List.cons.inj h
  have hlen := ofNat_inj (by omega) (by omega) hhead
  have hrest := congrArg List.length htail
  rw [List.length_append] at hrest
  omega

theorem list_inj {xs ys : List (List UInt8)} (h : list xs = list ys) :
    xs.flatten = ys.flatten := by
  have hlx := BigEndian.length_trimmed_le 8 xs.flatten.length
  have hly := BigEndian.length_trimmed_le 8 ys.flatten.length
  by_cases hx : xs.flatten.length < 56 <;> by_cases hy : ys.flatten.length < 56
  · rw [list, if_pos hx, list, if_pos hy] at h
    exact (List.cons.inj h).2
  · rw [list, if_pos hx, list, if_neg hy] at h
    exact absurd h (short_ne_long hx hy)
  · rw [list, if_neg hx, list, if_pos hy] at h
    exact absurd h.symm (short_ne_long hy hx)
  · rw [list, if_neg hx, list, if_neg hy] at h
    obtain ⟨hhead, htail⟩ := List.cons.inj h
    have hlen := ofNat_inj (by omega) (by omega) hhead
    exact (List.append_inj htail (by omega)).2

end Rlp
