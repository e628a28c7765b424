/-
# Big-endian numbers

A number's bytes, high byte first: `bytes k` writes it in `k` bytes and
`value` reads it back (`value_bytes`). `trimmed` leaves the leading zeros out.
-/
import Mathlib.Algebra.Ring.Nat
import Mathlib.Data.List.Induction
import Mathlib.Data.List.Infix

namespace BigEndian

def value (bytes : List UInt8) : ℕ := bytes.foldl (fun n b => n * 256 + b.toNat) 0

def bytes : ℕ → ℕ → List UInt8
  | 0, _ => []
  | k + 1, n => bytes k (n / 256) ++ [.ofNat (n % 256)]

@[simp] theorem value_nil : value [] = 0 := rfl

@[simp] theorem value_append_singleton (xs : List UInt8) (b : UInt8) :
    value (xs ++ [b]) = value xs * 256 + b.toNat := by
  simp [value]

@[simp] theorem length_bytes (k n : ℕ) : (bytes k n).length = k := by
  induction k generalizing n with
  | zero => rfl
  | succ k ih => simp [bytes, ih]

theorem value_bytes {k n : ℕ} (h : n < 256 ^ k) : value (bytes k n) = n := by
  induction k generalizing n with
  | zero =>
    have hn : n = 0 := by simpa using h
    rw [hn]
    rfl
  | succ k ih =>
    have hhigh : n / 256 < 256 ^ k := by
      rw [Nat.pow_succ] at h
      exact Nat.div_lt_of_lt_mul (by omega)
    have hlow : (UInt8.ofNat (n % 256)).toNat = n % 256 :=
      UInt8.toNat_ofNat_of_lt (Nat.mod_lt n (by omega))
    rw [bytes, value_append_singleton, ih hhigh, hlow]
    omega

/-- More bytes are those of the high part, then of the low. -/
theorem bytes_add (j m n : ℕ) : bytes (j + m) n = bytes j (n / 256 ^ m) ++ bytes m n := by
  induction m generalizing n with
  | zero => simp [bytes]
  | succ m ih =>
    rw [← Nat.add_assoc, bytes, ih, bytes, Nat.div_div_eq_div_mul, Nat.pow_succ', List.append_assoc]

/-- Too few bytes hold the low part. -/
theorem value_bytes_mod (k n : ℕ) : value (bytes k n) = n % 256 ^ k := by
  induction k generalizing n with
  | zero => simp [bytes, Nat.mod_one]
  | succ k ih =>
    have hlow : (UInt8.ofNat (n % 256)).toNat = n % 256 :=
      UInt8.toNat_ofNat_of_lt (Nat.mod_lt n (by omega))
    rw [bytes, value_append_singleton, ih, hlow, Nat.pow_succ', Nat.mod_mul]
    omega

theorem bytes_value (xs : List UInt8) : bytes xs.length (value xs) = xs := by
  induction xs using List.reverseRecOn with
  | nil => rfl
  | append_singleton xs b ih =>
    have hb := b.toNat_lt
    have hhigh : (value xs * 256 + b.toNat) / 256 = value xs := by omega
    have hlow : (value xs * 256 + b.toNat) % 256 = b.toNat := by omega
    rw [List.length_append, List.length_singleton, value_append_singleton, bytes, hhigh, hlow, ih,
      UInt8.ofNat_toNat]

theorem value_lt (xs : List UInt8) : value xs < 256 ^ xs.length := by
  induction xs using List.reverseRecOn with
  | nil => simp
  | append_singleton xs b ih =>
    have hb := b.toNat_lt
    rw [value_append_singleton, List.length_append, List.length_singleton, Nat.pow_succ]
    omega

/-- The bytes of a number below `256 ^ k` without leading zeros, none for
zero. -/
def trimmed (k n : ℕ) : List UInt8 := (bytes k n).dropWhile (· = 0)

theorem value_dropWhile (xs : List UInt8) : value (xs.dropWhile (· = 0)) = value xs := by
  induction xs with
  | nil => rfl
  | cons b xs ih =>
    by_cases hb : b = 0
    · subst hb
      simpa [value] using ih
    · simp [hb]

theorem value_trimmed {k n : ℕ} (h : n < 256 ^ k) : value (trimmed k n) = n := by
  rw [trimmed, value_dropWhile, value_bytes h]

theorem length_trimmed_le (k n : ℕ) : (trimmed k n).length ≤ k := by
  calc (trimmed k n).length ≤ (bytes k n).length := (List.dropWhile_suffix _).length_le
    _ = k := length_bytes k n

theorem trimmed_inj {k m n : ℕ} (hm : m < 256 ^ k) (hn : n < 256 ^ k)
    (h : trimmed k m = trimmed k n) : m = n := by
  rw [← value_trimmed hm, h, value_trimmed hn]

end BigEndian
