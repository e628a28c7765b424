/-
# Hexadecimal

`hex::encode` and `hex::decode` of the hex crate, on bytes. Decoding what
was encoded gives it back (`decode_encode`), so no two byte strings are
encoded alike (`text_injective`).
-/
import Mathlib.Data.List.Induction
import WillowSdk.Lib.Outcome
import WillowSdk.Lib.Utf8

namespace Hex

/-- A digit, `0` to `9` then `a` to `f`. -/
def digit (n : ℕ) : Char :=
  if n < 10 then Char.ofNat (48 + n) else Char.ofNat (87 + n)

/-- Two digits a byte. -/
def encode (bytes : List UInt8) : List Char :=
  bytes.flatMap fun b => [digit (b.toNat / 16), digit (b.toNat % 16)]

def text (bytes : List UInt8) : String := String.ofList (encode bytes)

/-- The value of a digit, in either case. -/
def value (c : UInt8) : Option ℕ :=
  let n := c.toNat
  if 48 ≤ n ∧ n ≤ 57 then some (n - 48)
  else if 97 ≤ n ∧ n ≤ 102 then some (n - 87)
  else if 65 ≤ n ∧ n ≤ 70 then some (n - 55)
  else none

/-- The character a byte is, as Rust's `{:?}` escapes it. -/
def escaped (c : UInt8) : String :=
  let n := c.toNat
  if n = 0 then "\\0"
  else if n = 9 then "\\t"
  else if n = 10 then "\\n"
  else if n = 13 then "\\r"
  else if n = 39 ∨ n = 92 then "\\" ++ String.singleton (Char.ofNat n)
  else if 32 ≤ n ∧ n < 127 ∨ 160 < n ∧ n ≠ 173 then String.singleton (Char.ofNat n)
  else "\\u\x7b" ++ String.ofList (Nat.toDigits 16 n) ++ "\x7d"

def invalid (c : UInt8) (i : ℕ) : String :=
  s!"Invalid character '{escaped c}' at position {i}"

/-- Pairs of digits from position `i` on. -/
def decodeFrom (i : ℕ) : List UInt8 → Except String (List UInt8)
  | hi :: lo :: rest =>
    match value hi, value lo with
    | none, _ => .error (invalid hi i)
    | some _, none => .error (invalid lo (i + 1))
    | some h, some l => do
      let bytes ← decodeFrom (i + 2) rest
      .ok (.ofNat (h * 16 + l) :: bytes)
  | [_] => .error "Odd number of digits"
  | [] => .ok []

def decode (text : List UInt8) : Except String (List UInt8) :=
  if text.length % 2 ≠ 0 then .error "Odd number of digits" else decodeFrom 0 text

theorem utf8_digit : ∀ n < 16, String.utf8EncodeChar (digit n) = [.ofNat (digit n).toNat] := by
  decide

theorem value_digit : ∀ n < 16, value (.ofNat (digit n).toNat) = some n := by
  decide

/-- The bytes of some encoded text, a byte a digit. -/
def encodeBytes (bytes : List UInt8) : List UInt8 :=
  bytes.flatMap fun b =>
    [.ofNat (digit (b.toNat / 16)).toNat, .ofNat (digit (b.toNat % 16)).toNat]

theorem length_encodeBytes (bytes : List UInt8) : (encodeBytes bytes).length = 2 * bytes.length := by
  induction bytes with
  | nil => rfl
  | cons b bytes ih =>
    rw [encodeBytes, List.flatMap_cons, ← encodeBytes, List.length_append, ih]
    simp only [List.length_cons, List.length_nil]
    omega

theorem utf8_encode (bytes : List UInt8) :
    Utf8.encode (text bytes) = encodeBytes bytes := by
  rw [Utf8.encode, text, String.toList_ofList]
  induction bytes with
  | nil => rfl
  | cons b bytes ih =>
    have hb := b.toNat_lt
    rw [encode, List.flatMap_cons, List.flatMap_append, ← encode, ih]
    simp only [List.flatMap_cons, List.flatMap_nil, utf8_digit (b.toNat / 16) (by omega),
      utf8_digit (b.toNat % 16) (by omega)]
    rfl

theorem decodeFrom_encodeBytes (bytes : List UInt8) :
    ∀ i, decodeFrom i (encodeBytes bytes) = .ok bytes := by
  induction bytes with
  | nil => intro i; rfl
  | cons b bytes ih =>
    intro i
    have hb := b.toNat_lt
    have hbyte : UInt8.ofNat (b.toNat / 16 * 16 + b.toNat % 16) = b := by
      rw [Nat.div_add_mod']
      simp
    simp only [encodeBytes, List.flatMap_cons, List.cons_append, List.nil_append, decodeFrom,
      value_digit (b.toNat / 16) (by omega), value_digit (b.toNat % 16) (by omega)]
    rw [← encodeBytes, ih, hbyte]
    rfl

theorem decode_encode (bytes : List UInt8) :
    decode (Utf8.encode (text bytes)) = .ok bytes := by
  have hlen : (encodeBytes bytes).length % 2 = 0 := by
    rw [length_encodeBytes, Nat.mul_mod_right]
  rw [utf8_encode, decode, hlen]
  exact decodeFrom_encodeBytes bytes 0

theorem text_injective : Function.Injective text := by
  intro a b h
  have := decode_encode a
  rw [h, decode_encode b] at this
  exact (Except.ok.inj this).symm

/-- By the text, two digits at a time. -/
theorem decodeFrom_length_le (text : List UInt8) :
    ∀ i bytes, decodeFrom i text = .ok bytes → bytes.length ≤ text.length := by
  induction text using List.twoStepInduction with
  | nil =>
    intro i bytes h
    obtain rfl := Except.ok.inj h
    exact le_rfl
  | singleton c =>
    intro i bytes h
    cases h
  | cons_cons hi lo rest ih _ =>
    intro i bytes h
    rw [decodeFrom] at h
    split at h
    case h_1 => cases h
    case h_2 => cases h
    case h_3 =>
      obtain ⟨tail, htail, h⟩ := Outcome.bind_eq_ok.mp h
      obtain rfl := Except.ok.inj h
      have hle := ih _ _ htail
      simp only [List.length_cons]
      omega

/-- What is decoded is no longer than its text. -/
theorem decode_length_le {text bytes : List UInt8} (h : decode text = .ok bytes) :
    bytes.length ≤ text.length := by
  unfold decode at h
  split at h
  · cases h
  · exact decodeFrom_length_le text 0 bytes h

/-- By the text, two digits at a time. -/
theorem value_of_decodeFrom (text : List UInt8) :
    ∀ i bytes, decodeFrom i text = .ok bytes → ∀ b ∈ text, value b ≠ none := by
  induction text using List.twoStepInduction with
  | nil => exact fun i bytes h b hb => absurd hb List.not_mem_nil
  | singleton c =>
    intro i bytes h
    cases h
  | cons_cons hi lo rest ih _ =>
    intro i bytes h
    rw [decodeFrom] at h
    split at h
    case h_1 => cases h
    case h_2 => cases h
    case h_3 hhi hlo =>
      obtain ⟨tail, htail, -⟩ := Outcome.bind_eq_ok.mp h
      refine List.forall_mem_cons.mpr ⟨by simp [hhi], List.forall_mem_cons.mpr ⟨by simp [hlo], ?_⟩⟩
      exact ih _ _ htail

/-- A byte from 0x80 on is no digit. -/
theorem value_eq_none {c : UInt8} (h : 128 ≤ c.toNat) : value c = none := by
  unfold value
  dsimp only
  rw [if_neg (by omega), if_neg (by omega), if_neg (by omega)]

/-- The digits, in either case. -/
def IsDigit (c : Char) : Prop :=
  (48 ≤ c.toNat ∧ c.toNat ≤ 57) ∨ (97 ≤ c.toNat ∧ c.toNat ≤ 102) ∨ (65 ≤ c.toNat ∧ c.toNat ≤ 70)

theorem isDigit_of_value {c : Char} (h : ∀ b ∈ String.utf8EncodeChar c, value b ≠ none) :
    IsDigit c := by
  unfold String.utf8EncodeChar at h
  dsimp only at h
  by_cases hascii : c.val.toNat ≤ 0x7F
  · rw [if_pos hascii] at h
    have hbyte : (UInt8.ofNat c.val.toNat).toNat = c.toNat := Utf8.toNat_byte (by omega)
    have hvalue := h _ List.mem_cons_self
    unfold value at hvalue
    dsimp only at hvalue
    rw [hbyte] at hvalue
    split_ifs at hvalue with hdecimal hlower hupper
    · exact .inl hdecimal
    · exact .inr (.inl hlower)
    · exact .inr (.inr hupper)
    · exact absurd rfl hvalue
  · -- the last byte of a longer sequence is no digit
    have hlast : value (.ofNat (c.val.toNat % 0x40 + 0x80)) = none := by
      apply value_eq_none
      rw [Utf8.toNat_sixBits]
      omega
    rw [if_neg hascii] at h
    refine absurd hlast (h _ ?_)
    split_ifs
    all_goals simp

/-- Text that is decoded holds digits only. -/
theorem isDigit_of_decode {s : String} {bytes : List UInt8}
    (h : decode (Utf8.encode s) = .ok bytes) : ∀ c ∈ s.toList, IsDigit c := by
  intro c hc
  unfold decode at h
  split at h
  · cases h
  · refine isDigit_of_value fun b hb => value_of_decodeFrom _ _ _ h b ?_
    exact List.mem_flatMap.mpr ⟨c, hc, hb⟩

theorem mem_text {c : Char} {bytes : List UInt8} (h : c ∈ (text bytes).toList) :
    ∃ n < 16, digit n = c := by
  rw [text, String.toList_ofList, encode, List.mem_flatMap] at h
  obtain ⟨b, -, h⟩ := h
  have hb := b.toNat_lt
  rcases List.mem_cons.mp h with h | h
  · exact ⟨_, by omega, h.symm⟩
  · exact ⟨_, by omega, (List.mem_singleton.mp h).symm⟩

/-- The text holds digits only. -/
theorem not_mem_text {c : Char} (hc : ∀ n < 16, digit n ≠ c) (bytes : List UInt8) :
    c ∉ (text bytes).toList := by
  intro h
  obtain ⟨n, hn, hdigit⟩ := mem_text h
  exact hc n hn hdigit

end Hex
