/-
# Envelopes as they are written

bincode's writer of the grammar that `scan_envelope` reads: the shortest
varint, and each count before what it counts. The grammar reads one way
(`EncodesTo.append_inj`), so the scan passes what is written exactly within
its bounds on length, layers and depth (`scanEnvelope_encode_iff`).
-/
import WillowSdk.Grove.ScanGrammar
import WillowSdk.Lib.BigEndian

namespace WillowSdk
namespace Grove

/-! ### The writer -/

/-- bincode 2's varint, big-endian. -/
def varintBytes (n : ℕ) : Bytes :=
  if n < 251 then [.ofNat n]
  else if n < 2 ^ 16 then 251 :: BigEndian.bytes 2 n
  else if n < 2 ^ 32 then 252 :: BigEndian.bytes 4 n
  else 253 :: BigEndian.bytes 8 n

def countedBytes (s : Bytes) : Bytes := varintBytes s.length ++ s

mutual
def LayerProof.encode : LayerProof → Bytes
  | .mk ops lower => countedBytes ops ++ (varintBytes lower.length ++ LayerProof.encodeLower lower)
def LayerProof.encodeLower : List (Bytes × LayerProof) → Bytes
  | [] => []
  | (key, l) :: rest => countedBytes key ++ (l.encode ++ LayerProof.encodeLower rest)
end

/-- Version 0, the layers, and the prove options' one boolean. -/
def GroveDBProofV0.encode (v0 : GroveDBProofV0) : Bytes :=
  [0] ++ (v0.rootLayer.encode ++ [if v0.proveOptions then 1 else 0])

/-! ### What is written is of the grammar -/

theorem bytes_ofDigits {k n : ℕ} (h : n < 256 ^ k) :
    Nat.ofDigits 256 ((BigEndian.bytes k n).reverse.map UInt8.toNat) = n := by
  induction k generalizing n with
  | zero =>
    obtain rfl : n = 0 := by simpa using h
    rfl
  | succ k ih =>
    have hhigh : n / 256 < 256 ^ k := by
      rw [Nat.pow_succ] at h
      exact Nat.div_lt_of_lt_mul (by omega)
    have hlow : (UInt8.ofNat (n % 256)).toNat = n % 256 :=
      UInt8.toNat_ofNat_of_lt (Nat.mod_lt n (by omega))
    rw [BigEndian.bytes, List.reverse_append, List.reverse_singleton, List.singleton_append,
      List.map_cons, Nat.ofDigits_cons, ih hhigh, hlow]
    omega

theorem varint_varintBytes {n : ℕ} (h : n < 2 ^ 64) : Varint n (varintBytes n) := by
  unfold varintBytes
  split_ifs with h1 h2 h3
  · exact .short h1
  · have hu16 := Varint.u16 (BigEndian.bytes 2 n) (BigEndian.length_bytes 2 n)
    rwa [bytes_ofDigits (by omega)] at hu16
  · have hu32 := Varint.u32 (BigEndian.bytes 4 n) (BigEndian.length_bytes 4 n)
    rwa [bytes_ofDigits (by omega)] at hu32
  · have hu64 := Varint.u64 (BigEndian.bytes 8 n) (BigEndian.length_bytes 8 n)
    rwa [bytes_ofDigits (by omega)] at hu64

theorem counted_countedBytes {s : Bytes} (h : s.length < 2 ^ 64) : Counted s (countedBytes s) :=
  ⟨_, varint_varintBytes h, rfl⟩

mutual
/-- A layer's encoding, where none of its counts is past 64 bits. -/
theorem LayerProof.encodesTo_encode : ∀ l : LayerProof, l.encode.length < 2 ^ 64 →
    l.EncodesTo l.encode
  | .mk ops lower, h => by
    simp only [encode, countedBytes, List.length_append] at h
    have hlower : lower.length ≤ (encodeLower lower).length := LayerProof.length_le_encodeLower lower
    exact ⟨_, _, _, counted_countedBytes (by omega), varint_varintBytes (by omega),
      LayerProof.lowerEncodesTo_encodeLower lower (by omega), rfl⟩
theorem LayerProof.lowerEncodesTo_encodeLower : ∀ lower : List (Bytes × LayerProof),
    (LayerProof.encodeLower lower).length < 2 ^ 64 →
    LayerProof.LowerEncodesTo lower (LayerProof.encodeLower lower)
  | [], _ => rfl
  | (key, l) :: rest, h => by
    simp only [encodeLower, countedBytes, List.length_append] at h
    exact ⟨_, _, _, counted_countedBytes (by omega), l.encodesTo_encode (by omega),
      LayerProof.lowerEncodesTo_encodeLower rest (by omega), rfl⟩
theorem LayerProof.length_le_encodeLower : ∀ lower : List (Bytes × LayerProof),
    lower.length ≤ (LayerProof.encodeLower lower).length
  | [] => Nat.le_refl 0
  | (key, l) :: rest => by
    have hrest := LayerProof.length_le_encodeLower rest
    have hkey : 0 < (varintBytes key.length).length := by
      unfold varintBytes
      split_ifs <;> simp
    simp only [encodeLower, countedBytes, List.length_append, List.length_cons]
    omega
end

/-! ### The grammar reads one way -/

theorem Varint.append_inj {m n : ℕ} {v w s t : Bytes} (hv : Varint m v) (hw : Varint n w)
    (h : v ++ s = w ++ t) : m = n ∧ s = t := by
  have hm : Scan.varint (v ++ s) = .ok (m, s) := Scan.varint_eq_ok.mpr ⟨v, hv, rfl⟩
  have hn : Scan.varint (w ++ t) = .ok (n, t) := Scan.varint_eq_ok.mpr ⟨w, hw, rfl⟩
  rw [h, hn] at hm
  obtain ⟨rfl, rfl⟩ := Prod.mk.inj (Except.ok.inj hm)
  exact ⟨rfl, rfl⟩

theorem Counted.append_inj {a b c d s t : Bytes} (hc : Counted a c) (hd : Counted b d)
    (h : c ++ s = d ++ t) : a = b ∧ s = t := by
  obtain ⟨v, hv, rfl⟩ := hc
  obtain ⟨w, hw, rfl⟩ := hd
  rw [List.append_assoc, List.append_assoc] at h
  obtain ⟨hlen, hrest⟩ := hv.append_inj hw h
  exact List.append_inj hrest hlen

mutual
/-- No encoding of a layer begins another's. -/
theorem LayerProof.EncodesTo.append_inj : ∀ {l m : LayerProof} {e f s t : Bytes},
    l.EncodesTo e → m.EncodesTo f → e ++ s = f ++ t → l = m ∧ s = t
  | .mk ops lower, .mk ops' lower', _, _, s, t, ⟨o, v, e, ho, hv, he, rfl⟩,
      ⟨o', v', e', ho', hv', he', rfl⟩, h => by
    simp only [List.append_assoc] at h
    obtain ⟨rfl, h⟩ := ho.append_inj ho' h
    obtain ⟨hlen, h⟩ := hv.append_inj hv' h
    obtain ⟨rfl, h⟩ := LayerProof.LowerEncodesTo.append_inj he he' hlen h
    exact ⟨rfl, h⟩
theorem LayerProof.LowerEncodesTo.append_inj : ∀ {lower lower' : List (Bytes × LayerProof)}
    {e f s t : Bytes}, LayerProof.LowerEncodesTo lower e → LayerProof.LowerEncodesTo lower' f →
      lower.length = lower'.length → e ++ s = f ++ t → lower = lower' ∧ s = t
  | [], [], _, _, _, _, he, hf, _, h => by
    obtain rfl : _ = [] := he
    obtain rfl : _ = [] := hf
    exact ⟨rfl, h⟩
  | (key, l) :: rest, (key', l') :: rest', _, _, s, t, ⟨k, e, r, hk, he, hr, rfl⟩,
      ⟨k', e', r', hk', he', hr', rfl⟩, hlen, h => by
    simp only [List.append_assoc] at h
    obtain ⟨rfl, h⟩ := hk.append_inj hk' h
    obtain ⟨rfl, h⟩ := LayerProof.EncodesTo.append_inj he he' h
    obtain ⟨rfl, h⟩ := LayerProof.LowerEncodesTo.append_inj hr hr' (Nat.succ.inj hlen) h
    exact ⟨rfl, h⟩
end

/-- What is written passes exactly within the bounds. -/
theorem scanEnvelope_encode_iff (v0 : GroveDBProofV0) : scanEnvelope v0.encode = .ok () ↔
    v0.encode.length ≤ 2 ^ 20 ∧ v0.rootLayer.count ≤ 1024 ∧ v0.rootLayer.depth ≤ 64 := by
  have hversion : Varint 0 [0] := .short (by omega)
  have hbound : v0.encode.length ≤ 2 ^ 20 → v0.rootLayer.encode.length < 2 ^ 64 := by
    intro h
    simp only [GroveDBProofV0.encode, List.length_append] at h
    omega
  rw [scan_envelope_iff]
  refine and_congr_right fun hlen => ⟨fun h => ?_, fun h => ?_⟩
  · obtain ⟨version, e, options, t, hv, ht, hc, hd, -, hbytes⟩ := h
    obtain ⟨-, hrest⟩ := hversion.append_inj hv hbytes
    obtain ⟨rfl, -⟩ := (v0.rootLayer.encodesTo_encode (hbound hlen)).append_inj ht hrest
    exact ⟨hc, hd⟩
  · obtain ⟨hc, hd⟩ := h
    refine ⟨[0], _, _, v0.rootLayer, hversion, v0.rootLayer.encodesTo_encode (hbound hlen), hc, hd,
      ?_, rfl⟩
    cases v0.proveOptions
    · exact .inl rfl
    · exact .inr rfl

end Grove
end WillowSdk
