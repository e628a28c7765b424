/-
# Messages signed and verified

`sign_challenge` and `verify_signature` (src/auth.rs). The signature crates
are given (`Signatures`); what is relied on of ed25519 is that a key verifies
what its seed signed, and that no other key does (`Signatures.Lawful`), so a
signature made here is verified exactly under the seed's own key
(`verifySignature_own_iff`).
-/
import WillowSdk.Errors
import WillowSdk.EthState
import WillowSdk.Lib.Hex
import WillowSdk.Lib.Text

namespace WillowSdk
namespace Auth

open EthState (B256)

abbrev B512 := { bytes : Bytes // bytes.length = 64 }

inductive SignatureAlgorithm
  | ed25519
  | secp256k1
deriving DecidableEq, Repr

/-- The signature crates, and Keccak-256. -/
structure Signatures where
  /-- `SigningKey::verifying_key`. -/
  verifyingKey : B256 → B256
  /-- `SigningKey::sign`. -/
  sign : B256 → Bytes → B512
  /-- `VerifyingKey::from_bytes`, then `verify`. -/
  fromBytes : B256 → Option (Bytes → B512 → Bool)
  keccak256 : Bytes → B256
  /-- `SecretKey::from_slice`, then the compact form of `sign_ecdsa`. -/
  secretKey : Bytes → Except String (B256 → Bytes)
  /-- `PublicKey::from_slice`, then `serialize`. -/
  publicKey : Bytes → Except String Bytes
  /-- `Signature::from_compact`. -/
  fromCompact : Bytes → Except String Bytes
  /-- `Signature::from_der`. -/
  fromDer : Bytes → Except String Bytes
  /-- `verify_ecdsa` of a digest and a signature, under a key. -/
  verifyEcdsa : B256 → Bytes → Bytes → Bool

/-- A seed's own key verifies what it signs, and no other key does. -/
structure Signatures.Lawful (crates : Signatures) : Prop where
  own : ∀ seed, ∃ verify, crates.fromBytes (crates.verifyingKey seed) = some verify ∧
    ∀ message, verify message (crates.sign seed message) = true
  only : ∀ seed key verify message, crates.fromBytes key = some verify →
    verify message (crates.sign seed message) = true → key = crates.verifyingKey seed

/-- `hex::decode`, its error as the SDK's. -/
def decodeHex (text : String) : Result Bytes :=
  (Hex.decode (Utf8.encode text)).mapError fun e => .validation s!"Invalid hex: {e}"

/-- `trim_start_matches("0x")`. -/
def trimStart0x (text : String) : String := String.ofList (Text.trim0x text.toList)

section Sign

variable (crates : Signatures)

def secpError {α : Type} (x : Except String α) : Result α :=
  x.mapError fun e => .crypto s!"Secp256k1 error: {e}"

/-- Sign a challenge message. -/
def signChallenge (message privateKeyHex : String) (algorithm : SignatureAlgorithm) :
    Result String := do
  let privateKeyBytes ← decodeHex privateKeyHex
  let messageBytes := Utf8.encode message
  match algorithm with
  | .ed25519 =>
    if h : privateKeyBytes.length = 32 then
      .ok (Hex.text (crates.sign ⟨privateKeyBytes, h⟩ messageBytes).val)
    else .error (.validation "Ed25519 private key must be 32 bytes")
  | .secp256k1 =>
    let sign ← secpError (crates.secretKey privateKeyBytes)
    .ok (Hex.text (sign (crates.keccak256 messageBytes)))

/-- Normalize any accepted secp256k1 public-key encoding to its 33-byte
compressed form. -/
def secp256k1Compressed (publicKey : Bytes) : Result Bytes :=
  match publicKey.length with
  | 33 | 65 => secpError (crates.publicKey publicKey)
  | 64 => secpError (crates.publicKey (0x04 :: publicKey))
  | _ => .error (.crypto "secp256k1 public key must be 33, 64, or 65 bytes")

/-- Verify a signature. -/
def verifySignature (message signatureHex publicKeyHex : String)
    (algorithm : SignatureAlgorithm) : Result Bool := do
  let signatureBytes ← decodeHex (trimStart0x signatureHex)
  let publicKeyBytes ← decodeHex (trimStart0x publicKeyHex)
  let messageBytes := Utf8.encode message
  match algorithm with
  | .ed25519 =>
    if hs : signatureBytes.length = 64 then
      if hk : publicKeyBytes.length = 32 then
        match crates.fromBytes ⟨publicKeyBytes, hk⟩ with
        | some verify => .ok (verify messageBytes ⟨signatureBytes, hs⟩)
        | none => .error (.crypto "Invalid Ed25519 public key")
      else .ok false
    else .ok false
  | .secp256k1 =>
    let compressed ← secp256k1Compressed crates publicKeyBytes
    let publicKey ← secpError (crates.publicKey compressed)
    let messageHash := crates.keccak256 messageBytes
    let signature ← secpError <| match crates.fromCompact signatureBytes with
      | .ok signature => .ok signature
      | .error _ => crates.fromDer signatureBytes
    .ok (crates.verifyEcdsa messageHash signature publicKey)

end Sign

/-! ### Keys as text -/

@[simp] theorem decodeHex_eq_ok {text : String} {bytes : Bytes} :
    decodeHex text = .ok bytes ↔ Hex.decode (Utf8.encode text) = .ok bytes := by
  simp [decodeHex]

theorem decodeHex_text (bytes : Bytes) : decodeHex (Hex.text bytes) = .ok bytes :=
  decodeHex_eq_ok.mpr (Hex.decode_encode bytes)

theorem not_mem_of_digits {text : String} (h : ∀ c ∈ text.toList, Hex.IsDigit c) :
    'x' ∉ text.toList := by
  intro hmem
  have hdigit := h 'x' hmem
  unfold Hex.IsDigit at hdigit
  simp at hdigit

theorem trimStart0x_of_digits {text : String} (h : ∀ c ∈ text.toList, Hex.IsDigit c) :
    trimStart0x text = text := by
  unfold trimStart0x
  rw [Text.trim0x_of_not_mem (not_mem_of_digits h), String.ofList_toList]

/-- Encoded bytes have no mark to trim. -/
theorem trimStart0x_text (bytes : Bytes) : trimStart0x (Hex.text bytes) = Hex.text bytes :=
  trimStart0x_of_digits (Hex.isDigit_of_decode (Hex.decode_encode bytes))

theorem trimStart0x_trimStart0x (text : String) : trimStart0x (trimStart0x text) = trimStart0x text := by
  unfold trimStart0x
  rw [String.toList_ofList, Text.trim0x_trim0x]

/-- The seed that `sign_challenge` reads. -/
def seedOf (privateKeyHex : String) : Option B256 :=
  match decodeHex privateKeyHex with
  | .ok bytes => if h : bytes.length = 32 then some ⟨bytes, h⟩ else none
  | .error _ => none

theorem seedOf_eq_some {privateKeyHex : String} {seed : B256} :
    seedOf privateKeyHex = some seed ↔ decodeHex privateKeyHex = .ok seed.val := by
  unfold seedOf
  cases hdecode : decodeHex privateKeyHex with
  | error e => simp
  | ok bytes =>
    by_cases hlen : bytes.length = 32
    · simp [hlen, Subtype.ext_iff]
    · have hne : bytes ≠ seed.val := by
        rintro rfl
        exact hlen seed.property
      simp [hlen, hne]

/-- The key's bytes, as `verify_signature` reads its text. -/
def keyBytes (publicKeyHex : String) : Option Bytes :=
  (decodeHex (trimStart0x publicKeyHex)).toOption

theorem keyBytes_trimStart0x (publicKeyHex : String) :
    keyBytes (trimStart0x publicKeyHex) = keyBytes publicKeyHex := by
  unfold keyBytes
  rw [trimStart0x_trimStart0x]

theorem keyBytes_text (bytes : Bytes) : keyBytes (Hex.text bytes) = some bytes := by
  unfold keyBytes
  rw [trimStart0x_text, decodeHex_text]
  rfl

/-! ### Signed and verified -/

variable {crates : Signatures} {message : String}

theorem signChallenge_eq_ok {privateKeyHex signature : String} :
    signChallenge crates message privateKeyHex .ed25519 = .ok signature ↔
      ∃ seed, seedOf privateKeyHex = some seed ∧
        Hex.text (crates.sign seed (Utf8.encode message)).val = signature := by
  unfold signChallenge seedOf
  cases decodeHex privateKeyHex with
  | error e => simp [bind, Except.bind]
  | ok bytes =>
    by_cases hlen : bytes.length = 32
    · simp [bind, Except.bind, hlen]
    · simp [bind, Except.bind, hlen]

/-- What a key of 32 bytes says of a seed's signature. -/
theorem verifies_iff (hlawful : crates.Lawful) (seed key : B256) (messageBytes : Bytes) :
    (∃ verify, crates.fromBytes key = some verify ∧
      verify messageBytes (crates.sign seed messageBytes) = true) ↔ key = crates.verifyingKey seed := by
  refine ⟨fun ⟨verify, hfrom, hverify⟩ => hlawful.only seed key verify messageBytes hfrom hverify, ?_⟩
  rintro rfl
  obtain ⟨verify, hfrom, hverify⟩ := hlawful.own seed
  exact ⟨verify, hfrom, hverify messageBytes⟩

/-- **A signature is verified under its own key and no other.** -/
theorem verifySignature_own_iff (hlawful : crates.Lawful) (seed : B256) (publicKeyHex : String) :
    verifySignature crates message (Hex.text (crates.sign seed (Utf8.encode message)).val)
        publicKeyHex .ed25519 = .ok true ↔
      keyBytes publicKeyHex = some (crates.verifyingKey seed).val := by
  unfold verifySignature keyBytes
  rw [trimStart0x_text, decodeHex_text]
  cases decodeHex (trimStart0x publicKeyHex) with
  | error e => simp [bind, Except.bind, Except.toOption]
  | ok bytes =>
    by_cases hlen : bytes.length = 32
    · have hsig := (crates.sign seed (Utf8.encode message)).property
      have hverifies := verifies_iff hlawful seed ⟨bytes, hlen⟩ (Utf8.encode message)
      rw [Subtype.ext_iff] at hverifies
      simp only [bind, Except.bind, dif_pos hsig, dif_pos hlen, Except.toOption, Option.some.injEq]
      rw [← hverifies]
      cases crates.fromBytes ⟨bytes, hlen⟩ with
      | none => simp
      | some verify => simp
    · have hne : bytes ≠ (crates.verifyingKey seed).val := by
        rintro rfl
        exact hlen (crates.verifyingKey seed).property
      simp [bind, Except.bind, hlen, Except.toOption, hne]

end Auth
end WillowSdk
