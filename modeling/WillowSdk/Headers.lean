/-
# Verifying a header

`LightClient::verify_header`, `verify_commit_signatures` and
`verify_signature` (src/light_client.rs), with the light block they read. A
header is accepted after a trusted one when it is the next of the configured
chain, in time, links to it, and enough voting power signed it.

The two signature schemes are parameters. Times are nanoseconds since the
epoch, as chrono holds them: a duration or a sum out of its range panics.
-/
import WillowSdk.LightClient
import WillowSdk.Lib.BigEndian
import Mathlib.Algebra.Ring.Int.Defs

namespace WillowSdk
namespace Headers

/-! ### Light blocks -/

structure PartSetHeader where
  total : UInt32
  hash : Bytes
deriving DecidableEq

structure BlockId where
  hash : Bytes
  parts : Option PartSetHeader
deriving DecidableEq

/-- A header: its height and app hash, which reads look at, and the rest. -/
structure Header extends LightClient.Header where
  chainId : String
  time : ℤ
  lastBlockId : Option BlockId
  validatorsHash : Bytes
  nextValidatorsHash : Bytes
deriving DecidableEq

/-- A validator's commit signature. -/
inductive CommitSig
  | blockIdFlagCommit (validatorAddress : Bytes) (timestamp : ℤ) (signature : Bytes)
  | blockIdFlagNil
  | blockIdFlagAbsent
deriving DecidableEq

structure Commit where
  height : UInt64
  round : UInt32
  blockId : BlockId
  signatures : List CommitSig
deriving DecidableEq

inductive PublicKey
  | ed25519 (bytes : Bytes)
  | secp256k1 (bytes : Bytes)
deriving DecidableEq

structure Validator where
  address : Bytes
  pubKey : PublicKey
  votingPower : UInt64
deriving DecidableEq

structure ValidatorSet where
  validators : List Validator
  totalVotingPower : UInt64
deriving DecidableEq

structure LightBlock where
  header : Header
  commit : Commit
  validators : ValidatorSet
deriving DecidableEq

/-- The settings that reads and the header check use. Durations are in
nanoseconds. -/
structure Config extends LightClient.LightClientConfig where
  chainId : String
  trustThreshold : ℕ × ℕ
  trustingPeriod : ℕ
  maxClockDrift : ℕ

/-! ### Times -/

/-- The longest `chrono::Duration`: `i64::MAX` milliseconds. -/
def maxTimeDelta : ℕ := (2 ^ 63 - 1) * 10 ^ 6

/-- The latest `DateTime<Utc>`: the end of the year 262142. -/
def maxDateTime : ℤ := 8210266876799 * 10 ^ 9 + 999999999

/-- `chrono::Duration::from_std(d).unwrap()`. -/
def fromStd (d : ℕ) : Checked ℤ := if d ≤ maxTimeDelta then .ok d else .error .panic

/-- A time plus a duration. -/
def addTime (time d : ℤ) : Checked ℤ := if time + d ≤ maxDateTime then .ok (time + d) else .error .panic

/-- `DateTime::timestamp_nanos_opt`. -/
def timestampNanos (time : ℤ) : Option ℤ :=
  if -2 ^ 63 ≤ time ∧ time < 2 ^ 63 then some time else none

/-! ### Signatures -/

/-- The signature schemes, and the SHA-256 of what the second signs. -/
structure Schemes where
  /-- `VerifyingKey::from_bytes` of a key, then whether it verifies a message
  and a signature. -/
  ed25519 : Bytes → Except String (Bytes → Bytes → Bool)
  /-- `PublicKey::from_slice` of a key, then whether it verifies a digest and
  what `Signature::from_compact` gave. -/
  secp256k1 : Bytes → Except String (Bytes → Bytes → Bool)
  /-- `Signature::from_compact`. -/
  fromCompact : Bytes → Except String Bytes
  sha256 : Bytes → Bytes

def littleEndian (k n : ℕ) : Bytes := (BigEndian.bytes k n).reverse

/-- An `i64`'s bytes. -/
def littleEndianInt (n : ℤ) : Bytes := littleEndian 8 (n % 2 ^ 64).toNat

section Verify

variable (schemes : Schemes) (config : Config)

/-- The canonical vote sign bytes for a commit. -/
def createVoteSignBytes (block : LightBlock) : Result Bytes := do
  let blockId := match block.header.lastBlockId with
    | some id => id.hash ++ List.replicate 32 0
    | none => List.replicate 64 0
  let nanos ← Outcome.okOr (timestampNanos block.header.time) (.lightClient "Invalid timestamp")
  .ok ([0x02] ++ littleEndian 8 block.header.height.toNat ++
    littleEndian 4 block.commit.round.toNat ++ blockId ++ littleEndianInt nanos ++
    Utf8.encode config.chainId)

/-- Verifies a validator's signature on a block. -/
def verifySignature (validator : Validator) (signature : Bytes) (block : LightBlock) :
    Result Bool := do
  let signBytes ← createVoteSignBytes config block
  match validator.pubKey with
  | .ed25519 key =>
    if key.length ≠ 32 ∨ signature.length ≠ 64 then .ok false
    else
      let verify ← (schemes.ed25519 key).mapError fun e => .lightClient s!"Invalid Ed25519 key: {e}"
      .ok (verify signBytes signature)
  | .secp256k1 key =>
    if (key.length ≠ 33 ∧ key.length ≠ 65) ∨ (signature.length ≠ 64 ∧ signature.length ≠ 65) then
      .ok false
    else
      let verify ← (schemes.secp256k1 key).mapError fun e =>
        .lightClient s!"Invalid Secp256k1 key: {e}"
      let sig ← (schemes.fromCompact (signature.take 64)).mapError fun e =>
        .lightClient s!"Invalid Secp256k1 signature: {e}"
      .ok (verify (schemes.sha256 signBytes) sig)

/-- The power signed so far, after one more signature. -/
def countSignature (block : LightBlock) (signedPower : ℕ) : CommitSig → Checked ℕ
  | .blockIdFlagCommit validatorAddress _ signature => do
    let validator ← Checked.lift (Outcome.okOr
      (block.validators.validators.find? fun v => v.address = validatorAddress)
      (.lightClient "Validator not found for signature"))
    let verified ← Checked.lift (verifySignature schemes config validator signature block)
    if verified then Checked.add signedPower validator.votingPower.toNat else .ok signedPower
  | .blockIdFlagNil | .blockIdFlagAbsent => .ok signedPower

/-- Verifies commit signatures: the signed power, and the total. -/
def verifyCommitSignatures (block : LightBlock) : Checked (ℕ × ℕ) := do
  let signedPower ← block.commit.signatures.foldlM (countSignature schemes config block) 0
  .ok (signedPower, block.validators.totalVotingPower.toNat)

def chainMismatch (expected got : String) : WillowError :=
  .lightClient s!"Chain ID mismatch: expected {expected}, got {got}"

def nonSequential (trusted untrusted : UInt64) : WillowError :=
  .lightClient s!"Non-sequential headers: {trusted} -> {untrusted}"

def insufficientPower (signed threshold : ℕ) : WillowError :=
  .lightClient s!"Insufficient voting power: {signed} < {threshold} required"

/-- Verifies an untrusted header against a trusted one, at a time. -/
def verifyHeader (now : ℤ) (trusted untrusted : LightBlock) : Checked Unit := do
  Checked.require (untrusted.header.chainId = config.chainId)
    (chainMismatch config.chainId untrusted.header.chainId)
  let next ← Checked.add trusted.header.height.toNat 1
  Checked.require (untrusted.header.height.toNat = next)
    (nonSequential trusted.header.height untrusted.header.height)
  Checked.require (trusted.header.time < untrusted.header.time)
    (.lightClient "Header time did not progress")
  let trustingPeriod ← fromStd config.trustingPeriod
  Checked.require (now - untrusted.header.time ≤ trustingPeriod)
    (.lightClient "Header is outside trusting period")
  let maxClockDrift ← fromStd config.maxClockDrift
  let latest ← addTime now maxClockDrift
  Checked.require (untrusted.header.time ≤ latest)
    (.lightClient "Header time is too far in the future")
  Checked.require (untrusted.header.validatorsHash = trusted.header.nextValidatorsHash)
    (.lightClient "Validator set hash mismatch")
  let (signedPower, totalPower) ← verifyCommitSignatures schemes config untrusted
  let scaled ← Checked.mul totalPower config.trustThreshold.1
  let thresholdPower ← Checked.divCeil scaled config.trustThreshold.2
  Checked.require (thresholdPower ≤ signedPower) (insufficientPower signedPower thresholdPower)

end Verify

/-! ### What an accepted header has passed -/

section Accepts

variable {schemes : Schemes} {config : Config} {now : ℤ} {trusted untrusted : LightBlock}

/-- What `verify_header` has found when it accepts. -/
structure Accepted (schemes : Schemes) (config : Config) (now : ℤ)
    (trusted untrusted : LightBlock) (signedPower totalPower : ℕ) : Prop where
  chainId_eq : untrusted.header.chainId = config.chainId
  height_eq : untrusted.header.height.toNat = trusted.header.height.toNat + 1
  time_lt : trusted.header.time < untrusted.header.time
  within_period : now - untrusted.header.time ≤ config.trustingPeriod
  within_drift : untrusted.header.time ≤ now + config.maxClockDrift
  links : untrusted.header.validatorsHash = trusted.header.nextValidatorsHash
  signatures : verifyCommitSignatures schemes config untrusted = .ok (signedPower, totalPower)
  enough : totalPower * config.trustThreshold.1 ≤ config.trustThreshold.2 * signedPower

theorem fromStd_eq_ok {d : ℕ} {t : ℤ} : fromStd d = .ok t ↔ d ≤ maxTimeDelta ∧ (d : ℤ) = t := by
  unfold fromStd
  by_cases h : d ≤ maxTimeDelta <;> simp [h]

theorem addTime_eq_ok {time d t : ℤ} :
    addTime time d = .ok t ↔ time + d ≤ maxDateTime ∧ time + d = t := by
  unfold addTime
  by_cases h : time + d ≤ maxDateTime <;> simp [h]

theorem verifyHeader_accepted
    (h : verifyHeader schemes config now trusted untrusted = .ok ()) :
    ∃ signedPower totalPower,
      Accepted schemes config now trusted untrusted signedPower totalPower := by
  unfold verifyHeader at h
  simp only [Outcome.bind_eq_ok, Checked.require_eq_ok, Checked.add_eq_ok, fromStd_eq_ok,
    addTime_eq_ok, Checked.mul_eq_ok, Checked.divCeil_eq_ok, Prod.exists] at h
  obtain ⟨_, hchain, next, ⟨-, rfl⟩, _, hheight, _, htime, period, ⟨-, rfl⟩, _, hage, drift,
    ⟨-, rfl⟩, latest, ⟨-, rfl⟩, _, hdrift, _, hlinks, signed, total, hsigs, scaled, ⟨-, rfl⟩,
    threshold, ⟨hden, rfl⟩, henough⟩ := h
  refine ⟨signed, total, hchain, hheight, htime, hage, hdrift, hlinks, hsigs, ?_⟩
  exact (Checked.ceil_le_iff (Nat.pos_of_ne_zero hden)).mp henough

end Accepts

end Headers
end WillowSdk
