/-
# The scan of an envelope's encoding

`scan_envelope` (src/grovedb_envelope.rs) bounds-checks an envelope's bytes
before anything decodes them, without recursion: it keeps, for each layer
being read from the root down, how many of its lower layers are left, and
its outer loop reads one layer's ops and count at a time.
-/
import WillowSdk.Grove.Layer

namespace WillowSdk
namespace Grove

/-- The deepest a proof's layers may nest below its root layer. -/
def maxLayerDepth : ℕ := 64

/-- The most layers a proof may carry in all. -/
def maxLayers : ℕ := 1024

/-- The largest proof envelope accepted, in bytes: 1 MiB. -/
def maxProofBytes : ℕ := 1 <<< 20

def envelopeError (m : String) : WillowError :=
  .proofVerificationFailed s!"GroveDB envelope: {m}"

namespace Scan

/-- The first `n` bytes, and the rest. -/
def take (n : ℕ) (bytes : Bytes) : Result (Bytes × Bytes) :=
  if n > bytes.length then
    .error (envelopeError s!"a length of {n} with {bytes.length} bytes left")
  else .ok (bytes.take n, bytes.drop n)

def skip (n : ℕ) (bytes : Bytes) : Result Bytes :=
  Prod.snd <$> take n bytes

/-- A big-endian number, at most 8 bytes of it. -/
def bigEndian (bytes : Bytes) : ℕ :=
  bytes.foldl (fun v b => v <<< 8 ||| b.toNat) 0

/-- How many bytes of number follow a varint's tag. -/
def tagWidth (tag : UInt8) : Result ℕ :=
  if tag = 251 then .ok 2
  else if tag = 252 then .ok 4
  else if tag = 253 then .ok 8
  else .error (envelopeError s!"varint tag {tag}")

/-- bincode 2's varint: one byte below 251, else 251, 252, or 253 then a
big-endian u16, u32, or u64. -/
def varint (bytes : Bytes) : Result (ℕ × Bytes) := do
  let (taken, bytes) ← take 1 bytes
  let tag := taken.headD 0
  if tag ≤ 250 then .ok (tag.toNat, bytes)
  else
    let width ← tagWidth tag
    let (number, bytes) ← take width bytes
    .ok (bigEndian number, bytes)

/-- A byte string's length, which must fit in the bytes left. -/
def len (bytes : Bytes) : Result (ℕ × Bytes) := do
  let (n, bytes) ← varint bytes
  if n > bytes.length then
    .error (envelopeError s!"a length of {n} with {bytes.length} bytes left")
  else .ok (n, bytes)

/-- The inner loop: the layers with no lower layer left are closed, and the
key of the next lower layer is read; `none` when every layer is closed. -/
def nextLower : List ℕ → Bytes → Result (Option (List ℕ × Bytes))
  | [], _ => .ok none
  | 0 :: opened, bytes => nextLower opened bytes
  | (left + 1) :: opened, bytes => do
    let (key, bytes) ← len bytes
    let bytes ← skip key bytes
    .ok (some (left :: opened, bytes))

/-- The `'layer` loop, from a layer's first byte, with `opened` the lower
layers left of the layers being read (the innermost first) and `layers` the
layers read before. It ends because it reads at most `maxLayers`. -/
def readLayers (bytes : Bytes) (opened : List ℕ) (layers : ℕ) : Result Bytes :=
  if _h : layers + 1 > maxLayers then
    .error (envelopeError s!"more than {maxLayers} layers")
  else if opened.length > maxLayerDepth then
    .error (envelopeError s!"layers nest deeper than {maxLayerDepth}")
  else do
    let (merkProof, bytes) ← len bytes
    let bytes ← skip merkProof bytes
    let (lower, bytes) ← varint bytes
    -- a lower layer takes at least 3 bytes
    if lower > bytes.length / 3 then
      .error (envelopeError s!"{lower} lower layers in {bytes.length} bytes")
    else
      match ← nextLower (lower :: opened) bytes with
      | none => .ok bytes
      | some (opened, bytes) => readLayers bytes opened (layers + 1)
termination_by maxLayers - layers
decreasing_by omega

end Scan

open Scan

def scanEnvelope (proof : Bytes) : Result Unit := do
  if proof.length > maxProofBytes then
    .error (envelopeError s!"{proof.length} bytes; at most {maxProofBytes} are accepted")
  else
    let (version, bytes) ← varint proof
    if version ≠ 0 then
      .error (envelopeError "not a V0 proof")
    else
      let bytes ← readLayers bytes [] 0
      let (options, bytes) ← take 1 bytes
      if options ≠ [0] ∧ options ≠ [1] then
        .error (envelopeError "prove_options is not a boolean")
      else if ¬ bytes.isEmpty then
        .error (envelopeError s!"{bytes.length} trailing bytes")
      else .ok ()

end Grove
end WillowSdk
