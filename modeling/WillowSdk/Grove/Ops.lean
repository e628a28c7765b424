/-
# A layer's merk ops, and the SDK's checks of them

`decode_envelope`, `decode_element`, `check_ops` and `check_layers`
(src/grovedb_envelope.rs). The SDK calls bincode to decode an envelope and
the elements in it, grovedb-merk to decode a layer's ops, and grovedb to
verify a query: `Deps` is those functions. A digest is any type `D`.
-/
import WillowSdk.Grove.Scan
import WillowSdk.Lib.Outcome
import Mathlib.Data.Nat.Log

namespace WillowSdk
namespace Grove

/-- A GroveDB element: an Item, or any other, which the SDK refuses. -/
inductive Element
  | item (value : Bytes) (flags : Option Bytes)
  | other (encoding : Bytes)
deriving DecidableEq, Repr

/-- A node of a merk proof (`grovedb_merk::proofs::Node`); the feature type
of a `KVValueHashFeatureType` is not read. -/
inductive Node (D : Type)
  | hash (h : D)
  | kvHash (h : D)
  | kvDigest (key : Bytes) (valueHash : D)
  | kv (key value : Bytes)
  | kvValueHash (key value : Bytes) (valueHash : D)
  | kvValueHashFeatureType (key value : Bytes) (valueHash : D)
  | kvRefValueHash (key value : Bytes) (valueHash : D)
deriving DecidableEq, Repr

inductive Op (D : Type)
  | push (node : Node D)
  | pushInverted (node : Node D)
  | parent
  | child
  | parentInverted
  | childInverted
deriving DecidableEq, Repr

variable {D : Type}

namespace Node

/-- Whether a node is an opaque `Hash`. -/
def isHash : Node D → Bool
  | .hash _ => true
  | _ => false

/-- The key of a node that carries one. -/
def key : Node D → Option Bytes
  | .kv k _ | .kvValueHash k _ _ | .kvValueHashFeatureType k _ _ | .kvRefValueHash k _ _
  | .kvDigest k _ => some k
  | .hash _ | .kvHash _ => none

/-- The value of a node that carries one. -/
def value : Node D → Option Bytes
  | .kv _ v | .kvValueHash _ v _ | .kvValueHashFeatureType _ v _ | .kvRefValueHash _ v _ => some v
  | .hash _ | .kvHash _ | .kvDigest _ _ => none

end Node

/-- The node an op pushes. -/
def Op.pushed : Op D → Option (Node D)
  | .push node | .pushInverted node => some node
  | _ => none

/-- One result of a query: its path, its key, and the element proven there. -/
abbrev QueryResult := List Bytes × Bytes × Option Element

/-- What the SDK calls of bincode, grovedb-merk and grovedb. -/
structure Deps (D : Type) where
  /-- `bincode2::decode_from_slice` of an envelope, with how many bytes it
  used, under the SDK's claim limit. -/
  decodeProof : Bytes → Except String (GroveDBProofV0 × ℕ)
  /-- `bincode2::decode_from_slice` of an element under a claim limit. -/
  decodeElement : ℕ → Bytes → Except String Element
  /-- `grovedb_merk::proofs::Decoder`: the ops as they are read. -/
  decodeOps : Bytes → List (Except String (Op D))
  /-- `GroveDb::verify_query` of a single key at a path: the root it computes
  and the results. -/
  verifyQuery : Bytes → List Bytes → Bytes → Except String (D × List QueryResult)

variable (deps : Deps D)

/-- The proof envelope, refusing trailing bytes. Only an envelope the scan
passes is decoded. -/
def decodeEnvelope (proof : Bytes) : Result GroveDBProofV0 := do
  scanEnvelope proof
  let (v0, used) ← (deps.decodeProof proof).mapError envelopeError
  if used ≠ proof.length then
    .error (envelopeError s!"{proof.length - used} trailing bytes")
  else .ok v0

def layerError (m : String) : WillowError :=
  .proofVerificationFailed s!"GroveDB layer: {m}"

/-- The largest merk node value accepted. -/
def maxElementBytes : ℕ := maxProofBytes

/-- The claim limit of a value: the smallest power of two at least 32 times
its length, at least 1 KiB. -/
def elementClass (value : Bytes) : ℕ := 2 ^ Nat.clog 2 (max (value.length * 32) (1 <<< 10))

/-- A merk node's value as the GroveDB element it encodes, decoded within a
bound proportional to the value's own size. -/
def decodeElement (value : Bytes) : Result Element :=
  if value.length > maxElementBytes then
    .error (layerError s!"a node value of {value.length} bytes")
  else
    let decoded := if elementClass value ∈ (List.range' 10 16).map (1 <<< ·)
      then deps.decodeElement (elementClass value) value
      else .error "LimitExceeded"
    decoded.mapError fun e => layerError s!"a node value that is not an element: {e}"

/-- Every value that is not too long has a class. -/
theorem elementClass_mem {value : Bytes} (h : value.length ≤ maxElementBytes) :
    elementClass value ∈ (List.range' 10 16).map (1 <<< ·) := by
  have hclog : 10 ≤ Nat.clog 2 (max (value.length * 32) (1 <<< 10)) :=
    calc 10 = Nat.clog 2 (1 <<< 10) := (Nat.clog_pow 2 10 (by omega)).symm
      _ ≤ _ := Nat.clog_mono_right 2 (le_max_right _ _)
  have hclog' : Nat.clog 2 (max (value.length * 32) (1 <<< 10)) ≤ 25 := by
    refine (Nat.clog_le_iff_le_pow (by omega)).mpr ?_
    simp only [maxElementBytes, maxProofBytes, Nat.shiftLeft_eq] at h ⊢
    exact Nat.max_le.mpr ⟨by omega, by omega⟩
  refine List.mem_map.mpr ⟨_, List.mem_range'_1.mpr ⟨hclog, by omega⟩, ?_⟩
  simp [elementClass, Nat.shiftLeft_eq]

variable {deps} in
theorem decodeElement_eq_ok {value : Bytes} {e : Element} :
    decodeElement deps value = .ok e ↔
      value.length ≤ maxElementBytes ∧ deps.decodeElement (elementClass value) value = .ok e := by
  rw [decodeElement]
  simp only [gt_iff_lt, Outcome.refuse_eq_ok, not_lt, Outcome.mapError_eq_ok]
  refine and_congr_right fun h => ?_
  rw [if_pos (elementClass_mem h)]

/-- One layer's merk ops, decoded one at a time as they are read. -/
def layerOps (layer : LayerProof) : List (Result (Op D)) :=
  (deps.decodeOps layer.merkProof).map (Except.mapError layerError)

section Check

-- `decode_element`, as the checks use it: it accepts a value or refuses it
variable (decode : Bytes → Result Element)

/-- What one op does to the stack: an entry says whether the node at the top
of that subtree is an opaque Hash. Parent ops pop the parent first; Child
ops pop the child first. -/
def checkOp (stack : List Bool) : Op D → Result (List Bool)
  | .push node | .pushInverted node => do
    match node.value with
    | some value => let _ ← decode value
    | none => pure ()
    .ok (node.isHash :: stack)
  | .parent | .parentInverted =>
    match stack with
    | parent :: _child :: stack =>
      if parent then .error (layerError "a child attached to an opaque Hash node")
      else .ok (parent :: stack)
    | _ => .error (layerError "a Parent op with fewer than two nodes")
  | .child | .childInverted =>
    match stack with
    | _child :: parent :: stack =>
      if parent then .error (layerError "a child attached to an opaque Hash node")
      else .ok (parent :: stack)
    | _ => .error (layerError "a Child op with fewer than two nodes")

/-- Refuse a layer whose ops attach a child to an opaque `Hash` node, or
don't build one tree, or carry a value that doesn't decode as an element
within its size. -/
def checkOps : List Bool → List (Result (Op D)) → Result Unit
  | stack, [] =>
    if stack.length ≠ 1 then .error (layerError "the ops don't build exactly one tree") else .ok ()
  | stack, op :: ops => do
    let op ← op
    let stack ← checkOp decode stack op
    checkOps stack ops

/-- The work list of `check_all_layers`, its last entry first: a layer is
popped, checked, and its lower layers are pushed in key order. -/
def checkLayersFrom : List LayerProof → Result Unit
  | [] => .ok ()
  | layer :: layers => do
    checkOps decode [] (layerOps deps layer)
    checkLayersFrom ((layer.lowerLayers.map Prod.snd).reverse ++ layers)
termination_by layers => (layers.map LayerProof.count).sum
decreasing_by
  simp only [List.map_append, List.map_reverse, List.map_map, List.sum_append, List.sum_reverse,
    List.map_cons, List.sum_cons, LayerProof.count_eq layer]
  simp only [Function.comp_def]
  omega

def checkAllLayers (v0 : GroveDBProofV0) : Result Unit :=
  checkLayersFrom deps decode [v0.rootLayer]

/-- Refuse a proof any of whose layers fails `checkOps`. -/
def checkLayers (proof : Bytes) : Result Unit := do
  let v0 ← decodeEnvelope deps proof
  checkAllLayers deps decode v0

end Check

end Grove
end WillowSdk
