/-
# Verifying one item at a path

`check_envelope`, `layer_at_path` and `verify_item_at_path`
(src/grovedb_envelope.rs). A proof passes if its envelope descends the path
and no further, every layer passes `check_ops`, the layer at the path carries
the key once, in a `KV` node, and grovedb's own verification gives exactly
the item of that node.
-/
import WillowSdk.Grove.Ops
import WillowSdk.Lib.Outcome
import WillowSdk.Lib.Utf8

namespace WillowSdk
namespace Grove

variable {D : Type}

/-- The length of an element a proof can't tell from a subtree or a
reference. -/
def ambiguousElementLen : ℕ := 63

/-- `ProveOptions::default().decrease_limit_on_empty_sub_query_result`. -/
def defaultProveOptions : Bool := true

/-- The layer reached by a path, from a layer `depth` segments down. -/
def descend (layer : LayerProof) (depth : ℕ) : List Bytes → Result LayerProof
  | [] => .ok layer
  | seg :: path => do
    let lower ← Outcome.okOr (layer.get seg) (envelopeError
      s!"no lower layer for path segment {depth} ({Utf8.lossy seg}); the proof does not descend to the query path")
    descend lower (depth + 1) path

/-- The layer at `path`, which the envelope must descend with no layer below
it, under the default prove options. -/
def layerAtPath (v0 : GroveDBProofV0) (path : List Bytes) : Result LayerProof := do
  if v0.proveOptions ≠ defaultProveOptions then
    .error (envelopeError "non-default prove_options")
  else
    let layer ← descend v0.rootLayer 0 path
    if layer.lowerLayers ≠ [] then
      .error (envelopeError "unexpected lower layers below the query path")
    else .ok layer

variable (deps : Deps D)

/-- Reject a proof envelope that does not descend `path`, carries layers
below it, or sets non-default prove options. -/
def checkEnvelope (proof : Bytes) (path : List Bytes) : Result Unit := do
  let v0 ← decodeEnvelope deps proof
  let _ ← layerAtPath v0 path
  .ok ()

/-- `b"subgroves"` -/
def subgroves : Bytes := [115, 117, 98, 103, 114, 111, 118, 101, 115]

/-- `b"data"` -/
def data : Bytes := [100, 97, 116, 97]

/-- Whether the subtree at `path` holds only Items: a subgrove's data tree. -/
def holdsOnlyItems : List Bytes → Bool
  | [s, _, d] => s = subgroves ∧ d = data
  | _ => false

def fail (m : String) : WillowError := .proofVerificationFailed m

/-- The node of a layer that carries `key`, refusing a second one. -/
def carriedNode (key : Bytes) : Option (Node D) → List (Result (Op D)) →
    Result (Option (Node D))
  | carried, [] => .ok carried
  | carried, op :: ops => do
    match (← op).pushed with
    | some node =>
      if node.key ≠ some key then carriedNode key carried ops
      else if carried.isSome then .error (fail "the proof carries the key twice")
      else carriedNode key (some node) ops
    | none => carriedNode key carried ops

/-- The value of the carried node, which must be a `KV`. -/
def boundValue : Option (Node D) → Result Bytes
  | some (.kv _ value) => .ok value
  | some _ => .error (fail
      "the proof carries the key's element in a node whose root doesn't bind its value")
  | none => .error (fail "the proof doesn't carry the key's element")

/-- The path, key and bytes of the only result, which must be an Item. -/
def onlyItem : List QueryResult → Result (List Bytes × Bytes × Bytes)
  | [(path, key, some (.item bytes _))] => .ok (path, key, bytes)
  | _ => .error (fail "the proof doesn't prove exactly one item at the path and key")

/-- The item's bytes, if the bound value decodes to an item with the same. -/
def sameItem (bytes : Bytes) : Result Element → Result Bytes
  | .ok (.item carried _) => if carried = bytes then .ok bytes else .error notBound
  | _ => .error notBound
where
  notBound := fail "the item grovedb returns is not the one the proof's root binds"

/-- Verify that `proof` proves an Item at `key` in the subtree at `path`, and
return the root it computes and the item's bytes. -/
def verifyItemAtPath (proof : Bytes) (path : List Bytes) (key : Bytes) : Result (D × Bytes) := do
  if proof = [] then .error (fail "empty proof")
  else
    let v0 ← decodeEnvelope deps proof
    let layer ← layerAtPath v0 path
    checkAllLayers deps (decodeElement deps) v0
    let carried ← carriedNode key none (layerOps deps layer)
    let value ← boundValue carried
    if value.length = ambiguousElementLen ∧ holdsOnlyItems path = false then
      .error (fail s!"the key's element is {ambiguousElementLen} bytes, which a proof can't tell from a subtree or a reference outside a subgrove's data tree")
    else
      let (root, results) ← (deps.verifyQuery proof path key).mapError fun e =>
        fail s!"GroveDB proof verification failed: {e}"
      let (resultPath, resultKey, bytes) ← onlyItem results
      if resultPath ≠ path ∨ resultKey ≠ key then
        .error (fail "the proof proves an item at another path or key")
      else
        let bytes ← sameItem bytes (decodeElement deps value)
        .ok (root, bytes)

/-! ### What an accepted proof has passed -/

variable {deps}

theorem layerAtPath_eq_ok {v0 : GroveDBProofV0} {path : List Bytes} {layer : LayerProof} :
    layerAtPath v0 path = .ok layer ↔ v0.proveOptions = defaultProveOptions ∧
      descend v0.rootLayer 0 path = .ok layer ∧ layer.lowerLayers = [] := by
  simp only [layerAtPath, Outcome.refuse_eq_ok, Outcome.bind_eq_ok, not_not, Except.ok.injEq]
  refine ⟨fun h => ?_, fun h => ?_⟩
  · obtain ⟨ho, l, hl, he, rfl⟩ := h
    exact ⟨ho, hl, he⟩
  · obtain ⟨ho, hl, he⟩ := h
    exact ⟨ho, layer, hl, he, rfl⟩

/-- Where the descent ends does not depend on the depth its errors name. -/
theorem descend_within {layer final : LayerProof} {path : List Bytes} {depth : ℕ}
    (h : descend layer depth path = .ok final) : LayerProof.Within layer final := by
  induction path generalizing layer depth with
  | nil =>
    rw [descend, Except.ok.injEq] at h
    rw [h]
    exact .root
  | cons seg path ih =>
    simp only [descend, Outcome.bind_eq_ok, Outcome.okOr_eq_ok] at h
    obtain ⟨lower, hl, h⟩ := h
    have hmem : (seg, lower) ∈ layer.lowerLayers := LayerProof.mem_of_get hl
    exact .of_lower hmem (ih h)

/-- The carried node is one an op of the layer pushes, and it has the key. -/
theorem carriedNode_mem {key : Bytes} {node : Node D} {ops : List (Result (Op D))} :
    ∀ {carried : Option (Node D)}, carriedNode key carried ops = .ok (some node) →
      carried = some node ∨ (∃ op, .ok op ∈ ops ∧ op.pushed = some node) ∧ node.key = some key := by
  induction ops with
  | nil =>
    intro carried h
    have hsame : carried = some node := by simpa [carriedNode] using h
    exact .inl hsame
  | cons op ops ih =>
    intro carried h
    simp only [carriedNode, Outcome.bind_eq_ok] at h
    obtain ⟨op, rfl, h⟩ := h
    have hrest : ∀ {carried' : Option (Node D)}, carriedNode key carried' ops = .ok (some node) →
        carried' = some node ∨
          (∃ o, .ok o ∈ .ok op :: ops ∧ o.pushed = some node) ∧ node.key = some key := by
      intro carried' h
      rcases ih h with h | ⟨⟨o, ho, hp⟩, hk⟩
      · exact .inl h
      · exact .inr ⟨⟨o, List.mem_cons_of_mem _ ho, hp⟩, hk⟩
    cases hpush : op.pushed with
    | none =>
      rw [hpush] at h
      exact hrest h
    | some n =>
      rw [hpush] at h
      by_cases hk : n.key = some key
      · simp only [hk, ne_eq, not_true, if_false, Outcome.refuse_eq_ok] at h
        rcases hrest h.2 with hn | hn
        · obtain rfl : n = node := by simpa using hn
          exact .inr ⟨⟨op, List.mem_cons_self, hpush⟩, hk⟩
        · exact .inr hn
      · simp only [ne_eq, hk, not_false_eq_true, if_true] at h
        exact hrest h

theorem boundValue_eq_ok {carried : Option (Node D)} {value : Bytes} :
    boundValue carried = .ok value ↔ ∃ key, carried = some (.kv key value) := by
  rcases carried with _ | (_ | _ | _ | _ | _ | _ | _) <;> simp [boundValue]

theorem onlyItem_eq_ok {results : List QueryResult} {path : List Bytes} {key bytes : Bytes} :
    onlyItem results = .ok (path, key, bytes) ↔
      ∃ flags, results = [(path, key, some (.item bytes flags))] := by
  match results with
  | [] => simp [onlyItem]
  | [(p, k, none)] => simp [onlyItem]
  | [(p, k, some (.other e))] => simp [onlyItem]
  | [(p, k, some (.item b f))] => simp [onlyItem]
  | _ :: _ :: _ => simp [onlyItem]

theorem sameItem_eq_ok {bytes b : Bytes} {e : Result Element} :
    sameItem bytes e = .ok b ↔ b = bytes ∧ ∃ flags, e = .ok (.item bytes flags) := by
  match e with
  | .error _ => simp [sameItem]
  | .ok (.other _) => simp [sameItem]
  | .ok (.item c f) =>
    by_cases h : c = bytes
    · simp [sameItem, h, eq_comm]
    · simp [sameItem, h]

/-- What `verify_item_at_path` has found when it accepts: the envelope, the
layer at the path, and the value its one node with the key carries. -/
structure Accepted (deps : Deps D) (proof : Bytes) (path : List Bytes) (key : Bytes)
    (root : D) (bytes : Bytes) (v0 : GroveDBProofV0) (layer : LayerProof) (value : Bytes) :
    Prop where
  nonempty : proof ≠ []
  decodes : decodeEnvelope deps proof = .ok v0
  atPath : layerAtPath v0 path = .ok layer
  checked : checkAllLayers deps (decodeElement deps) v0 = .ok ()
  carried : carriedNode key none (layerOps deps layer) = .ok (some (.kv key value))
  unambiguous : value.length = ambiguousElementLen → holdsOnlyItems path = true
  verified : ∃ flags, deps.verifyQuery proof path key =
    .ok (root, [(path, key, some (.item bytes flags))])
  isItem : ∃ flags, decodeElement deps value = .ok (.item bytes flags)

theorem verifyItemAtPath_eq_ok {proof : Bytes} {path : List Bytes} {key : Bytes} {root : D}
    {bytes : Bytes} :
    verifyItemAtPath deps proof path key = .ok (root, bytes) ↔
      ∃ v0 layer value, Accepted deps proof path key root bytes v0 layer value := by
  simp only [verifyItemAtPath, Outcome.refuse_eq_ok, Outcome.bind_eq_ok, Outcome.mapError_eq_ok,
    boundValue_eq_ok, Prod.exists, onlyItem_eq_ok, sameItem_eq_ok, Except.ok.injEq, Prod.mk.injEq]
  refine ⟨fun h => ?_, fun h => ?_⟩
  · obtain ⟨hne, v0, hv, layer, hl, ⟨⟩, hc, carried, hk, value, ⟨k, rfl⟩, ha, r, results, hq, p,
      q, b, ⟨flags, rfl⟩, hpq, _, ⟨rfl, hi⟩, rfl, rfl⟩ := h
    obtain ⟨rfl, rfl⟩ : p = path ∧ q = key := by
      simpa only [not_or, ne_eq, not_not] using hpq
    refine ⟨v0, layer, value, hne, hv, hl, hc, ?_, ?_, ⟨flags, hq⟩, hi⟩
    · obtain ⟨-, rfl⟩ : _ ∧ k = q := by simpa [Node.key] using carriedNode_mem hk
      exact hk
    · simpa using ha
  · obtain ⟨v0, layer, value, h⟩ := h
    obtain ⟨flags, hq⟩ := h.verified
    refine ⟨h.nonempty, v0, h.decodes, layer, h.atPath, (), h.checked, _, h.carried, value,
      ⟨key, rfl⟩, ?_, root, _, hq, path, key, bytes, ⟨flags, rfl⟩, by simp, bytes,
      ⟨rfl, h.isItem⟩, rfl, rfl⟩
    simpa using h.unambiguous

end Grove
end WillowSdk
