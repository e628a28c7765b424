/-
# The checks that hold whatever grovedb answers

`verify_item_at_path` (src/grovedb_envelope.rs) reads a proof's bytes four
times: the scan, the decoding, the walk over the layers, and the ops of the
layer at the path. What it has found when it accepts (`OwnChecks`) takes no
assumption on `GroveDb::verify_query`, nor on the decoders.
-/
import WillowSdk.Grove.Binding

namespace WillowSdk
namespace Grove

variable {D : Type}

namespace LayerProof

/-- The layer at a path below a layer. -/
def layerAt (layer : LayerProof) : List Bytes → Option LayerProof
  | [] => some layer
  | seg :: path => (layer.get seg).bind fun lower => lower.layerAt path

theorem layerAt_append (layer : LayerProof) (path rest : List Bytes) :
    layer.layerAt (path ++ rest) = (layer.layerAt path).bind fun l => l.layerAt rest := by
  induction path generalizing layer with
  | nil => rfl
  | cons seg path ih =>
    rw [List.cons_append, layerAt, layerAt, Option.bind_assoc]
    simp only [ih]

/-- There is a layer at each path on the way to one. -/
theorem layerAt_isSome_of_isPrefix {layer l : LayerProof} {path upper : List Bytes}
    (h : layer.layerAt path = some l) (hupper : upper <+: path) :
    (layer.layerAt upper).isSome = true := by
  obtain ⟨rest, rfl⟩ := hupper
  rw [layerAt_append, Option.bind_eq_some_iff] at h
  obtain ⟨m, hm, -⟩ := h
  rw [hm]
  rfl

/-- There is none below a layer with no lower layers. -/
theorem layerAt_below {layer l : LayerProof} {path : List Bytes} (h : layer.layerAt path = some l)
    (hlast : l.lowerLayers = []) (seg : Bytes) (rest : List Bytes) :
    layer.layerAt (path ++ seg :: rest) = none := by
  have hget : l.get seg = none := by
    rw [get, hlast]
    rfl
  rw [layerAt_append, h]
  show (l.get seg).bind _ = none
  rw [hget]
  rfl

end LayerProof

theorem descend_eq_ok {layer final : LayerProof} {path : List Bytes} {depth : ℕ} :
    descend layer depth path = .ok final ↔ layer.layerAt path = some final := by
  induction path generalizing layer depth with
  | nil => simp [descend, LayerProof.layerAt]
  | cons seg path ih =>
    simp only [descend, Outcome.bind_eq_ok, Outcome.okOr_eq_ok, ih, LayerProof.layerAt,
      Option.bind_eq_some_iff]

/-- The nodes a layer's ops push, with this key. -/
def pushedWith (key : Bytes) (ops : List (Op D)) : List (Node D) :=
  (ops.filterMap Op.pushed).filter fun node => node.key = some key

/-- The walk over the ops finds the one node with the key, if it ends. -/
theorem carriedNode_eq_ok {key : Bytes} {ops : List (Result (Op D))} {node : Node D} :
    ∀ {carried : Option (Node D)}, carriedNode key carried ops = .ok (some node) →
      ∃ ops', ops = ops'.map .ok ∧ carried.toList ++ pushedWith key ops' = [node] := by
  induction ops with
  | nil =>
    intro carried h
    obtain rfl : carried = some node := Except.ok.inj h
    exact ⟨[], rfl, rfl⟩
  | cons op ops ih =>
    intro carried h
    rw [carriedNode, Outcome.bind_eq_ok] at h
    obtain ⟨op, rfl, h⟩ := h
    -- where the op pushes nothing with the key, the walk goes on as it was
    have hpass : carriedNode key carried ops = .ok (some node) →
        pushedWith key [op] = [] →
        ∃ ops', .ok op :: ops = ops'.map .ok ∧ carried.toList ++ pushedWith key ops' = [node] := by
      intro hrest hnone
      obtain ⟨ops', rfl, hfound⟩ := ih hrest
      refine ⟨op :: ops', rfl, ?_⟩
      have hsplit : pushedWith key (op :: ops') = pushedWith key [op] ++ pushedWith key ops' := by
        unfold pushedWith
        rw [← List.singleton_append, List.filterMap_append, List.filter_append]
      rw [hsplit, hnone]
      exact hfound
    cases hpush : op.pushed with
    | none =>
      rw [hpush] at h
      exact hpass h (by simp [pushedWith, hpush])
    | some pushed =>
      rw [hpush] at h
      by_cases hkey : pushed.key = some key
      · simp only [hkey, ne_eq, not_true, if_false, Outcome.refuse_eq_ok] at h
        obtain ⟨hfirst, hrest⟩ := h
        obtain rfl : carried = none := by simpa using hfirst
        obtain ⟨ops', rfl, hfound⟩ := ih hrest
        refine ⟨op :: ops', rfl, ?_⟩
        simpa [pushedWith, hpush, hkey] using hfound
      · simp only [ne_eq, hkey, not_false_eq_true, if_true] at h
        exact hpass h (by simp [pushedWith, hpush, hkey])

/-- What `verify_item_at_path` has found by itself in a proof it accepts: its
envelope, the layer at the path and its ops, and the value of the one node
with the key there. -/
structure OwnChecks (deps : Deps D) (proof : Bytes) (path : List Bytes) (key : Bytes) (root : D)
    (bytes : Bytes) (v0 : GroveDBProofV0) (layer : LayerProof) (ops : List (Op D))
    (value : Bytes) : Prop where
  decodes : decodeEnvelope deps proof = .ok v0
  options : v0.proveOptions = defaultProveOptions
  /-- A layer at each prefix of the path. -/
  upper : ∀ upper, upper <+: path → (v0.rootLayer.layerAt upper).isSome = true
  atPath : v0.rootLayer.layerAt path = some layer
  below : ∀ seg rest, v0.rootLayer.layerAt (path ++ seg :: rest) = none
  /-- Every layer anywhere in the envelope, off the path too. -/
  checked : ∀ l, LayerProof.Within v0.rootLayer l →
    checkOps (decodeElement deps) [] (layerOps deps l) = .ok ()
  opsDecode : layerOps deps layer = ops.map .ok
  /-- Of all the nodes pushed there, one has the key, and it is a `KV`. -/
  carried : pushedWith key ops = [.kv key value]
  isItem : ∃ flags, value.length ≤ maxElementBytes ∧
    deps.decodeElement (elementClass value) value = .ok (.item bytes flags)
  unambiguous : value.length = 63 → ∃ subgroveId, path = [subgroves, subgroveId, data]
  verified : ∃ flags, deps.verifyQuery proof path key =
    .ok (root, [(path, key, some (.item bytes flags))])

theorem holdsOnlyItems_eq_true {path : List Bytes} (h : holdsOnlyItems path = true) :
    ∃ subgroveId, path = [subgroves, subgroveId, data] := by
  match path with
  | [s, subgroveId, d] =>
    obtain ⟨rfl, rfl⟩ : s = subgroves ∧ d = data := by simpa [holdsOnlyItems] using h
    exact ⟨subgroveId, rfl⟩

/-- **The SDK's own checks hold, whatever grovedb answers.** -/
theorem verify_item_at_path_keeps_own_checks (deps : Deps D) (proof : Bytes) (path : List Bytes)
    (key : Bytes) (root : D) (bytes : Bytes)
    (h : verifyItemAtPath deps proof path key = .ok (root, bytes)) :
    ∃ v0 layer ops value, OwnChecks deps proof path key root bytes v0 layer ops value := by
  obtain ⟨v0, layer, value, haccepted⟩ := verifyItemAtPath_eq_ok.mp h
  obtain ⟨hoptions, hdescend, hlast⟩ := layerAtPath_eq_ok.mp haccepted.atPath
  obtain ⟨ops, hops, hcarried⟩ := carriedNode_eq_ok haccepted.carried
  have hat : v0.rootLayer.layerAt path = some layer := descend_eq_ok.mp hdescend
  have hlayers : ∀ l, LayerProof.Within v0.rootLayer l →
      checkOps (decodeElement deps) [] (layerOps deps l) = .ok () := by
    intro l hl
    exact checkOps_iff.mpr
      ((checkLayersFrom_eq_ok deps (decodeElement deps) [v0.rootLayer]).mp haccepted.checked
        v0.rootLayer List.mem_cons_self l hl)
  obtain ⟨flags, hitem⟩ := haccepted.isItem
  exact ⟨v0, layer, ops, value, {
    decodes := haccepted.decodes
    options := hoptions
    upper := fun _ hupper => LayerProof.layerAt_isSome_of_isPrefix hat hupper
    atPath := hat
    below := LayerProof.layerAt_below hat hlast
    checked := hlayers
    opsDecode := hops
    carried := hcarried
    isItem := ⟨flags, decodeElement_eq_ok.mp hitem⟩
    unambiguous := fun hlen => holdsOnlyItems_eq_true (haccepted.unambiguous hlen)
    verified := haccepted.verified }⟩

theorem verify_item_at_path_keeps_own_checks_sample :
    ∃ v0 layer ops value, OwnChecks Sample.deps Sample.proof Sample.path Sample.key
      (Sample.state.root Sample.hashing) Sample.value v0 layer ops value :=
  verify_item_at_path_keeps_own_checks Sample.deps Sample.proof Sample.path Sample.key _ _
    Sample.accepted

end Grove
end WillowSdk
