/-
# When a proof descends only through subtrees

A value of 63 bytes and a pair of hashes are the same 64 bytes to the hash
function. `verify_item_at_path` (src/grovedb_envelope.rs) refuses an ambiguous
element at the key, but not at the segments of the path, where grovedb only
compares a carried hash: an accepted proof descends through subtrees of the
state exactly when no segment is stored as an element of 63 bytes or as a
reference (`subtrees_iff_unmistakable`). An Item of 60 bytes whose hash is
ground to match is descended as a subtree (`item_descended_as_subtree`).
-/
import WillowSdk.Grove.Binding

namespace WillowSdk
namespace Grove

/-- **What an accepted proof descends.** For every committed state with unique
keys and an accepted proof with the state's root, the state stores a subtree
at every segment of the path exactly when it stores no mistakable element at
one. -/
theorem subtrees_iff_unmistakable {D : Type} (H : Hashing D) (deps : Deps D) (hH : H.Sound)
    (hverify : VerifyContract H deps) (state : Merk D) (proof : Bytes) (path : List Bytes)
    (key bytes : Bytes) (root : D) (hunique : state.UniqueKeys)
    (hok : verifyItemAtPath deps proof path key = .ok (root, bytes))
    (hroot : root = state.root H) : state.SubtreesAlong path ↔ state.Unmistakable path := by
  refine ⟨fun h => h.unmistakable, fun h => ?_⟩
  obtain ⟨v0, layer, value, haccepted⟩ := verifyItemAtPath_eq_ok.mp hok
  obtain ⟨final, tree, -, -, ht, -⟩ := haccepted.reaches hH hverify hroot hunique h
  exact .of_subtreeAt ht

theorem subtrees_iff_unmistakable_sample :
    Sample.state.SubtreesAlong Sample.path ↔ Sample.state.Unmistakable Sample.path :=
  subtrees_iff_unmistakable Sample.hashing Sample.deps Sample.hashing_sound Sample.verifyContract
    Sample.state Sample.proof Sample.path Sample.key Sample.value _ Sample.uniqueKeys
    Sample.accepted rfl

/-! ### An Item presented as a subtree

A data tree holds a 60-byte Item under `f`, ground so that its value hash is
`combine_hash` of a tree element's and of the root of a tree that holds the
item `1` under `k`. The proof descends through `f` to that item. -/

namespace Forged

open Sample (Digest)

/-- `b"f"` -/
def slot : Bytes := [102]

/-- What someone stores under `f`. -/
def stored : Bytes := List.replicate 60 7

/-- The Item of it, without flags. -/
def ground : Bytes := 0 :: 60 :: (stored ++ [0])

/-- The hashes, where the one of the ground item collides. -/
def hashing : Hashing Digest where
  null := .null
  value v :=
    if v = ground then .combine (.value (Sample.tree Sample.key)) (Sample.leaf.root Sample.hashing)
    else .value v
  kvDigest := .kvDigest
  node := .node
  combine := .combine

def dataLeaf : Merk Digest := .node .empty slot (.plain ground) .empty

def state : Merk Digest :=
  Sample.above subgroves Sample.sg (Sample.above Sample.sg data (Sample.above data slot dataLeaf))

def path : List Bytes := [subgroves, Sample.sg, data, slot]

def slotLayer : LayerProof :=
  .mk (Sample.segOps slot Sample.key 1) [(slot, Sample.leafLayer)]

def dataLayer : LayerProof := .mk (Sample.segOps data slot 2) [(data, slotLayer)]

def sgLayer : LayerProof := .mk (Sample.segOps Sample.sg data 3) [(Sample.sg, dataLayer)]

def rootLayer : LayerProof := .mk (Sample.segOps subgroves Sample.sg 4) [(subgroves, sgLayer)]

def layerBytes : Bytes :=
  Sample.withLower (Sample.segOps subgroves Sample.sg 4) subgroves
    (Sample.withLower (Sample.segOps Sample.sg data 3) Sample.sg
      (Sample.withLower (Sample.segOps data slot 2) data
        (Sample.withLower (Sample.segOps slot Sample.key 1) slot Sample.leafBytes)))

def proof : Bytes := [0] ++ (layerBytes ++ [1])

/-- The node that proves a subtree, by its root. -/
def segNode (seg rootKey : Bytes) (child : Merk Digest) : Node Digest :=
  .kvValueHash seg (Sample.tree rootKey)
    (hashing.combine (hashing.value (Sample.tree rootKey)) (child.root hashing))

/-- The one op of a layer, by its bytes. -/
def opOf (ops : Bytes) : Option (Op Digest) :=
  if ops = Sample.leafLayer.merkProof then some (.push (.kv Sample.key Sample.item))
  else if ops = slotLayer.merkProof then some (.push (segNode slot Sample.key Sample.leaf))
  else if ops = dataLayer.merkProof then some (.push (segNode data slot dataLeaf))
  else if ops = sgLayer.merkProof then
    some (.push (segNode Sample.sg data (Sample.above data slot dataLeaf)))
  else if ops = rootLayer.merkProof then
    some (.push (segNode subgroves Sample.sg
      (Sample.above Sample.sg data (Sample.above data slot dataLeaf))))
  else none

def deps : Deps Digest where
  decodeProof bytes :=
    if bytes = proof then .ok (⟨rootLayer, true⟩, proof.length) else .error "UnexpectedEnd"
  decodeElement limit bytes :=
    if bytes = ground then .ok (.item stored none) else Sample.deps.decodeElement limit bytes
  decodeOps ops :=
    match opOf ops with
    | some op => [.ok op]
    | none => [.error "unexpected op"]
  verifyQuery bytes p k :=
    if bytes = proof ∧ p = path ∧ k = Sample.key then
      .ok (state.root hashing, [(path, Sample.key, some (.item Sample.value none))])
    else .error "another proof or query"

/-- Only the ground item's hash is one of a pair. -/
theorem value_cases (v : Bytes) :
    (v = ground ∧ hashing.value v =
      .combine (.value (Sample.tree Sample.key)) (Sample.leaf.root Sample.hashing)) ∨
    (v ≠ ground ∧ hashing.value v = .value v) := by
  by_cases h : v = ground
  · exact .inl ⟨h, if_pos h⟩
  · exact .inr ⟨h, if_neg h⟩

theorem hashing_sound : hashing.Sound where
  binding :=
    { kv_inj := fun h => Digest.kvDigest.inj h
      node_inj := fun h => Digest.node.inj h
      node_ne_null := fun _ _ _ h => Digest.noConfusion h }
  value_inj {v v'} h := by
    rcases value_cases v with ⟨hv, hhash⟩ | ⟨hv, hhash⟩ <;>
      rcases value_cases v' with ⟨hv', hhash'⟩ | ⟨hv', hhash'⟩ <;>
      rw [hhash, hhash'] at h
    · exact hv.trans hv'.symm
    · cases h
    · cases h
    · exact Digest.value.inj h
  combine_inj h := Digest.combine.inj h
  value_eq_combine {v a b} h := by
    rcases value_cases v with ⟨rfl, -⟩ | ⟨-, hhash⟩
    · rfl
    · rw [hhash] at h
      cases h
  value_ne_node v a l r h := by
    rcases value_cases v with ⟨-, hhash⟩ | ⟨-, hhash⟩ <;> rw [hhash] at h <;> cases h
  value_ne_null v h := by
    rcases value_cases v with ⟨-, hhash⟩ | ⟨-, hhash⟩ <;> rw [hhash] at h <;> cases h

theorem rootLayer_encodes : rootLayer.EncodesTo layerBytes :=
  Sample.encodesTo_withLower (Sample.encodesTo_withLower (Sample.encodesTo_withLower
    (Sample.encodesTo_withLower
      ⟨_, _, _, Counted.short (by decide), Varint.short (n := 0) (by omega), rfl, rfl⟩
      (by decide) (by decide)) (by decide) (by decide)) (by decide) (by decide)) (by decide)
    (by decide)

theorem decodeEnvelope_proof : decodeEnvelope deps proof = .ok ⟨rootLayer, true⟩ := by
  have hscan : scanEnvelope proof = .ok () :=
    scanEnvelope_encoding (.byte 0 (by decide)) rootLayer_encodes (by decide) (by decide)
      (.inr rfl) (by decide +kernel)
  simp [decodeEnvelope, hscan, deps, bind, Except.bind]

theorem decodeElement_ground : decodeElement deps ground = .ok (.item stored none) :=
  decodeElement_eq_ok.mpr ⟨by decide, rfl⟩

theorem decodeElement_other {v : Bytes} (h : v ≠ ground) :
    decodeElement deps v = decodeElement Sample.deps v := by
  have hsame : deps.decodeElement (elementClass v) v =
      Sample.deps.decodeElement (elementClass v) v := if_neg h
  unfold decodeElement
  rw [hsame]

theorem decodeElement_item : decodeElement deps Sample.item = .ok (.item Sample.value none) := by
  rw [decodeElement_other (by decide)]
  exact Sample.decodeElement_item

theorem decodeElement_tree (rootKey : Bytes) (h : rootKey.length < 1000) :
    decodeElement deps (Sample.tree rootKey) = .ok (.other (Sample.tree rootKey)) := by
  have hne : Sample.tree rootKey ≠ ground := fun hg => absurd (List.cons.inj hg).1 (by decide)
  rw [decodeElement_other hne]
  exact Sample.decodeElement_tree rootKey h

theorem checkAllLayers_proof :
    checkAllLayers deps (decodeElement deps) ⟨rootLayer, true⟩ = .ok () := by
  have hleaf : checkOps (decodeElement deps) [] (layerOps deps Sample.leafLayer) = .ok () :=
    checkOps_push rfl decodeElement_item
  have hslot : checkOps (decodeElement deps) [] (layerOps deps slotLayer) = .ok () :=
    checkOps_push rfl (decodeElement_tree Sample.key (by decide))
  have hdata : checkOps (decodeElement deps) [] (layerOps deps dataLayer) = .ok () :=
    checkOps_push rfl (decodeElement_tree slot (by decide))
  have hsg : checkOps (decodeElement deps) [] (layerOps deps sgLayer) = .ok () :=
    checkOps_push rfl (decodeElement_tree data (by decide))
  have hroot : checkOps (decodeElement deps) [] (layerOps deps rootLayer) = .ok () :=
    checkOps_push rfl (decodeElement_tree Sample.sg (by decide))
  calc checkLayersFrom deps (decodeElement deps) [rootLayer]
      = checkLayersFrom deps (decodeElement deps) [sgLayer] := checkLayersFrom_lower hroot
    _ = checkLayersFrom deps (decodeElement deps) [dataLayer] := checkLayersFrom_lower hsg
    _ = checkLayersFrom deps (decodeElement deps) [slotLayer] := checkLayersFrom_lower hdata
    _ = checkLayersFrom deps (decodeElement deps) [Sample.leafLayer] := checkLayersFrom_lower hslot
    _ = .ok () := checkLayersFrom_leaf hleaf

theorem verifyContract : VerifyContract hashing deps := by
  intro bytes p k root results element v0 hq hmem hv
  simp only [deps] at hq
  split at hq
  case isFalse => cases hq
  case isTrue h =>
  obtain ⟨rfl, rfl, rfl⟩ := h
  obtain ⟨rfl, rfl⟩ := Prod.mk.inj (Except.ok.inj hq)
  obtain rfl : (⟨rootLayer, true⟩ : GroveDBProofV0) = v0 := by
    simpa [decodeEnvelope_proof] using hv
  have hsg : rootLayer.get subgroves = some sgLayer := rfl
  have hdata : sgLayer.get Sample.sg = some dataLayer := rfl
  have hslot : dataLayer.get data = some slotLayer := rfl
  have hleaf : slotLayer.get slot = some Sample.leafLayer := rfl
  refine .push (n := segNode subgroves Sample.sg _) rfl hsg rfl rfl rfl ?_
  refine .push (n := segNode Sample.sg data _) rfl hdata rfl rfl rfl ?_
  refine .push (n := segNode data slot dataLeaf) rfl hslot rfl rfl rfl ?_
  refine .push (n := segNode slot Sample.key Sample.leaf) rfl hleaf rfl rfl rfl ?_
  exact .here (.push (n := .kv Sample.key Sample.item) rfl)

theorem uniqueKeys : state.UniqueKeys :=
  Sample.uniqueKeys_above (Sample.uniqueKeys_above (Sample.uniqueKeys_above
    Sample.uniqueKeys_plain))

theorem accepted :
    verifyItemAtPath deps proof path Sample.key = .ok (state.root hashing, Sample.value) :=
  verifyItemAtPath_eq_ok.mpr ⟨⟨rootLayer, true⟩, Sample.leafLayer, Sample.item, {
    nonempty := by simp [proof]
    decodes := decodeEnvelope_proof
    atPath := layerAtPath_eq_ok.mpr ⟨rfl, rfl, rfl⟩
    checked := checkAllLayers_proof
    carried := rfl
    unambiguous := fun h => absurd h (by decide)
    verified := ⟨none, by simp [deps]⟩
    isItem := ⟨none, decodeElement_item⟩ }⟩

theorem stores_ground :
    state.StoresItem (decodeElement deps) [subgroves, Sample.sg, data] slot stored :=
  ⟨dataLeaf, .plain ground, rfl, rfl, none, decodeElement_ground⟩

end Forged

/-- The accepted proof descends through an Item of the data tree. -/
theorem item_descended_as_subtree :
    Forged.hashing.Sound ∧ VerifyContract Forged.hashing Forged.deps ∧
    Forged.state.UniqueKeys ∧
    Forged.state.StoresItem (decodeElement Forged.deps) [subgroves, Sample.sg, data] Forged.slot
      Forged.stored ∧
    verifyItemAtPath Forged.deps Forged.proof Forged.path Sample.key =
      .ok (Forged.state.root Forged.hashing, Sample.value) ∧
    ¬ Forged.state.SubtreesAlong Forged.path := by
  refine ⟨Forged.hashing_sound, Forged.verifyContract, Forged.uniqueKeys,
    Forged.stores_ground, Forged.accepted, ?_⟩
  intro h
  obtain ⟨tree, v, child, ht, hl⟩ := h [subgroves, Sample.sg, data] Forged.slot [] rfl
  obtain rfl : Forged.dataLeaf = tree := Option.some.inj ht
  have hplain : Forged.dataLeaf.lookup Forged.slot = some (.plain Forged.ground) := rfl
  rw [hplain] at hl
  cases hl

end Grove
end WillowSdk
