/-
# What a verified item says of the state

If `verify_item_at_path` accepts a proof whose root is that of a committed
state, the state stores the item it returns (`verify_item_at_path_binds`).
The proof goes down the path with grovedb's own descent: at each segment the
layer shows a node of the state's tree (`LayerRoot.shows`), which must be the
subtree the state stores there, so that the lower layer's root is that
subtree's (`subtree_of_combine`). In the layer at the path the one node with
the key is a `KV`, whose value hash only an element of the same bytes has,
unless those are 63 bytes.
-/
import WillowSdk.Grove.ScanGrammar
import WillowSdk.Grove.State
import WillowSdk.Grove.Verify

namespace WillowSdk
namespace Grove

section Binding

variable {D : Type} {H : Hashing D} {deps : Deps D} {decode : Bytes → Result Element}

/-- A node the layer pushes is an element of the state's tree. -/
theorem LayerRoot.stored {layer : LayerProof} {m : Merk D} (hH : H.Sound)
    (hm : (m.entries.map Prod.fst).Nodup) (hroot : LayerRoot H deps layer (m.root H))
    (hwf : LayerWellFormed deps decode layer) {n : Node D} (hn : Carries deps layer n)
    {k : Bytes} {h : D} (hk : n.key = some k) (hh : n.valueHash H = some h) :
    ∃ s, m.lookup k = some s ∧ s.hash H = h := by
  rw [← Merk.root_tree] at hroot
  have hmem := hroot.shows hH hwf hn hk hh
  rw [Merk.entries_tree, List.mem_map] at hmem
  obtain ⟨⟨k', s⟩, he, heq⟩ := hmem
  obtain ⟨rfl, rfl⟩ := Prod.mk.inj heq
  exact ⟨s, Merk.lookup_of_mem hm he, rfl⟩

/-- A tree's root is no value's hash. -/
theorem Hashing.Sound.value_ne_root (hH : H.Sound) (v : Bytes) (m : Merk D) :
    H.value v ≠ m.root H := by
  cases m with
  | empty => simpa [Merk.root] using hH.value_ne_null v
  | node l k s r => simpa [Merk.root] using hH.value_ne_node v _ _ _

/-- The hash a proof gives of a node's value is the one the tree has, unless
the node is a reference. -/
theorem Node.provenHash_cases {n : Node D} {v : Bytes} (h : n.value = some v) :
    n.provenHash H = n.valueHash H ∨ ∃ k carried, n = .kvRefValueHash k v carried := by
  cases n with
  | hash _ | kvHash _ | kvDigest _ _ => cases h
  | kv _ _ | kvValueHash _ _ _ | kvValueHashFeatureType _ _ _ => exact .inl rfl
  | kvRefValueHash k v' carried =>
    obtain rfl := Option.some.inj h
    exact .inr ⟨k, carried, rfl⟩

/-- A node at a path segment, proven by the combined hash of its value and a
lower root, can only be a subtree with that root. -/
theorem subtree_of_combine (hH : H.Sound) {n : Node D} {k v value : Bytes} {lowerRoot h : D}
    {child : Merk D} (hk : n.key = some k) (hv : n.value = some value)
    (hproven : n.provenHash H = some (H.combine (H.value value) lowerRoot))
    (hh : n.valueHash H = some h) (hs : (Stored.subtree v child).hash H = h) :
    child.root H = lowerRoot := by
  rw [Stored.hash] at hs
  subst hs
  rcases Node.provenHash_cases hv with heq | ⟨k', carried, rfl⟩
  · rw [heq] at hproven
    have hsame : H.combine (H.value v) (child.root H) = H.combine (H.value value) lowerRoot :=
      Option.some.inj (hh.symm.trans hproven)
    exact (hH.combine_inj hsame).2
  · -- the value the node carries would have the hash of the subtree's root
    have hsame : H.combine carried (H.value value) = H.combine (H.value v) (child.root H) :=
      Option.some.inj hh
    have hvalue : H.value value = child.root H := (hH.combine_inj hsame).2
    exact absurd hvalue (hH.value_ne_root value child)

/-- A plain element at a path segment is as long as two hashes. -/
theorem length_of_combine (hH : H.Sound) {n : Node D} {v w value : Bytes} {lowerRoot h : D}
    (hv : n.value = some v)
    (hproven : n.provenHash H = some (H.combine (H.value value) lowerRoot))
    (hh : n.valueHash H = some h) (hs : (Stored.plain w).hash H = h) :
    w.length = ambiguousElementLen := by
  rw [Stored.hash] at hs
  subst hs
  rcases Node.provenHash_cases hv with heq | ⟨k', carried, rfl⟩
  · rw [heq] at hproven
    have hsame : H.value w = H.combine (H.value value) lowerRoot :=
      Option.some.inj (hh.symm.trans hproven)
    exact hH.value_eq_combine hsame
  · -- the hash of a reference to the value it carries
    have hsame : H.combine carried (H.value v) = H.value w := Option.some.inj hh
    exact hH.value_eq_combine hsame.symm

theorem Node.valueHash_of_value {n : Node D} {v : Bytes} (h : n.value = some v) :
    ∃ h, n.valueHash H = some h := by
  cases n <;> simp_all [Node.value, Node.valueHash]

/-- **The descent stays in the state.** The layer at the path has the root of
the subtree the state stores there. -/
theorem Descends.reaches {layer : LayerProof} {path : List Bytes} {root : D} (hH : H.Sound)
    (h : Descends H deps layer path root) :
    ∀ (m : Merk D) (depth : ℕ), root = m.root H → m.UniqueKeys → m.Unmistakable path →
      (∀ l, LayerProof.Within layer l → LayerWellFormed deps decode l) →
      ∃ final tree, descend layer depth path = .ok final ∧ m.subtreeAt path = some tree ∧
        LayerRoot H deps final (tree.root H) := by
  induction h with
  | here hroot =>
    intro m depth hm _ _ _
    subst hm
    exact ⟨_, m, rfl, rfl, hroot⟩
  | @lower layer lower root lowerRoot seg value path node hroot hlower hn hk hv hproven _ ih =>
    intro m depth hroot' hm hpath hwf
    subst hroot'
    obtain ⟨h, hh⟩ := Node.valueHash_of_value (H := H) hv
    obtain ⟨s, hs, hhash⟩ := hroot.stored hH (hm [] m rfl) (hwf _ .root) hn hk hh
    have hnot : ¬ s.Mistakable := hpath [] seg path rfl m s rfl hs
    cases s with
    | plain w => exact absurd (length_of_combine hH hv hproven hh hhash) hnot
    | reference _ _ => exact absurd trivial hnot
    | subtree v child =>
      have hchild : child.root H = lowerRoot := subtree_of_combine hH hk hv hproven hh hhash
      have hbelow : ∀ l, LayerProof.Within lower l → LayerWellFormed deps decode l := by
        intro l hl
        exact hwf l (.of_lower (LayerProof.mem_of_get hlower) hl)
      obtain ⟨final, tree, hd, ht, hr⟩ := ih child (depth + 1) hchild.symm (hm.lower hs) (hpath.lower hs)
        hbelow
      refine ⟨final, tree, ?_, ?_, hr⟩
      · simp [descend, hlower, Outcome.okOr, hd]
      · simp [Merk.subtreeAt, hs, ht]

/-- An element with the value hash of some bytes is those bytes, unless they
are as many as two hashes. -/
theorem Stored.eq_plain (hH : H.Sound) {s : Stored D} {v : Bytes} (h : s.hash H = H.value v)
    (hlen : v.length = ambiguousElementLen → ∃ w, s = .plain w) : s = .plain v := by
  cases s with
  | plain w =>
    rw [Stored.hash] at h
    rw [hH.value_inj h]
  | subtree _ _ | reference _ _ =>
    rw [Stored.hash] at h
    have h63 : v.length = ambiguousElementLen := hH.value_eq_combine h.symm
    obtain ⟨_, hw⟩ := hlen h63
    cases hw

theorem Stored.IsItem.plain {s : Stored D} {bytes : Bytes} (h : s.IsItem decode bytes) :
    ∃ v, s = .plain v := by
  cases s with
  | plain v => exact ⟨v, rfl⟩
  | subtree _ _ | reference _ _ => exact h.elim

/-- An accepted proof's layer at the path has the root of the state's subtree
there. -/
theorem Accepted.reaches {proof : Bytes} {path : List Bytes} {key bytes value : Bytes} {root : D}
    {v0 : GroveDBProofV0} {layer : LayerProof} (hH : H.Sound) (hverify : VerifyContract H deps)
    (h : Accepted deps proof path key root bytes v0 layer value) {state : Merk D}
    (hroot : root = state.root H) (hunique : state.UniqueKeys) (hpath : state.Unmistakable path) :
    ∃ final tree, (∀ l, LayerProof.Within v0.rootLayer l →
        LayerWellFormed deps (decodeElement deps) l) ∧
      descend v0.rootLayer 0 path = .ok final ∧ state.subtreeAt path = some tree ∧
        LayerRoot H deps final (tree.root H) := by
  obtain ⟨flags, hq⟩ := h.verified
  have hdescends := hverify proof path key root _ _ v0 hq List.mem_cons_self h.decodes
  have hwf : ∀ l, LayerProof.Within v0.rootLayer l →
      LayerWellFormed deps (decodeElement deps) l := by
    simpa using (checkLayersFrom_eq_ok deps (decodeElement deps) [v0.rootLayer]).mp h.checked
  obtain ⟨final, tree, hd, ht, hr⟩ := hdescends.reaches hH state 0 hroot hunique hpath hwf
  exact ⟨final, tree, hwf, hd, ht, hr⟩

/-- **An accepted item is one the state stores.** -/
theorem Accepted.stored {proof : Bytes} {path : List Bytes} {key bytes value : Bytes} {root : D}
    {v0 : GroveDBProofV0} {layer : LayerProof} (hH : H.Sound) (hverify : VerifyContract H deps)
    (h : Accepted deps proof path key root bytes v0 layer value) {state : Merk D}
    (hroot : root = state.root H) (hunique : state.UniqueKeys)
    (hpath : state.Unmistakable path)
    (hitems : holdsOnlyItems path = true → state.OnlyItemsAt (decodeElement deps) path) :
    state.StoresItem (decodeElement deps) path key bytes := by
  obtain ⟨final, tree, hwf, hd, ht, hr⟩ := h.reaches hH hverify hroot hunique hpath
  obtain ⟨-, hd', -⟩ := layerAtPath_eq_ok.mp h.atPath
  obtain rfl : final = layer := by simpa [hd] using hd'
  -- the node at the key, in the layer and in the state
  have hn : Carries deps final (.kv key value) :=
    ((carriedNode_mem h.carried).resolve_left (by simp)).1
  have hfinal : LayerWellFormed deps (decodeElement deps) final := hwf _ (descend_within hd)
  obtain ⟨s, hs, hhash⟩ := hr.stored hH (hunique path tree ht) hfinal hn
    (k := key) (h := H.value value) rfl rfl
  -- a 63-byte element could be a subtree, but not where there are only items
  have hambiguous : value.length = ambiguousElementLen → ∃ w, s = .plain w := by
    intro hlen
    have honly := hitems (h.unambiguous hlen)
    obtain ⟨_, hitem⟩ := honly tree ht (key, s) (Merk.mem_of_lookup hs)
    exact hitem.plain
  have hplain : s = .plain value := Stored.eq_plain hH hhash hambiguous
  subst hplain
  exact ⟨tree, _, ht, hs, h.isItem⟩

/-- **Binding of `verify_item_at_path`.** For every committed state with
unique keys that stores a subtree or nothing at each segment of the path, an
accepted proof with the state's root returns the bytes of an Item the state
stores at the key in the subtree at the path. -/
theorem verify_item_at_path_binds (H : Hashing D) (deps : Deps D) (hH : H.Sound)
    (hverify : VerifyContract H deps) (state : Merk D) (proof : Bytes) (path : List Bytes)
    (key : Bytes) (bytes : Bytes) (root : D) (hunique : state.UniqueKeys)
    (hpath : state.SubtreesOrNothing path)
    (hitems : holdsOnlyItems path = true → state.OnlyItemsAt (decodeElement deps) path)
    (hok : verifyItemAtPath deps proof path key = .ok (root, bytes))
    (hroot : root = state.root H) : state.StoresItem (decodeElement deps) path key bytes := by
  obtain ⟨v0, layer, value, h⟩ := verifyItemAtPath_eq_ok.mp hok
  exact h.stored hH hverify hroot hunique hpath.unmistakable hitems

end Binding

/-! ### A proof of one item

The state holds one item, the JSON text `1` under `k` in the data tree of
subgrove `sg`; every tree has one node, and so does every layer of the proof.
Digests are the terms of the hashes' own algebra; 32 equal bytes stand for
each of the three that the proof carries. -/

namespace Sample

inductive Digest
  | null
  | value (v : Bytes)
  | kvDigest (k : Bytes) (v : Digest)
  | node (kv l r : Digest)
  | combine (a b : Digest)
deriving DecidableEq

def hashing : Hashing Digest := ⟨.null, .value, .kvDigest, .node, .combine⟩

theorem hashing_sound : hashing.Sound where
  binding :=
    { kv_inj := fun h => Digest.kvDigest.inj h
      node_inj := fun h => Digest.node.inj h
      node_ne_null := fun _ _ _ h => Digest.noConfusion h }
  value_inj := fun h => Digest.value.inj h
  combine_inj := fun h => Digest.combine.inj h
  value_eq_combine := fun h => Digest.noConfusion h
  value_ne_node := fun _ _ _ _ h => Digest.noConfusion h
  value_ne_null := fun _ h => Digest.noConfusion h

/-- `b"sg"` -/
def sg : Bytes := [115, 103]

/-- `b"k"` -/
def key : Bytes := [107]

/-- `b"1"` -/
def value : Bytes := [49]

/-- An Item without flags. -/
def item : Bytes := [0, 1, 49, 0]

/-- A Tree whose root node has this key, without flags. -/
def tree (rootKey : Bytes) : Bytes := 2 :: 1 :: .ofNat rootKey.length :: (rootKey ++ [0])

/-- A tree with one node, a subtree. -/
def above (seg rootKey : Bytes) (child : Merk Digest) : Merk Digest :=
  .node .empty seg (.subtree (tree rootKey) child) .empty

def leaf : Merk Digest := .node .empty key (.plain item) .empty

def dataTree : Merk Digest := above data key leaf

def sgTree : Merk Digest := above sg data dataTree

def state : Merk Digest := above subgroves sg sgTree

/-- The node that proves a subtree. -/
def segNode (seg rootKey : Bytes) (child : Merk Digest) : Node Digest :=
  .kvValueHash seg (tree rootKey) (hashing.combine (hashing.value (tree rootKey)) (child.root hashing))

def segOps (seg rootKey : Bytes) (digest : UInt8) : Bytes :=
  4 :: .ofNat seg.length ::
    (seg ++ 0 :: .ofNat (tree rootKey).length :: (tree rootKey ++ List.replicate 32 digest))

def leafLayer : LayerProof := .mk [3, 1, 107, 0, 4, 0, 1, 49, 0] []

def dataLayer : LayerProof := .mk (segOps data key 1) [(data, leafLayer)]

def sgLayer : LayerProof := .mk (segOps sg data 2) [(sg, dataLayer)]

def rootLayer : LayerProof := .mk (segOps subgroves sg 3) [(subgroves, sgLayer)]

/-- A counted byte string, shorter than 251. -/
def counted (s : Bytes) : Bytes := .ofNat s.length :: s

def leafBytes : Bytes := counted [3, 1, 107, 0, 4, 0, 1, 49, 0] ++ ([0] ++ [])

def withLower (ops seg lower : Bytes) : Bytes := counted ops ++ ([1] ++ (counted seg ++ (lower ++ [])))

def layerBytes : Bytes :=
  withLower (segOps subgroves sg 3) subgroves (withLower (segOps sg data 2) sg
    (withLower (segOps data key 1) data leafBytes))

def proof : Bytes := [0] ++ (layerBytes ++ [1])

/-- The one op of a layer, by its bytes. -/
def opOf (ops : Bytes) : Option (Op Digest) :=
  if ops = leafLayer.merkProof then some (.push (.kv key item))
  else if ops = dataLayer.merkProof then some (.push (segNode data key leaf))
  else if ops = sgLayer.merkProof then some (.push (segNode sg data dataTree))
  else if ops = rootLayer.merkProof then some (.push (segNode subgroves sg sgTree))
  else none

def path : List Bytes := [subgroves, sg, data]

def deps : Deps Digest where
  decodeProof bytes :=
    if bytes = proof then .ok (⟨rootLayer, true⟩, proof.length) else .error "UnexpectedEnd"
  decodeElement _ bytes :=
    match bytes with
    | [0, 1, b, 0] => .ok (.item [b] none)
    | 2 :: _ => .ok (.other bytes)
    | _ => .error "UnexpectedVariant"
  decodeOps ops :=
    match opOf ops with
    | some op => [.ok op]
    | none => [.error "unexpected op"]
  verifyQuery bytes p k :=
    if bytes = proof ∧ p = path ∧ k = key then
      .ok (state.root hashing, [(path, key, some (.item value none))])
    else .error "another proof or query"

/-- A layer with one lower layer. -/
theorem encodesTo_withLower {ops seg e : Bytes} {lower : LayerProof} (h : lower.EncodesTo e)
    (hops : ops.length < 251) (hseg : seg.length < 251) :
    (LayerProof.mk ops [(seg, lower)]).EncodesTo (withLower ops seg e) :=
  ⟨_, _, _, Counted.short hops, Varint.short (n := 1) (by omega),
    ⟨_, e, [], Counted.short hseg, h, rfl, rfl⟩, rfl⟩

theorem rootLayer_encodes : rootLayer.EncodesTo layerBytes :=
  encodesTo_withLower (encodesTo_withLower (encodesTo_withLower
    ⟨_, _, _, Counted.short (by decide), Varint.short (n := 0) (by omega), rfl, rfl⟩
    (by decide) (by decide)) (by decide) (by decide)) (by decide) (by decide)

theorem decodeEnvelope_proof : decodeEnvelope deps proof = .ok ⟨rootLayer, true⟩ := by
  have hscan : scanEnvelope proof = .ok () :=
    scanEnvelope_encoding (.byte 0 (by decide)) rootLayer_encodes (by decide) (by decide)
      (.inr rfl) (by decide +kernel)
  simp [decodeEnvelope, hscan, deps, bind, Except.bind]

theorem decodeElement_item : decodeElement deps item = .ok (.item value none) :=
  decodeElement_eq_ok.mpr ⟨by decide, rfl⟩

theorem decodeElement_tree (rootKey : Bytes) (h : rootKey.length < 1000) :
    decodeElement deps (tree rootKey) = .ok (.other (tree rootKey)) :=
  decodeElement_eq_ok.mpr ⟨by
    simp only [tree, List.length_cons, List.length_append, List.length_nil, maxElementBytes,
      maxProofBytes, Nat.shiftLeft_eq]
    omega, rfl⟩

theorem checkAllLayers_proof :
    checkAllLayers deps (decodeElement deps) ⟨rootLayer, true⟩ = .ok () := by
  have hleaf : checkOps (decodeElement deps) [] (layerOps deps leafLayer) = .ok () :=
    checkOps_push rfl decodeElement_item
  have hdata : checkOps (decodeElement deps) [] (layerOps deps dataLayer) = .ok () :=
    checkOps_push rfl (decodeElement_tree key (by decide))
  have hsg : checkOps (decodeElement deps) [] (layerOps deps sgLayer) = .ok () :=
    checkOps_push rfl (decodeElement_tree data (by decide))
  have hroot : checkOps (decodeElement deps) [] (layerOps deps rootLayer) = .ok () :=
    checkOps_push rfl (decodeElement_tree sg (by decide))
  calc checkLayersFrom deps (decodeElement deps) [rootLayer]
      = checkLayersFrom deps (decodeElement deps) [sgLayer] := checkLayersFrom_lower hroot
    _ = checkLayersFrom deps (decodeElement deps) [dataLayer] := checkLayersFrom_lower hsg
    _ = checkLayersFrom deps (decodeElement deps) [leafLayer] := checkLayersFrom_lower hdata
    _ = .ok () := checkLayersFrom_leaf hleaf

theorem verifyContract : VerifyContract hashing deps := by
  intro bytes p k root results element v0 hq hmem hv
  simp only [deps] at hq
  split at hq
  case isFalse => cases hq
  case isTrue h =>
  obtain ⟨rfl, rfl, rfl⟩ := h
  obtain ⟨rfl, rfl⟩ := Prod.mk.inj (Except.ok.inj hq)
  obtain rfl : (⟨rootLayer, true⟩ : GroveDBProofV0) = v0 := by
    simpa [decodeEnvelope_proof] using hv
  have hsg : rootLayer.get subgroves = some sgLayer := rfl
  have hdata : sgLayer.get sg = some dataLayer := rfl
  have hleaf : dataLayer.get data = some leafLayer := rfl
  refine .push (n := segNode subgroves sg sgTree) rfl hsg rfl rfl rfl ?_
  refine .push (n := segNode sg data dataTree) rfl hdata rfl rfl rfl ?_
  refine .push (n := segNode data key leaf) rfl hleaf rfl rfl rfl ?_
  exact .here (.push (n := .kv key item) rfl)

theorem uniqueKeys_above {seg rootKey : Bytes} {child : Merk Digest} (h : child.UniqueKeys) :
    (above seg rootKey child).UniqueKeys := by
  rintro (_ | ⟨s, p⟩) t ht
  · obtain rfl : above seg rootKey child = t := by simpa [Merk.subtreeAt] using ht
    simp [above, Merk.entries]
  · by_cases hs : seg = s
    · refine h p t ?_
      simpa [Merk.subtreeAt, Merk.lookup, above, Merk.entries, hs] using ht
    · simp [Merk.subtreeAt, Merk.lookup, above, Merk.entries, hs] at ht

theorem uniqueKeys_plain {k v : Bytes} :
    (Merk.node .empty k (.plain v) .empty : Merk Digest).UniqueKeys := by
  rintro (_ | ⟨s, p⟩) t ht
  · obtain rfl : Merk.node .empty k (.plain v) .empty = t := by simpa [Merk.subtreeAt] using ht
    simp [Merk.entries]
  · by_cases hs : k = s <;>
      simp [Merk.subtreeAt, Merk.lookup, Merk.entries, hs] at ht

theorem uniqueKeys : state.UniqueKeys :=
  uniqueKeys_above (uniqueKeys_above (uniqueKeys_above uniqueKeys_plain))

theorem subtreesOrNothing : state.SubtreesOrNothing path := trivial

theorem onlyItems : state.OnlyItemsAt (decodeElement deps) path := by
  intro t ht e he
  obtain rfl : leaf = t := Option.some.inj ht
  obtain rfl : e = (key, .plain item) := by simpa [leaf, Merk.entries] using he
  exact ⟨value, none, decodeElement_item⟩

theorem accepted : verifyItemAtPath deps proof path key = .ok (state.root hashing, value) :=
  verifyItemAtPath_eq_ok.mpr ⟨⟨rootLayer, true⟩, leafLayer, item, {
    nonempty := by simp [proof]
    decodes := decodeEnvelope_proof
    atPath := layerAtPath_eq_ok.mpr ⟨rfl, rfl, rfl⟩
    checked := checkAllLayers_proof
    carried := rfl
    unambiguous := fun _ => rfl
    verified := ⟨none, by simp [deps]⟩
    isItem := ⟨none, decodeElement_item⟩ }⟩

end Sample

theorem verify_item_at_path_binds_sample :
    Sample.state.StoresItem (decodeElement Sample.deps) Sample.path Sample.key Sample.value :=
  verify_item_at_path_binds Sample.hashing Sample.deps Sample.hashing_sound Sample.verifyContract
    Sample.state Sample.proof Sample.path Sample.key Sample.value _ Sample.uniqueKeys
    Sample.subtreesOrNothing (fun _ => Sample.onlyItems) Sample.accepted rfl

end Grove
end WillowSdk
