/-
# What the SDK relies on grovedb for

grovedb and merk are not part of the SDK. `VerifyContract` is what
`GroveDb::verify_query` establishes when it returns an element at the path:
the root it returns is the hash of the tree the root layer's ops build, and
each segment of the path is a node of its layer whose hash is
`combine_hash` of its value's hash and the lower layer's root.

`MerkTree` is the tree merk builds: it has a slot for each child, also under
an opaque `Hash`, whose hash is taken as given all the same. Where every
`Hash` is a leaf, all the nodes a layer pushes are shown by its tree
(`ProofTree.shown_of_merk`).
-/
import WillowSdk.Grove.OpsTree
import WillowSdk.Lib.Merkle

namespace WillowSdk
namespace Grove

variable {D : Type}

/-! ### The hashes -/

/-- merk's hash functions: `NULL_HASH`, `value_hash`, `kv_digest_to_kv_hash`,
`node_hash` and `combine_hash`. `kv_hash(k, v)` is the digest of `k` with
`value_hash(v)`. -/
structure Hashing (D : Type) where
  null : D
  value : Bytes → D
  kvDigest : Bytes → D → D
  node : D → D → D → D
  combine : D → D → D

namespace Hashing

/-- The hashes of a tree of keys and value hashes. -/
def merkle (H : Hashing D) : Merkle.Hashes Bytes D := ⟨H.null, H.kvDigest, H.node⟩

/-- No two inputs have one hash, but for a 63-byte value and a pair of
hashes, which are the same 64 bytes to the hash function. -/
structure Sound (H : Hashing D) : Prop where
  binding : H.merkle.Binding
  value_inj : ∀ {v v' : Bytes}, H.value v = H.value v' → v = v'
  combine_inj : ∀ {a b a' b' : D}, H.combine a b = H.combine a' b' → a = a' ∧ b = b'
  value_eq_combine : ∀ {v : Bytes} {a b : D}, H.value v = H.combine a b → v.length = 63
  value_ne_node : ∀ (v : Bytes) (a l r : D), H.value v ≠ H.node a l r
  value_ne_null : ∀ v : Bytes, H.value v ≠ H.null

end Hashing

variable (H : Hashing D)

namespace Node

/-- The value hash a node gives its tree. -/
def valueHash : Node D → Option D
  | .kv _ v => some (H.value v)
  | .kvValueHash _ _ h | .kvValueHashFeatureType _ _ h | .kvDigest _ h => some h
  | .kvRefValueHash _ v h => some (H.combine h (H.value v))
  | .hash _ | .kvHash _ => none

/-- The hash merk returns beside a node's value, as what proves it. -/
def provenHash : Node D → Option D
  | .kv _ v => some (H.value v)
  | .kvValueHash _ _ h | .kvValueHashFeatureType _ _ h | .kvRefValueHash _ _ h
  | .kvDigest _ h => some h
  | .hash _ | .kvHash _ => none

end Node

/-! ### The tree merk builds -/

inductive MerkTree (D : Type)
  | empty
  | node (left : MerkTree D) (node : Node D) (right : MerkTree D)

namespace MerkTree

/-- Attach a child on a side, which must be free. -/
def attach : Side → MerkTree D → MerkTree D → Option (MerkTree D)
  | .left, .node .empty n r, c => some (.node c n r)
  | .right, .node l n .empty, c => some (.node l n c)
  | _, _, _ => none

/-- What a tree shows of the tree it proves. -/
def shown : MerkTree D → Merkle.Partial Bytes D
  | .empty => .empty
  | .node _ (.hash h) _ => .hidden h
  | .node l (.kvHash h) r => .masked l.shown h r.shown
  | .node l (.kvDigest k h) r | .node l (.kvValueHash k _ h) r
  | .node l (.kvValueHashFeatureType k _ h) r => .shown l.shown k h r.shown
  | .node l (.kv k v) r => .shown l.shown k (H.value v) r.shown
  | .node l (.kvRefValueHash k v h) r => .shown l.shown k (H.combine h (H.value v)) r.shown

/-- A tree's hash. -/
def hash (t : MerkTree D) : D := (t.shown H).root H.merkle

end MerkTree

/-- The merk tree of the ops, unless they attach to a side twice. -/
def ProofTree.merk : ProofTree D → Option (MerkTree D)
  | .single n => some (.node .empty n .empty)
  | .attach side p c => p.merk.bind fun p => c.merk.bind fun c => p.attach side c

variable (deps : Deps D)

/-- A layer's ops build one tree under merk, with this hash. -/
def LayerRoot (layer : LayerProof) (root : D) : Prop :=
  ∃ ops t m, layerOps deps layer = ops.map .ok ∧ runTrees [] ops = some [t] ∧
    t.merk = some m ∧ m.hash H = root

/-- One of the layer's ops pushes the node. -/
def Carries (layer : LayerProof) (node : Node D) : Prop :=
  ∃ op, .ok op ∈ layerOps deps layer ∧ op.pushed = some node

/-- The layers at the segments of a path, each below a node of the one above
it that hashes it. -/
inductive Descends : LayerProof → List Bytes → D → Prop
  | here {layer : LayerProof} {root : D} : LayerRoot H deps layer root → Descends layer [] root
  | lower {layer lower : LayerProof} {root lowerRoot : D} {seg value : Bytes} {path : List Bytes}
      {node : Node D} :
      LayerRoot H deps layer root → layer.get seg = some lower → Carries deps layer node →
      node.key = some seg → node.value = some value →
      node.provenHash H = some (H.combine (H.value value) lowerRoot) →
      Descends lower path lowerRoot → Descends layer (seg :: path) root

variable {H deps} in
theorem LayerRoot.push {layer : LayerProof} {n : Node D}
    (h : layerOps deps layer = [.ok (.push n)]) :
    LayerRoot H deps layer ((MerkTree.node .empty n .empty).hash H) :=
  ⟨[.push n], .single n, _, h, rfl, rfl, rfl⟩

variable {H deps} in
/-- A layer of one node descends below it. -/
theorem Descends.push {layer lower : LayerProof} {n : Node D} {seg value : Bytes}
    {path : List Bytes} {lowerRoot : D} (hops : layerOps deps layer = [.ok (.push n)])
    (hlower : layer.get seg = some lower) (hk : n.key = some seg) (hv : n.value = some value)
    (hproven : n.provenHash H = some (H.combine (H.value value) lowerRoot))
    (h : Descends H deps lower path lowerRoot) :
    Descends H deps layer (seg :: path) ((MerkTree.node .empty n .empty).hash H) := by
  have hcarries : Carries deps layer n := ⟨.push n, by rw [hops]; exact List.mem_cons_self, rfl⟩
  exact .lower (.push hops) hlower hcarries hk hv hproven h

/-- What `GroveDb::verify_query` establishes of an element it returns. -/
def VerifyContract : Prop :=
  ∀ (proof : Bytes) (path : List Bytes) (key : Bytes) (root : D) (results : List QueryResult)
    (element : Element) (v0 : GroveDBProofV0),
    deps.verifyQuery proof path key = .ok (root, results) →
    (path, key, some element) ∈ results → decodeEnvelope deps proof = .ok v0 →
    Descends H deps v0.rootLayer path root

/-! ### What a layer shows -/

variable {H}

/-- Attaching fills the empty side and changes nothing else. -/
theorem MerkTree.attach_eq_some {side : Side} {p c m : MerkTree D} (h : p.attach side c = some m) :
    ∃ l n r, m = .node l n r ∧
      (p = .node .empty n r ∧ l = c ∨ p = .node l n .empty ∧ r = c) := by
  match side, p, h with
  | .left, .node .empty n r, h =>
    exact ⟨c, n, r, (Option.some.inj h).symm, .inl ⟨rfl, rfl⟩⟩
  | .right, .node l n .empty, h =>
    exact ⟨l, n, c, (Option.some.inj h).symm, .inr ⟨rfl, rfl⟩⟩

/-- The node at the top of the ops' tree is at the top of merk's. -/
theorem ProofTree.merk_top {t : ProofTree D} {m : MerkTree D} (h : t.merk = some m) :
    ∃ l r, m = .node l t.top r := by
  induction t generalizing m with
  | single n =>
    simp only [ProofTree.merk, Option.some.injEq] at h
    exact ⟨.empty, .empty, h.symm⟩
  | attach side p c ihp _ =>
    simp only [ProofTree.merk, Option.bind_eq_some_iff] at h
    obtain ⟨p', hp, c', -, h⟩ := h
    obtain ⟨l, n, r, rfl, ⟨rfl, rfl⟩ | ⟨rfl, rfl⟩⟩ := MerkTree.attach_eq_some h
    all_goals
      obtain ⟨_, _, hn⟩ := ihp hp
      cases hn
      exact ⟨_, _, rfl⟩

/-- A node that is no opaque `Hash` shows its own entry, and all its children show. -/
theorem MerkTree.mem_shown {l r : MerkTree D} {n : Node D} (hn : n.isHash = false)
    {e : Bytes × D} :
    e ∈ ((MerkTree.node l n r).shown H).entries ↔ e ∈ (l.shown H).entries ∨
      (n.key = some e.1 ∧ n.valueHash H = some e.2) ∨ e ∈ (r.shown H).entries := by
  cases n with
  | hash h => simp [Node.isHash] at hn
  | kvHash h => simp [shown, Merkle.Partial.entries, Node.key]
  | _ =>
    simp [shown, Merkle.Partial.entries, Node.key, Node.valueHash, Prod.ext_iff, eq_comm]

theorem MerkTree.shown_attach {side : Side} {p c m : MerkTree D} (h : p.attach side c = some m)
    (hp : ∀ l n r, p = .node l n r → n.isHash = false) :
    (p.shown H).entries ⊆ (m.shown H).entries ∧ (c.shown H).entries ⊆ (m.shown H).entries := by
  obtain ⟨l, n, r, rfl, ⟨rfl, rfl⟩ | ⟨rfl, rfl⟩⟩ := MerkTree.attach_eq_some h
  · have hn : n.isHash = false := hp _ _ _ rfl
    refine ⟨fun e he => ?_, fun e he => ?_⟩
    · rw [mem_shown hn] at he ⊢
      have hempty : e ∉ ((MerkTree.empty : MerkTree D).shown H).entries := List.not_mem_nil
      exact .inr (he.resolve_left hempty)
    · rw [mem_shown hn]
      exact .inl he
  · have hn : n.isHash = false := hp _ _ _ rfl
    refine ⟨fun e he => ?_, fun e he => ?_⟩
    · rw [mem_shown hn] at he ⊢
      have hempty : e ∉ ((MerkTree.empty : MerkTree D).shown H).entries := List.not_mem_nil
      rcases he with he | he | he
      · exact .inl he
      · exact .inr (.inl he)
      · exact absurd he hempty
    · rw [mem_shown hn]
      exact .inr (.inr he)

/-- Where every opaque `Hash` is a leaf, the tree shows each of its nodes. -/
theorem ProofTree.shown_of_merk {t : ProofTree D} {m : MerkTree D} (hm : t.merk = some m)
    (ht : t.HashesAreLeaves) {n : Node D} (hn : n ∈ t.nodes) {k : Bytes} {h : D}
    (hk : n.key = some k) (hh : n.valueHash H = some h) : (k, h) ∈ (m.shown H).entries := by
  induction t generalizing m with
  | single n' =>
    simp only [ProofTree.merk, Option.some.injEq] at hm
    obtain rfl : n = n' := by simpa [nodes] using hn
    have hhash : n.isHash = false := by
      cases n <;> simp_all [Node.isHash, Node.key]
    rw [← hm, MerkTree.mem_shown hhash]
    exact .inr (.inl ⟨hk, hh⟩)
  | attach side p c ihp ihc =>
    simp only [ProofTree.merk, Option.bind_eq_some_iff] at hm
    obtain ⟨p', hp, c', hc, hm⟩ := hm
    obtain ⟨htop, htp, htc⟩ := ht
    have hparent : ∀ l n' r, p' = .node l n' r → n'.isHash = false := by
      intro l n' r he
      obtain ⟨_, _, ht⟩ := ProofTree.merk_top hp
      rw [ht] at he
      cases he
      exact htop
    obtain ⟨hps, hcs⟩ := MerkTree.shown_attach (H := H) hm hparent
    rcases List.mem_append.mp hn with hn | hn
    · exact hps (ihp hp htp hn)
    · exact hcs (ihc hc htc hn)

/-! ### The nodes a layer pushes -/

/-- An op keeps every node on the stack and adds the one it pushes. -/
theorem mem_nodes_step {stack stack' : List (ProofTree D)} {op : Op D}
    (hs : stepTrees stack op = some stack') {n : Node D}
    (hn : (∃ t ∈ stack, n ∈ t.nodes) ∨ op.pushed = some n) : ∃ t ∈ stack', n ∈ t.nodes := by
  rcases stepTrees_cases hs with ⟨m, hm, rfl⟩ | ⟨side, p, c, rest, hnone, -, hstack, rfl⟩
  · rcases hn with ⟨t, ht, hn⟩ | hn
    · exact ⟨t, List.mem_cons_of_mem _ ht, hn⟩
    · have hself : n = m := Option.some.inj (hn.symm.trans hm)
      exact ⟨.single m, List.mem_cons_self, List.mem_singleton.mpr hself⟩
  · obtain ⟨t, ht, hn⟩ : ∃ t ∈ stack, n ∈ t.nodes := by simpa [hnone] using hn
    have hwhere : t = p ∨ t = c ∨ t ∈ rest := by
      rcases hstack with rfl | rfl
      · simpa using ht
      · have hmem : t = c ∨ t = p ∨ t ∈ rest := by simpa using ht
        tauto
    rcases hwhere with rfl | rfl | ht
    · exact ⟨_, List.mem_cons_self, List.mem_append_left _ hn⟩
    · exact ⟨_, List.mem_cons_self, List.mem_append_right _ hn⟩
    · exact ⟨t, List.mem_cons_of_mem _ ht, hn⟩

theorem mem_nodes_run {ops : List (Op D)} : ∀ {stack stack' : List (ProofTree D)},
    runTrees stack ops = some stack' → ∀ {n : Node D},
    (∃ t ∈ stack, n ∈ t.nodes) ∨ (∃ op ∈ ops, op.pushed = some n) →
    ∃ t ∈ stack', n ∈ t.nodes := by
  induction ops with
  | nil =>
    intro stack stack' hr n hn
    simp only [runTrees, Option.some.injEq] at hr
    subst hr
    simpa using hn
  | cons op ops ih =>
    intro stack stack' hr n hn
    obtain ⟨s, hs, hr⟩ := Option.bind_eq_some_iff.mp hr
    refine ih hr ?_
    rcases hn with hn | ⟨o, ho, hp⟩
    · exact .inl (mem_nodes_step hs (.inl hn))
    · rcases List.mem_cons.mp ho with rfl | ho
      · exact .inl (mem_nodes_step hs (.inr hp))
      · exact .inr ⟨o, ho, hp⟩

variable {deps} {decode : Bytes → Result Element}

/-- **What a checked layer shows.** Any tree with the layer's root has an
entry for each node with a key that the layer pushes. -/
theorem LayerRoot.shows {layer : LayerProof} {tree : Merkle.Tree Bytes D}
    (hH : H.Sound) (hroot : LayerRoot H deps layer (tree.root H.merkle))
    (hwf : LayerWellFormed deps decode layer) {n : Node D} (hn : Carries deps layer n)
    {k : Bytes} {h : D} (hk : n.key = some k) (hh : n.valueHash H = some h) :
    (k, h) ∈ tree.entries := by
  obtain ⟨ops, t, m, hops, hrun, hm, hhash⟩ := hroot
  obtain ⟨ops', hops', hwf⟩ := hwf
  obtain ⟨op, hop, hpush⟩ := hn
  obtain rfl : ops = ops' := by
    rw [hops] at hops'
    exact List.map_injective_iff.mpr (fun a b h => Except.ok.inj h) hops'
  have hnodes : n ∈ t.nodes := by
    have hmem : op ∈ ops := by simpa [hops] using hop
    simpa using mem_nodes_run hrun (.inr ⟨op, hmem, hpush⟩)
  have hleaves : t.HashesAreLeaves := hwf.hashesAreLeaves hrun
  have hshown : (k, h) ∈ (m.shown H).entries := ProofTree.shown_of_merk hm hleaves hnodes hk hh
  exact (m.shown H).shown_subset hH.binding tree hhash hshown

end Grove
end WillowSdk
