/-
# What a node serves of an item, and that it passes

grovedb proves an item with a layer for each segment of its path and one for
the tree it is in. Each layer shows its tree for one key: the node with the
key, the nodes above it by the hash of their keys and values, and the trees
beside those by their roots. An item is shown as a `KV` node, a subtree as a
`KVValueHash` (`test_proofs` of src/grovedb_envelope.rs builds them so).

Such a layer's ops build the tree they are of, attach nothing to an opaque
`Hash` and show its root (`hash_showKey`), so the whole descends to the
state's root (`Serves.descends`). `verify_item_at_path` accepts it exactly
within the scan's bounds, and unless the element is 63 bytes outside a data
tree (`served_proof_passes_iff`).
-/
import WillowSdk.Grove.Encoding
import WillowSdk.Grove.OwnChecks

namespace WillowSdk
namespace Grove

variable {D : Type}

/-! ### A tree shown for one key -/

section Shown

variable (H : Hashing D)

/-- The node that shows an element: a plain one's value enters the root,
another's only with the hash it is given. -/
def Stored.shownNode (key : Bytes) : Stored D → Node D
  | .plain v => .kv key v
  | .subtree v child => .kvValueHash key v ((Stored.subtree v child).hash H)
  | .reference v target => .kvValueHash key v ((Stored.reference v target).hash H)

namespace Merk

/-- A tree by its root alone. -/
def hide : Merk D → MerkTree D
  | .empty => .empty
  | .node l k s r => .node .empty (.hash ((Merk.node l k s r).root H)) .empty

/-- A tree shown for one of its keys. -/
def showKey (key : Bytes) : Merk D → MerkTree D
  | .empty => .empty
  | .node l k s r =>
    if k = key then .node (l.hide H) (s.shownNode H k) (r.hide H)
    else if (l.lookup key).isSome then
      .node (l.showKey key) (.kvHash (H.kvDigest k (s.hash H))) (r.hide H)
    else .node (l.hide H) (.kvHash (H.kvDigest k (s.hash H))) (r.showKey key)

end Merk

/-- A tree with a child, if there is one. -/
def ProofTree.withChild (side : Side) (p : ProofTree D) : Option (ProofTree D) → ProofTree D
  | none => p
  | some c => .attach side p c

@[simp] theorem ProofTree.top_withChild (side : Side) (p : ProofTree D)
    (c : Option (ProofTree D)) : (p.withChild side c).top = p.top := by
  cases c <;> rfl

namespace MerkTree

/-- The op that attaches a child, if there is one. -/
def attachOp (op : Op D) : MerkTree D → List (Op D)
  | .empty => []
  | .node .. => [op]

/-- merk's ops of a tree: the left child's, the node, the right child's. -/
def ops : MerkTree D → List (Op D)
  | .empty => []
  | .node l n r => l.ops ++ .push n :: (l.attachOp .parent ++ (r.ops ++ r.attachOp .child))

def nodes : MerkTree D → List (Node D)
  | .empty => []
  | .node l n r => l.nodes ++ n :: r.nodes

/-- The tree as the ops attach it. -/
def proofTree : MerkTree D → Option (ProofTree D)
  | .empty => none
  | .node l n r =>
    some (((ProofTree.single n).withChild .left l.proofTree).withChild .right r.proofTree)

/-- No opaque `Hash` has a child. -/
def HashesAreLeaves : MerkTree D → Prop
  | .empty => True
  | .node l n r => (n.isHash = true → l = .empty ∧ r = .empty) ∧ l.HashesAreLeaves ∧
      r.HashesAreLeaves

/-! ### Its ops -/

theorem pushed_ops (t : MerkTree D) : t.ops.filterMap Op.pushed = t.nodes := by
  have hattach : ∀ (c : MerkTree D) (op : Op D), op.pushed = none →
      (c.attachOp op).filterMap Op.pushed = [] := by
    intro c op hop
    cases c
    · rfl
    · simp [attachOp, hop]
  induction t with
  | empty => rfl
  | node l n r ihl ihr =>
    simp only [ops, nodes, List.filterMap_append, List.filterMap_cons, Op.pushed, ihl, ihr,
      hattach l .parent rfl, hattach r .child rfl, List.nil_append,
      List.append_nil]

/-- The ops of a tree put it on the stack, whatever is below. -/
theorem runTrees_ops (t : MerkTree D) : ∀ (stack : List (ProofTree D)) (rest : List (Op D)),
    runTrees stack (t.ops ++ rest) = runTrees (t.proofTree.toList ++ stack) rest := by
  induction t with
  | empty => exact fun _ _ => rfl
  | node l n r ihl ihr =>
    intro stack rest
    have hleft : ∀ rest, runTrees (.single n :: (l.proofTree.toList ++ stack))
        (l.attachOp .parent ++ rest) =
          runTrees ((ProofTree.single n).withChild .left l.proofTree :: stack) rest := by
      intro rest
      cases l <;> rfl
    have hright : ∀ p rest, runTrees (r.proofTree.toList ++ p :: stack)
        (r.attachOp .child ++ rest) =
          runTrees (p.withChild .right r.proofTree :: stack) rest := by
      intro p rest
      cases r <;> rfl
    simp only [ops, List.append_assoc, List.cons_append, ihl]
    show runTrees (.single n :: (l.proofTree.toList ++ stack)) _ = _
    rw [hleft, ihr, hright]
    rfl

/-- A child attached where there is one. -/
theorem merk_withChild {side : Side} {p : ProofTree D} {b c m : MerkTree D} (hp : p.merk = some b)
    (hc : ∀ q, c.proofTree = some q → q.merk = some c) (hm : b.attach side c = some m)
    (hempty : c = .empty → m = b) : (p.withChild side c.proofTree).merk = some m := by
  cases hq : c.proofTree with
  | none =>
    have hnone : c = .empty := by
      cases c with
      | empty => rfl
      | node l n r => cases hq
    rw [ProofTree.withChild, hempty hnone]
    exact hp
  | some q =>
    rw [ProofTree.withChild, ProofTree.merk, hp, hc q hq]
    exact hm

/-- merk builds the tree again from its ops. -/
theorem merk_proofTree (t : MerkTree D) : ∀ p, t.proofTree = some p → p.merk = some t := by
  induction t with
  | empty =>
    intro p h
    cases h
  | node l n r ihl ihr =>
    intro p h
    obtain rfl := Option.some.inj h
    have hleft : ((ProofTree.single n).withChild .left l.proofTree).merk =
        some (.node l n .empty) :=
      merk_withChild (b := .node .empty n .empty) rfl ihl rfl (by rintro rfl; rfl)
    exact merk_withChild hleft ihr rfl (by rintro rfl; rfl)

theorem hashesAreLeaves_withChild {side : Side} {p : ProofTree D} {c : MerkTree D}
    (hp : p.HashesAreLeaves) (htop : p.top.isHash = true → c = .empty)
    (hc : ∀ q, c.proofTree = some q → q.HashesAreLeaves) :
    (p.withChild side c.proofTree).HashesAreLeaves := by
  cases hq : c.proofTree with
  | none => exact hp
  | some q =>
    have hshown : p.top.isHash = false := by
      by_contra h
      rw [htop (by simpa using h)] at hq
      cases hq
    exact ⟨hshown, hp, hc q hq⟩

theorem hashesAreLeaves_proofTree (t : MerkTree D) (ht : t.HashesAreLeaves) :
    ∀ p, t.proofTree = some p → p.HashesAreLeaves := by
  induction t with
  | empty =>
    intro p h
    cases h
  | node l n r ihl ihr =>
    intro p h
    obtain rfl := Option.some.inj h
    obtain ⟨hn, hl, hr⟩ := ht
    have hleft : ((ProofTree.single n).withChild .left l.proofTree).HashesAreLeaves :=
      hashesAreLeaves_withChild trivial (fun h => (hn h).1) (ihl hl)
    refine hashesAreLeaves_withChild hleft (fun h => (hn ?_).2) (ihr hr)
    rwa [ProofTree.top_withChild] at h

end MerkTree

/-! ### The converse of what a check shows -/

/-- A step that leaves every opaque `Hash` a leaf attached nothing to one. -/
theorem sparesHash_of_leaves {stack stack' : List (ProofTree D)} {op : Op D}
    (hs : stepTrees stack op = some stack') (h : ∀ t ∈ stack', t.HashesAreLeaves) :
    SparesHash stack op ∧ ∀ t ∈ stack, t.HashesAreLeaves := by
  rcases stepTrees_cases hs with ⟨n, hpush, rfl⟩ | ⟨side, p, c, rest, -, hp, hstack, rfl⟩
  · have hparent : parentOf stack op = none := by cases op <;> first | rfl | cases hpush
    refine ⟨fun p hp => ?_, fun t ht => h t (List.mem_cons_of_mem _ ht)⟩
    rw [hparent] at hp
    cases hp
  · obtain ⟨htop, hpl, hcl⟩ := h _ List.mem_cons_self
    refine ⟨fun q hq => ?_, fun t ht => ?_⟩
    · obtain rfl := Option.some.inj (hp.symm.trans hq)
      exact htop
    · have hwhere : t = p ∨ t = c ∨ t ∈ rest := by
        rcases hstack with rfl | rfl
        · simpa using ht
        · have hmem : t = c ∨ t = p ∨ t ∈ rest := by simpa using ht
          tauto
      rcases hwhere with rfl | rfl | ht
      · exact hpl
      · exact hcl
      · exact h t (List.mem_cons_of_mem _ ht)

theorem neverUnderHash_of_leaves {ops : List (Op D)} : ∀ {stack stack' : List (ProofTree D)},
    runTrees stack ops = some stack' → (∀ t ∈ stack', t.HashesAreLeaves) →
      NeverUnderHash stack ops ∧ ∀ t ∈ stack, t.HashesAreLeaves := by
  induction ops with
  | nil =>
    intro stack stack' hr h
    obtain rfl := Option.some.inj hr
    exact ⟨trivial, h⟩
  | cons op ops ih =>
    intro stack stack' hr h
    obtain ⟨s, hs, hr⟩ := Option.bind_eq_some_iff.mp hr
    obtain ⟨hnever, hleaves⟩ := ih hr h
    obtain ⟨hspares, hstack⟩ := sparesHash_of_leaves hs hleaves
    refine ⟨⟨hspares, fun s' hs' => ?_⟩, hstack⟩
    obtain rfl := Option.some.inj (hs.symm.trans hs')
    exact hnever

/-! ### The tree shown has the root, and shows the key -/

namespace Merk

theorem hash_hide (m : Merk D) : (m.hide H).hash H = m.root H := by
  cases m <;> simp [hide, MerkTree.hash, MerkTree.shown, Merkle.Partial.root, root, Hashing.merkle]

/-- **What is shown for a key has the tree's root.** -/
theorem hash_showKey (key : Bytes) : ∀ m : Merk D, (m.showKey H key).hash H = m.root H
  | .empty => rfl
  | .node l k s r => by
    have hhide : ∀ m : Merk D, ((m.hide H).shown H).root H.merkle = m.root H := hash_hide H
    have hl : ((l.showKey H key).shown H).root H.merkle = l.root H := hash_showKey key l
    have hr : ((r.showKey H key).shown H).root H.merkle = r.root H := hash_showKey key r
    have hnode : ∀ a b c, H.merkle.node a b c = H.node a b c := fun _ _ _ => rfl
    have hkv : ∀ k h, H.merkle.kv k h = H.kvDigest k h := fun _ _ => rfl
    unfold showKey MerkTree.hash
    split_ifs
    · cases s <;>
        simp [Stored.shownNode, MerkTree.shown, Merkle.Partial.root, hhide, hnode, hkv, root,
          Stored.hash]
    · simp [MerkTree.shown, Merkle.Partial.root, hhide, root, hnode, hl]
    · simp [MerkTree.shown, Merkle.Partial.root, hhide, root, hnode, hr]

theorem hashesAreLeaves_hide (m : Merk D) : (m.hide H).HashesAreLeaves := by
  cases m with
  | empty => trivial
  | node l k s r => exact ⟨fun _ => ⟨rfl, rfl⟩, trivial, trivial⟩

theorem hashesAreLeaves_showKey (key : Bytes) : ∀ m : Merk D, (m.showKey H key).HashesAreLeaves
  | .empty => trivial
  | .node l k s r => by
    have hl := hashesAreLeaves_hide H l
    have hr := hashesAreLeaves_hide H r
    have hkvHash : ∀ {h : D} {p : Prop}, (Node.kvHash h).isHash = true → p := by
      intro h p hhash
      cases hhash
    unfold showKey
    split_ifs
    · refine ⟨fun h => ?_, hl, hr⟩
      cases s <;> cases h
    · exact ⟨hkvHash, hashesAreLeaves_showKey key l, hr⟩
    · exact ⟨hkvHash, hl, hashesAreLeaves_showKey key r⟩

theorem keyed_hide (m : Merk D) : (m.hide H).nodes.filter (fun n => n.key.isSome) = [] := by
  cases m <;> rfl

/-- The one node shown with a key is the one asked for. -/
theorem keyed_showKey {key : Bytes} {s : Stored D} : ∀ {m : Merk D},
    (m.entries.map Prod.fst).Nodup → (key, s) ∈ m.entries →
      (m.showKey H key).nodes.filter (fun n => n.key.isSome) = [s.shownNode H key]
  | .empty, _, h => by cases h
  | .node l k s' r, hnodup, h => by
    have hhide := keyed_hide H
    have hshown : (s'.shownNode H k).key.isSome = true := by cases s' <;> rfl
    have hmasked : ∀ h : D, (Node.kvHash h).key.isSome = false := fun _ => rfl
    simp only [entries, List.map_append, List.map_cons] at hnodup
    obtain ⟨hl, hkr, hdisjoint⟩ := List.nodup_append.mp hnodup
    obtain ⟨hk, hr⟩ := List.nodup_cons.mp hkr
    have hkeys : ∀ {m : Merk D}, (key, s) ∈ m.entries → key ∈ m.entries.map Prod.fst :=
      fun hm => List.mem_map.mpr ⟨_, hm, rfl⟩
    unfold showKey
    rcases List.mem_append.mp h with hin | hin
    · -- in the left tree, and so not here
      have hne : k ≠ key := fun heq => hdisjoint _ (hkeys hin) _ List.mem_cons_self heq.symm
      have hfound : (l.lookup key).isSome = true := by rw [lookup_of_mem hl hin]; rfl
      rw [if_neg hne, if_pos hfound]
      simp [MerkTree.nodes, hhide, keyed_showKey hl hin, hmasked]
    · rcases List.mem_cons.mp hin with heq | hin
      · obtain ⟨rfl, rfl⟩ := Prod.mk.inj heq
        rw [if_pos rfl]
        simp [MerkTree.nodes, hhide, hshown]
      · -- in the right tree, and in no other
        have hne : k ≠ key := fun heq => hk (heq ▸ hkeys hin)
        have hnot : ¬ (l.lookup key).isSome = true := by
          intro hsome
          obtain ⟨found, hfound⟩ := Option.isSome_iff_exists.mp hsome
          have hleft : key ∈ l.entries.map Prod.fst :=
            List.mem_map.mpr ⟨_, mem_of_lookup hfound, rfl⟩
          exact hdisjoint _ hleft _ (List.mem_cons_of_mem _ (hkeys hin)) rfl
        rw [if_neg hne, if_neg hnot]
        simp [MerkTree.nodes, hhide, keyed_showKey hr hin, hmasked]

theorem key_shownNode (key : Bytes) (s : Stored D) : (s.shownNode H key).key = some key := by
  cases s <;> rfl

end Merk

section Layer

variable {H} {m : Merk D} {key : Bytes} {s : Stored D}

/-- The layer carries the key once, in the node asked for. -/
theorem pushedWith_showKey (hnodup : (m.entries.map Prod.fst).Nodup)
    (hs : m.lookup key = some s) :
    pushedWith key (m.showKey H key).ops = [s.shownNode H key] := by
  have hkeyed := Merk.keyed_showKey H hnodup (Merk.mem_of_lookup hs)
  have hsome : ∀ n : Node D, (decide (n.key = some key) && n.key.isSome) =
      decide (n.key = some key) := by
    intro n
    by_cases h : n.key = some key
    · simp [h]
    · simp [h]
  have hfilter := congrArg (List.filter fun n : Node D => n.key = some key) hkeyed
  rw [List.filter_filter] at hfilter
  simp only [hsome] at hfilter
  rw [pushedWith, MerkTree.pushed_ops, hfilter]
  simp [Merk.key_shownNode]

/-- Only that node has a value. -/
theorem value_showKey (hnodup : (m.entries.map Prod.fst).Nodup) (hs : m.lookup key = some s)
    {n : Node D} (hn : n ∈ (m.showKey H key).nodes) {v : Bytes} (hv : n.value = some v) :
    n = s.shownNode H key := by
  have hkey : n.key.isSome = true := by cases n <;> first | rfl | cases hv
  have hmem : n ∈ (m.showKey H key).nodes.filter fun n => n.key.isSome :=
    List.mem_filter.mpr ⟨hn, hkey⟩
  rw [Merk.keyed_showKey H hnodup (Merk.mem_of_lookup hs)] at hmem
  exact List.mem_singleton.mp hmem

/-- The ops of a tree that is shown build it. -/
theorem runTrees_showKey (hs : m.lookup key = some s) :
    ∃ t, (m.showKey H key).proofTree = some t ∧ runTrees [] (m.showKey H key).ops = some [t] := by
  have hsome : ∃ t, (m.showKey H key).proofTree = some t := by
    cases m with
    | empty => cases hs
    | node l k s' r =>
      unfold Merk.showKey
      split_ifs <;> exact ⟨_, rfl⟩
  obtain ⟨t, ht⟩ := hsome
  have hrun := MerkTree.runTrees_ops (m.showKey H key) [] []
  rw [ht, List.append_nil] at hrun
  exact ⟨t, ht, hrun⟩

theorem layerOps_of_decodeOps {deps : Deps D} {bytes : Bytes} {ops : List (Op D)}
    {lower : List (Bytes × LayerProof)} (h : deps.decodeOps bytes = ops.map .ok) :
    layerOps deps (.mk bytes lower) = ops.map .ok := by
  show (deps.decodeOps bytes).map _ = _
  rw [h, List.map_map]
  rfl

variable {deps : Deps D} {layer : LayerProof}

/-- A layer of the shown tree's ops has its root. -/
theorem layerRoot_showKey (hops : layerOps deps layer = (m.showKey H key).ops.map .ok)
    (hs : m.lookup key = some s) : LayerRoot H deps layer (m.root H) := by
  obtain ⟨t, ht, hrun⟩ := runTrees_showKey (H := H) hs
  exact ⟨_, t, _, hops, hrun, MerkTree.merk_proofTree _ t ht, Merk.hash_showKey H key m⟩

/-- What the shown element's node carries decodes. -/
def Stored.Decodes (decode : Bytes → Result Element) : Stored D → Prop
  | .plain v | .subtree v _ | .reference v _ => ∃ e, decode v = .ok e

/-- The checks of a layer pass it. -/
theorem layerWellFormed_showKey {decode : Bytes → Result Element}
    (hops : layerOps deps layer = (m.showKey H key).ops.map .ok)
    (hnodup : (m.entries.map Prod.fst).Nodup) (hs : m.lookup key = some s)
    (hdecodes : s.Decodes decode) : LayerWellFormed deps decode layer := by
  obtain ⟨t, ht, hrun⟩ := runTrees_showKey (H := H) hs
  have hleaves : t.HashesAreLeaves :=
    MerkTree.hashesAreLeaves_proofTree _ (Merk.hashesAreLeaves_showKey H key m) t ht
  refine ⟨_, hops, ⟨t, hrun⟩, (neverUnderHash_of_leaves hrun (by simpa using hleaves)).1, ?_⟩
  intro op hop n v hpush hv
  have hn : n ∈ (m.showKey H key).nodes := by
    rw [← MerkTree.pushed_ops]
    exact List.mem_filterMap.mpr ⟨op, hop, hpush⟩
  obtain rfl := value_showKey hnodup hs hn hv
  cases s <;> (obtain rfl := Option.some.inj hv; exact hdecodes)

end Layer

/-! ### What is served -/

section Served

variable (deps : Deps D)

/-- The layers of an item's proof: each is of the tree it shows, one below
each segment's. -/
inductive Merk.Serves (key : Bytes) : Merk D → List Bytes → LayerProof → Prop
  | item {m : Merk D} {s : Stored D} {bytes : Bytes} :
      m.lookup key = some s → deps.decodeOps bytes = (m.showKey H key).ops.map .ok →
      Serves key m [] (.mk bytes [])
  | segment {m child : Merk D} {seg v bytes : Bytes} {path : List Bytes} {lower : LayerProof} :
      m.lookup seg = some (.subtree v child) →
      deps.decodeOps bytes = (m.showKey H seg).ops.map .ok →
      Serves key child path lower → Serves key m (seg :: path) (.mk bytes [(seg, lower)])

/-- The elements on the way down decode. -/
def Merk.DecodesAlong (decode : Bytes → Result Element) (m : Merk D) (path : List Bytes) : Prop :=
  ∀ before seg after, path = before ++ seg :: after → ∀ tree stored,
    m.subtreeAt before = some tree → tree.lookup seg = some stored → stored.Decodes decode

/-- What `GroveDb::verify_query` answers of an envelope whose layers descend
the path to a `KV` node of an item: the root they descend from, and the item. -/
def AnswersItems (v0 : GroveDBProofV0) (path : List Bytes) (key : Bytes) : Prop :=
  ∀ (root : D) (final : LayerProof) (value bytes : Bytes) (flags : Option Bytes),
    Descends H deps v0.rootLayer path root → descend v0.rootLayer 0 path = .ok final →
    Carries deps final (.kv key value) → decodeElement deps value = .ok (.item bytes flags) →
    deps.verifyQuery v0.encode path key = .ok (root, [(path, key, some (.item bytes flags))])

variable {H deps} {key : Bytes} {m : Merk D} {path : List Bytes} {layer : LayerProof}

theorem Merk.DecodesAlong.lower {decode : Bytes → Result Element} {child : Merk D} {seg v : Bytes}
    (h : m.DecodesAlong decode (seg :: path)) (hs : m.lookup seg = some (.subtree v child)) :
    child.DecodesAlong decode path := by
  intro before s after hpath tree stored ht hl
  refine h (seg :: before) s after (by rw [hpath, List.cons_append]) tree stored ?_ hl
  rw [Merk.subtreeAt_lower hs]
  exact ht

namespace Merk.Serves

theorem count_depth (h : m.Serves H deps key path layer) :
    layer.count = path.length + 1 ∧ layer.depth = path.length := by
  induction h with
  | item _ _ => exact ⟨rfl, rfl⟩
  | @segment _ _ _ _ _ path lower _ _ _ ih =>
    obtain ⟨hc, hd⟩ := ih
    simp only [LayerProof.count, LayerProof.countLower, LayerProof.depth, LayerProof.depthLower, hc,
      hd, List.length_cons]
    omega

/-- The layer at the path is of the tree there, with none below it. -/
theorem layerAt (h : m.Serves H deps key path layer) :
    ∃ tree s final, m.subtreeAt path = some tree ∧ tree.lookup key = some s ∧
      layer.layerAt path = some final ∧ final.lowerLayers = [] ∧
        layerOps deps final = (tree.showKey H key).ops.map .ok := by
  induction h with
  | @item m s bytes hs hops =>
    exact ⟨m, s, .mk bytes [], rfl, hs, rfl, rfl, layerOps_of_decodeOps hops⟩
  | @segment m child seg v bytes path lower hs _ _ ih =>
    obtain ⟨tree, s, final, ht, hl, hat, hlast, hops⟩ := ih
    refine ⟨tree, s, final, ?_, hl, ?_, hlast, hops⟩
    · rw [Merk.subtreeAt_lower hs]
      exact ht
    · simp [LayerProof.layerAt, LayerProof.get, hat]

/-- **What is served descends to the state's root.** -/
theorem descends (h : m.Serves H deps key path layer) (hm : m.UniqueKeys) :
    Descends H deps layer path (m.root H) := by
  induction h with
  | @item m s bytes hs hops => exact .here (layerRoot_showKey (layerOps_of_decodeOps hops) hs)
  | @segment m child seg v bytes path lower hs hops _ ih =>
    have hlayer : layerOps deps (.mk bytes [(seg, lower)]) = (m.showKey H seg).ops.map .ok :=
      layerOps_of_decodeOps hops
    have hroot : LayerRoot H deps (.mk bytes [(seg, lower)]) (m.root H) :=
      layerRoot_showKey hlayer hs
    have hget : (LayerProof.mk bytes [(seg, lower)]).get seg = some lower := by
      simp [LayerProof.get]
    have hpushed := pushedWith_showKey (H := H) (hm [] m rfl) hs
    obtain ⟨op, hop, hpush⟩ : ∃ op ∈ (m.showKey H seg).ops,
        op.pushed = some ((Stored.subtree v child).shownNode H seg) := by
      have hmem := List.mem_filter.mp (hpushed ▸ List.mem_singleton_self _)
      exact List.mem_filterMap.mp hmem.1
    have hcarries : Carries deps (.mk bytes [(seg, lower)])
        ((Stored.subtree v child).shownNode H seg) :=
      ⟨op, by rw [hlayer]; exact List.mem_map_of_mem hop, hpush⟩
    exact .lower hroot hget hcarries rfl rfl rfl (ih (hm.lower hs))

/-- Every layer passes the checks of its ops. -/
theorem wellFormed {decode : Bytes → Result Element} (h : m.Serves H deps key path layer)
    (hm : m.UniqueKeys) (hpath : m.DecodesAlong decode path)
    (hitem : ∀ tree s, m.subtreeAt path = some tree → tree.lookup key = some s →
      s.Decodes decode) :
    ∀ l, LayerProof.Within layer l → LayerWellFormed deps decode l := by
  induction h with
  | @item m s bytes hs hops =>
    intro l hl
    rcases hl.cases_root with rfl | ⟨_, _, hlower, -⟩
    · exact layerWellFormed_showKey (layerOps_of_decodeOps hops) (hm [] m rfl) hs (hitem m s rfl hs)
    · cases hlower
  | @segment m child seg v bytes path lower hs hops _ ih =>
    intro l hl
    rcases hl.cases_root with rfl | ⟨k, below, hlower, hwithin⟩
    · exact layerWellFormed_showKey (layerOps_of_decodeOps hops) (hm [] m rfl) hs
        (hpath [] seg path rfl m _ rfl hs)
    · obtain ⟨rfl, rfl⟩ := Prod.mk.inj (List.mem_singleton.mp hlower)
      refine ih (hm.lower hs) (hpath.lower hs) (fun tree s ht => hitem tree s ?_) l hwithin
      rw [Merk.subtreeAt_lower hs]
      exact ht

end Merk.Serves

/-- The walk over ops that push the key once finds the node. -/
theorem carriedNode_of_pushedWith {node : Node D} {ops : List (Op D)} :
    ∀ {carried : Option (Node D)}, carried.toList ++ pushedWith key ops = [node] →
      carriedNode key carried (ops.map .ok) = .ok (some node) := by
  induction ops with
  | nil =>
    intro carried h
    obtain rfl : carried = some node := by
      cases carried with
      | none => cases h
      | some n => simpa [pushedWith] using h
    rfl
  | cons op ops ih =>
    intro carried h
    have hsplit : pushedWith key (op :: ops) = pushedWith key [op] ++ pushedWith key ops := by
      unfold pushedWith
      rw [← List.singleton_append, List.filterMap_append, List.filter_append]
    rw [hsplit] at h
    simp only [List.map_cons, carriedNode]
    cases hpush : op.pushed with
    | none =>
      have hnone : pushedWith key [op] = [] := by simp [pushedWith, hpush]
      rw [hnone] at h
      simpa [hpush, Bind.bind, Except.bind] using ih h
    | some n =>
      by_cases hkey : n.key = some key
      · have hone : pushedWith key [op] = [n] := by simp [pushedWith, hpush, hkey]
        rw [hone] at h
        have hfirst : carried = none := by
          cases carried with
          | none => rfl
          | some _ => simp at h
        subst hfirst
        have hrest : carriedNode key (some n) (ops.map .ok) = .ok (some node) := ih h
        simpa [hpush, hkey, Bind.bind, Except.bind] using hrest
      · have hnone : pushedWith key [op] = [] := by simp [pushedWith, hpush, hkey]
        rw [hnone] at h
        simpa [hpush, hkey, Bind.bind, Except.bind] using ih h

/-- bincode's reading of what it wrote passes exactly if the scan does. -/
theorem decodeEnvelope_encode {v0 v : GroveDBProofV0}
    (hbincode : deps.decodeProof v0.encode = .ok (v0, v0.encode.length)) :
    decodeEnvelope deps v0.encode = .ok v ↔ scanEnvelope v0.encode = .ok () ∧ v = v0 := by
  simp only [decodeEnvelope, Outcome.bind_eq_ok, Outcome.mapError_eq_ok, hbincode,
    Except.ok.injEq, Prod.exists, Prod.mk.injEq, Outcome.refuse_eq_ok, not_not]
  refine ⟨fun h => ?_, fun h => ?_⟩
  · obtain ⟨_, hscan, _, _, ⟨rfl, rfl⟩, -, rfl⟩ := h
    exact ⟨hscan, rfl⟩
  · obtain ⟨hscan, rfl⟩ := h
    exact ⟨(), hscan, v, _, ⟨rfl, rfl⟩, rfl, rfl⟩

theorem Stored.IsItem.decodes {decode : Bytes → Result Element} {s : Stored D} {bytes : Bytes}
    (h : s.IsItem decode bytes) : s.Decodes decode := by
  cases s with
  | plain v =>
    obtain ⟨flags, hv⟩ := h
    exact ⟨_, hv⟩
  | subtree _ _ | reference _ _ => exact h.elim

end Served

end Shown

/-! ### The proof of an item -/

section Proof

variable {H : Hashing D} {deps : Deps D} {state : Merk D} {path : List Bytes} {key item : Bytes}
  {layer : LayerProof} {answer : D × Bytes}

/-- The scan bounds a proof's bytes and its path. -/
theorem Merk.Serves.scan_iff (h : state.Serves H deps key path layer) :
    scanEnvelope (GroveDBProofV0.mk layer true).encode = .ok () ↔
      (GroveDBProofV0.mk layer true).encode.length ≤ 2 ^ 20 ∧ path.length ≤ 64 := by
  obtain ⟨hcount, hdepth⟩ := h.count_depth
  rw [scanEnvelope_encode_iff]
  refine and_congr_right fun _ => ?_
  rw [hcount, hdepth]
  omega

/-- The layer at the path is of the tree there, and its one node with the key
carries the item. -/
theorem Merk.Serves.carries (h : state.Serves H deps key path layer) (hunique : state.UniqueKeys)
    (hstores : state.StoresItem (decodeElement deps) path key item) :
    ∃ tree v final, state.subtreeAt path = some tree ∧ tree.lookup key = some (.plain v) ∧
      (∃ flags, decodeElement deps v = .ok (.item item flags)) ∧
      descend layer 0 path = .ok final ∧ final.lowerLayers = [] ∧
      carriedNode key none (layerOps deps final) = .ok (some (.kv key v)) := by
  obtain ⟨tree, s, final, ht, hs, hat, hlast, hops⟩ := h.layerAt
  obtain ⟨tree', s', ht', hs', hitem⟩ := hstores
  obtain rfl : tree = tree' := Option.some.inj (ht.symm.trans ht')
  obtain rfl : s = s' := Option.some.inj (hs.symm.trans hs')
  obtain ⟨v, rfl⟩ := hitem.plain
  refine ⟨tree, v, final, ht, hs, hitem, descend_eq_ok.mpr hat, hlast, ?_⟩
  rw [hops]
  exact carriedNode_of_pushedWith (pushedWith_showKey (hunique path tree ht) hs)

/-- grovedb answers the root and the item. -/
theorem Merk.Serves.queried (h : state.Serves H deps key path layer) (hunique : state.UniqueKeys)
    (hgrove : AnswersItems H deps ⟨layer, true⟩ path key) {final : LayerProof} {v : Bytes}
    {flags : Option Bytes} (hdescend : descend layer 0 path = .ok final)
    (hcarried : carriedNode key none (layerOps deps final) = .ok (some (.kv key v)))
    (hv : decodeElement deps v = .ok (.item item flags)) :
    deps.verifyQuery (GroveDBProofV0.mk layer true).encode path key =
      .ok (state.root H, [(path, key, some (.item item flags))]) := by
  have hcarries : Carries deps final (.kv key v) :=
    ((carriedNode_mem hcarried).resolve_left (by simp)).1
  exact hgrove _ final v item flags (h.descends hunique) hdescend hcarries hv

variable (hserves : state.Serves H deps key path layer) (hunique : state.UniqueKeys)
  (hstores : state.StoresItem (decodeElement deps) path key item)
  (hbincode : deps.decodeProof (GroveDBProofV0.mk layer true).encode =
    .ok (⟨layer, true⟩, (GroveDBProofV0.mk layer true).encode.length))
  (hgrove : AnswersItems H deps ⟨layer, true⟩ path key)
include hserves hunique hstores hbincode hgrove

/-- Where the served proof passes, it is within the bounds. -/
theorem served_sound
    (h : verifyItemAtPath deps (GroveDBProofV0.mk layer true).encode path key = .ok answer) :
    answer = (state.root H, item) ∧ (GroveDBProofV0.mk layer true).encode.length ≤ 2 ^ 20 ∧
      path.length ≤ 64 ∧ ∀ tree v, state.subtreeAt path = some tree →
        tree.lookup key = some (.plain v) → v.length = 63 → holdsOnlyItems path = true := by
  obtain ⟨tree, v, final, ht, hs, ⟨flags, hv⟩, hdescend, -, hcarried⟩ :=
    hserves.carries hunique hstores
  have hquery := hserves.queried hunique hgrove hdescend hcarried hv
  obtain ⟨v0, at_, value, haccepted⟩ := verifyItemAtPath_eq_ok.mp h
  obtain ⟨hscan, rfl⟩ := (decodeEnvelope_encode hbincode).mp haccepted.decodes
  obtain ⟨-, hdescend', -⟩ := layerAtPath_eq_ok.mp haccepted.atPath
  obtain rfl : final = at_ := Except.ok.inj (hdescend.symm.trans hdescend')
  obtain rfl : v = value := by
    simpa using Except.ok.inj (hcarried.symm.trans haccepted.carried)
  obtain ⟨flags', hverified⟩ := haccepted.verified
  have hsame := Except.ok.inj (hquery.symm.trans hverified)
  simp only [Prod.mk.injEq, List.cons.injEq, Option.some.injEq, Element.item.injEq,
    and_true, true_and] at hsame
  obtain ⟨hroot, hbytes, -⟩ := hsame
  obtain ⟨hlen, hdepth⟩ := hserves.scan_iff.mp hscan
  refine ⟨Prod.ext hroot.symm hbytes.symm, hlen, hdepth, fun tree' w ht' hw hlen' => ?_⟩
  obtain rfl : tree = tree' := Option.some.inj (ht.symm.trans ht')
  obtain rfl : v = w := by simpa using hs.symm.trans hw
  exact haccepted.unambiguous hlen'

/-- Within the bounds it passes. -/
theorem served_complete (hdecodes : state.DecodesAlong (decodeElement deps) path)
    (hlen : (GroveDBProofV0.mk layer true).encode.length ≤ 2 ^ 20) (hdepth : path.length ≤ 64)
    (hunambiguous : ∀ tree v, state.subtreeAt path = some tree →
      tree.lookup key = some (.plain v) → v.length = 63 → holdsOnlyItems path = true) :
    verifyItemAtPath deps (GroveDBProofV0.mk layer true).encode path key =
      .ok (state.root H, item) := by
  obtain ⟨tree, v, final, ht, hs, ⟨flags, hv⟩, hdescend, hlast, hcarried⟩ :=
    hserves.carries hunique hstores
  have hscan := hserves.scan_iff.mpr ⟨hlen, hdepth⟩
  have hwf := hserves.wellFormed hunique hdecodes fun tree' s' ht' hs' => by
    obtain rfl : tree = tree' := Option.some.inj (ht.symm.trans ht')
    obtain rfl : _ = s' := Option.some.inj (hs.symm.trans hs')
    exact ⟨_, hv⟩
  exact verifyItemAtPath_eq_ok.mpr ⟨⟨layer, true⟩, final, v, {
    nonempty := by simp [GroveDBProofV0.encode]
    decodes := (decodeEnvelope_encode hbincode).mpr ⟨hscan, rfl⟩
    atPath := layerAtPath_eq_ok.mpr ⟨rfl, hdescend, hlast⟩
    checked := (checkLayersFrom_eq_ok deps _ _).mpr (by simpa using hwf)
    carried := hcarried
    unambiguous := hunambiguous tree v ht hs
    verified := ⟨flags, hserves.queried hunique hgrove hdescend hcarried hv⟩
    isItem := ⟨flags, hv⟩ }⟩

end Proof

/-- **A node's proof of an item passes, within the bounds.** For every state
with unique keys and every item it stores at a path: the proof served of it
is answered with the state's root and the item exactly if it is at most 1 MiB,
the path at most 64 segments, and the element not 63 bytes, or in a
subgrove's data tree; and with nothing else. -/
theorem served_proof_passes_iff (H : Hashing D) (deps : Deps D) (state : Merk D)
    (path : List Bytes) (key item : Bytes) (layer : LayerProof) (hunique : state.UniqueKeys)
    (hserves : state.Serves H deps key path layer)
    (hstores : state.StoresItem (decodeElement deps) path key item)
    (hdecodes : state.DecodesAlong (decodeElement deps) path)
    (hbincode : deps.decodeProof (GroveDBProofV0.mk layer true).encode =
      .ok (⟨layer, true⟩, (GroveDBProofV0.mk layer true).encode.length))
    (hgrove : AnswersItems H deps ⟨layer, true⟩ path key) (answer : D × Bytes) :
    verifyItemAtPath deps (GroveDBProofV0.mk layer true).encode path key = .ok answer ↔
      answer = (state.root H, item) ∧ (GroveDBProofV0.mk layer true).encode.length ≤ 2 ^ 20 ∧
        path.length ≤ 64 ∧ ∀ tree v, state.subtreeAt path = some tree →
          tree.lookup key = some (.plain v) → v.length = 63 → holdsOnlyItems path = true := by
  refine ⟨fun h => served_sound hserves hunique hstores hbincode hgrove h, fun h => ?_⟩
  obtain ⟨rfl, hlen, hdepth, hunambiguous⟩ := h
  exact served_complete hserves hunique hstores hbincode hgrove hdecodes hlen hdepth hunambiguous

namespace Sample

def v0 : GroveDBProofV0 := ⟨rootLayer, true⟩

theorem encode_v0 : v0.encode = proof := by
  decide +kernel

theorem serves : state.Serves hashing deps key path rootLayer := by
  have hleaf : leaf.Serves hashing deps key [] leafLayer := .item (s := .plain item) rfl rfl
  have hdata : dataTree.Serves hashing deps key [data] dataLayer :=
    .segment (v := tree key) rfl rfl hleaf
  have hsg : sgTree.Serves hashing deps key [sg, data] sgLayer :=
    .segment (v := tree data) rfl rfl hdata
  exact .segment (v := tree sg) rfl rfl hsg

theorem lookup_above (seg rootKey : Bytes) (child : Merk Digest) :
    (above seg rootKey child).lookup seg = some (.subtree (Sample.tree rootKey) child) := by
  simp [Merk.lookup, above, Merk.entries]

theorem decodesAlong_above {seg rootKey : Bytes} {child : Merk Digest} {path : List Bytes}
    (hkey : rootKey.length < 1000) (h : child.DecodesAlong (decodeElement deps) path) :
    (above seg rootKey child).DecodesAlong (decodeElement deps) (seg :: path) := by
  intro before s after hpath t stored ht hl
  cases before with
  | nil =>
    obtain ⟨rfl, rfl⟩ := List.cons.inj hpath
    obtain rfl := Option.some.inj ht
    obtain rfl := Option.some.inj ((lookup_above seg rootKey child).symm.trans hl)
    exact ⟨_, decodeElement_tree rootKey hkey⟩
  | cons first before =>
    obtain ⟨rfl, hrest⟩ := List.cons.inj hpath
    rw [Merk.subtreeAt_lower (lookup_above seg rootKey child)] at ht
    exact h before s after hrest t stored ht hl

theorem decodesAlong : state.DecodesAlong (decodeElement deps) path := by
  refine decodesAlong_above (by decide) (decodesAlong_above (by decide)
    (decodesAlong_above (by decide) ?_))
  intro before s after hpath
  cases before <;> cases hpath

theorem answersItems : AnswersItems hashing deps v0 path key := by
  intro root final v bytes flags hdescends hdescend hcarries hv
  -- the root layer is one node, and so is the item's
  obtain rfl : root = state.root hashing := by
    cases hdescends with
    | lower hroot _ _ _ _ _ _ =>
      obtain ⟨ops, t, m, hops, hrun, hm, rfl⟩ := hroot
      have hpushed : layerOps deps v0.rootLayer =
          [Op.push (segNode subgroves sg sgTree)].map .ok := rfl
      obtain rfl : [Op.push (segNode subgroves sg sgTree)] = ops :=
        List.map_injective_iff.mpr (fun a b h => Except.ok.inj h) (hpushed.symm.trans hops)
      obtain rfl : ProofTree.single (segNode subgroves sg sgTree) = t := by
        simpa [runTrees, stepTrees] using hrun
      obtain rfl := Option.some.inj hm
      rfl
  obtain rfl : leafLayer = final := Except.ok.inj hdescend
  obtain ⟨op, hop, hpush⟩ := hcarries
  have hleaf : layerOps deps leafLayer = [.ok (.push (.kv key item))] := rfl
  rw [hleaf, List.mem_singleton, Except.ok.injEq] at hop
  subst hop
  obtain rfl : item = v := by simpa [Op.pushed] using hpush
  obtain ⟨rfl, rfl⟩ : value = bytes ∧ none = flags := by
    simpa using Except.ok.inj (decodeElement_item.symm.trans hv)
  have hproof : deps.verifyQuery proof path key =
      .ok (state.root hashing, [(path, key, some (.item value none))]) := by
    simp [deps]
  exact (congrArg (fun bytes => deps.verifyQuery bytes path key) encode_v0).trans hproof

theorem bincode : deps.decodeProof v0.encode = .ok (v0, v0.encode.length) := by
  have hproof : deps.decodeProof proof = .ok (v0, proof.length) := by simp [deps, v0]
  exact (congrArg deps.decodeProof encode_v0).trans
    (hproof.trans (congrArg (fun bytes => Except.ok (v0, bytes.length)) encode_v0.symm))

theorem short : v0.encode.length ≤ 2 ^ 20 := by
  have hshort : proof.length ≤ 2 ^ 20 := by decide +kernel
  exact (congrArg List.length encode_v0).trans_le hshort

theorem stores : state.StoresItem (decodeElement deps) path key value :=
  ⟨leaf, _, rfl, rfl, none, decodeElement_item⟩

end Sample

theorem served_proof_passes_iff_sample :
    verifyItemAtPath Sample.deps Sample.v0.encode Sample.path Sample.key =
      .ok (Sample.state.root Sample.hashing, Sample.value) :=
  (served_proof_passes_iff Sample.hashing Sample.deps Sample.state Sample.path Sample.key
    Sample.value Sample.rootLayer Sample.uniqueKeys Sample.serves Sample.stores Sample.decodesAlong
    Sample.bincode Sample.answersItems _).mpr
      ⟨rfl, Sample.short, by decide, fun _ _ _ _ _ => rfl⟩

end Grove
end WillowSdk
