/-
# A committed GroveDB state

A GroveDB state is a Merk tree whose elements may be subtrees, Merk trees
themselves. A node's value hash is the hash of its element's bytes; for a
subtree that combined with the subtree's root, and for a reference that
combined with the value hash of what it refers to.
-/
import WillowSdk.Grove.Contract
import WillowSdk.Grove.Verify
import Mathlib.Data.List.Nodup

namespace WillowSdk
namespace Grove

mutual
/-- A search tree of keys and elements. -/
inductive Merk (D : Type)
  | empty
  | node (left : Merk D) (key : Bytes) (stored : Stored D) (right : Merk D)
/-- An element's bytes, with the subtree or the target's hash it commits to. -/
inductive Stored (D : Type)
  | plain (value : Bytes)
  | subtree (value : Bytes) (child : Merk D)
  | reference (value : Bytes) (target : D)
end

variable {D : Type}

/-- An element whose value hash may be that of a subtree with another element:
one as long as two hashes, or a reference. -/
def Stored.Mistakable : Stored D → Prop
  | .plain v => v.length = ambiguousElementLen
  | .subtree .. => False
  | .reference .. => True

mutual
/-- A tree's root hash. -/
def Merk.root (H : Hashing D) : Merk D → D
  | .empty => H.null
  | .node l k s r => H.node (H.kvDigest k (s.hash H)) (l.root H) (r.root H)
/-- An element's value hash. -/
def Stored.hash (H : Hashing D) : Stored D → D
  | .plain v => H.value v
  | .subtree v child => H.combine (H.value v) (child.root H)
  | .reference v target => H.combine (H.value v) target
end

namespace Merk

/-- The keys and elements of one tree. -/
def entries : Merk D → List (Bytes × Stored D)
  | .empty => []
  | .node l k s r => l.entries ++ (k, s) :: r.entries

def lookup (m : Merk D) (key : Bytes) : Option (Stored D) :=
  (m.entries.find? fun e => e.1 = key).map Prod.snd

/-- The subtree at a path. -/
def subtreeAt (m : Merk D) : List Bytes → Option (Merk D)
  | [] => some m
  | seg :: path =>
    match m.lookup seg with
    | some (.subtree _ child) => child.subtreeAt path
    | _ => none

/-- No tree of the state has a key twice. -/
def UniqueKeys (m : Merk D) : Prop :=
  ∀ path tree, m.subtreeAt path = some tree → (tree.entries.map Prod.fst).Nodup

/-- The state stores a subtree or nothing at each segment of the path. -/
def SubtreesOrNothing (m : Merk D) : List Bytes → Prop
  | [] => True
  | seg :: path =>
    match m.lookup seg with
    | none => True
    | some (.subtree _ child) => child.SubtreesOrNothing path
    | some _ => False

/-- The state stores a subtree at each segment, in the tree reached by those
before it. -/
def SubtreesAlong (m : Merk D) (path : List Bytes) : Prop :=
  ∀ before seg after, path = before ++ seg :: after →
    ∃ tree v child, m.subtreeAt before = some tree ∧ tree.lookup seg = some (.subtree v child)

/-- No segment is stored as an element a proof may present as a subtree. -/
def Unmistakable (m : Merk D) (path : List Bytes) : Prop :=
  ∀ before seg after, path = before ++ seg :: after → ∀ tree stored,
    m.subtreeAt before = some tree → tree.lookup seg = some stored → ¬ stored.Mistakable

/-- The keys and value hashes of one tree. -/
def tree (H : Hashing D) : Merk D → Merkle.Tree Bytes D
  | .empty => .empty
  | .node l k s r => .node (l.tree H) k (s.hash H) (r.tree H)

@[simp] theorem root_tree (H : Hashing D) : ∀ m : Merk D, (m.tree H).root H.merkle = m.root H
  | .empty => by simp [tree, Merkle.Tree.root, root, Hashing.merkle]
  | .node l k s r => by
    rw [tree, Merkle.Tree.root, root_tree H l, root_tree H r, root, Hashing.merkle]

theorem entries_tree (H : Hashing D) :
    ∀ m : Merk D, (m.tree H).entries = m.entries.map fun e => (e.1, e.2.hash H)
  | .empty => by simp [tree, Merkle.Tree.entries, entries]
  | .node l k s r => by
    simp [tree, Merkle.Tree.entries, entries, entries_tree H l, entries_tree H r]

theorem mem_of_lookup {m : Merk D} {key : Bytes} {s : Stored D} (h : m.lookup key = some s) :
    (key, s) ∈ m.entries := by
  simp only [lookup, Option.map_eq_some_iff] at h
  obtain ⟨⟨k, s'⟩, hf, rfl⟩ := h
  obtain rfl : k = key := by simpa using List.find?_some hf
  exact List.mem_of_find?_eq_some hf

/-- An entry is what a lookup of its key finds, if the keys are unique. -/
theorem lookup_of_mem {m : Merk D} (hm : (m.entries.map Prod.fst).Nodup) {key : Bytes}
    {s : Stored D} (h : (key, s) ∈ m.entries) : m.lookup key = some s := by
  have hfind : (m.entries.find? fun e => e.1 = key).isSome := by
    rw [List.find?_isSome]
    exact ⟨(key, s), h, by simp⟩
  obtain ⟨⟨k, s'⟩, he⟩ := Option.isSome_iff_exists.mp hfind
  obtain rfl : k = key := by simpa using List.find?_some he
  have hmem : (k, s') ∈ m.entries := List.mem_of_find?_eq_some he
  have hsame : (k, s') = (k, s) := List.inj_on_of_nodup_map hm hmem h rfl
  obtain rfl : s' = s := congrArg Prod.snd hsame
  rw [lookup, he]
  rfl

theorem UniqueKeys.lower {m child : Merk D} {seg v : Bytes} (h : m.UniqueKeys)
    (hs : m.lookup seg = some (.subtree v child)) : child.UniqueKeys := by
  intro path tree ht
  have hstep : m.subtreeAt (seg :: path) = child.subtreeAt path := by simp [subtreeAt, hs]
  rw [← hstep] at ht
  exact h (seg :: path) tree ht

/-- A step down the path. -/
theorem subtreeAt_lower {m child : Merk D} {seg v : Bytes} {path : List Bytes}
    (hs : m.lookup seg = some (.subtree v child)) :
    m.subtreeAt (seg :: path) = child.subtreeAt path := by
  rw [subtreeAt, hs]

theorem Unmistakable.lower {m child : Merk D} {seg v : Bytes} {path : List Bytes}
    (h : m.Unmistakable (seg :: path)) (hs : m.lookup seg = some (.subtree v child)) :
    child.Unmistakable path := by
  intro before s after hpath tree stored ht hl
  refine h (seg :: before) s after (by rw [hpath, List.cons_append]) tree stored ?_ hl
  rw [subtreeAt_lower hs]
  exact ht

/-- By the path, from its first segment. -/
theorem SubtreesOrNothing.unmistakable {m : Merk D} {path : List Bytes}
    (h : m.SubtreesOrNothing path) : m.Unmistakable path := by
  intro before seg after hpath tree stored ht hl
  induction before generalizing m path with
  | nil =>
    obtain rfl : m = tree := Option.some.inj ht
    rw [hpath, List.nil_append, SubtreesOrNothing, hl] at h
    cases stored with
    | plain _ | reference _ _ => exact h.elim
    | subtree v child => exact id
  | cons s before ih =>
    rw [hpath, List.cons_append, SubtreesOrNothing] at h
    rw [subtreeAt] at ht
    cases hs : m.lookup s with
    | none =>
      rw [hs] at ht
      cases ht
    | some found =>
      rw [hs] at h ht
      cases found with
      | plain _ | reference _ _ => exact h.elim
      | subtree v child => exact ih h rfl ht

/-- A subtree at the path is under subtrees at all its segments. -/
theorem SubtreesAlong.of_subtreeAt {m tree : Merk D} {path : List Bytes}
    (h : m.subtreeAt path = some tree) : m.SubtreesAlong path := by
  intro before seg after hpath
  induction before generalizing m path with
  | nil =>
    rw [hpath, List.nil_append, subtreeAt] at h
    cases hs : m.lookup seg with
    | none =>
      rw [hs] at h
      cases h
    | some stored =>
      rw [hs] at h
      cases stored with
      | plain _ | reference _ _ => cases h
      | subtree v child => exact ⟨m, v, child, rfl, hs⟩
  | cons s before ih =>
    rw [hpath, List.cons_append, subtreeAt] at h
    cases hs : m.lookup s with
    | none =>
      rw [hs] at h
      cases h
    | some stored =>
      rw [hs] at h
      cases stored with
      | plain _ | reference _ _ => cases h
      | subtree v child =>
        obtain ⟨t, v', child', ht, hl⟩ := ih h rfl
        refine ⟨t, v', child', ?_, hl⟩
        rw [subtreeAt_lower hs]
        exact ht

theorem SubtreesAlong.unmistakable {m : Merk D} {path : List Bytes} (h : m.SubtreesAlong path) :
    m.Unmistakable path := by
  intro before seg after hpath tree stored ht hl
  obtain ⟨tree', v, child, ht', hl'⟩ := h before seg after hpath
  obtain rfl : tree = tree' := Option.some.inj (ht.symm.trans ht')
  obtain rfl : stored = .subtree v child := Option.some.inj (hl.symm.trans hl')
  exact id

end Merk

section Items

variable (decode : Bytes → Result Element)

/-- The element is an Item with these bytes. -/
def Stored.IsItem (bytes : Bytes) : Stored D → Prop
  | .plain v => ∃ flags, decode v = .ok (.item bytes flags)
  | _ => False

/-- The subtree at the path, if there is one, stores only Items. -/
def Merk.OnlyItemsAt (m : Merk D) (path : List Bytes) : Prop :=
  ∀ tree, m.subtreeAt path = some tree → ∀ e ∈ tree.entries, ∃ bytes, e.2.IsItem decode bytes

/-- The state stores an Item with these bytes at a key of the subtree at the
path. -/
def Merk.StoresItem (m : Merk D) (path : List Bytes) (key bytes : Bytes) : Prop :=
  ∃ tree stored, m.subtreeAt path = some tree ∧ tree.lookup key = some stored ∧
    stored.IsItem decode bytes

end Items

end Grove
end WillowSdk
