/-
# Merkle trees shown in part

A Merkle search tree hashes, at each node, its key with its value's hash and
then that with the roots of its two children. A `Partial` tree shows some of
the nodes of one: a subtree may be `hidden` (only its root is given) and a
node `masked` (only the hash of its key and value is given). If the hashes
do not collide, an entry a partial tree shows is an entry of every tree with
the same root (`Partial.shown_subset`): a hidden subtree has no children, so
nothing shown hangs below a hash that is taken as given.

Key definitions: `Hashes`, `Hashes.Binding`, `Tree`, `Partial`.
Key theorem: `Partial.shown_subset`.
-/
import Mathlib.Data.List.Basic

namespace Merkle

variable {K D : Type}

/-- The hashes of a Merkle tree: of no tree, of a key with a value's hash,
and of a node with its two children. -/
structure Hashes (K D : Type) where
  null : D
  kv : K → D → D
  node : D → D → D → D

/-- No two different inputs have one hash. -/
structure Hashes.Binding (H : Hashes K D) : Prop where
  kv_inj : ∀ {k k' : K} {v v' : D}, H.kv k v = H.kv k' v' → k = k' ∧ v = v'
  node_inj : ∀ {a a' l l' r r' : D}, H.node a l r = H.node a' l' r' → a = a' ∧ l = l' ∧ r = r'
  node_ne_null : ∀ a l r : D, H.node a l r ≠ H.null

/-- A tree of keys and value hashes. -/
inductive Tree (K D : Type)
  | empty
  | node (left : Tree K D) (key : K) (valueHash : D) (right : Tree K D)

/-- A tree shown in part. -/
inductive Partial (K D : Type)
  | empty
  | hidden (root : D)
  | masked (left : Partial K D) (kvHash : D) (right : Partial K D)
  | shown (left : Partial K D) (key : K) (valueHash : D) (right : Partial K D)

variable (H : Hashes K D)

def Tree.root : Tree K D → D
  | .empty => H.null
  | .node l k v r => H.node (H.kv k v) (l.root) (r.root)

/-- The keys and value hashes, in key order. -/
def Tree.entries : Tree K D → List (K × D)
  | .empty => []
  | .node l k v r => l.entries ++ (k, v) :: r.entries

def Partial.root : Partial K D → D
  | .empty => H.null
  | .hidden h => h
  | .masked l h r => H.node h (l.root) (r.root)
  | .shown l k v r => H.node (H.kv k v) (l.root) (r.root)

/-- The keys and value hashes shown. -/
def Partial.entries : Partial K D → List (K × D)
  | .empty => []
  | .hidden _ => []
  | .masked l _ r => l.entries ++ r.entries
  | .shown l k v r => l.entries ++ (k, v) :: r.entries

variable {H}

/-- A tree whose root is a node's is a node. -/
theorem Hashes.Binding.root_eq_node (hH : H.Binding) {t : Tree K D} {a l r : D}
    (h : H.node a l r = t.root H) :
    ∃ tl k v tr, t = .node tl k v tr ∧ a = H.kv k v ∧ l = tl.root H ∧ r = tr.root H := by
  cases t with
  | empty => exact absurd h (hH.node_ne_null a l r)
  | node tl k v tr => exact ⟨tl, k, v, tr, rfl, hH.node_inj h⟩

/-- **What a partial tree shows, every tree with its root has.** -/
theorem Partial.shown_subset (hH : H.Binding) (p : Partial K D) :
    ∀ t : Tree K D, p.root H = t.root H → p.entries ⊆ t.entries := by
  induction p with
  | empty => intro t _; simp [Partial.entries]
  | hidden h => intro t _; simp [Partial.entries]
  | masked l h r ihl ihr =>
    intro t ht
    obtain ⟨tl, k, v, tr, rfl, -, hl, hr⟩ := hH.root_eq_node ht
    intro e he
    rcases List.mem_append.mp he with he | he
    · exact List.mem_append_left _ (ihl tl hl he)
    · exact List.mem_append_right _ (List.mem_cons_of_mem _ (ihr tr hr he))
  | shown l k v r ihl ihr =>
    intro t ht
    obtain ⟨tl, k', v', tr, rfl, hkv, hl, hr⟩ := hH.root_eq_node ht
    obtain ⟨rfl, rfl⟩ := hH.kv_inj hkv
    intro e he
    rcases List.mem_append.mp he with he | he
    · exact List.mem_append_left _ (ihl tl hl he)
    · rcases List.mem_cons.mp he with rfl | he
      · exact List.mem_append_right _ List.mem_cons_self
      · exact List.mem_append_right _ (List.mem_cons_of_mem _ (ihr tr hr he))

end Merkle
