/-
# The layers of a proof

A GroveDB proof envelope (`GroveDBProofV0`) is a tree of layers: a layer has
the bytes of its merk ops, and below it, under a key each, its lower layers
(a `BTreeMap`: the decoded map's entries in key order).
-/
import WillowSdk.Errors
import Mathlib.Data.List.Basic

namespace WillowSdk
namespace Grove

/-- One layer of a proof (`grovedb::operations::proof::LayerProof`). -/
inductive LayerProof
  | mk (merkProof : Bytes) (lowerLayers : List (Bytes × LayerProof))

namespace LayerProof

def merkProof : LayerProof → Bytes
  | .mk o _ => o

def lowerLayers : LayerProof → List (Bytes × LayerProof)
  | .mk _ lower => lower

@[simp] theorem lowerLayers_mk (o : Bytes) (lower : List (Bytes × LayerProof)) :
    (mk o lower).lowerLayers = lower := rfl

mutual
/-- How many layers, itself included. -/
def count : LayerProof → ℕ
  | .mk _ lower => 1 + countLower lower
def countLower : List (Bytes × LayerProof) → ℕ
  | [] => 0
  | (_, l) :: rest => l.count + countLower rest
end

mutual
/-- How deep layers nest below it. -/
def depth : LayerProof → ℕ
  | .mk _ lower => depthLower lower
def depthLower : List (Bytes × LayerProof) → ℕ
  | [] => 0
  | (_, l) :: rest => max (l.depth + 1) (depthLower rest)
end

theorem countLower_eq_sum (lower : List (Bytes × LayerProof)) :
    countLower lower = (lower.map fun e => e.2.count).sum := by
  induction lower with
  | nil => simp [countLower]
  | cons e rest ih => simp [countLower, ih]

theorem count_eq (l : LayerProof) : l.count = 1 + (l.lowerLayers.map fun e => e.2.count).sum := by
  obtain ⟨o, lower⟩ := l
  rw [count, countLower_eq_sum, lowerLayers_mk]

/-- The layer under `key`. -/
def get (l : LayerProof) (key : Bytes) : Option LayerProof :=
  (l.lowerLayers.find? fun e => e.1 = key).map Prod.snd

theorem mem_of_get {l m : LayerProof} {key : Bytes} (h : l.get key = some m) :
    (key, m) ∈ l.lowerLayers := by
  simp only [get, Option.map_eq_some_iff] at h
  obtain ⟨⟨k, m'⟩, hf, rfl⟩ := h
  have hk := List.find?_some hf
  simp only [decide_eq_true_eq] at hk
  exact hk ▸ List.mem_of_find?_eq_some hf

/-- The layers at every depth of the tree. -/
inductive Within (root : LayerProof) : LayerProof → Prop
  | root : Within root root
  | lower {l m : LayerProof} {key : Bytes} : Within root l → (key, m) ∈ l.lowerLayers → Within root m

theorem Within.trans {a b c : LayerProof} (h : Within a b) (h' : Within b c) : Within a c := by
  induction h' with
  | root => exact h
  | lower _ hm ih => exact .lower ih hm

theorem Within.of_lower {a b c : LayerProof} {key : Bytes} (h : (key, b) ∈ a.lowerLayers)
    (h' : Within b c) : Within a c :=
  (Within.lower .root h).trans h'

/-- A layer within is the root or within one of its lower layers. -/
theorem Within.cases_root {a c : LayerProof} (h : Within a c) :
    c = a ∨ ∃ key b, (key, b) ∈ a.lowerLayers ∧ Within b c := by
  induction h with
  | root => exact .inl rfl
  | lower h hm ih =>
    right
    rcases ih with rfl | ⟨key, b, hb, hw⟩
    · exact ⟨_, _, hm, .root⟩
    · exact ⟨key, b, hb, hw.lower hm⟩

end LayerProof

/-- A version-0 proof envelope. -/
structure GroveDBProofV0 where
  rootLayer : LayerProof
  /-- `prove_options.decrease_limit_on_empty_sub_query_result` -/
  proveOptions : Bool

end Grove
end WillowSdk
