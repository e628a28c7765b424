/-
# Variables in hashed slots

A contract keeps its variables in one map from words to values: a plain one
at a fixed word, an entry of a mapping at a hash of its key with the
mapping's own slot, and so on for mappings in mappings. A `Location` names a
variable, a `Layout` gives it its slot.

Some locations can hold any contents exactly if no two share a slot
(`exists_holds_iff`), and then writes to them, in any order, leave each with
what was last written to it (`Holds.run`). Two share a slot only if the hash
gives two of the inputs on their ways one word, or gives one of them a fixed
word (`slot_cases`).
-/
import Mathlib.Data.Set.Function
import Mathlib.Logic.Function.Basic

namespace Slots

/-- A variable: at a fixed place, or under a key of a mapping. -/
inductive Location (F K : Type)
  | fixed (n : F)
  | entry (base : Location F K) (key : K)
deriving DecidableEq

/-- The words variables are kept at. -/
structure Layout (F K W : Type) where
  fixed : F → W
  entry : W → K → W

variable {F K W V : Type} (L : Layout F K W)

def Layout.slot : Location F K → W
  | .fixed n => L.fixed n
  | .entry base key => L.entry (slot base) key

/-- What is hashed on the way to a location's slot. -/
def Layout.inputs : Location F K → List (W × K)
  | .fixed _ => []
  | .entry base key => (L.slot base, key) :: inputs base

/-- A hash of one of the inputs is that of another, or a fixed word. -/
def Layout.Clash (inputs : List (W × K)) : Prop :=
  (∃ a ∈ inputs, ∃ b ∈ inputs, a ≠ b ∧ L.entry a.1 a.2 = L.entry b.1 b.2) ∨
    ∃ a ∈ inputs, ∃ n, L.entry a.1 a.2 = L.fixed n

variable {L}

theorem Layout.Clash.mono {inputs inputs' : List (W × K)} (h : L.Clash inputs)
    (hsub : inputs ⊆ inputs') : L.Clash inputs' := by
  rcases h with ⟨a, ha, b, hb, hne, heq⟩ | ⟨a, ha, n, heq⟩
  · exact .inl ⟨a, hsub ha, b, hsub hb, hne, heq⟩
  · exact .inr ⟨a, hsub ha, n, heq⟩

/-- **Two locations share a slot only where the hash clashes.** -/
theorem slot_cases (hfixed : Function.Injective L.fixed) : ∀ {l m : Location F K},
    L.slot l = L.slot m → l = m ∨ L.Clash (L.inputs l ++ L.inputs m)
  | .fixed n, .fixed n', h => .inl (congrArg _ (hfixed h))
  | .fixed n, .entry base key, h =>
    .inr (.inr ⟨(L.slot base, key), by simp [Layout.inputs], n, h.symm⟩)
  | .entry base key, .fixed n, h => .inr (.inr ⟨(L.slot base, key), by simp [Layout.inputs], n, h⟩)
  | .entry base key, .entry base' key', h => by
    by_cases hsame : (L.slot base, key) = (L.slot base', key')
    · obtain ⟨hbase, rfl⟩ := Prod.mk.inj hsame
      rcases slot_cases hfixed hbase with rfl | hclash
      · exact .inl rfl
      · refine .inr (hclash.mono fun a ha => ?_)
        simp only [Layout.inputs, List.mem_append, List.mem_cons] at ha ⊢
        tauto
    · exact .inr (.inl ⟨_, by simp [Layout.inputs], _, by simp [Layout.inputs], hsame, h⟩)

/-! ### Contents in slots -/

section Holds

variable (L) in
/-- The slots of some locations hold their contents. -/
def Layout.Holds (S : Set (Location F K)) (storage : W → V) (contents : Location F K → V) : Prop :=
  ∀ l ∈ S, storage (L.slot l) = contents l

variable {S : Set (Location F K)} {storage : W → V} {contents : Location F K → V}

/-- Any contents can be held exactly where no two locations share a slot. -/
theorem exists_holds_iff [Nontrivial V] :
    (∀ contents : Location F K → V, ∃ storage, L.Holds S storage contents) ↔
      Set.InjOn L.slot S := by
  classical
  refine ⟨fun h l hl m hm heq => ?_, fun h contents => ?_⟩
  · obtain ⟨v, w, hne⟩ := exists_pair_ne V
    obtain ⟨storage, hstorage⟩ := h (Function.update (fun _ => w) l v)
    by_contra hlm
    have hv := hstorage l hl
    have hw := hstorage m hm
    rw [Function.update_self] at hv
    rw [Function.update_of_ne (Ne.symm hlm), ← heq, hv] at hw
    exact hne hw
  · -- the word of a location holds its contents, and no other location's
    refine ⟨fun w => if hw : ∃ l ∈ S, L.slot l = w then contents hw.choose
      else (exists_pair_ne V).choose, fun l hl => ?_⟩
    have hw : ∃ m ∈ S, L.slot m = L.slot l := ⟨l, hl, rfl⟩
    obtain ⟨hmem, hslot⟩ := hw.choose_spec
    exact (dif_pos hw).trans (congrArg contents (h hmem hl hslot))

variable [DecidableEq W] [DecidableEq F] [DecidableEq K]

/-- A write to one location. -/
theorem Layout.Holds.write (hS : Set.InjOn L.slot S) (h : L.Holds S storage contents)
    {l : Location F K} (hl : l ∈ S) (v : V) :
    L.Holds S (Function.update storage (L.slot l) v) (Function.update contents l v) := by
  intro m hm
  by_cases hlm : m = l
  · rw [hlm, Function.update_self, Function.update_self]
  · have hslot : L.slot m ≠ L.slot l := fun heq => hlm (hS hm hl heq)
    rw [Function.update_of_ne hslot, Function.update_of_ne hlm]
    exact h m hm

/-- Any writes, in order. -/
theorem Layout.Holds.run (hS : Set.InjOn L.slot S) (h : L.Holds S storage contents)
    (writes : List (Location F K × V)) (hwrites : ∀ w ∈ writes, w.1 ∈ S) :
    L.Holds S (writes.foldl (fun s w => Function.update s (L.slot w.1) w.2) storage)
      (writes.foldl (fun c w => Function.update c w.1 w.2) contents) := by
  induction writes generalizing storage contents with
  | nil => exact h
  | cons w writes ih =>
    obtain ⟨hw, hrest⟩ := List.forall_mem_cons.mp hwrites
    exact ih (h.write hS hw w.2) hrest

end Holds

end Slots
