/-
# Weighted ballots

A tally adds a weight for each ballot; the weight of those who cast one is
counted once each. The two agree exactly when nobody with a weight cast two
ballots (`tally_eq_iff`).
-/
import Mathlib.Algebra.BigOperators.Group.Finset.Basic
import Mathlib.Algebra.Order.BigOperators.Group.Finset
import Mathlib.Algebra.Ring.Nat

namespace Tally

variable {V : Type} [DecidableEq V] (weight : V → ℕ)

/-- The weight of the ballots, by who cast each. -/
def tally (ballots : List V) : ℕ := (ballots.map weight).sum

/-- The weight of those who cast a ballot. -/
def castWeight (ballots : List V) : ℕ := ∑ v ∈ ballots.toFinset, weight v

theorem tally_eq_sum (ballots : List V) :
    tally weight ballots = ∑ v ∈ ballots.toFinset, ballots.count v * weight v := by
  unfold tally
  rw [Finset.sum_list_map_count]
  rfl

theorem count_pos {ballots : List V} {v : V} (h : v ∈ ballots.toFinset) : 1 ≤ ballots.count v :=
  List.count_pos_iff.mpr (List.mem_toFinset.mp h)

/-- **When a tally counts everyone once.** -/
theorem tally_eq_iff (ballots : List V) :
    tally weight ballots = castWeight weight ballots ↔
      ∀ v, 0 < weight v → ballots.count v ≤ 1 := by
  have hle : ∀ v ∈ ballots.toFinset, weight v ≤ ballots.count v * weight v := fun v hv =>
    Nat.le_mul_of_pos_left _ (count_pos hv)
  have heq : tally weight ballots = castWeight weight ballots ↔
      ∀ v ∈ ballots.toFinset, weight v = ballots.count v * weight v := by
    rw [tally_eq_sum, eq_comm]
    exact Finset.sum_eq_sum_iff_of_le hle
  rw [heq]
  refine ⟨fun h v hv => ?_, fun h v hv => ?_⟩
  · by_cases hmem : v ∈ ballots.toFinset
    · have hone : ballots.count v * weight v = 1 * weight v := by
        rw [Nat.one_mul]
        exact (h v hmem).symm
      exact (Nat.eq_of_mul_eq_mul_right hv hone).le
    · have hzero : ballots.count v = 0 :=
        List.count_eq_zero_of_not_mem fun hin => hmem (List.mem_toFinset.mpr hin)
      omega
  · rcases Nat.eq_zero_or_pos (weight v) with hzero | hpos
    · rw [hzero, Nat.mul_zero]
    · have hone : ballots.count v = 1 := Nat.le_antisymm (h v hpos) (count_pos hv)
      rw [hone, Nat.one_mul]

end Tally
