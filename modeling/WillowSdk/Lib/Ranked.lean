/-
# The k-th highest of a list

A list sorted highest first has its k-th highest at index `k - 1`, and a
value is at most that one exactly when at least `k` of the list are at or
above the value (`le_ranked_iff`).
-/
import Mathlib.Algebra.Ring.Nat
import Mathlib.Data.List.Sort

namespace Ranked

variable {α : Type} [LinearOrder α]

/-- How many of a list are at or above `x`. -/
def countFrom (x : α) (xs : List α) : ℕ := xs.countP (x ≤ ·)

theorem countFrom_eq_zero {x : α} {xs : List α} (h : ∀ a ∈ xs, a < x) : countFrom x xs = 0 := by
  refine List.countP_eq_zero.mpr fun a ha => ?_
  simpa using h a ha

theorem countFrom_perm {x : α} {xs ys : List α} (h : xs.Perm ys) :
    countFrom x xs = countFrom x ys := h.countP_eq _

/-- In a list that never rises, the values at or above `x` come first. -/
theorem le_getElem_iff {x : α} {xs : List α} (hsorted : xs.Pairwise fun a b => b ≤ a) {i : ℕ}
    (hi : i < xs.length) : x ≤ xs[i] ↔ i < countFrom x xs := by
  induction xs generalizing i with
  | nil => cases hi
  | cons a xs ih =>
    obtain ⟨hhead, htail⟩ := List.pairwise_cons.mp hsorted
    by_cases hx : x ≤ a
    · have hcount : countFrom x (a :: xs) = countFrom x xs + 1 := by
        unfold countFrom
        exact List.countP_cons_of_pos (by simpa using hx)
      rw [hcount]
      cases i with
      | zero => simpa using hx
      | succ i =>
        have hlen : i < xs.length := Nat.lt_of_succ_lt_succ hi
        rw [List.getElem_cons_succ, ih htail hlen]
        omega
    · -- everything after a value below `x` is below it too
      have hall : ∀ b ∈ a :: xs, b < x := by
        intro b hb
        rcases List.mem_cons.mp hb with rfl | hb
        · exact not_le.mp hx
        · exact (hhead b hb).trans_lt (not_le.mp hx)
      rw [countFrom_eq_zero hall]
      have hlt : (a :: xs)[i] < x := hall _ (List.getElem_mem hi)
      simpa using hlt

/-- The list, highest first. -/
def highestFirst (xs : List α) : List α := xs.mergeSort fun a b => b ≤ a

theorem length_highestFirst (xs : List α) : (highestFirst xs).length = xs.length :=
  List.length_mergeSort xs

theorem highestFirst_sorted (xs : List α) : (highestFirst xs).Pairwise fun a b => b ≤ a := by
  have hsorted : (highestFirst xs).Pairwise fun a b => decide (b ≤ a) = true := by
    apply List.pairwise_mergeSort
    · intro a b c hab hbc
      simp only [decide_eq_true_eq] at hab hbc ⊢
      exact hbc.trans hab
    · intro a b
      simpa using le_total b a
  exact hsorted.imp fun h => of_decide_eq_true h

/-- **The rank of a value.** -/
theorem le_ranked_iff {x : α} {xs : List α} {i : ℕ} (hi : i < (highestFirst xs).length) :
    x ≤ (highestFirst xs)[i] ↔ i < countFrom x xs := by
  rw [le_getElem_iff (highestFirst_sorted xs) hi]
  have hperm : countFrom x (highestFirst xs) = countFrom x xs :=
    countFrom_perm (List.mergeSort_perm xs _)
  rw [hperm]

end Ranked
