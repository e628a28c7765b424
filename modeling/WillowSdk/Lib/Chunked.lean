/-
# A list in chunks

`slice::chunks` of Rust's standard library: pieces of one size, the last one
shorter if it must be. In order they make up the list (`flatten_chunks`), and
there are as many as hold it (`length_chunks_le_iff`).
-/
import Mathlib.Algebra.Ring.Nat
import Mathlib.Data.List.Basic

namespace Chunked

variable {α : Type}

/-- Pieces of a size above zero. -/
def chunks (size : ℕ) (xs : List α) : List (List α) :=
  match xs with
  | [] => []
  | x :: xs =>
    if size = 0 then [] else (x :: xs).take size :: chunks size ((x :: xs).drop size)
termination_by xs.length
decreasing_by simp only [List.length_drop, List.length_cons]; omega

variable {size : ℕ} {xs : List α}

@[simp] theorem chunks_nil (size : ℕ) : chunks size ([] : List α) = [] := by
  rw [chunks]

theorem chunks_of_ne_nil (hsize : 0 < size) (hxs : xs ≠ []) :
    chunks size xs = xs.take size :: chunks size (xs.drop size) := by
  obtain ⟨x, xs, rfl⟩ := List.exists_cons_of_ne_nil hxs
  rw [chunks, if_neg (Nat.pos_iff_ne_zero.mp hsize)]

theorem flatten_chunks (hsize : 0 < size) (xs : List α) : (chunks size xs).flatten = xs := by
  induction h : xs.length using Nat.strong_induction_on generalizing xs with
  | _ n ih =>
    by_cases hxs : xs = []
    · rw [hxs, chunks_nil, List.flatten_nil]
    · have hpos := List.length_pos_iff.mpr hxs
      have hrest : (xs.drop size).length < n := by
        rw [List.length_drop]
        omega
      rw [chunks_of_ne_nil hsize hxs, List.flatten_cons, ih _ hrest _ rfl, List.take_append_drop]

theorem length_le_of_mem_chunks {c : List α} (h : c ∈ chunks size xs) : c.length ≤ size := by
  induction hlen : xs.length using Nat.strong_induction_on generalizing xs with
  | _ n ih =>
    cases xs with
    | nil =>
      rw [chunks_nil] at h
      cases h
    | cons x xs =>
      rw [chunks] at h
      split at h
      · cases h
      · have hrest : ((x :: xs).drop size).length < n := by
          rw [List.length_drop, hlen]
          have hpos : 0 < n := by
            rw [← hlen, List.length_cons]
            omega
          omega
        rcases List.mem_cons.mp h with rfl | h
        · exact List.length_take_le _ _
        · exact ih _ hrest h rfl

/-- **How many chunks**: as few as hold the list. -/
theorem length_chunks_le_iff (hsize : 0 < size) {n : ℕ} :
    (chunks size xs).length ≤ n ↔ xs.length ≤ n * size := by
  induction n generalizing xs with
  | zero =>
    by_cases hxs : xs = []
    · rw [hxs, chunks_nil]
      exact iff_of_true le_rfl (Nat.zero_le _)
    · have hpos := List.length_pos_iff.mpr hxs
      rw [chunks_of_ne_nil hsize hxs, List.length_cons]
      omega
  | succ n ih =>
    by_cases hxs : xs = []
    · rw [hxs, chunks_nil]
      exact iff_of_true (Nat.zero_le _) (Nat.zero_le _)
    · rw [chunks_of_ne_nil hsize hxs, List.length_cons, Nat.succ_le_succ_iff, ih,
        List.length_drop, Nat.succ_mul]
      omega

theorem length_le_chunks (hsize : 0 < size) (xs : List α) :
    xs.length ≤ (chunks size xs).length * size :=
  (length_chunks_le_iff hsize).mp le_rfl

theorem chunks_lt_length (hsize : 0 < size) (hxs : xs ≠ []) :
    ((chunks size xs).length - 1) * size < xs.length := by
  have hsome : 0 < (chunks size xs).length := by
    rw [chunks_of_ne_nil hsize hxs, List.length_cons]
    omega
  have hfew : ¬ (chunks size xs).length ≤ (chunks size xs).length - 1 := by omega
  rw [length_chunks_le_iff hsize] at hfew
  omega

/-- The count of chunks is the one whose chunks hold the list and, one fewer,
don't. -/
theorem length_chunks_eq_iff (hsize : 0 < size) (hxs : xs ≠ []) {n : ℕ} :
    (chunks size xs).length = n ↔ 0 < n ∧ (n - 1) * size < xs.length ∧ xs.length ≤ n * size := by
  have hpos := List.length_pos_iff.mpr hxs
  refine ⟨fun h => ?_, fun h => ?_⟩
  · obtain rfl := h
    refine ⟨?_, chunks_lt_length hsize hxs, length_le_chunks hsize xs⟩
    rw [chunks_of_ne_nil hsize hxs, List.length_cons]
    omega
  · obtain ⟨hn, hbefore, hall⟩ := h
    have hle : (chunks size xs).length ≤ n := (length_chunks_le_iff hsize).mpr hall
    have hmore : ¬ (chunks size xs).length ≤ n - 1 := by
      rw [length_chunks_le_iff hsize]
      exact Nat.not_le.mpr hbefore
    omega

end Chunked
