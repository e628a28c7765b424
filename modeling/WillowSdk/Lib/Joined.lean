/-
# Text joined at a separator

Pieces without the separator, joined with it, split one way (`join_inj`).
Decimal numbers hold only digits and name one number each.
-/
import Mathlib.Algebra.Ring.Nat
import Mathlib.Data.List.Basic

namespace Joined

/-- The pieces with a separator between them. -/
def join (c : Char) (pieces : List String) : String := (String.singleton c).intercalate pieces

theorem toList_join (c : Char) (pieces : List String) :
    (join c pieces).toList = [c].intercalate (pieces.map String.toList) := by
  rw [join, String.toList_intercalate, String.toList_singleton]

theorem toList_join_cons (c : Char) (p q : String) (ps : List String) :
    (join c (p :: q :: ps)).toList = p.toList ++ c :: (join c (q :: ps)).toList := by
  rw [toList_join, toList_join, List.map_cons, List.map_cons, List.intercalate_cons_cons,
    List.append_assoc]
  rfl

/-- **One way to split.** -/
theorem join_inj {c : Char} {ps qs : List String} (hp : ∀ p ∈ ps, c ∉ p.toList)
    (hq : ∀ q ∈ qs, c ∉ q.toList) (hps : ps ≠ []) (hqs : qs ≠ [])
    (h : join c ps = join c qs) : ps = qs := by
  have hlists : [c].intercalate (ps.map String.toList) = [c].intercalate (qs.map String.toList) := by
    rw [← toList_join, ← toList_join, h]
  have hsplit : ps.map String.toList = qs.map String.toList :=
    calc ps.map String.toList
        = ([c].intercalate (ps.map String.toList)).splitOn c :=
          (List.splitOn_intercalate c (by simpa using hp) (by simpa using hps)).symm
      _ = ([c].intercalate (qs.map String.toList)).splitOn c := by rw [hlists]
      _ = qs.map String.toList := List.splitOn_intercalate c (by simpa using hq) (by simpa using hqs)
  exact List.map_injective_iff.mpr (fun a b h => String.toList_inj.mp h) hsplit

/-- Joined text starts as its first piece does. -/
theorem head_join {c : Char} {p : String} (ps : List String) (hp : p.toList ≠ []) :
    (join c (p :: ps)).toList.head? = p.toList.head? := by
  rw [toList_join]
  cases ps with
  | nil => simp [List.intercalate]
  | cons q qs =>
    rw [List.map_cons, List.map_cons, List.intercalate_cons_cons, List.append_assoc,
      List.head?_append_of_ne_nil _ hp]

/-- The first separator ends the first piece. -/
theorem cut_inj {α : Type} {c : α} {xs xs' ys ys' : List α} (h : c ∉ xs) (h' : c ∉ xs')
    (heq : xs ++ c :: ys = xs' ++ c :: ys') : xs = xs' ∧ ys = ys' := by
  induction xs generalizing xs' with
  | nil =>
    cases xs' with
    | nil =>
      obtain ⟨-, hys⟩ := List.cons.inj heq
      exact ⟨rfl, hys⟩
    | cons x' xs' =>
      obtain ⟨rfl, -⟩ := List.cons.inj heq
      exact absurd List.mem_cons_self h'
  | cons x xs ih =>
    cases xs' with
    | nil =>
      obtain ⟨rfl, -⟩ := List.cons.inj heq
      exact absurd List.mem_cons_self h
    | cons x' xs' =>
      obtain ⟨rfl, hrest⟩ := List.cons.inj heq
      obtain ⟨hxs, hys⟩ := ih (fun hm => h (.tail _ hm)) (fun hm => h' (.tail _ hm)) hrest
      exact ⟨by rw [hxs], hys⟩

/-- The last separator starts the last piece. -/
theorem cut_last_inj {α : Type} {c : α} {xs xs' ys ys' : List α} (h : c ∉ ys) (h' : c ∉ ys')
    (heq : xs ++ c :: ys = xs' ++ c :: ys') : xs = xs' ∧ ys = ys' := by
  have hrev : ys.reverse ++ c :: xs.reverse = ys'.reverse ++ c :: xs'.reverse := by
    simpa using congrArg List.reverse heq
  obtain ⟨hys, hxs⟩ := cut_inj (by simpa using h) (by simpa using h') hrev
  exact ⟨List.reverse_injective hxs, List.reverse_injective hys⟩

/-! ### Decimal numbers -/

theorem toList_decimal (n : ℕ) : (toString n).toList = Nat.toDigits 10 n := Nat.toList_repr

theorem decimal_inj {m n : ℕ} (h : toString m = toString n) : m = n := by
  have hdigits : Nat.toDigits 10 m = Nat.toDigits 10 n := by
    rw [← toList_decimal, ← toList_decimal, h]
  calc m = Nat.ofDigitChars 10 (Nat.toDigits 10 m) 0 := Nat.ofDigitChars_ten_toDigits.symm
    _ = Nat.ofDigitChars 10 (Nat.toDigits 10 n) 0 := by rw [hdigits]
    _ = n := Nat.ofDigitChars_ten_toDigits

theorem not_mem_decimal {c : Char} (hc : c.isDigit = false) (n : ℕ) : c ∉ (toString n).toList := by
  rw [toList_decimal]
  intro h
  simp [Nat.isDigit_of_mem_toDigits (by omega) (by omega) h] at hc

end Joined
