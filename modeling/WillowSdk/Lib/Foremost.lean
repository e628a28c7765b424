/-
# The foremost of a list

A stable sort by score, highest first, starts with the first of those with the
highest score (`head?_sorted`). It is outside a set exactly when some element
outside the set outranks every one in it (`foremost_iff_outranked`).
-/
import Mathlib.Algebra.Ring.Nat
import Mathlib.Data.List.Sort

namespace Foremost

variable {α β : Type} [LinearOrder β] (score : α → β)

/-- The list, highest score first, equal ones in their order. -/
def sorted (xs : List α) : List α := xs.insertionSort fun a b => score b ≤ score a

/-- The first of those with the highest score. -/
def foremost : List α → Option α
  | [] => none
  | a :: xs =>
    match foremost xs with
    | none => some a
    | some b => if score b ≤ score a then some a else some b

/-- An element outside the set comes before every one in it: with a higher
score, or an equal one and before it in the list. -/
def Outranked (bad : α → Prop) (xs : List α) : Prop :=
  ∃ before a after, xs = before ++ a :: after ∧ ¬ bad a ∧
    (∀ b ∈ before, bad b → score b < score a) ∧ ∀ b ∈ after, bad b → score b ≤ score a

/-- By the list: an element sorted into a sorted list. -/
theorem head?_sorted (xs : List α) : (sorted score xs).head? = foremost score xs := by
  induction xs with
  | nil => rfl
  | cons a xs ih =>
    rw [foremost, ← ih]
    show (List.orderedInsert _ a (sorted score xs)).head? = _
    cases sorted score xs with
    | nil => rfl
    | cons b rest =>
      show (if score b ≤ score a then a :: b :: rest else b :: _).head? =
        if score b ≤ score a then some a else some b
      by_cases hle : score b ≤ score a
      · rw [if_pos hle, if_pos hle, List.head?_cons]
      · rw [if_neg hle, if_neg hle, List.head?_cons]

theorem sorted_pairwise (xs : List α) : (sorted score xs).Pairwise fun a b => score b ≤ score a :=
  List.pairwise_insertionSort _ xs

/-- One more element is the foremost, or leaves it. -/
theorem foremost_cons (a : α) (xs : List α) :
    (foremost score (a :: xs) = some a ∧ ∀ b, foremost score xs = some b → score b ≤ score a) ∨
    ∃ b, foremost score (a :: xs) = some b ∧ foremost score xs = some b ∧ score a < score b := by
  rw [foremost]
  cases foremost score xs with
  | none => exact .inl ⟨rfl, nofun⟩
  | some b =>
    by_cases hle : score b ≤ score a
    · refine .inl ⟨if_pos hle, fun c hc => ?_⟩
      rw [← Option.some.inj hc]
      exact hle
    · exact .inr ⟨b, if_neg hle, rfl, not_le.mp hle⟩

variable {score} {xs : List α} {a : α} {bad : α → Prop}

theorem exists_foremost (score : α → β) (hxs : xs ≠ []) : ∃ a, foremost score xs = some a := by
  obtain ⟨x, xs, rfl⟩ := List.exists_cons_of_ne_nil hxs
  rcases foremost_cons score x xs with ⟨h, -⟩ | ⟨b, h, -, -⟩
  · exact ⟨x, h⟩
  · exact ⟨b, h⟩

/-- None has a higher score. -/
theorem le_foremost (h : foremost score xs = some a) {b : α} (hb : b ∈ xs) : score b ≤ score a := by
  induction xs generalizing a with
  | nil => cases hb
  | cons x xs ih =>
    rcases foremost_cons score x xs with ⟨hx, hrest⟩ | ⟨c, hc, hrest, hlt⟩
    · obtain rfl : x = a := Option.some.inj (hx.symm.trans h)
      rcases List.mem_cons.mp hb with rfl | hb
      · exact le_rfl
      · obtain ⟨c, hc⟩ := exists_foremost score (List.ne_nil_of_mem hb)
        exact (ih hc hb).trans (hrest c hc)
    · obtain rfl : c = a := Option.some.inj (hc.symm.trans h)
      rcases List.mem_cons.mp hb with rfl | hb
      · exact hlt.le
      · exact ih hrest hb

/-- It comes first: those before it have lower scores. -/
theorem foremost_split (h : foremost score xs = some a) : ∃ before after,
    xs = before ++ a :: after ∧ (∀ b ∈ before, score b < score a) ∧
      ∀ b ∈ after, score b ≤ score a := by
  induction xs with
  | nil => cases h
  | cons x xs ih =>
    rcases foremost_cons score x xs with ⟨hx, -⟩ | ⟨c, hc, hrest, hlt⟩
    · obtain rfl : x = a := Option.some.inj (hx.symm.trans h)
      exact ⟨[], xs, rfl, nofun, fun b hb => le_foremost h (List.mem_cons_of_mem x hb)⟩
    · obtain rfl : c = a := Option.some.inj (hc.symm.trans h)
      obtain ⟨before, after, rfl, hbefore, hafter⟩ := ih hrest
      refine ⟨x :: before, after, rfl, fun b hb => ?_, hafter⟩
      rcases List.mem_cons.mp hb with rfl | hb
      · exact hlt
      · exact hbefore b hb

/-- By the elements before the one outside the set. -/
theorem Outranked.foremost (h : Outranked score bad xs) (ha : Foremost.foremost score xs = some a) :
    ¬ bad a := by
  obtain ⟨before, b, after, rfl, hb, hbefore, hafter⟩ := h
  induction before generalizing a with
  | nil =>
    rcases foremost_cons score b after with ⟨hfirst, -⟩ | ⟨c, hc, hrest, hlt⟩
    · obtain rfl : b = a := Option.some.inj (hfirst.symm.trans ha)
      exact hb
    · obtain rfl : c = a := Option.some.inj (hc.symm.trans ha)
      obtain ⟨front, back, hsplit, -, -⟩ := foremost_split hrest
      have hmem : c ∈ after := hsplit ▸ List.mem_append_right front List.mem_cons_self
      exact fun hbad => absurd (hafter c hmem hbad) (not_le.mpr hlt)
  | cons x before ih =>
    obtain ⟨hx, hbefore⟩ := List.forall_mem_cons.mp hbefore
    rcases foremost_cons score x (before ++ b :: after) with ⟨hfirst, hrest⟩ | ⟨c, hc, hrest, -⟩
    · obtain rfl : x = a := Option.some.inj (hfirst.symm.trans ha)
      have hsome : before ++ b :: after ≠ [] := by simp
      obtain ⟨c, hc⟩ := exists_foremost score hsome
      have hle : score b ≤ score x :=
        (le_foremost hc (List.mem_append_right before List.mem_cons_self)).trans (hrest c hc)
      exact fun hbad => absurd (hx hbad) (not_lt.mpr hle)
    · obtain rfl : c = a := Option.some.inj (hc.symm.trans ha)
      exact ih hrest hbefore

/-- **When the foremost is outside a set.** -/
theorem foremost_iff_outranked :
    (∀ a, foremost score xs = some a → ¬ bad a) ↔ xs = [] ∨ Outranked score bad xs := by
  refine ⟨fun h => ?_, fun h a ha => ?_⟩
  · rcases eq_or_ne xs [] with hnone | hsome
    · exact .inl hnone
    · obtain ⟨a, ha⟩ := exists_foremost score hsome
      obtain ⟨before, after, hsplit, hbefore, hafter⟩ := foremost_split ha
      exact .inr ⟨before, a, after, hsplit, h a ha, fun b hb _ => hbefore b hb,
        fun b hb _ => hafter b hb⟩
  · rcases h with rfl | h
    · cases ha
    · exact h.foremost ha

end Foremost
