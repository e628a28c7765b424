/-
# Runs of a step function

The states a sequence of actions leads to, and what holds in all of them: an
invariant that one step keeps exactly when the action is good in its state
holds throughout a run exactly when every action is (`invariant_iff`). What
holds of every turn up to a bound, or else first fails, is `all_or_first`.
-/
import Mathlib.Algebra.Ring.Nat
import Mathlib.Data.List.Induction
import Mathlib.Data.List.Infix

namespace Runs

variable {S A : Type} (step : S → A → S)

/-- The state some actions lead to. -/
def run (s : S) (actions : List A) : S := actions.foldl step s

@[simp] theorem run_nil (s : S) : run step s [] = s := rfl

@[simp] theorem run_cons (s : S) (a : A) (actions : List A) :
    run step s (a :: actions) = run step (step s a) actions := rfl

theorem run_append (s : S) (before after : List A) :
    run step s (before ++ after) = run step (run step s before) after :=
  List.foldl_append

/-- Each action is good in the state it is taken in. -/
def EachGood (Good : S → A → Prop) (s : S) : List A → Prop
  | [] => True
  | a :: actions => Good s a ∧ EachGood Good (step s a) actions

variable {step} {Good : S → A → Prop} {Inv : S → Prop}

theorem eachGood_iff_forall_mem {good : A → Prop} {s : S} {actions : List A} :
    EachGood step (fun _ a => good a) s actions ↔ ∀ a ∈ actions, good a := by
  induction actions generalizing s with
  | nil => exact iff_of_true trivial nofun
  | cons a actions ih => rw [EachGood, ih, List.forall_mem_cons]

theorem eachGood_append {s : S} {before after : List A} :
    EachGood step Good s (before ++ after) ↔
      EachGood step Good s before ∧ EachGood step Good (run step s before) after := by
  induction before generalizing s with
  | nil => simp [EachGood]
  | cons a before ih => rw [List.cons_append, EachGood, EachGood, ih, run_cons, and_assoc]

theorem eachGood_and {May : S → A → Prop} {s : S} {actions : List A} :
    EachGood step (fun s a => May s a ∧ Good s a) s actions ↔
      EachGood step May s actions ∧ EachGood step Good s actions := by
  induction actions generalizing s with
  | nil => exact (and_self_iff).symm
  | cons a actions ih => rw [EachGood, EachGood, EachGood, ih, and_and_and_comm]

/-- What good actions keep holds at the end of a run of them. -/
theorem invariant (hstep : ∀ s a, Inv s → Good s a → Inv (step s a)) {s : S} {actions : List A}
    (hs : Inv s) (hgood : EachGood step Good s actions) : Inv (run step s actions) := by
  induction actions generalizing s with
  | nil => exact hs
  | cons a actions ih => exact ih (hstep s a hs hgood.1) hgood.2

/-- What every action keeps holds at the end of a run. -/
theorem run_keeps (hstep : ∀ s a, Inv s → Inv (step s a)) {s : S} (hs : Inv s) (actions : List A) :
    Inv (run step s actions) := by
  have hany : EachGood step (fun _ _ => True) s actions :=
    eachGood_iff_forall_mem.mpr fun _ _ => trivial
  exact invariant (fun s a hi _ => hstep s a hi) hs hany

/-- **When a property holds throughout a run** of actions that may be taken:
an invariant gives it, good actions keep the invariant, and an action after
which the property still holds was good. -/
theorem holds_iff {May : S → A → Prop} {P : S → Prop} (hholds : ∀ s, Inv s → P s)
    (hkeep : ∀ s a, Inv s → May s a → Good s a → Inv (step s a))
    (hneed : ∀ s a, Inv s → May s a → P (step s a) → Good s a) {s : S} (hs : Inv s)
    {actions : List A} (hmay : EachGood step May s actions) :
    (∀ done, done <+: actions → P (run step s done)) ↔ EachGood step Good s actions := by
  induction actions generalizing s with
  | nil =>
    refine iff_of_true (fun done hdone => ?_) trivial
    rw [List.prefix_nil.mp hdone]
    exact hholds s hs
  | cons a actions ih =>
    obtain ⟨hmay, hmayRest⟩ := hmay
    refine ⟨fun h => ?_, fun h done hdone => ?_⟩
    · have hgood : Good s a := hneed s a hs hmay (h [a] ⟨actions, rfl⟩)
      refine ⟨hgood, (ih (hkeep s a hs hmay hgood) hmayRest).mp fun done hdone => ?_⟩
      exact h (a :: done) ((List.prefix_cons_inj a).mpr hdone)
    · obtain ⟨hgood, hrest⟩ := h
      rcases done with _ | ⟨b, done⟩
      · exact hholds s hs
      · obtain ⟨rfl, htail⟩ := List.cons_prefix_cons.mp hdone
        exact (ih (hkeep s b hs hmay hgood) hmayRest).mpr hrest done htail

/-- **When an invariant holds throughout a run.** -/
theorem invariant_iff (hstep : ∀ s a, Inv s → (Inv (step s a) ↔ Good s a)) {s : S} (hs : Inv s)
    (actions : List A) :
    (∀ done, done <+: actions → Inv (run step s done)) ↔ EachGood step Good s actions := by
  have hany : ∀ (s : S) (actions : List A), EachGood step (fun _ _ => True) s actions := by
    intro s actions
    exact eachGood_iff_forall_mem.mpr fun _ _ => trivial
  exact holds_iff (fun _ h => h) (fun s a hi _ hgood => (hstep s a hi).mpr hgood)
    (fun s a hi _ h => (hstep s a hi).mp h) hs (hany s actions)

/-- A property holds up to a bound, or there is a first number it fails at. -/
theorem all_or_first (P : ℕ → Prop) (n : ℕ) :
    (∀ j < n, P j) ∨ ∃ k < n, (∀ j < k, P j) ∧ ¬P k := by
  induction n with
  | zero => exact .inl nofun
  | succ n ih =>
    obtain hall | ⟨k, hk, hfirst⟩ := ih
    · by_cases hn : P n
      · refine .inl fun j hj => ?_
        obtain hj | rfl := Nat.lt_succ_iff_lt_or_eq.mp hj
        · exact hall j hj
        · exact hn
      · exact .inr ⟨n, n.lt_succ_self, hall, hn⟩
    · exact .inr ⟨k, Nat.lt_succ_of_lt hk, hfirst⟩

end Runs
