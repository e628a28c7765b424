/-
# Machine integers

Unsigned 64-bit numbers are `ℕ` with their arithmetic spelled out: it
saturates, or a step that would overflow or underflow panics (`Checked`).
-/
import WillowSdk.Errors
import WillowSdk.Lib.Outcome

namespace WillowSdk

def u64Max : ℕ := 2 ^ 64 - 1

/-- `u64::saturating_add`. -/
def saturatingAdd (a b : ℕ) : ℕ := min (a + b) u64Max

namespace Checked

/-- A fallible call's result, where arithmetic may panic. -/
def lift {α : Type} (x : Result α) : Checked α := x.mapError .error

def refuse {α : Type} (e : WillowError) : Checked α := .error (.error e)

def add (a b : ℕ) : Checked ℕ := if a + b > u64Max then .error .panic else .ok (a + b)

def sub (a b : ℕ) : Checked ℕ := if a < b then .error .panic else .ok (a - b)

def mul (a b : ℕ) : Checked ℕ := if a * b > u64Max then .error .panic else .ok (a * b)

/-- `u64::div_ceil`. -/
def divCeil (a b : ℕ) : Checked ℕ := if b = 0 then .error .panic else .ok ((a + b - 1) / b)

/-- A check that refuses. -/
def require (c : Prop) [Decidable c] (e : WillowError) : Checked Unit := if c then .ok () else refuse e

/-- `xs[i]`. -/
def index {α : Type} (xs : List α) (i : ℕ) : Checked α := Outcome.okOr xs[i]? .panic

variable {α β : Type}

@[simp] theorem lift_eq_ok {x : Result α} {a : α} : lift x = .ok a ↔ x = .ok a := by
  simp [lift]

theorem add_bind {a b : ℕ} (h : a + b ≤ u64Max) (f : ℕ → Checked α) : add a b >>= f = f (a + b) := by
  simp [add, Nat.not_lt.mpr h, Bind.bind, Except.bind]

theorem sub_bind {a b : ℕ} (h : b ≤ a) (f : ℕ → Checked α) : sub a b >>= f = f (a - b) := by
  simp [sub, Nat.not_lt.mpr h, Bind.bind, Except.bind]

theorem mul_bind {a b : ℕ} (h : a * b ≤ u64Max) (f : ℕ → Checked α) : mul a b >>= f = f (a * b) := by
  simp [mul, Nat.not_lt.mpr h, Bind.bind, Except.bind]

theorem index_bind {xs : List β} {i : ℕ} (h : i < xs.length) (f : β → Checked α) :
    index xs i >>= f = f xs[i] := by
  simp [index, Outcome.okOr, h, Bind.bind, Except.bind]

theorem add_eq_ok {a b c : ℕ} : add a b = .ok c ↔ a + b ≤ u64Max ∧ a + b = c := by
  simp [add]

theorem mul_eq_ok {a b c : ℕ} : mul a b = .ok c ↔ a * b ≤ u64Max ∧ a * b = c := by
  simp [mul]

theorem divCeil_eq_ok {a b c : ℕ} : divCeil a b = .ok c ↔ b ≠ 0 ∧ (a + b - 1) / b = c := by
  simp [divCeil]

theorem require_eq_ok {c : Prop} [Decidable c] {e : WillowError} {u : Unit} :
    require c e = .ok u ↔ c := by
  unfold require refuse
  by_cases h : c <;> simp [h]

/-- A quotient rounded up is at most `s` when `s` times the divisor is enough. -/
theorem ceil_le_iff {a b s : ℕ} (hb : 0 < b) : (a + b - 1) / b ≤ s ↔ a ≤ b * s := by
  rw [← Nat.lt_succ_iff, Nat.div_lt_iff_lt_mul hb, Nat.succ_mul, Nat.mul_comm s b]
  omega

/-- The computation does not panic. -/
def NoPanic (x : Checked α) : Prop := x ≠ .error .panic

@[simp] theorem noPanic_ok (a : α) : NoPanic (.ok a) := by simp [NoPanic]

@[simp] theorem noPanic_refuse (e : WillowError) : NoPanic (refuse e : Checked α) := by
  simp [NoPanic, refuse]

@[simp] theorem noPanic_lift (x : Result α) : NoPanic (lift x) := by
  cases x <;> simp [NoPanic, lift]

theorem NoPanic.bind {x : Checked α} {f : α → Checked β} (hx : NoPanic x)
    (hf : ∀ a, x = .ok a → NoPanic (f a)) : NoPanic (x >>= f) := by
  cases x with
  | error e =>
    intro h
    exact hx (by simpa [Bind.bind, Except.bind] using h)
  | ok a => exact hf a rfl

/-- A sequence doesn't panic when neither part does. -/
theorem noPanic_bind_iff {x : Checked α} {f : α → Checked β} :
    NoPanic (x >>= f) ↔ NoPanic x ∧ ∀ a, x = .ok a → NoPanic (f a) := by
  refine ⟨fun h => ⟨?_, fun a ha => ?_⟩, fun h => h.1.bind h.2⟩
  · rintro rfl
    exact h rfl
  · rw [ha] at h
    exact h

theorem noPanic_add {a b : ℕ} : NoPanic (add a b) ↔ a + b ≤ u64Max := by
  unfold NoPanic add
  split <;> simp <;> omega

theorem noPanic_mul {a b : ℕ} : NoPanic (mul a b) ↔ a * b ≤ u64Max := by
  unfold NoPanic mul
  split <;> simp <;> omega

theorem noPanic_divCeil {a b : ℕ} : NoPanic (divCeil a b) ↔ b ≠ 0 := by
  unfold NoPanic divCeil
  split
  case isTrue h => simp [h]
  case isFalse h => simp [h]

@[simp] theorem noPanic_require {c : Prop} [Decidable c] {e : WillowError} :
    NoPanic (require c e) := by
  unfold require
  split
  · exact noPanic_ok _
  · exact noPanic_refuse _

end Checked

end WillowSdk
