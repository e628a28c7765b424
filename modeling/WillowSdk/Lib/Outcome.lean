/-
# Outcomes of fallible code

Rules for `Except`: when a sequence, a guard or a mapped error gives a value.
A proof peels a computation apart with them and never unfolds `bind`.
-/
import Mathlib.Algebra.Ring.Nat

namespace Outcome

variable {ε ε' α β : Type}

@[simp] theorem bind_eq_ok {x : Except ε α} {f : α → Except ε β} {b : β} :
    (x >>= f) = .ok b ↔ ∃ a, x = .ok a ∧ f a = .ok b := by
  cases x with
  | error e => simp [bind, Except.bind]
  | ok a => simp [bind, Except.bind]

/-- A check, then the rest. -/
theorem check_bind_eq_ok {x : Except ε Unit} {f : Unit → Except ε β} {b : β} :
    (x >>= f) = .ok b ↔ x = .ok () ∧ f () = .ok b := by
  rw [bind_eq_ok]
  exact ⟨fun ⟨(), h⟩ => h, fun h => ⟨(), h⟩⟩

@[simp] theorem map_eq_ok {x : Except ε α} {f : α → β} {b : β} :
    (f <$> x) = .ok b ↔ ∃ a, x = .ok a ∧ f a = b := by
  cases x with
  | error e => simp [Functor.map, Except.map]
  | ok a => simp [Functor.map, Except.map]

@[simp] theorem mapError_ok {f : ε → ε'} {a : α} :
    (Except.ok a : Except ε α).mapError f = .ok a := rfl

@[simp] theorem mapError_error {f : ε → ε'} {e : ε} :
    (Except.error e : Except ε α).mapError f = .error (f e) := rfl

@[simp] theorem mapError_eq_ok {x : Except ε α} {f : ε → ε'} {a : α} :
    x.mapError f = .ok a ↔ x = .ok a := by
  cases x <;> simp

/-- A guard that refuses. -/
@[simp] theorem refuse_eq_ok {c : Prop} [Decidable c] {e : ε} {x : Except ε α} {a : α} :
    (if c then .error e else x) = .ok a ↔ ¬ c ∧ x = .ok a := by
  by_cases h : c <;> simp [h]

/-- The value, or the error for a missing one. -/
def okOr (o : Option α) (e : ε) : Except ε α :=
  match o with
  | some a => .ok a
  | none => .error e

@[simp] theorem okOr_eq_ok {o : Option α} {e : ε} {a : α} : okOr o e = .ok a ↔ o = some a := by
  cases o <;> simp [okOr]

/-- `unwrap_or(false)`. -/
theorem unwrapOr_false {x : Except ε Bool} : x.toOption.getD false = true ↔ x = .ok true := by
  cases x <;> simp [Except.toOption]

/-- A check of every element. -/
@[simp] theorem forM_eq_ok {xs : List α} {f : α → Except ε Unit} :
    xs.forM f = .ok () ↔ ∀ x ∈ xs, f x = .ok () := by
  induction xs with
  | nil => simp [pure, Except.pure]
  | cons x xs ih => rw [List.forM, check_bind_eq_ok, ih, List.forall_mem_cons]

/-- Every element mapped. -/
theorem of_mapM_eq_ok {xs : List α} {f : α → Except ε β} {ys : List β} (h : xs.mapM f = .ok ys) :
    ys.length = xs.length ∧ ∀ y ∈ ys, ∃ x ∈ xs, f x = .ok y := by
  induction xs generalizing ys with
  | nil =>
    obtain rfl := Except.ok.inj h
    exact ⟨rfl, nofun⟩
  | cons x xs ih =>
    rw [List.mapM_cons, bind_eq_ok] at h
    obtain ⟨y, hy, h⟩ := h
    obtain ⟨ys', hys, h⟩ := bind_eq_ok.mp h
    obtain rfl := Except.ok.inj h
    obtain ⟨hlen, hmem⟩ := ih hys
    refine ⟨by rw [List.length_cons, List.length_cons, hlen], fun z hz => ?_⟩
    rcases List.mem_cons.mp hz with rfl | hz
    · exact ⟨x, List.mem_cons_self, hy⟩
    · obtain ⟨w, hw, hfw⟩ := hmem z hz
      exact ⟨w, List.mem_cons_of_mem x hw, hfw⟩

/-- Every element looked up. -/
theorem mapM_okOr_eq_ok {f : α → Option β} {e : α → ε} {xs : List α} {ys : List β} :
    (xs.mapM fun x => okOr (f x) (e x)) = .ok ys ↔ xs.map f = ys.map some := by
  induction xs generalizing ys with
  | nil =>
    cases ys with
    | nil => exact iff_of_true rfl rfl
    | cons y ys => exact iff_of_false nofun nofun
  | cons x xs ih =>
    rw [List.mapM_cons, bind_eq_ok, List.map_cons]
    refine ⟨fun ⟨y, hy, h⟩ => ?_, fun h => ?_⟩
    · obtain ⟨rest, hrest, hys⟩ := bind_eq_ok.mp h
      obtain rfl := Except.ok.inj hys
      rw [List.map_cons, okOr_eq_ok.mp hy, ih.mp hrest]
    · cases ys with
      | nil => cases h
      | cons y ys =>
        obtain ⟨hy, hrest⟩ := List.cons.inj h
        exact ⟨y, okOr_eq_ok.mpr hy, bind_eq_ok.mpr ⟨ys, ih.mpr hrest, rfl⟩⟩

/-! ### Elements looked up -/

section Found

variable {f : α → Option β} {xs : List α} {ys : List β}

theorem all_found_iff :
    (∀ x ∈ xs, ∃ y, f x = some y) ↔ ∃ ys : List β, xs.map f = ys.map some := by
  induction xs with
  | nil => exact iff_of_true nofun ⟨[], rfl⟩
  | cons x xs ih =>
    rw [List.forall_mem_cons, ih]
    refine ⟨fun ⟨⟨y, hy⟩, ys, hrest⟩ => ⟨y :: ys, ?_⟩, fun ⟨ys, h⟩ => ?_⟩
    · rw [List.map_cons, List.map_cons, hy, hrest]
    · cases ys with
      | nil => cases h
      | cons y ys =>
        obtain ⟨hy, hrest⟩ := List.cons.inj h
        exact ⟨⟨y, hy⟩, ys, hrest⟩

/-- The first of what was found that passes is what the first element whose
find passes gave. -/
theorem find?_found_iff {p : β → Bool} {b : β} (h : xs.map f = ys.map some) :
    ys.find? p = some b ↔ ∃ before x after, xs = before ++ x :: after ∧ f x = some b ∧
      p b = true ∧ ∀ a ∈ before, ∀ c, f a = some c → p c = false := by
  induction xs generalizing ys with
  | nil =>
    obtain rfl := List.map_eq_nil_iff.mp h.symm
    refine iff_of_false nofun ?_
    rintro ⟨before, x, after, hsplit, -⟩
    cases before <;> cases hsplit
  | cons x xs ih =>
    cases ys with
    | nil => cases h
    | cons y ys =>
      obtain ⟨hx, hrest⟩ := List.cons.inj h
      rw [List.find?_cons]
      cases hp : p y with
      | true =>
        refine ⟨fun hy => ?_, fun ⟨before, x', after, hsplit, hx', hpass, hbefore⟩ => ?_⟩
        · obtain rfl := Option.some.inj hy
          exact ⟨[], x, xs, rfl, hx, hp, nofun⟩
        · cases before with
          | nil =>
            obtain ⟨rfl, -⟩ := List.cons.inj hsplit
            rw [← hx', hx]
          | cons a before =>
            obtain ⟨rfl, -⟩ := List.cons.inj hsplit
            rw [hbefore x List.mem_cons_self y hx] at hp
            cases hp
      | false =>
        refine (ih hrest).trans
          ⟨fun ⟨before, x', after, hsplit, hx', hpass, hbefore⟩ => ?_,
            fun ⟨before, x', after, hsplit, hx', hpass, hbefore⟩ => ?_⟩
        · refine ⟨x :: before, x', after, by rw [hsplit]; rfl, hx', hpass, ?_⟩
          refine List.forall_mem_cons.mpr ⟨fun c hc => ?_, hbefore⟩
          rw [← Option.some.inj (hx.symm.trans hc)]
          exact hp
        · cases before with
          | nil =>
            obtain ⟨rfl, -⟩ := List.cons.inj hsplit
            rw [← Option.some.inj (hx.symm.trans hx'), hp] at hpass
            cases hpass
          | cons a before =>
            obtain ⟨-, htail⟩ := List.cons.inj hsplit
            exact ⟨before, x', after, htail, hx', hpass, fun a ha => hbefore a (.tail _ ha)⟩

end Found

end Outcome
