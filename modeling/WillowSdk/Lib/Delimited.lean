/-
# Self-delimiting encodings

An encoding is self-delimiting when what follows it can't be taken for part
of it: two texts that start with encodings and are equal start with the same
one. One after the other, counted, and listed, such encodings are read one
way (`append`, `counted`, `flatMap_inj`).
-/
import Mathlib.Algebra.Ring.Nat
import Mathlib.Data.List.Basic

namespace Delimited

variable {α β γ : Type}

/-- Among the values of a kind, the start of a text says which is encoded
there and what is left of it. -/
def SelfDelimiting (P : α → Prop) (enc : α → List γ) : Prop :=
  ∀ a b s t, P a → P b → enc a ++ s = enc b ++ t → a = b ∧ s = t

variable {P : α → Prop} {Q : β → Prop} {enc : α → List γ}

/-- Encodings of one length. -/
theorem of_length {n : ℕ} (hlen : ∀ a, P a → (enc a).length = n)
    (hinj : ∀ a b, P a → P b → enc a = enc b → a = b) : SelfDelimiting P enc := by
  intro a b s t ha hb heq
  have hsame : (enc a).length = (enc b).length := (hlen a ha).trans (hlen b hb).symm
  obtain ⟨henc, hrest⟩ := List.append_inj heq hsame
  exact ⟨hinj a b ha hb henc, hrest⟩

namespace SelfDelimiting

/-- One encoding after another, of two parts that make up a value. -/
theorem append {δ : Type} {encB : β → List γ} (hA : SelfDelimiting P enc)
    (hB : SelfDelimiting Q encB) (fst : δ → α) (snd : δ → β)
    (hparts : ∀ x y, fst x = fst y → snd x = snd y → x = y) :
    SelfDelimiting (fun x => P (fst x) ∧ Q (snd x)) fun x => enc (fst x) ++ encB (snd x) := by
  intro x y s t hx hy heq
  rw [List.append_assoc, List.append_assoc] at heq
  obtain ⟨hfst, hrest⟩ := hA _ _ _ _ hx.1 hy.1 heq
  obtain ⟨hsnd, hst⟩ := hB _ _ _ _ hx.2 hy.2 hrest
  exact ⟨hparts x y hfst hsnd, hst⟩

/-- As many encodings one after another. -/
theorem flatMap (h : SelfDelimiting P enc) (n : ℕ) :
    SelfDelimiting (fun xs : List α => xs.length = n ∧ ∀ x ∈ xs, P x) fun xs => xs.flatMap enc := by
  intro xs ys s t hxs hys heq
  induction n generalizing xs ys with
  | zero =>
    obtain rfl := List.length_eq_zero_iff.mp hxs.1
    obtain rfl := List.length_eq_zero_iff.mp hys.1
    exact ⟨rfl, heq⟩
  | succ n ih =>
    obtain ⟨x, xs, rfl⟩ := List.exists_cons_of_length_eq_add_one hxs.1
    obtain ⟨y, ys, rfl⟩ := List.exists_cons_of_length_eq_add_one hys.1
    simp only [List.flatMap_cons, List.append_assoc] at heq
    obtain ⟨hx, hxs'⟩ := List.forall_mem_cons.mp hxs.2
    obtain ⟨hy, hys'⟩ := List.forall_mem_cons.mp hys.2
    obtain ⟨rfl, hrest⟩ := h _ _ _ _ hx hy heq
    obtain ⟨rfl, hst⟩ := ih xs ys ⟨Nat.succ.inj hxs.1, hxs'⟩ ⟨Nat.succ.inj hys.1, hys'⟩ hrest
    exact ⟨rfl, hst⟩

/-- A count, then as many encodings. -/
theorem counted {C : ℕ → Prop} {count : ℕ → List γ} (hcount : SelfDelimiting C count)
    (h : SelfDelimiting P enc) :
    SelfDelimiting (fun xs : List α => C xs.length ∧ ∀ x ∈ xs, P x)
      fun xs => count xs.length ++ xs.flatMap enc := by
  intro xs ys s t hxs hys heq
  rw [List.append_assoc, List.append_assoc] at heq
  obtain ⟨hlen, hrest⟩ := hcount _ _ _ _ hxs.1 hys.1 heq
  exact h.flatMap ys.length _ _ _ _ ⟨hlen, hxs.2⟩ ⟨rfl, hys.2⟩ hrest

/-- Encodings to the end of a text. -/
theorem flatMap_inj (h : SelfDelimiting P enc) (hne : ∀ a, P a → enc a ≠ []) {xs ys : List α}
    (hxs : ∀ x ∈ xs, P x) (hys : ∀ y ∈ ys, P y) (heq : xs.flatMap enc = ys.flatMap enc) :
    xs = ys := by
  induction xs generalizing ys with
  | nil =>
    rcases ys with _ | ⟨y, ys⟩
    · rfl
    · have hempty : enc y ++ ys.flatMap enc = [] := heq.symm
      exact absurd (List.append_eq_nil_iff.mp hempty).1 (hne y (hys y List.mem_cons_self))
  | cons x xs ih =>
    obtain ⟨hx, hxs⟩ := List.forall_mem_cons.mp hxs
    rcases ys with _ | ⟨y, ys⟩
    · have hempty : enc x ++ xs.flatMap enc = [] := heq
      exact absurd (List.append_eq_nil_iff.mp hempty).1 (hne x hx)
    · obtain ⟨hy, hys⟩ := List.forall_mem_cons.mp hys
      rw [List.flatMap_cons, List.flatMap_cons] at heq
      obtain ⟨hhead, hrest⟩ := h _ _ _ _ hx hy heq
      rw [hhead, ih hxs hys hrest]

end SelfDelimiting

end Delimited
