/-
# Levels of hashes

A list of hashes is merged pair by pair, an odd level's last hash paired with
itself, until one is left. At a fixed length the last level fixes the first
unless the node hash collides on two inputs met on the way (`eq_or_collide`),
and every level is shorter than the one below (`top_reached`).
-/
import Mathlib.Algebra.Ring.Nat
import Mathlib.Data.List.Basic
import Mathlib.Data.List.Induction
import Mathlib.Logic.Function.Iterate

namespace HashLevels

variable {D : Type}

/-- An odd level's last hash again. -/
def pad (level : List D) : List D :=
  if level.length % 2 ≠ 0 then level ++ level.getLast?.toList else level

def pairs : List D → List (D × D)
  | a :: b :: rest => (a, b) :: pairs rest
  | _ => []

theorem length_pairs (level : List D) : (pairs level).length = level.length / 2 := by
  induction level using List.twoStepInduction with
  | nil => simp [pairs]
  | singleton => simp [pairs]
  | cons_cons a b rest ih _ =>
    rw [pairs, List.length_cons, ih, List.length_cons, List.length_cons]
    omega

theorem length_pad (level : List D) : (pad level).length = level.length + level.length % 2 := by
  unfold pad
  split
  case isTrue hodd =>
    have hne : level ≠ [] := by
      rintro rfl
      exact hodd rfl
    rw [List.length_append, List.getLast?_eq_some_getLast hne]
    simp only [Option.toList_some, List.length_singleton]
    omega
  case isFalse heven => omega

/-- A padded level's pairs are those of no other level of its length. -/
theorem pairs_inj : ∀ {xs ys : List D}, xs.length = ys.length → xs.length % 2 = 0 →
    pairs xs = pairs ys → xs = ys
  | [], [], _, _, _ => rfl
  | [_], [_], _, heven, _ => absurd heven (by simp)
  | a :: b :: xs, c :: d :: ys, hlen, heven, h => by
    rw [pairs, pairs, List.cons.injEq, Prod.mk.injEq] at h
    obtain ⟨⟨rfl, rfl⟩, hrest⟩ := h
    have hlen' : xs.length = ys.length := by simpa using hlen
    have heven' : xs.length % 2 = 0 := by
      rw [List.length_cons, List.length_cons] at heven
      omega
    rw [pairs_inj hlen' heven' hrest]

theorem pad_inj {xs ys : List D} (hlen : xs.length = ys.length) (h : pad xs = pad ys) :
    xs = ys := by
  unfold pad at h
  rw [hlen] at h
  split at h
  · exact (List.append_inj h hlen).1
  · exact h

section Node

variable (node : D × D → D)

/-- The level above one. -/
def next (level : List D) : List D := (pairs (pad level)).map node

theorem length_next (level : List D) : (next node level).length = (level.length + 1) / 2 := by
  rw [next, List.length_map, length_pairs, length_pad]
  omega

/-- The levels above one, down to a single hash. -/
def top (level : List D) : List D :=
  if 1 < level.length then top (next node level) else level
termination_by level.length
decreasing_by
  rw [length_next]
  omega

/-- The pairs hashed on the way. -/
def inputs (level : List D) : List (D × D) :=
  if 1 < level.length then pairs (pad level) ++ inputs (next node level) else []
termination_by level.length
decreasing_by
  rw [length_next]
  omega

variable {node} in
theorem top_of_many {level : List D} (h : 1 < level.length) :
    top node level = top node (next node level) := by rw [top, if_pos h]

variable {node} in
theorem inputs_of_many {level : List D} (h : 1 < level.length) :
    inputs node level = pairs (pad level) ++ inputs node (next node level) := by
  rw [inputs, if_pos h]

/-- The node hash collides on an input of one computation and one of the other. -/
def Collide (xs ys : List D) : Prop :=
  ∃ p ∈ inputs node xs, ∃ q ∈ inputs node ys, p ≠ q ∧ node p = node q

variable {node}

theorem eq_or_collide_of_map {ps qs : List (D × D)} (hlen : ps.length = qs.length)
    (h : ps.map node = qs.map node) :
    ps = qs ∨ ∃ p ∈ ps, ∃ q ∈ qs, p ≠ q ∧ node p = node q := by
  induction ps generalizing qs with
  | nil =>
    cases qs with
    | nil => exact .inl rfl
    | cons q qs => cases hlen
  | cons p ps ih =>
    cases qs with
    | nil => cases hlen
    | cons q qs =>
      obtain ⟨hnode, hrest⟩ := List.cons.inj h
      by_cases hpq : p = q
      · subst hpq
        rcases ih (Nat.succ.inj hlen) hrest with rfl | ⟨p', hp', q', hq', hne⟩
        · exact .inl rfl
        · exact .inr ⟨p', .tail _ hp', q', .tail _ hq', hne⟩
      · exact .inr ⟨p, .head _, q, .head _, hpq, hnode⟩

/-- **The last level fixes the first**, or the node hash collides on the way. -/
theorem eq_or_collide {xs ys : List D} (hlen : xs.length = ys.length)
    (h : top node xs = top node ys) : xs = ys ∨ Collide node xs ys := by
  induction hn : xs.length using Nat.strong_induction_on generalizing xs ys with
  | _ n ih =>
    by_cases hmany : 1 < xs.length
    · have hmany' : 1 < ys.length := hlen ▸ hmany
      have hpadded : (pairs (pad xs)).length = (pairs (pad ys)).length := by
        rw [length_pairs, length_pairs, length_pad, length_pad, hlen]
      have hup : (next node xs).length = (next node ys).length := by
        rw [length_next, length_next, hlen]
      have hless : (next node xs).length < n := by
        rw [length_next]
        omega
      rw [top_of_many hmany, top_of_many hmany'] at h
      unfold Collide
      rw [inputs_of_many hmany, inputs_of_many hmany']
      rcases ih _ hless hup h rfl with hnext | ⟨p, hp, q, hq, hne⟩
      · rcases eq_or_collide_of_map hpadded hnext with hpairs | ⟨p, hp, q, hq, hne⟩
        · have heven : (pad xs).length % 2 = 0 := by
            rw [length_pad]
            omega
          have hpads : (pad xs).length = (pad ys).length := by
            rw [length_pad, length_pad, hlen]
          exact .inl (pad_inj hlen (pairs_inj hpads heven hpairs))
        · exact .inr ⟨p, List.mem_append_left _ hp, q, List.mem_append_left _ hq, hne⟩
      · exact .inr ⟨p, List.mem_append_right _ hp, q, List.mem_append_right _ hq, hne⟩
    · have hmany' : ¬ 1 < ys.length := hlen ▸ hmany
      rw [top, if_neg hmany, top, if_neg hmany'] at h
      exact .inl h

variable (node) in
/-- **The levels end**: after fewer turns than there are hashes, one is left. -/
theorem top_reached {level : List D} (hne : level ≠ []) :
    ∃ k < level.length, (∀ j < k, 1 < ((next node)^[j] level).length) ∧
      (next node)^[k] level = top node level ∧ (top node level).length = 1 := by
  induction hn : level.length using Nat.strong_induction_on generalizing level with
  | _ n ih =>
    have hpos := List.length_pos_iff.mpr hne
    by_cases hmany : 1 < level.length
    · have hlen := length_next node level
      have hup : next node level ≠ [] := by
        rw [← List.length_pos_iff, hlen]
        omega
      obtain ⟨k, hk, hturns, htop, hone⟩ := ih (next node level).length (by omega) hup rfl
      rw [top_of_many hmany]
      refine ⟨k + 1, by omega, fun j hj => ?_, htop, hone⟩
      cases j with
      | zero => exact hmany
      | succ j => exact hturns j (Nat.lt_of_succ_lt_succ hj)
    · have hstay : top node level = level := by rw [top, if_neg hmany]
      rw [hstay]
      exact ⟨0, by omega, nofun, rfl, by omega⟩

end Node

end HashLevels
