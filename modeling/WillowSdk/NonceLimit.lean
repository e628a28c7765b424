/-
# Nonces at the largest base

The window and the used bits are read with saturating additions
(src/nonces.rs), which fold the nonces past the largest 64-bit number onto
it. Short of the largest base `take` still returns a nonce above the base
that the state doesn't show used; what it records used is exact unless a bit
past the largest number marks that number for another
(`take_is_sound_iff`), and so is what a state yields by itself
(`usedNonces_exact_iff`).
-/
import WillowSdk.NonceHistory

namespace WillowSdk
namespace NonceLimit

open Consensus (Operation)
open NonceHistory (World Call Log highestBase)

/-- `is_used`, its subtractions those of machine integers. -/
def isUsedChecked (s : AccountNonceState) (nonce : ℕ) : Checked Bool :=
  if nonce ≤ s.base then .ok true
  else do
    let above ← Checked.sub nonce s.base
    let offset ← Checked.sub above 1
    .ok (offset < nonceWindow && s.used.testBit offset)

/-- Neither subtraction underflows. -/
theorem isUsedChecked_eq (s : AccountNonceState) (n : ℕ) : isUsedChecked s n = .ok (s.isUsed n) := by
  unfold isUsedChecked AccountNonceState.isUsed
  split
  case isTrue => rfl
  case isFalse h =>
    rw [Checked.sub_bind (by omega), Checked.sub_bind (by omega)]

/-- The clock doesn't go back, and a base is an unsigned 64-bit number. -/
def MayCall (w : World) (call : Call) : Prop :=
  w.now ≤ call.now ∧
    match call.op with
    | .take _ state => state.base ≤ u64Max
    | _ => True

/-- The world after some calls. -/
def Reached (w : World) : Prop :=
  ∃ calls, Runs.EachGood World.step MayCall World.init calls ∧
    w = Runs.run World.step World.init calls

/-- The tracker's base of a DID is the highest the log reports. -/
structure BasesAgree (w : World) : Prop where
  base : ∀ did, (w.tracker did).base = highestBase did w.log
  base_le : ∀ did, (w.tracker did).base ≤ u64Max

theorem BasesAgree.step {w : World} {call : Call} (h : BasesAgree w) (hc : MayCall w call) :
    BasesAgree (w.step call) where
  base did := by
    rw [NonceHistory.highestBase_step]
    show (call.op.apply w.tracker call.now did).base = _
    rw [NonceHistory.apply_base]
    simp only [h.base]
  base_le did := by
    show (call.op.apply w.tracker call.now did).base ≤ _
    rw [NonceHistory.apply_base]
    obtain ⟨-, hbound⟩ := hc
    split
    case h_1 d state hcall =>
      rw [hcall] at hbound
      split
      · exact max_le (h.base_le did) hbound
      · exact h.base_le did
    case h_2 => exact h.base_le did

theorem Reached.basesAgree {w : World} (h : Reached w) : BasesAgree w := by
  obtain ⟨calls, hgood, rfl⟩ := h
  have hinit : BasesAgree World.init := ⟨fun _ => rfl, fun _ => Nat.zero_le _⟩
  exact Runs.invariant (fun _ _ hi hc => BasesAgree.step hi hc) hinit hgood

/-! ### What is recorded used -/

/-- The state's own bit for a nonce is set. -/
def OwnBit (state : AccountNonceState) (n : ℕ) : Prop :=
  state.base < n ∧ n - state.base - 1 < nonceWindow ∧ state.used.testBit (n - state.base - 1) = true

theorem isUsed_iff_ownBit {state : AccountNonceState} {n : ℕ} (h : state.base < n) :
    state.isUsed n = true ↔ OwnBit state n := by
  unfold AccountNonceState.isUsed OwnBit
  simp [Nat.not_le.mpr h, h]

/-- A bit is set past the largest number. -/
def BitPastLimit (state : AccountNonceState) : Prop :=
  ∃ i < nonceWindow, u64Max < state.base + 1 + i ∧ state.used.testBit i = true

/-- The nonces read from the bits: a bit past the limit is read as the limit. -/
theorem mem_usedNonces {state : AccountNonceState} {n : ℕ} :
    n ∈ state.usedNonces ↔ (n ≤ u64Max ∧ OwnBit state n) ∨ (n = u64Max ∧ BitPastLimit state) := by
  unfold AccountNonceState.usedNonces OwnBit BitPastLimit saturatingAdd
  simp only [List.mem_map, List.mem_filter, List.mem_range]
  refine ⟨fun h => ?_, fun h => ?_⟩
  · obtain ⟨i, ⟨hi, hbit⟩, rfl⟩ := h
    by_cases hpast : u64Max < state.base + 1 + i
    · exact .inr ⟨by omega, i, hi, hpast, hbit⟩
    · have hoffset : min (state.base + (1 + i)) u64Max - state.base - 1 = i := by omega
      rw [hoffset]
      exact .inl ⟨by omega, by omega, hi, hbit⟩
  · rcases h with ⟨hle, hlt, hoffset, hbit⟩ | ⟨rfl, i, hi, hpast, hbit⟩
    · exact ⟨n - state.base - 1, ⟨hoffset, hbit⟩, by omega⟩
    · exact ⟨i, ⟨hi, hbit⟩, by omega⟩

/-- **What a state yields by itself**, whatever a tracker knew before: the
nonces read from its bits are those whose own bit is set, just when no bit
past the limit marks the largest nonce without its own bit. -/
theorem usedNonces_exact_iff (state : AccountNonceState) :
    (∀ n, n ∈ state.usedNonces ↔ n ≤ u64Max ∧ OwnBit state n) ↔
      (BitPastLimit state → OwnBit state u64Max) := by
  simp only [mem_usedNonces]
  refine ⟨fun hall hpast => ?_, fun hlimit n => ⟨fun hn => ?_, .inl⟩⟩
  · exact ((hall u64Max).mp (.inr ⟨rfl, hpast⟩)).2
  · rcases hn with hown | ⟨rfl, hpast⟩
    · exact hown
    · exact ⟨le_rfl, hlimit hpast⟩

/-! ### One `take` -/

/-- What a `take` promises of its nonce and of what it records. -/
structure Sound (w : World) (now : ℕ) (did : String) (state : AccountNonceState) : Prop where
  /-- The window is full, or the nonce is above every base reported and the
  state doesn't show it used. -/
  taken : (∃ m, (w.tracker.take now did state).1 = .error (.nonceWindowFull m)) ∨
    ∃ n, (w.tracker.take now did state).1 = .ok n ∧ highestBase did w.log < n ∧ state.base < n ∧
      state.isUsed n = false
  /-- Above the base, recorded used are those that were and those whose own
  bit is set. -/
  recorded : ∀ n, n ∈ ((w.tracker.take now did state).2 did).used ↔
    max (highestBase did w.log) state.base < n ∧
      (n ∈ (w.tracker did).used ∨ (n ≤ u64Max ∧ OwnBit state n))

/-- The highest base is not the largest one, and no bit past the limit marks
the largest nonce used where it neither was nor its own bit does. -/
def WithinLimit (w : World) (did : String) (state : AccountNonceState) : Prop :=
  max (highestBase did w.log) state.base < u64Max ∧
    (BitPastLimit state → u64Max ∈ (w.tracker did).used ∨ OwnBit state u64Max)

section Take

variable {w : World} {now n : ℕ} {did : String} {state : AccountNonceState}

theorem take_used : n ∈ ((w.tracker.take now did state).2 did).used ↔
    max (w.tracker did).base state.base < n ∧
      (n ∈ (w.tracker did).used ∨ n ∈ state.usedNonces) := by
  obtain ⟨a, ht, ha⟩ := NonceTracker.take_account w.tracker now did state
  have hused : a.used = ((w.tracker did).refresh (some state) now).used := by
    rcases ha with rfl | ⟨m, rfl⟩ <;> rfl
  rw [ht, Function.update_self, hused]
  simp only [Account.refresh, Finset.mem_filter, Finset.mem_union, List.mem_toFinset, and_comm]

/-- Short of the largest base, `take` returns nothing the state shows used. -/
theorem taken_of_lt (hbase : (w.tracker did).base = highestBase did w.log)
    (h : max (highestBase did w.log) state.base < u64Max) :
    (∃ m, (w.tracker.take now did state).1 = .error (.nonceWindowFull m)) ∨
    ∃ n, (w.tracker.take now did state).1 = .ok n ∧ highestBase did w.log < n ∧ state.base < n ∧
      state.isUsed n = false := by
  rcases NonceTracker.take_cases ((w.tracker did).refresh (some state) now) rfl with
    ⟨n, hn, ⟨hfirst, hlast⟩, hfree, -, -⟩ | ⟨hfull, -, -⟩
  · rw [Account.refresh_some_base, hbase] at hfirst
    have habove : max (highestBase did w.log) state.base < n := by
      unfold saturatingAdd at hfirst
      omega
    obtain ⟨hlt, hstate⟩ := max_lt_iff.mp habove
    refine .inr ⟨n, hn, hlt, hstate, ?_⟩
    rw [Bool.eq_false_iff, ne_eq, isUsed_iff_ownBit hstate]
    intro hown
    have hunused : n ∉ ((w.tracker did).refresh (some state) now).used := by
      simp only [Account.isFree, Bool.and_eq_true, decide_eq_true_eq] at hfree
      exact hfree.1
    apply hunused
    have hle : n ≤ u64Max := hlast.trans (min_le_right _ _)
    simp only [Account.refresh, Finset.mem_filter, Finset.mem_union, List.mem_toFinset, hbase]
    exact ⟨.inr (mem_usedNonces.mpr (.inl ⟨hle, hown⟩)), habove⟩
  · exact .inl hfull

/-- At the largest base, `take` returns the base itself. -/
theorem not_taken_of_u64Max (hbase : (w.tracker did).base = highestBase did w.log)
    (h : max (highestBase did w.log) state.base = u64Max) :
    ¬ ((∃ m, (w.tracker.take now did state).1 = .error (.nonceWindowFull m)) ∨
      ∃ n, (w.tracker.take now did state).1 = .ok n ∧ highestBase did w.log < n ∧ state.base < n ∧
        state.isUsed n = false) := by
  have htake : (w.tracker.take now did state).1 = .ok u64Max :=
    NonceTracker.take_of_u64Max (by rw [hbase]; exact h)
  rintro (⟨m, hfull⟩ | ⟨n, hn, hlt, hstate, -⟩)
  · rw [htake] at hfull
    cases hfull
  · obtain rfl : u64Max = n := Except.ok.inj (htake.symm.trans hn)
    have habove : max (highestBase did w.log) state.base < u64Max := max_lt hlt hstate
    omega

/-- What is recorded is exact but for the largest nonce. -/
theorem recorded_iff (hbase : (w.tracker did).base = highestBase did w.log)
    (h : max (highestBase did w.log) state.base < u64Max) :
    (∀ n, n ∈ ((w.tracker.take now did state).2 did).used ↔
      max (highestBase did w.log) state.base < n ∧
        (n ∈ (w.tracker did).used ∨ (n ≤ u64Max ∧ OwnBit state n))) ↔
      (BitPastLimit state → u64Max ∈ (w.tracker did).used ∨ OwnBit state u64Max) := by
  simp only [take_used, hbase, mem_usedNonces]
  refine ⟨fun hall hpast => ?_, fun hlimit n => ?_⟩
  · have hmax := (hall u64Max).mp ⟨h, .inr (.inr ⟨rfl, hpast⟩)⟩
    exact hmax.2.imp_right And.right
  · refine and_congr_right fun _ => ⟨fun hn => ?_, fun hn => hn.imp_right .inl⟩
    rcases hn with hn | hn | ⟨rfl, hpast⟩
    · exact .inl hn
    · exact .inr hn
    · exact (hlimit hpast).imp_right fun hown => ⟨le_rfl, hown⟩

end Take

/-- **When `take` is sound at the limit.** After any calls, with any state
reported, and no subtraction underflowing: `take` returns a nonce above the
highest base that the state doesn't show used, or says that there is none,
and records used exactly the nonces whose own bit is set, just when the
highest base is short of the largest number and no bit past the limit marks
the largest nonce falsely. -/
theorem take_is_sound_iff (w : World) (hw : Reached w) (now : ℕ) (did : String)
    (state : AccountNonceState) (hs : state.base ≤ u64Max) :
    ((∀ n, Checked.NoPanic (isUsedChecked state n)) ∧ Sound w now did state) ↔
      WithinLimit w did state := by
  have hagree := hw.basesAgree
  have hbase := hagree.base did
  have hle : max (highestBase did w.log) state.base ≤ u64Max :=
    max_le (hbase ▸ hagree.base_le did) hs
  have hpanic : ∀ n, Checked.NoPanic (isUsedChecked state n) := by
    intro n
    rw [isUsedChecked_eq]
    exact Checked.noPanic_ok _
  refine ⟨fun h => ?_, fun h => ⟨hpanic, taken_of_lt hbase h.1, (recorded_iff hbase h.1).mpr h.2⟩⟩
  obtain ⟨-, hsound⟩ := h
  have hlt : max (highestBase did w.log) state.base < u64Max := by
    refine lt_of_le_of_ne hle fun hmax => ?_
    exact not_taken_of_u64Max hbase hmax hsound.taken
  exact ⟨hlt, (recorded_iff hbase hlt).mp hsound.recorded⟩

theorem init_reached : Reached World.init := ⟨[], trivial, rfl⟩

/-- Three below the largest number, with its second bit set. -/
theorem take_is_sound_iff_sample :
    Sound World.init 0 "did:willow:ada" ⟨u64Max - 3, 2⟩ := by
  refine ((take_is_sound_iff _ init_reached 0 _ _ (Nat.sub_le _ _)).mpr ⟨?_, fun h => ?_⟩).2
  · decide
  · obtain ⟨i, -, hpast, hbit⟩ := h
    have hbig : 3 ≤ u64Max := by decide
    have hbeyond : u64Max < u64Max - 3 + 1 + i := hpast
    have hfar : 3 ≤ i := by omega
    obtain ⟨k, rfl⟩ := Nat.exists_eq_add_of_le hfar
    have hzero : Nat.testBit 2 (3 + k) = false := by
      apply Nat.testBit_lt_two_pow
      calc 2 < 2 ^ 3 := by decide
        _ ≤ 2 ^ (3 + k) := Nat.pow_le_pow_right (by decide) (Nat.le_add_right 3 k)
    rw [hzero] at hbit
    cases hbit

/-- At the largest base `take` returns it, used as it is; two below it, the
sixth bit marks the largest nonce, whose own bit is not set. -/
theorem take_not_sound_at_limit :
    ¬ (Sound World.init 0 "did:willow:ada" ⟨u64Max, 0⟩ ∨
      Sound World.init 0 "did:willow:ada" ⟨u64Max - 2, 32⟩) := by
  rintro (h | h)
  · exact not_taken_of_u64Max rfl (by decide) h.taken
  · have hpast : BitPastLimit ⟨u64Max - 2, 32⟩ := ⟨5, by decide, by decide, by decide⟩
    rcases (recorded_iff rfl (by decide)).mp h.recorded hpast with hused | hown
    · cases hused
    · exact absurd hown.2.2 (by decide)

end NonceLimit
end WillowSdk
