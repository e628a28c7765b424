/-
# The tracker against the history of its calls

Any calls of the tracker, in any order and for any DIDs, the clock never
going back. The log keeps each call with what `take` returned, and
`Available` says from the log alone which nonces may be handed out; the
tracker, which forgets lapsed holds and nonces the base passed, and refreshes
an account in some calls only, hands out the least of them
(`take_is_exact`). `Agrees` relates the two, one call at a time
(`Agrees.step`).
-/
import WillowSdk.NonceFlights
import WillowSdk.Lib.Runs
import Mathlib.Order.Bounds.Basic

namespace WillowSdk
namespace NonceHistory

open Consensus (Operation)

/-- A call of the tracker, and what the clock reads then. -/
structure Call where
  now : ℕ
  op : Operation

/-- A call, and the nonce it handed out. -/
structure Entry where
  call : Call
  taken : Option ℕ

/-- The calls so far, the latest first. -/
abbrev Log := List Entry

structure World where
  tracker : NonceTracker
  now : ℕ
  log : Log

namespace World

def init : World := ⟨.new, 0, []⟩

def takenBy (tracker : NonceTracker) (call : Call) : Option ℕ :=
  match call.op with
  | .take did state => (tracker.take call.now did state).1.toOption
  | _ => none

def step (w : World) (call : Call) : World where
  tracker := call.op.apply w.tracker call.now
  now := call.now
  log := ⟨call, takenBy w.tracker call⟩ :: w.log

/-- The clock doesn't go back, and a state reported leaves room above its
base for the window. -/
def MayCall (w : World) (call : Call) : Prop := w.now ≤ call.now ∧ call.op.Bounded

end World

/-! ### What the log says -/

/-- The highest base ever reported for a DID. -/
def highestBase (did : String) : Log → ℕ
  | [] => 0
  | ⟨⟨_, .take d state⟩, _⟩ :: log =>
    if d = did then max (highestBase did log) state.base else highestBase did log
  | _ :: log => highestBase did log

/-- The call reports a nonce of the DID used, or settles it Used. -/
def ShowsUsed (did : String) (n : ℕ) : Operation → Prop
  | .take d state => d = did ∧ state.isUsed n = true
  | .settle d m outcome => d = did ∧ m = n ∧ outcome = .used
  | _ => False

/-- The nonce is at or below the base, or was reported or settled used. -/
def KnownUsed (did : String) (n : ℕ) (log : Log) : Prop :=
  n ≤ highestBase did log ∨ ∃ e ∈ log, ShowsUsed did n e.call.op

/-- A hold on the nonce starts: a call takes it, or holds or settles it
while it is above the base and unused. -/
def Starts (did : String) (n : ℕ) (log : Log) (e : Entry) : Prop :=
  match e.call.op with
  | .take d _ => d = did ∧ e.taken = some n
  | .hold d m => d = did ∧ m = n ∧ ¬ KnownUsed did n log
  | .settle d m outcome => d = did ∧ m = n ∧ ¬ KnownUsed did n log ∧
      (outcome = .accepted ∨ outcome = .held ∨ outcome = .unknown)
  | .release _ _ | .isHeld _ _ => False

/-- The call ends the holds on the nonce. -/
def Ends (did : String) (n : ℕ) : Operation → Prop
  | .release d m => d = did ∧ m = n
  | .settle d m outcome => d = did ∧ m = n ∧ (outcome = .free ∨ outcome = .used)
  | _ => False

/-- A hold on the nonce started at a time, and has not ended. -/
inductive HeldSince (did : String) (n : ℕ) : Log → ℕ → Prop
  | start {log : Log} {e : Entry} : Starts did n log e → HeldSince did n (e :: log) e.call.now
  | stay {log : Log} {e : Entry} {τ : ℕ} : HeldSince did n log τ → ¬ Ends did n e.call.op →
    HeldSince did n (e :: log) τ

/-- At `now`, with `state` just reported, a nonce may be handed out: it is one
of the 24 above the highest base, nothing ever showed it used, and no hold on
it is younger than 120 s. -/
structure Available (log : Log) (now : ℕ) (did : String) (state : AccountNonceState) (n : ℕ) :
    Prop where
  above : max (highestBase did log) state.base + 1 ≤ n
  below : n ≤ max (highestBase did log) state.base + 24
  unused : ∀ e ∈ log, ¬ ShowsUsed did n e.call.op
  notShown : state.isUsed n = false
  lapsed : ∀ τ, HeldSince did n log τ → τ + 120 * 1000000000 ≤ now

/-! ### What the tracker keeps of it -/

structure Agrees (w : World) : Prop where
  base : ∀ did, (w.tracker did).base = highestBase did w.log
  base_le : ∀ did, (w.tracker did).base ≤ u64Max - nonceWindow
  used : ∀ did n, (w.tracker did).IsUsed n ↔ KnownUsed did n w.log
  handed : ∀ {did n τ}, (w.tracker did).handed n = some τ → HeldSince did n w.log τ
  held : ∀ {did n τ}, HeldSince did n w.log τ →
    τ ≤ w.now ∧ ((w.tracker did).Keeps n τ ∨ τ + nonceHold ≤ w.now)

theorem init_agrees : Agrees World.init where
  base _ := rfl
  base_le _ := Nat.zero_le _
  used did n := by
    refine ⟨fun h => ?_, fun h => ?_⟩
    · rcases h with h | h
      · exact .inl h
      · cases h
    · rcases h with h | ⟨e, he, -⟩
      · exact .inl h
      · cases he
  handed h := by cases h
  held h := by cases h

section Step

variable {w : World} {call : Call} {tracker : NonceTracker} {now n τ : ℕ} {did d : String}

theorem highestBase_step : highestBase did (w.step call).log =
    match call.op with
    | .take d state =>
      if d = did then max (highestBase did w.log) state.base else highestBase did w.log
    | _ => highestBase did w.log := by
  obtain ⟨now, op⟩ := call
  cases op <;> rfl

theorem apply_base (op : Operation) : (op.apply tracker now did).base =
    match op with
    | .take d state =>
      if d = did then max (tracker did).base state.base else (tracker did).base
    | _ => (tracker did).base := by
  cases op with
  | take d state =>
    show ((tracker.take now d state).2 did).base = _
    rw [NonceTracker.take_base]
    simp only [eq_comm]
  | hold d m => exact NonceTracker.hold_base
  | settle d m outcome => exact NonceTracker.settle_base
  | release d m => exact NonceTracker.release_base
  | isHeld d m => exact NonceTracker.isHeld_base

/-- A call makes used what it shows used, and nothing else. -/
theorem apply_isUsed {op : Operation} (hop : op.Bounded) :
    (op.apply tracker now did).IsUsed n ↔ (tracker did).IsUsed n ∨ ShowsUsed did n op := by
  cases op with
  | take d state =>
    show ((tracker.take now d state).2 did).IsUsed n ↔ _
    rw [NonceTracker.take_isUsed hop]
    simp only [ShowsUsed, eq_comm]
  | hold d m =>
    show (tracker.hold now d m did).IsUsed n ↔ _
    simp [ShowsUsed]
  | settle d m outcome =>
    show (tracker.settle now d m outcome did).IsUsed n ↔ _
    rw [NonceTracker.settle_isUsed]
    simp only [ShowsUsed]
    tauto
  | release d m =>
    show (tracker.release d m did).IsUsed n ↔ _
    simp [ShowsUsed]
  | isHeld d m =>
    show ((tracker.isHeld now d m).2 did).IsUsed n ↔ _
    simp [ShowsUsed]

theorem knownUsed_step {call : Call} : KnownUsed did n (w.step call).log ↔
    KnownUsed did n w.log ∨ ShowsUsed did n call.op := by
  have hbase : n ≤ highestBase did (w.step call).log →
      n ≤ highestBase did w.log ∨ ShowsUsed did n call.op := by
    intro h
    obtain ⟨now, op⟩ := call
    cases op with
    | take d state =>
      rw [highestBase_step] at h
      simp only at h
      split at h
      case isTrue hd =>
        rcases le_max_iff.mp h with h | h
        · exact .inl h
        · exact .inr ⟨hd, by simp [AccountNonceState.isUsed, h]⟩
      case isFalse => exact .inl h
    | hold | settle | release | isHeld => exact .inl h
  have hle : highestBase did w.log ≤ highestBase did (w.step call).log := by
    rw [highestBase_step]
    obtain ⟨now, op⟩ := call
    cases op with
    | take d state =>
      simp only
      split
      · exact le_max_left _ _
      · exact le_rfl
    | hold | settle | release | isHeld => exact le_rfl
  unfold KnownUsed
  refine ⟨fun h => ?_, fun h => ?_⟩
  · rcases h with h | ⟨e, he, hshows⟩
    · exact (hbase h).imp_left .inl
    · rcases List.mem_cons.mp he with rfl | he
      · exact .inr hshows
      · exact .inl (.inr ⟨e, he, hshows⟩)
  · rcases h with (h | ⟨e, he, hshows⟩) | hshows
    · exact .inl (h.trans hle)
    · exact .inr ⟨e, List.mem_cons_of_mem _ he, hshows⟩
    · exact .inr ⟨_, List.mem_cons_self, hshows⟩

/-- A call keeps a nonce taken, unless it ends the holds on it. -/
theorem keeps_of_not_ends {since : ℕ} {op : Operation} (hends : ¬ Ends did n op)
    (h : (tracker did).Keeps n since) (hsince : since ≤ now) (hnow : now < since + nonceHold) :
    (op.apply tracker now did).Keeps n since := by
  cases op with
  | take d state => exact NonceTracker.take_keeps h hsince hnow
  | hold d m => exact NonceTracker.hold_keeps h hsince hnow
  | settle d m outcome =>
    by_cases hsame : did = d ∧ n = m
    · obtain ⟨rfl, rfl⟩ := hsame
      cases outcome with
      | accepted | held | unknown => exact NonceTracker.hold_keeps h hsince hnow
      | free => exact absurd ⟨rfl, rfl, .inl rfl⟩ hends
      | used => exact absurd ⟨rfl, rfl, .inr rfl⟩ hends
    · exact NonceTracker.settle_keeps h hsince hnow hsame
  | release d m =>
    refine NonceTracker.release_keeps h ?_
    rintro ⟨rfl, rfl⟩
    exact hends ⟨rfl, rfl⟩
  | isHeld d m => exact NonceTracker.isHeld_keeps h hnow

/-- Once its holds are ended, a nonce is handed out no more. -/
theorem handed_of_ends {op : Operation} (hends : Ends did n op) :
    (op.apply tracker now did).handed n = none := by
  cases op with
  | take d state => cases hends
  | hold d m => cases hends
  | isHeld d m => cases hends
  | release d m =>
    obtain ⟨rfl, rfl⟩ := hends
    simp [Operation.apply, NonceTracker.release, Account.unhand]
  | settle d m outcome =>
    obtain ⟨rfl, rfl, rfl | rfl⟩ := hends
    · simp [Operation.apply, NonceTracker.settle, NonceTracker.release, Account.unhand]
    · simp only [Operation.apply, NonceTracker.settle, Function.update_self]
      split <;> simp [Account.unhand]

theorem hand_handed {account : Account} {m : ℕ} (h : (account.hand m now).handed n = some τ) :
    (n = m ∧ τ = now) ∨ account.handed n = some τ := by
  by_cases hm : n = m
  · subst hm
    have hsame : some now = some τ := by simpa [Account.hand] using h
    exact .inl ⟨rfl, (Option.some.inj hsame).symm⟩
  · exact .inr (by simpa [Account.hand, hm] using h)

theorem hold_handed {m : ℕ} (h : (tracker.hold now d m did).handed n = some τ) :
    (d = did ∧ m = n ∧ ¬ (tracker did).IsUsed n ∧ τ = now) ∨ (tracker did).handed n = some τ := by
  by_cases hd : did = d
  · subst hd
    simp only [NonceTracker.hold, Function.update_self] at h
    split at h
    case isTrue hfree =>
      rcases hand_handed h with ⟨rfl, rfl⟩ | h
      · refine .inl ⟨rfl, rfl, ?_, rfl⟩
        intro hused
        rcases Account.isUsed_refresh_none.mpr hused with hle | hmem
        · exact absurd hfree.1 (Nat.not_lt.mpr hle)
        · exact hfree.2 hmem
      · exact .inr (Account.refresh_handed.mp h).1
    case isFalse => exact .inr (Account.refresh_handed.mp h).1
  · exact .inr (by simpa [NonceTracker.hold, hd] using h)

theorem unhand_handed {account : Account} {m : ℕ} (h : (account.unhand m).handed n = some τ) :
    account.handed n = some τ := by
  by_cases hm : n = m
  · subst hm
    simp [Account.unhand] at h
  · simpa [Account.unhand, hm] using h

theorem release_handed {m : ℕ} (h : (tracker.release d m did).handed n = some τ) :
    (tracker did).handed n = some τ := by
  by_cases hd : did = d
  · subst hd
    rw [NonceTracker.release, Function.update_self] at h
    exact unhand_handed h
  · simpa [NonceTracker.release, hd] using h

theorem refuse_handed {m : ℕ} (h : (tracker.settle now d m .used did).handed n = some τ) :
    (tracker did).handed n = some τ := by
  by_cases hd : did = d
  · subst hd
    simp only [NonceTracker.settle, Function.update_self] at h
    split at h <;> exact unhand_handed h
  · simpa [NonceTracker.settle, hd] using h

theorem isHeld_handed {m : ℕ} (h : ((tracker.isHeld now d m).2 did).handed n = some τ) :
    (tracker did).handed n = some τ := by
  by_cases hd : did = d
  · subst hd
    simp only [NonceTracker.isHeld, Function.update_self] at h
    exact (Account.refresh_handed.mp h).1
  · simpa [NonceTracker.isHeld, hd] using h

theorem take_handed {state : AccountNonceState}
    (h : ((tracker.take now d state).2 did).handed n = some τ) :
    (d = did ∧ (tracker.take now d state).1 = .ok n ∧ τ = now) ∨
      (tracker did).handed n = some τ := by
  by_cases hd : did = d
  · subst hd
    rcases NonceTracker.take_cases _ rfl with ⟨m, hm, -, -, -, ht⟩ | ⟨-, -, ht⟩
    · rw [ht, Function.update_self] at h
      rcases hand_handed h with ⟨rfl, rfl⟩ | h
      · exact .inl ⟨rfl, hm, rfl⟩
      · exact .inr (Account.refresh_handed.mp h).1
    · rw [ht, Function.update_self] at h
      exact .inr (Account.refresh_handed.mp h).1
  · obtain ⟨a, ha, -⟩ := NonceTracker.take_account tracker now d state
    rw [ha, Function.update_of_ne hd] at h
    exact .inr h

/-- What is handed out after a call was so before it, or is by the call. -/
theorem step_handed (hused : ∀ did n, (w.tracker did).IsUsed n ↔ KnownUsed did n w.log)
    (h : ((w.step call).tracker did).handed n = some τ) :
    Starts did n w.log ⟨call, World.takenBy w.tracker call⟩ ∧ τ = call.now ∨
      (w.tracker did).handed n = some τ := by
  obtain ⟨now, op⟩ := call
  have hhold : ∀ d m, (w.tracker.hold now d m did).handed n = some τ →
      (d = did ∧ m = n ∧ ¬ KnownUsed did n w.log) ∧ τ = now ∨
        (w.tracker did).handed n = some τ := by
    intro d m h
    rcases hold_handed h with ⟨hd, hm, hunused, hτ⟩ | h
    · exact .inl ⟨⟨hd, hm, mt (hused did n).mpr hunused⟩, hτ⟩
    · exact .inr h
  cases op with
  | take d state =>
    rcases take_handed h with ⟨rfl, hn, rfl⟩ | h
    · refine .inl ⟨⟨rfl, ?_⟩, rfl⟩
      simp only [World.takenBy, hn]
      rfl
    · exact .inr h
  | hold d m => exact hhold d m h
  | settle d m outcome =>
    cases outcome with
    | accepted =>
      refine (hhold d m h).imp_left fun hs => ?_
      exact ⟨⟨hs.1.1, hs.1.2.1, hs.1.2.2, .inl rfl⟩, hs.2⟩
    | held =>
      refine (hhold d m h).imp_left fun hs => ?_
      exact ⟨⟨hs.1.1, hs.1.2.1, hs.1.2.2, .inr (.inl rfl)⟩, hs.2⟩
    | unknown =>
      refine (hhold d m h).imp_left fun hs => ?_
      exact ⟨⟨hs.1.1, hs.1.2.1, hs.1.2.2, .inr (.inr rfl)⟩, hs.2⟩
    | free => exact .inr (release_handed h)
    | used =>
      have hsettle : (w.tracker.settle now d m .used did).handed n = some τ := h
      exact .inr (refuse_handed hsettle)
  | release d m => exact .inr (release_handed h)
  | isHeld d m =>
    have hread : ((w.tracker.isHeld now d m).2 did).handed n = some τ := h
    exact .inr (isHeld_handed hread)

/-- A hold a call starts is kept from then on. -/
theorem starts_keeps
    (h : Starts did n w.log ⟨call, World.takenBy w.tracker call⟩) :
    ((w.step call).tracker did).Keeps n call.now := by
  obtain ⟨now, op⟩ := call
  cases op with
  | take d state =>
    obtain ⟨rfl, htaken⟩ := h
    simp only [World.takenBy] at htaken
    show ((w.tracker.take now d state).2 d).Keeps n now
    rcases NonceTracker.take_cases _ rfl with ⟨m, hm, -, -, -, ht⟩ | ⟨⟨_, hfull⟩, -, -⟩
    · rw [hm] at htaken
      obtain rfl : m = n := Option.some.inj htaken
      rw [ht, Function.update_self]
      exact Account.keeps_hand
    · rw [hfull] at htaken
      cases htaken
  | hold d m =>
    obtain ⟨rfl, rfl, -⟩ := h
    exact NonceTracker.hold_self
  | settle d m outcome =>
    obtain ⟨rfl, rfl, -, rfl | rfl | rfl⟩ := h <;> exact NonceTracker.hold_self
  | release d m => cases h
  | isHeld d m => cases h

/-- **A call keeps the tracker in agreement with the log.** -/
theorem Agrees.step (h : Agrees w) (hc : w.MayCall call) : Agrees (w.step call) := by
  obtain ⟨hnow, hop⟩ := hc
  refine ⟨fun did => ?_, fun did => ?_, fun did n => ?_, ?_, ?_⟩
  · rw [highestBase_step]
    show (call.op.apply w.tracker call.now did).base = _
    rw [apply_base]
    simp only [h.base]
  · show (call.op.apply w.tracker call.now did).base ≤ _
    rw [apply_base]
    split
    case h_1 d state hcall =>
      rw [hcall] at hop
      split
      · exact max_le (h.base_le did) hop
      · exact h.base_le did
    case h_2 => exact h.base_le did
  · show (call.op.apply w.tracker call.now did).IsUsed n ↔ _
    rw [knownUsed_step, apply_isUsed hop, h.used did n]
  · intro did n τ hτ
    rcases step_handed h.used hτ with ⟨hstarts, rfl⟩ | hbefore
    · exact .start hstarts
    · refine .stay (h.handed hbefore) ?_
      intro hends
      have hnone : ((w.step call).tracker did).handed n = none := handed_of_ends hends
      rw [hnone] at hτ
      cases hτ
  · intro did n τ hτ
    cases hτ with
    | start hstarts => exact ⟨le_rfl, .inl (starts_keeps hstarts)⟩
    | stay hbefore hends =>
      obtain ⟨hle, hkept⟩ := h.held hbefore
      refine ⟨hle.trans hnow, ?_⟩
      by_cases hlapsed : τ + nonceHold ≤ call.now
      · exact .inr hlapsed
      · rcases hkept with hkeeps | hlapsed'
        · exact .inl (keeps_of_not_ends hends hkeeps (hle.trans hnow) (Nat.lt_of_not_le hlapsed))
        · exact absurd (hlapsed'.trans hnow) hlapsed

end Step

/-! ### Whole histories -/

/-- The world after some calls, each one the clock and the bases allow. -/
def Reached (w : World) : Prop :=
  ∃ calls, Runs.EachGood World.step World.MayCall World.init calls ∧
    w = Runs.run World.step World.init calls

theorem Reached.agrees {w : World} (h : Reached w) : Agrees w := by
  obtain ⟨calls, hgood, rfl⟩ := h
  exact Runs.invariant (fun _ _ hi hc => Agrees.step hi hc) init_agrees hgood

section Take

variable {w : World} {now n : ℕ} {did : String} {state : AccountNonceState}

/-- What the refreshed account has used: what is at its base or below, and what
the log or the state shows. -/
theorem isUsed_refreshed (h : Agrees w) (hs : state.base ≤ u64Max - nonceWindow) :
    ((w.tracker did).refresh (some state) now).IsUsed n ↔
      (n ≤ (w.tracker did).base ∨ ∃ e ∈ w.log, ShowsUsed did n e.call.op) ∨
        state.isUsed n = true := by
  rw [Account.isUsed_refresh_some hs, h.used did n, KnownUsed, h.base did]

theorem available_of_free (h : Agrees w) (hnow : w.now ≤ now)
    (hs : state.base ≤ u64Max - nonceWindow)
    (habove : max (w.tracker did).base state.base + 1 ≤ n)
    (hbelow : n ≤ max (w.tracker did).base state.base + nonceWindow)
    (hfree : ((w.tracker did).refresh (some state) now).isFree n = true) :
    Available w.log now did state n := by
  rw [Account.isFree, Bool.and_eq_true, decide_eq_true_eq, Option.isNone_iff_eq_none] at hfree
  obtain ⟨hunused, hnone⟩ := hfree
  have hnot : ¬ ((w.tracker did).refresh (some state) now).IsUsed n := by
    intro hused
    rcases hused with hle | hmem
    · rw [Account.refresh_some_base] at hle
      omega
    · exact hunused hmem
  have hlapsed : ∀ τ, HeldSince did n w.log τ → τ + nonceHold ≤ now := by
    intro τ hτ
    by_contra hyoung
    obtain ⟨hle, hkept⟩ := h.held hτ
    rcases hkept with hkeeps | hlapsed
    · rcases hkeeps.refresh (s := some state) (Nat.lt_of_not_le hyoung) with hused | ⟨τ', hτ', -⟩
      · exact hnot hused
      · rw [hnone] at hτ'
        cases hτ'
    · omega
  rw [isUsed_refreshed h hs, not_or, not_or] at hnot
  obtain ⟨⟨-, hnever⟩, hshown⟩ := hnot
  rw [h.base did] at habove hbelow
  exact ⟨habove, hbelow, fun e he hshows => hnever ⟨e, he, hshows⟩, by simpa using hshown, hlapsed⟩

theorem free_of_available (h : Agrees w) (hs : state.base ≤ u64Max - nonceWindow)
    (ha : Available w.log now did state n) :
    ((w.tracker did).refresh (some state) now).isFree n = true := by
  have hnot : ¬ ((w.tracker did).refresh (some state) now).IsUsed n := by
    rw [isUsed_refreshed h hs, h.base did]
    rintro ((hle | ⟨e, he, hshows⟩) | hshown)
    · have := ha.above
      omega
    · exact ha.unused e he hshows
    · rw [ha.notShown] at hshown
      cases hshown
  rw [Account.isFree, Bool.and_eq_true, decide_eq_true_eq, Option.isNone_iff_eq_none]
  refine ⟨fun hmem => hnot (.inr hmem), ?_⟩
  by_contra hsome
  obtain ⟨τ, hτ⟩ := Option.ne_none_iff_exists'.mp hsome
  obtain ⟨hτ, -, hyoung⟩ := Account.refresh_handed.mp hτ
  have hlapsed : τ + nonceHold ≤ now := ha.lapsed τ (h.handed hτ)
  have hpos := nonceHold_pos
  omega

/-- A nonce is free in the refreshed account exactly when the log has it
available. -/
theorem free_iff_available (h : Agrees w) (hnow : w.now ≤ now)
    (hs : state.base ≤ u64Max - nonceWindow) :
    (max (w.tracker did).base state.base + 1 ≤ n ∧
      n ≤ max (w.tracker did).base state.base + nonceWindow ∧
      ((w.tracker did).refresh (some state) now).isFree n = true) ↔
      Available w.log now did state n := by
  refine ⟨fun hfree => available_of_free h hnow hs hfree.1 hfree.2.1 hfree.2.2, fun ha => ?_⟩
  have habove := ha.above
  have hbelow := ha.below
  rw [← h.base did] at habove hbelow
  exact ⟨habove, hbelow, free_of_available h hs ha⟩

/-- `take` searches the window for the least free nonce. -/
theorem take_spec (h : Agrees w) (hnow : w.now ≤ now) (hs : state.base ≤ u64Max - nonceWindow) :
    (∃ n, (w.tracker.take now did state).1 = .ok n ∧
      IsLeast {m | Available w.log now did state m} n) ∨
    (∃ m, (w.tracker.take now did state).1 = .error (.nonceWindowFull m)) ∧
      ∀ m, ¬ Available w.log now did state m := by
  have hb : max (w.tracker did).base state.base ≤ u64Max - nonceWindow := max_le (h.base_le did) hs
  obtain ⟨hfirst, hlast⟩ := NonceTracker.window_eq hb
  rcases NonceTracker.take_cases ((w.tracker did).refresh (some state) now) rfl with
    ⟨n, hn, hwindow, hfree, hmin, -⟩ | ⟨hfull, hnone, -⟩
  · rw [Account.refresh_some_base, hfirst, hlast] at hwindow
    refine .inl ⟨n, hn, (free_iff_available h hnow hs).mp ⟨hwindow.1, hwindow.2, hfree⟩, ?_⟩
    intro m hm
    obtain ⟨habove, -, hmfree⟩ := (free_iff_available h hnow hs).mpr hm
    by_contra hlt
    have := hmin m (by rw [Account.refresh_some_base, hfirst]; exact habove) (Nat.lt_of_not_le hlt)
    rw [hmfree] at this
    cases this
  · refine .inr ⟨hfull, fun m hm => ?_⟩
    obtain ⟨habove, hbelow, hmfree⟩ := (free_iff_available h hnow hs).mpr hm
    have := hnone m (by rw [Account.refresh_some_base, hfirst]; exact habove)
      (by rw [Account.refresh_some_base, hlast]; exact hbelow)
    rw [hmfree] at this
    cases this

end Take

/-- **`take` is exact.** After any calls, `take` hands out the least nonce the
history has available, and `NonceWindowFull` says that there is none. It
leaves the accounts of other DIDs as they were. And a nonce of the window
never shown used is available again once the holds on it are 120 s old: then
`take` hands out that nonce or a lower one. -/
theorem take_is_exact (w : World) (hw : Reached w) (now : ℕ) (did : String)
    (state : AccountNonceState) (hnow : w.now ≤ now) (hs : state.base ≤ u64Max - 24) :
    (∀ n, (w.tracker.take now did state).1 = .ok n ↔
      IsLeast {m | Available w.log now did state m} n) ∧
    ((∃ m, (w.tracker.take now did state).1 = .error (.nonceWindowFull m)) ↔
      ∀ n, ¬ Available w.log now did state n) ∧
    (∀ d, d ≠ did → (w.tracker.take now did state).2 d = w.tracker d) ∧
    ∀ n, highestBase did w.log < n → state.base < n →
      n ≤ max (highestBase did w.log) state.base + 24 →
      (∀ e ∈ w.log, ¬ ShowsUsed did n e.call.op) → state.isUsed n = false →
      (∀ τ, HeldSince did n w.log τ → τ + 120 * 1000000000 ≤ now) →
      ∃ m ≤ n, (w.tracker.take now did state).1 = .ok m := by
  have hagrees := hw.agrees
  refine ⟨fun n => ⟨fun hn => ?_, fun hleast => ?_⟩, ⟨fun hfull => ?_, fun hnone => ?_⟩,
    fun d hd => ?_, fun n habove hstate hbelow hunused hshown hlapsed => ?_⟩
  · rcases take_spec hagrees hnow hs with ⟨m, hm, hleast⟩ | ⟨⟨_, hfull⟩, -⟩
    · rw [hm] at hn
      obtain rfl := Except.ok.inj hn
      exact hleast
    · rw [hfull] at hn
      cases hn
  · rcases take_spec hagrees hnow hs with ⟨m, hm, hleast'⟩ | ⟨-, hnone⟩
    · rw [hm, hleast'.unique hleast]
    · exact absurd hleast.1 (hnone n)
  · obtain ⟨_, hfull⟩ := hfull
    rcases take_spec hagrees hnow hs with ⟨m, hm, -⟩ | ⟨-, hnone⟩
    · rw [hm] at hfull
      cases hfull
    · exact hnone
  · rcases take_spec hagrees hnow hs with ⟨m, -, hleast⟩ | ⟨hfull, -⟩
    · exact absurd hleast.1 (hnone m)
    · exact hfull
  · obtain ⟨a, ha, -⟩ := NonceTracker.take_account w.tracker now did state
    rw [ha, Function.update_of_ne hd]
  · have havailable : Available w.log now did state n :=
      ⟨max_lt habove hstate, hbelow, hunused, hshown, hlapsed⟩
    rcases take_spec hagrees hnow hs with ⟨m, hm, hleast⟩ | ⟨-, hnone⟩
    · exact ⟨m, hleast.2 havailable, hm⟩
    · exact absurd havailable (hnone n)

namespace Sample

/-- Nonce 1 of DID `a` is taken, and 1 and 2 are settled. -/
def calls : List Call :=
  [⟨0, .take "a" ⟨0, 0⟩⟩, ⟨1, .settle "a" 1 .used⟩, ⟨2, .settle "a" 2 .unknown⟩]

theorem reached : Reached (Runs.run World.step World.init calls) := by
  refine ⟨calls, ?_, rfl⟩
  exact ⟨⟨Nat.zero_le _, Nat.zero_le _⟩, ⟨Nat.zero_le _, trivial⟩, ⟨by decide, trivial⟩, trivial⟩

end Sample

/-- Nonce 3 is the least available then. -/
theorem take_is_exact_sample :
    IsLeast {m | Available (Runs.run World.step World.init Sample.calls).log 3 "a" ⟨0, 0⟩ m} 3 :=
  ((take_is_exact _ Sample.reached 3 "a" ⟨0, 0⟩ (by decide) (Nat.zero_le _)).1 3).mp rfl

end NonceHistory
end WillowSdk
