/-
# Writes sharing one tracker

A run of writes (`submit_with_nonce`): a write takes a nonce of its DID, and
ends by settling or releasing it. Each call of the tracker is one step, the
clock never goes back, and no write stays in flight for a whole hold. The
log keeps what the chain reported and what was settled, which the tracker
itself forgets in part.

The invariant `Invariant` ties the three together: a nonce in flight, and a
nonce settled Accepted, Held or Unknown until its hold lapses, is used or
handed out since then (`Account.Keeps`); what was ever shown used is still
used (`Account.IsUsed`); two writes in flight differ. Each step preserves it
(`Step.invariant`), so it holds in every run, and exclusivity follows:
`nonces_are_exclusive`.
-/
import WillowSdk.Nonces
import Mathlib.Data.List.Pairwise
import Mathlib.Logic.Relation

namespace WillowSdk
namespace NonceRuns

/-- A write that has taken its nonce and not yet given it up. -/
structure Write where
  did : String
  nonce : ℕ
  takenAt : ℕ
deriving DecidableEq

/-- How a write gives up its nonce: it settles it, or releases it unsent. -/
inductive Ending
  | settle (outcome : NonceOutcome)
  | release
deriving DecidableEq

/-- The ending leaves the nonce taken for a hold. -/
def Ending.Holds : Ending → Prop
  | .settle .accepted | .settle .held | .settle .unknown => True
  | _ => False

/-- What the log keeps: a state reported to `take`, or a write's end. -/
inductive Event
  | reported (did : String) (state : AccountNonceState)
  | ended (did : String) (nonce : ℕ) (ending : Ending) (at_ : ℕ)

/-- The event shows a nonce of the DID used. -/
def Event.ShowsUsed (did : String) (nonce : ℕ) : Event → Prop
  | .reported d state => d = did ∧ state.isUsed nonce = true
  | .ended d n ending _ => d = did ∧ n = nonce ∧ ending = .settle .used

structure World where
  tracker : NonceTracker
  writes : List Write
  now : ℕ
  log : List Event

namespace World

/-- Before any write. -/
def init : World := ⟨.new, [], 0, []⟩

/-- The highest base the log reports for a DID. -/
def highestBase (did : String) : List Event → ℕ
  | [] => 0
  | .reported d state :: log =>
    if d = did then max state.base (highestBase did log) else highestBase did log
  | .ended .. :: log => highestBase did log

/-- The clock may read `now`: it never goes back, and no write in flight has
been so for a hold. -/
def MayRead (w : World) (now : ℕ) : Prop :=
  w.now ≤ now ∧ ∀ write ∈ w.writes, now < write.takenAt + nonceHold

/-- A write of `did` takes a nonce, if there is one. -/
def take (w : World) (now : ℕ) (did : String) (state : AccountNonceState) : World :=
  let (result, tracker) := w.tracker.take now did state
  { tracker := tracker
    writes := match result with
      | .ok nonce => ⟨did, nonce, now⟩ :: w.writes
      | .error _ => w.writes
    now := now
    log := .reported did state :: w.log }

/-- A write ends. -/
def finish (w : World) (now : ℕ) (write : Write) (ending : Ending) : World where
  tracker := match ending with
    | .settle outcome => w.tracker.settle now write.did write.nonce outcome
    | .release => w.tracker.release write.did write.nonce
  writes := w.writes.erase write
  now := now
  log := .ended write.did write.nonce ending now :: w.log

/-- Someone asks whether a nonce is held. -/
def ask (w : World) (now : ℕ) (did : String) (nonce : ℕ) : World :=
  { w with tracker := (w.tracker.isHeld now did nonce).2, now := now }

end World

/-- One call of the tracker. -/
inductive Step (w : World) : World → Prop
  | take {now : ℕ} (did : String) {state : AccountNonceState} :
    w.MayRead now → state.base ≤ u64Max - nonceWindow → Step w (w.take now did state)
  | finish {now : ℕ} {write : Write} (ending : Ending) :
    w.MayRead now → write ∈ w.writes → Step w (w.finish now write ending)
  | ask {now : ℕ} (did : String) (nonce : ℕ) : w.MayRead now → Step w (w.ask now did nonce)

/-- The runs from the start. -/
def Reachable (w : World) : Prop := Relation.ReflTransGen Step World.init w

/-! ### The invariant -/

open World

structure Invariant (w : World) : Prop where
  base : ∀ did, (w.tracker did).base = highestBase did w.log
  base_le : ∀ did, (w.tracker did).base ≤ u64Max - nonceWindow
  used : ∀ {event did nonce}, event ∈ w.log → event.ShowsUsed did nonce →
    (w.tracker did).IsUsed nonce
  inFlight : ∀ {write}, write ∈ w.writes → write.takenAt ≤ w.now ∧
    (w.tracker write.did).Keeps write.nonce write.takenAt
  distinct : w.writes.Pairwise fun a b => ¬ (a.did = b.did ∧ a.nonce = b.nonce)
  held : ∀ {did nonce ending at_}, .ended did nonce ending at_ ∈ w.log → ending.Holds →
    at_ ≤ w.now ∧ ((w.tracker did).Keeps nonce at_ ∨ at_ + nonceHold ≤ w.now)
  /-- A nonce settled as held was taken again only after its hold. -/
  held_lapsed : ∀ {write ending at_}, write ∈ w.writes →
    .ended write.did write.nonce ending at_ ∈ w.log → ending.Holds →
    at_ + nonceHold ≤ write.takenAt

/-- What a call at `now` keeps of a tracker, but for nonces it gives up. -/
structure Kept (t t' : NonceTracker) (now : ℕ) (gaveUp : String → ℕ → Prop) : Prop where
  used : ∀ {did nonce}, (t did).IsUsed nonce → (t' did).IsUsed nonce
  keeps : ∀ {did nonce since}, (t did).Keeps nonce since → since ≤ now →
    now < since + nonceHold → ¬ gaveUp did nonce → (t' did).Keeps nonce since

section Step

variable {w : World} {t' : NonceTracker} {now : ℕ} {gaveUp : String → ℕ → Prop}

theorem init_invariant : Invariant World.init where
  base _ := rfl
  base_le _ := Nat.zero_le _
  used h := by cases h
  inFlight h := by cases h
  distinct := .nil
  held h := by cases h
  held_lapsed h := by cases h

theorem Invariant.keep_inFlight (hi : Invariant w) (hr : w.MayRead now)
    (hk : Kept w.tracker t' now gaveUp) {write : Write} (hw : write ∈ w.writes)
    (hg : ¬ gaveUp write.did write.nonce) :
    write.takenAt ≤ now ∧ (t' write.did).Keeps write.nonce write.takenAt := by
  obtain ⟨hle, hkeep⟩ := hi.inFlight hw
  have hle' := hle.trans hr.1
  exact ⟨hle', hk.keeps hkeep hle' (hr.2 write hw) hg⟩

theorem Invariant.keep_held (hi : Invariant w) (hr : w.MayRead now)
    (hk : Kept w.tracker t' now gaveUp) {did : String} {nonce at_ : ℕ} {ending : Ending}
    (he : .ended did nonce ending at_ ∈ w.log) (hh : ending.Holds)
    (hg : gaveUp did nonce → at_ + nonceHold ≤ now) :
    at_ ≤ now ∧ ((t' did).Keeps nonce at_ ∨ at_ + nonceHold ≤ now) := by
  obtain ⟨hle, hkeep⟩ := hi.held he hh
  have hle' := hle.trans hr.1
  refine ⟨hle', ?_⟩
  by_cases hlapsed : at_ + nonceHold ≤ now
  · exact .inr hlapsed
  · rcases hkeep with hkeep | h
    · exact .inl (hk.keeps hkeep hle' (by omega) fun h => hlapsed (hg h))
    · exact .inr (h.trans hr.1)

/-! #### The calls -/

variable (w now) in
theorem take_kept (did : String) {state : AccountNonceState}
    (hs : state.base ≤ u64Max - nonceWindow) :
    Kept w.tracker (w.tracker.take now did state).2 now fun _ _ => False where
  used h := (NonceTracker.take_isUsed hs).mpr (.inl h)
  keeps h hsince hnow _ := NonceTracker.take_keeps h hsince hnow

variable (w now) in
theorem ask_kept (did : String) (nonce : ℕ) :
    Kept w.tracker (w.tracker.isHeld now did nonce).2 now fun _ _ => False where
  used := NonceTracker.isHeld_isUsed.mpr
  keeps h _ hnow _ := NonceTracker.isHeld_keeps h hnow

variable (w now) in
theorem finish_kept (write : Write) (ending : Ending) :
    Kept w.tracker (w.finish now write ending).tracker now
      fun d m => d = write.did ∧ m = write.nonce where
  used h := by
    cases ending with
    | settle o => exact NonceTracker.settle_isUsed.mpr (.inl h)
    | release => exact NonceTracker.release_isUsed.mpr h
  keeps h hsince hnow hm := by
    cases ending with
    | settle o => exact NonceTracker.settle_keeps h hsince hnow hm
    | release => exact NonceTracker.release_keeps h hm

/-- A nonce `take` returns was kept by nothing before. -/
theorem take_ok {did : String} {state : AccountNonceState} {n : ℕ} (hi : Invariant w)
    (hs : state.base ≤ u64Max - nonceWindow) (h : (w.tracker.take now did state).1 = .ok n) :
    (max (w.tracker did).base state.base + 1 ≤ n ∧
      n ≤ max (w.tracker did).base state.base + nonceWindow) ∧
    ((w.tracker.take now did state).2 did).Keeps n now ∧
    ¬ (w.tracker did).IsUsed n ∧ state.isUsed n = false ∧
    ∀ since, (w.tracker did).Keeps n since → since + nonceHold ≤ now := by
  rcases NonceTracker.take_cases _ rfl with ⟨n', hn, hwin, hfree, -, ht⟩ | ⟨⟨_, hn⟩, -, -⟩
  · obtain rfl : n' = n := Except.ok.inj (hn.symm.trans h)
    have hb : max (w.tracker did).base state.base ≤ u64Max - nonceWindow :=
      max_le (hi.base_le did) hs
    rw [Account.refresh_some_base, (NonceTracker.window_eq hb).1,
      (NonceTracker.window_eq hb).2] at hwin
    have hnot : ∀ since, ¬ ((w.tracker did).refresh (some state) now).Keeps n' since := by
      intro since hk
      have habove : ((w.tracker did).refresh (some state) now).base < n' := by
        rw [Account.refresh_some_base]
        omega
      exact hk.not_free ⟨habove, hfree⟩
    have hunused : ¬ ((w.tracker did).IsUsed n' ∨ state.isUsed n' = true) := by
      intro hu
      exact hnot 0 (.inl ((Account.isUsed_refresh_some hs).mpr hu))
    refine ⟨hwin, ?_, fun hu => hunused (.inl hu), ?_, fun since hk => ?_⟩
    · rw [ht, Function.update_self]
      exact Account.keeps_hand
    · exact Bool.eq_false_iff.mpr fun hu => hunused (.inr hu)
    · by_contra hlt
      have hkept : ((w.tracker did).refresh (some state) now).Keeps n' since :=
        hk.refresh (Nat.lt_of_not_le hlt)
      exact hnot since hkept
  · simp [hn] at h

/-! #### One step -/

theorem mem_of_mem_erase_ne {l : List Write} (hl : l.Pairwise fun a b => ¬ (a.did = b.did ∧ a.nonce = b.nonce))
    {a b : Write} (ha : a ∈ l) (hb : b ∈ l.erase a) :
    b ∈ l ∧ ¬ (b.did = a.did ∧ b.nonce = a.nonce) := by
  have hsymm : Std.Symm fun a b : Write => ¬ (a.did = b.did ∧ a.nonce = b.nonce) :=
    ⟨fun a b h h' => h ⟨h'.1.symm, h'.2.symm⟩⟩
  have hnodup : l.Nodup := hl.imp fun h h' => h ⟨congrArg _ h', congrArg _ h'⟩
  obtain ⟨hne, hb⟩ := hnodup.mem_erase_iff.mp hb
  exact ⟨hb, hl.forall hb ha hne⟩

theorem take_invariant (hi : Invariant w) {did : String} {state : AccountNonceState}
    (hr : w.MayRead now) (hs : state.base ≤ u64Max - nonceWindow) :
    Invariant (w.take now did state) := by
  have hk := take_kept w now did hs
  -- a write in flight is a new one, with a nonce nothing kept, or an old one
  have hwrites : ∀ {write}, write ∈ (w.take now did state).writes →
      write ∈ w.writes ∨ write = ⟨did, write.nonce, now⟩ ∧
        (w.tracker.take now did state).1 = .ok write.nonce := by
    intro write hw
    simp only [World.take] at hw
    cases ht : (w.tracker.take now did state).1 with
    | error e => exact .inl (by simpa [ht] using hw)
    | ok n =>
      rw [ht] at hw
      rcases List.mem_cons.mp hw with rfl | hw
      · exact .inr ⟨rfl, rfl⟩
      · exact .inl hw
  have hlog : ∀ {did' nonce ending at_},
      .ended did' nonce ending at_ ∈ (w.take now did state).log →
        .ended did' nonce ending at_ ∈ w.log := by
    intro did' nonce ending at_ h
    simpa [World.take] using h
  refine ⟨fun d => ?_, fun d => ?_, ?_, ?_, ?_, ?_, ?_⟩
  · simp only [World.take, NonceTracker.take_base, highestBase, hi.base d, eq_comm (a := d),
      max_comm]
  · simp only [World.take, NonceTracker.take_base]
    split
    · exact max_le (hi.base_le d) hs
    · exact hi.base_le d
  · intro event d n he hu
    rcases List.mem_cons.mp he with rfl | he
    · exact (NonceTracker.take_isUsed hs).mpr (.inr ⟨hu.1.symm, hu.2⟩)
    · exact hk.used (hi.used he hu)
  · intro write hw
    rcases hwrites hw with hw | ⟨hw, hn⟩
    · exact hi.keep_inFlight hr hk hw id
    · rw [hw]
      exact ⟨le_rfl, (take_ok hi hs hn).2.1⟩
  · simp only [World.take]
    cases ht : (w.tracker.take now did state).1 with
    | error e => exact hi.distinct
    | ok n =>
      refine List.pairwise_cons.mpr ⟨fun write hw hsame => ?_, hi.distinct⟩
      obtain ⟨rfl, rfl⟩ : did = write.did ∧ n = write.nonce := hsame
      have hlapsed := (take_ok hi hs ht).2.2.2.2 _ (hi.inFlight hw).2
      have := hr.2 write hw
      omega
  · intro d n ending at_ he hh
    exact hi.keep_held hr hk (hlog he) hh False.elim
  · intro write ending at_ hw he hh
    rcases hwrites hw with hw | ⟨hw, hn⟩
    · exact hi.held_lapsed hw (hlog he) hh
    · rw [hw] at he ⊢
      rcases (hi.held (hlog he) hh).2 with hkeep | h
      · exact (take_ok hi hs hn).2.2.2.2 at_ hkeep
      · exact h.trans hr.1

theorem finish_invariant (hi : Invariant w) {write : Write} (ending : Ending)
    (hr : w.MayRead now) (hw : write ∈ w.writes) : Invariant (w.finish now write ending) := by
  have hk := finish_kept w now write ending
  have hbase : ∀ d, ((w.finish now write ending).tracker d).base = (w.tracker d).base := by
    intro d
    cases ending <;> simp [World.finish]
  have hflight := hi.inFlight hw
  refine ⟨fun d => (hbase d).trans (hi.base d), fun d => (hbase d).symm ▸ hi.base_le d,
    ?_, ?_, ?_, ?_, ?_⟩
  · intro event d n he hu
    rcases List.mem_cons.mp he with rfl | he
    · obtain ⟨rfl, rfl, rfl⟩ := hu
      exact NonceTracker.settle_isUsed.mpr (.inr ⟨rfl, rfl, rfl⟩)
    · exact hk.used (hi.used he hu)
  · intro other ho
    obtain ⟨ho, hne⟩ := mem_of_mem_erase_ne hi.distinct hw ho
    exact hi.keep_inFlight hr hk ho hne
  · exact hi.distinct.sublist List.erase_sublist
  · intro d n e at_ he hh
    rcases List.mem_cons.mp he with he | he
    · obtain ⟨rfl, rfl, rfl, rfl⟩ : d = write.did ∧ n = write.nonce ∧ e = ending ∧ at_ = now := by
        simpa using he
      refine ⟨le_rfl, .inl ?_⟩
      match e, hh with
      | .settle .accepted, _ | .settle .held, _ | .settle .unknown, _ =>
        exact NonceTracker.hold_self
    · refine hi.keep_held hr hk he hh ?_
      intro hboth
      obtain ⟨rfl, rfl⟩ := hboth
      exact (hi.held_lapsed hw he hh).trans (hflight.1.trans hr.1)
  · intro other e at_ ho he hh
    obtain ⟨ho, hne⟩ := mem_of_mem_erase_ne hi.distinct hw ho
    rcases List.mem_cons.mp he with he | he
    · obtain ⟨hd, hn, -⟩ : other.did = write.did ∧ other.nonce = write.nonce ∧ _ := by
        simpa using he
      exact absurd ⟨hd, hn⟩ hne
    · exact hi.held_lapsed ho he hh

theorem ask_invariant (hi : Invariant w) (did : String) (nonce : ℕ) (hr : w.MayRead now) :
    Invariant (w.ask now did nonce) := by
  have hk := ask_kept w now did nonce
  refine ⟨fun d => ?_, fun d => ?_, fun he hu => hk.used (hi.used he hu),
    fun hw => hi.keep_inFlight hr hk hw id, hi.distinct,
    fun he hh => hi.keep_held hr hk he hh False.elim, hi.held_lapsed⟩
  · simpa [World.ask] using hi.base d
  · simpa [World.ask] using hi.base_le d

theorem Step.invariant {w' : World} (hi : Invariant w) (h : Step w w') : Invariant w' := by
  cases h with
  | take did hr hs => exact take_invariant hi hr hs
  | finish ending hr hw => exact finish_invariant hi ending hr hw
  | ask did nonce hr => exact ask_invariant hi did nonce hr

end Step

/-- **Every run keeps the invariant.** -/
theorem Reachable.invariant {w : World} (h : Reachable w) : Invariant w := by
  rw [Reachable] at h
  induction h with
  | refl => exact init_invariant
  | tail _ hstep ih => exact hstep.invariant ih

theorem highestBase_take (w : World) (now : ℕ) (did : String) (state : AccountNonceState) :
    highestBase did (w.take now did state).log = max (highestBase did w.log) state.base := by
  simp [World.take, highestBase, max_comm]

/-- **Nonces are exclusive.** In every run: two writes in flight never have
the same nonce of the same DID. And a nonce that a take returns was settled
Accepted, Held or Unknown, if ever, at least a hold ago; it was never settled
Used, and no state ever reported, this take's included, shows it used; and it
is one of the 24 nonces above the highest base reported. -/
theorem nonces_are_exclusive (w : World) (hw : Reachable w) :
    w.writes.Pairwise (fun a b => ¬ (a.did = b.did ∧ a.nonce = b.nonce)) ∧
    ∀ (now : ℕ) (did : String) (state : AccountNonceState) (n : ℕ), w.MayRead now →
      state.base ≤ u64Max - nonceWindow → (w.tracker.take now did state).1 = .ok n →
      (∀ outcome at_, .ended did n (.settle outcome) at_ ∈ w.log →
        outcome = .accepted ∨ outcome = .held ∨ outcome = .unknown → at_ + nonceHold ≤ now) ∧
      (∀ event ∈ (w.take now did state).log, ¬ event.ShowsUsed did n) ∧
      highestBase did (w.take now did state).log + 1 ≤ n ∧
      n ≤ highestBase did (w.take now did state).log + nonceWindow := by
  have hi := hw.invariant
  refine ⟨hi.distinct, fun now did state n hr hs hn => ?_⟩
  obtain ⟨hwindow, -, hunused, hstate, hlapsed⟩ := take_ok hi hs hn
  rw [highestBase_take, ← hi.base did]
  refine ⟨fun outcome at_ he ho => ?_, fun event he hu => ?_, hwindow⟩
  · have hh : (Ending.settle outcome).Holds := by
      rcases ho with rfl | rfl | rfl <;> exact trivial
    rcases (hi.held he hh).2 with hk | h
    · exact hlapsed at_ hk
    · exact h.trans hr.1
  · rcases List.mem_cons.mp he with rfl | he
    · obtain ⟨-, hshown⟩ := hu
      rw [hstate] at hshown
      cases hshown
    · exact hunused (hi.used he hu)

namespace Sample

/-- A write of DID `a` takes nonce 1 and settles it Accepted. -/
def world : World :=
  (World.init.take 0 "a" ⟨0, 0⟩).finish 5 ⟨"a", 1, 0⟩ (.settle .accepted)

theorem reachable : Reachable world := by
  have htake : Step World.init (World.init.take 0 "a" ⟨0, 0⟩) :=
    .take "a" ⟨le_rfl, by simp [World.init]⟩ (Nat.zero_le _)
  have hwrites : (World.init.take 0 "a" ⟨0, 0⟩).writes = [⟨"a", 1, 0⟩] := rfl
  refine (Relation.ReflTransGen.single htake).tail (.finish _ ⟨Nat.zero_le _, ?_⟩ ?_)
  · rw [hwrites]
    decide
  · rw [hwrites]
    exact List.mem_cons_self

end Sample

/-- The next write takes nonce 2. -/
theorem nonces_are_exclusive_sample :
    (∀ outcome at_, .ended "a" 2 (.settle outcome) at_ ∈ Sample.world.log →
      outcome = .accepted ∨ outcome = .held ∨ outcome = .unknown → at_ + nonceHold ≤ 10) ∧
    (∀ event ∈ (Sample.world.take 10 "a" ⟨0, 0⟩).log, ¬ event.ShowsUsed "a" 2) ∧
    highestBase "a" (Sample.world.take 10 "a" ⟨0, 0⟩).log + 1 ≤ 2 ∧
    2 ≤ highestBase "a" (Sample.world.take 10 "a" ⟨0, 0⟩).log + nonceWindow :=
  (nonces_are_exclusive Sample.world Sample.reachable).2 10 "a" ⟨0, 0⟩ 2
    ⟨by decide, fun _ h => by cases h⟩ (Nat.zero_le _) rfl

end NonceRuns
end WillowSdk
