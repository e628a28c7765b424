/-
# What other writes do to a nonce

While a write's request is in flight, other writes call the tracker
(`Operation`), the clock moving on. Any of them keep the tracker well formed
(`WellFormed`: nothing handed out is known used). Those that neither give a
nonce up nor show it used leave it unused (`Flight.unused`), and taken until
its hold lapses (`Flight.keeps`).
-/
import WillowSdk.Consensus
import Mathlib.Logic.Relation

namespace WillowSdk
namespace Consensus

/-- A call of the tracker. -/
inductive Operation
  | take (did : String) (state : AccountNonceState)
  | hold (did : String) (nonce : ℕ)
  | settle (did : String) (nonce : ℕ) (outcome : NonceOutcome)
  | release (did : String) (nonce : ℕ)
  | isHeld (did : String) (nonce : ℕ)

namespace Operation

def apply (op : Operation) (tracker : NonceTracker) (now : ℕ) : NonceTracker :=
  match op with
  | .take did state => (tracker.take now did state).2
  | .hold did nonce => tracker.hold now did nonce
  | .settle did nonce outcome => tracker.settle now did nonce outcome
  | .release did nonce => tracker.release did nonce
  | .isHeld did nonce => (tracker.isHeld now did nonce).2

/-- A state reported to `take` leaves room above its base for the window. -/
def Bounded : Operation → Prop
  | .take _ state => state.base ≤ u64Max - nonceWindow
  | _ => True

/-- The call is neither of a write with this nonce nor shows it used. -/
def Spares (did : String) (nonce : ℕ) : Operation → Prop
  | .take d state => ¬ (d = did ∧ state.isUsed nonce = true)
  | .settle d n _ => ¬ (did = d ∧ nonce = n)
  | .release d n => ¬ (did = d ∧ nonce = n)
  | .hold .. => True
  | .isHeld .. => True

end Operation

/-- One call, or the clock moving on. -/
inductive Step (allowed : Operation → Prop) (client : Client) : Client → Prop
  | call {now : ℕ} (op : Operation) : client.now ≤ now → op.Bounded → allowed op →
    Step allowed client ⟨op.apply client.tracker now, now⟩
  | tick {now : ℕ} : client.now ≤ now → Step allowed client ⟨client.tracker, now⟩

/-- A new tracker, after some calls. -/
def Reached (client : Client) : Prop :=
  ∃ now, Relation.ReflTransGen (Step fun _ => True) ⟨.new, now⟩ client

/-- Other writes' calls, while one with the nonce is in flight. -/
def Flight (did : String) (nonce : ℕ) : Client → Client → Prop :=
  Relation.ReflTransGen (Step (Operation.Spares did nonce))

/-! ### Well-formed trackers -/

/-- Nothing handed out is known used, and the base leaves room for the
window. -/
structure WellFormed (account : Account) : Prop where
  base_le : account.base ≤ u64Max - nonceWindow
  unused : ∀ n, account.handed n ≠ none → ¬ account.IsUsed n

section WellFormed

variable {account : Account} {tracker : NonceTracker} {now n : ℕ} {did d : String}

theorem default_wellFormed : WellFormed .default :=
  ⟨Nat.zero_le _, fun _ h => absurd rfl h⟩

theorem refresh_wellFormed {state : Option AccountNonceState}
    (hbase : (account.refresh state now).base ≤ u64Max - nonceWindow) :
    WellFormed (account.refresh state now) where
  base_le := hbase
  unused n h := by
    obtain ⟨τ, hτ⟩ := Option.ne_none_iff_exists'.mp h
    exact (Account.refresh_handed.mp hτ).2.1

theorem WellFormed.hand (h : WellFormed account) (hn : ¬ account.IsUsed n) :
    WellFormed (account.hand n now) where
  base_le := h.base_le
  unused m hm := by
    by_cases hmn : m = n
    · rw [hmn]
      exact hn
    · exact h.unused m (by simpa [Account.hand, hmn] using hm)

theorem WellFormed.unhand (h : WellFormed account) : WellFormed (account.unhand n) where
  base_le := h.base_le
  unused m hm := by
    by_cases hmn : m = n
    · exact absurd (by simp [Account.unhand, hmn]) hm
    · exact h.unused m (by simpa [Account.unhand, hmn] using hm)

/-- A nonce that `take` finds free in the window isn't used. -/
theorem unused_of_free (hbase : account.base ≤ u64Max - nonceWindow)
    (hfirst : saturatingAdd account.base 1 ≤ n) (hfree : account.isFree n = true) :
    ¬ account.IsUsed n := by
  have hlt : account.base < n := by
    rw [(NonceTracker.window_eq hbase).1] at hfirst
    exact hfirst
  intro hcase
  rcases hcase with hle | hused
  · omega
  · simp [Account.isFree, hused] at hfree

/-- One account changed. -/
theorem update_wellFormed (h : ∀ d, WellFormed (tracker d)) (ha : WellFormed account) :
    ∀ d, WellFormed (Function.update tracker did account d) := by
  intro d
  by_cases hd : d = did
  · rw [hd, Function.update_self]
    exact ha
  · rw [Function.update_of_ne hd]
    exact h d

theorem hold_wellFormed (h : ∀ d, WellFormed (tracker d)) (did : String) (n : ℕ) :
    ∀ d, WellFormed (tracker.hold now did n d) := by
  apply update_wellFormed h
  have hrefresh : WellFormed ((tracker did).refresh none now) :=
    refresh_wellFormed (h did).base_le
  split
  case isTrue hn =>
    refine hrefresh.hand ?_
    intro hcase
    rcases hcase with hle | hused
    · omega
    · exact hn.2 hused
  case isFalse => exact hrefresh

/-- A nonce is given up and recorded used. -/
theorem settle_used_wellFormed (h : ∀ d, WellFormed (tracker d)) (now : ℕ) (did : String) (n : ℕ) :
    ∀ d, WellFormed (tracker.settle now did n .used d) := by
  apply update_wellFormed h
  have hunhand : WellFormed ((tracker did).unhand n) := (h did).unhand
  split
  case isTrue hn =>
    refine ⟨hunhand.base_le, fun m hm => ?_⟩
    have hmn : m ≠ n := by
      intro heq
      subst heq
      exact hm (by simp [Account.unhand])
    intro hcase
    rcases hcase with hle | hused
    · exact hunhand.unused m hm (.inl hle)
    · rcases Finset.mem_insert.mp hused with hused | hused
      · exact hmn hused
      · exact hunhand.unused m hm (.inr hused)
  case isFalse => exact hunhand

/-- **A call keeps every account well formed.** -/
theorem apply_wellFormed (op : Operation) (hop : op.Bounded)
    (h : ∀ d, WellFormed (tracker d)) : ∀ d, WellFormed (op.apply tracker now d) := by
  cases op with
  | take did state =>
    have hbase : max (tracker did).base state.base ≤ u64Max - nonceWindow :=
      max_le (h did).base_le hop
    have hrefresh : WellFormed ((tracker did).refresh (some state) now) := refresh_wellFormed hbase
    rcases NonceTracker.take_cases _ rfl with ⟨n, -, ⟨hfirst, -⟩, hfree, -, ht⟩ | ⟨-, -, ht⟩
    · rw [Operation.apply, ht]
      exact update_wellFormed h (hrefresh.hand (unused_of_free hbase hfirst hfree))
    · rw [Operation.apply, ht]
      exact update_wellFormed h hrefresh
  | hold did n => exact hold_wellFormed h did n
  | settle did n outcome =>
    cases outcome with
    | accepted | held | unknown => exact hold_wellFormed h did n
    | free => exact update_wellFormed h (h did).unhand
    | used => exact settle_used_wellFormed h now did n
  | release did n => exact update_wellFormed h (h did).unhand
  | isHeld did n => exact update_wellFormed h (refresh_wellFormed (h did).base_le)

end WellFormed

theorem Step.wellFormed {allowed : Operation → Prop} {client client' : Client}
    (hstep : Step allowed client client') (h : ∀ d, WellFormed (client.tracker d)) :
    ∀ d, WellFormed (client'.tracker d) := by
  cases hstep with
  | call op _ hop _ => exact apply_wellFormed op hop h
  | tick => exact h

/-- Every tracker reached is well formed. -/
theorem Reached.wellFormed {client : Client} (h : Reached client) :
    ∀ d, WellFormed (client.tracker d) := by
  obtain ⟨now, hruns⟩ := h
  induction hruns with
  | refl => exact fun _ => default_wellFormed
  | tail _ hstep ih => exact hstep.wellFormed ih

/-! ### Flights -/

section Flight

variable {client client' : Client} {did : String} {nonce since : ℕ}

theorem Step.now_le {allowed : Operation → Prop} (h : Step allowed client client') :
    client.now ≤ client'.now := by
  cases h with
  | call _ hnow _ _ => exact hnow
  | tick hnow => exact hnow

theorem apply_unused {tracker : NonceTracker} {now : ℕ} {op : Operation} (hop : op.Bounded)
    (hspares : op.Spares did nonce) (h : ¬ (tracker did).IsUsed nonce) :
    ¬ (op.apply tracker now did).IsUsed nonce := by
  cases op with
  | take d state =>
    rw [Operation.apply, NonceTracker.take_isUsed hop]
    intro hcase
    rcases hcase with hused | ⟨rfl, hused⟩
    · exact h hused
    · exact hspares ⟨rfl, hused⟩
  | hold d n => rwa [Operation.apply, NonceTracker.hold_isUsed]
  | settle d n outcome =>
    rw [Operation.apply, NonceTracker.settle_isUsed]
    intro hcase
    rcases hcase with hused | ⟨-, hsame⟩
    · exact h hused
    · exact hspares hsame
  | release d n => rwa [Operation.apply, NonceTracker.release_isUsed]
  | isHeld d n => rwa [Operation.apply, NonceTracker.isHeld_isUsed]

theorem apply_keeps {tracker : NonceTracker} {now : ℕ} {op : Operation}
    (hspares : op.Spares did nonce) (h : (tracker did).Keeps nonce since) (hsince : since ≤ now)
    (hnow : now < since + nonceHold) : (op.apply tracker now did).Keeps nonce since := by
  cases op with
  | take d state => exact NonceTracker.take_keeps h hsince hnow
  | hold d n => exact NonceTracker.hold_keeps h hsince hnow
  | settle d n outcome => exact NonceTracker.settle_keeps h hsince hnow hspares
  | release d n => exact NonceTracker.release_keeps h hspares
  | isHeld d n => exact NonceTracker.isHeld_keeps h hnow

/-- A flight leaves the nonce unused. -/
theorem Flight.unused (hflight : Flight did nonce client client')
    (h : ¬ (client.tracker did).IsUsed nonce) : ¬ (client'.tracker did).IsUsed nonce := by
  rw [Flight] at hflight
  induction hflight with
  | refl => exact h
  | tail _ hstep ih =>
    cases hstep with
    | call op _ hop hspares => exact apply_unused hop hspares ih
    | tick => exact ih

/-- A nonce taken when a flight shorter than a hold starts is taken when it
ends. -/
theorem Flight.keeps (hflight : Flight did nonce client client')
    (h : (client.tracker did).Keeps nonce since) (hsince : since ≤ client.now)
    (hnow : client'.now < since + nonceHold) :
    client.now ≤ client'.now ∧ (client'.tracker did).Keeps nonce since := by
  rw [Flight] at hflight
  induction hflight with
  | refl => exact ⟨le_rfl, h⟩
  | tail _ hstep ih =>
    obtain ⟨hle, hkeeps⟩ := ih (hstep.now_le.trans_lt hnow)
    refine ⟨hle.trans hstep.now_le, ?_⟩
    cases hstep with
    | call op hcall _ hspares =>
      exact apply_keeps hspares hkeeps (hsince.trans (hle.trans hcall)) hnow
    | tick => exact hkeeps

end Flight

end Consensus
end WillowSdk
