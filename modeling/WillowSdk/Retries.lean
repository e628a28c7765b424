/-
# A request is asked again while its error may pass

`request_with_retry` (src/client.rs) makes single requests, `max_attempts` at
most, and waits between two of them (`calculate_backoff`, src/utils.rs). The
outcomes of the single requests are given, in their order, as is `f64::powi`,
whose precision the standard library leaves open.

The loop unwraps the last error at its end, and `max_attempts` is not
checked: a configuration with none asks nothing and panics there. After `k`
errors that pass the loop has asked `k` times, slept `k` delays (one less at
the end) and keeps the last of the errors (`requestWithRetry_after`), and
what it returns is read off where it stops.
-/
import WillowSdk.Machine
import WillowSdk.Lib.Runs

namespace WillowSdk

/-- Retry configuration. A duration is in nanoseconds. -/
structure RetryConfig where
  maxAttempts : UInt32
  initialDelay : ℕ
  maxDelay : ℕ
  exponentialBase : Float

def RetryConfig.default : RetryConfig where
  maxAttempts := 3
  initialDelay := 100 * 1000000
  maxDelay := 10 * 1000000000
  exponentialBase := 2

/-- `f64::min`. -/
def floatMin (a b : Float) : Float :=
  if a.isNaN then b else if b.isNaN then a else if a ≤ b then a else b

/-- Calculate exponential backoff delay. -/
def calculateBackoff (powi : Float → Int32 → Float) (attempt : UInt32) (config : RetryConfig) : ℕ :=
  let delayMs := Float.ofNat (config.initialDelay / 1000000) *
    powi config.exponentialBase attempt.toInt32
  let delayMs := (floatMin delayMs (Float.ofNat (config.maxDelay / 1000000))).toUInt64
  delayMs.toNat * 1000000

/-- Asking again would read as much again. -/
def WillowError.isFinal : WillowError → Bool
  | .responseTooLarge _ | .responseTooComplex _ | .serialization _ => true
  | _ => false

/-- What a run of the loop did: the single requests it made, the delays it
slept, and what it returned. -/
structure Retried (α : Type) where
  asked : ℕ
  slept : List ℕ
  result : Checked α

section Loop

variable {α : Type} (powi : Float → Int32 → Float) (config : RetryConfig) (ask : ℕ → Result α)

/-- The loop from `attempt` on, with `remaining` attempts left. -/
def retryLoop (attempt : ℕ) (lastError : Option WillowError) (slept : List ℕ) :
    (remaining : ℕ) → Retried α
  | 0 =>
    ⟨attempt, slept,
      match lastError with
      | some e => .error (.error e)
      | none => .error .panic⟩
  | remaining + 1 =>
    match ask attempt with
    | .ok result => ⟨attempt + 1, slept, .ok result⟩
    | .error e =>
      if e.isFinal then ⟨attempt + 1, slept, .error (.error e)⟩
      else
        match Checked.sub config.maxAttempts.toNat 1 with
        | .error exit => ⟨attempt + 1, slept, .error exit⟩
        | .ok last =>
          let slept :=
            if attempt < last then slept ++ [calculateBackoff powi (.ofNat attempt) config]
            else slept
          retryLoop (attempt + 1) (some e) slept remaining

/-- Make a request with retry logic. -/
def requestWithRetry : Retried α := retryLoop powi config ask 0 none [] config.maxAttempts.toNat

/-- Make an authenticated request. -/
def request : Retried α := requestWithRetry powi config ask

/-! ### What one attempt does -/

/-- An error that the loop asks again after. -/
def Passes (outcome : Result α) : Prop := ∃ e, outcome = .error e ∧ e.isFinal = false

variable {powi config ask}

theorem retryLoop_passes {attempt remaining : ℕ} {lastError : Option WillowError} {slept : List ℕ}
    {e : WillowError} (hask : ask attempt = .error e) (hpass : e.isFinal = false)
    (hmax : 1 ≤ config.maxAttempts.toNat) :
    retryLoop powi config ask attempt lastError slept (remaining + 1) =
      retryLoop powi config ask (attempt + 1) (some e)
        (if attempt < config.maxAttempts.toNat - 1 then
          slept ++ [calculateBackoff powi (.ofNat attempt) config] else slept) remaining := by
  have hlast : Checked.sub config.maxAttempts.toNat 1 = .ok (config.maxAttempts.toNat - 1) := by
    unfold Checked.sub
    rw [if_neg (Nat.not_lt.mpr hmax)]
  rw [retryLoop, hask]
  simp only [hpass, hlast, Bool.false_eq_true, if_false]

theorem retryLoop_ok {attempt remaining : ℕ} {lastError : Option WillowError} {slept : List ℕ}
    {a : α} (hask : ask attempt = .ok a) :
    retryLoop powi config ask attempt lastError slept (remaining + 1) =
      ⟨attempt + 1, slept, .ok a⟩ := by
  rw [retryLoop, hask]

theorem retryLoop_final {attempt remaining : ℕ} {lastError : Option WillowError} {slept : List ℕ}
    {e : WillowError} (hask : ask attempt = .error e) (hfinal : e.isFinal = true) :
    retryLoop powi config ask attempt lastError slept (remaining + 1) =
      ⟨attempt + 1, slept, .error (.error e)⟩ := by
  rw [retryLoop, hask]
  simp only [hfinal, if_true]

/-! ### A run -/

variable (powi config ask)

/-- The error the loop keeps after `k` errors. -/
def lastError : ℕ → Option WillowError
  | 0 => none
  | k + 1 =>
    match ask k with
    | .ok _ => none
    | .error e => some e

theorem lastError_succ {k : ℕ} {e : WillowError} (hask : ask k = .error e) :
    lastError ask (k + 1) = some e := by
  rw [lastError, hask]

/-- The first `k` delays. -/
def backoffs (k : ℕ) : List ℕ := (List.range k).map fun i => calculateBackoff powi (.ofNat i) config

theorem backoffs_succ (k : ℕ) :
    backoffs powi config (k + 1) =
      backoffs powi config k ++ [calculateBackoff powi (.ofNat k) config] := by
  unfold backoffs
  rw [List.range_succ, List.map_append, List.map_singleton]

variable {ask}

/-- The loop after `k` errors that pass. -/
theorem requestWithRetry_after {k : ℕ} (hk : k ≤ config.maxAttempts.toNat)
    (hpass : ∀ j < k, Passes (ask j)) :
    requestWithRetry powi config ask =
      retryLoop powi config ask k (lastError ask k)
        (backoffs powi config (min k (config.maxAttempts.toNat - 1)))
        (config.maxAttempts.toNat - k) := by
  induction k with
  | zero =>
    rw [Nat.zero_min, Nat.sub_zero]
    rfl
  | succ k ih =>
    obtain ⟨e, hask, hfinal⟩ := hpass k k.lt_succ_self
    have hremaining : config.maxAttempts.toNat - k = config.maxAttempts.toNat - (k + 1) + 1 := by
      omega
    rw [ih (by omega) fun j hj => hpass j (Nat.lt_succ_of_lt hj), hremaining,
      retryLoop_passes hask hfinal (by omega), lastError_succ ask hask]
    by_cases hlast : k < config.maxAttempts.toNat - 1
    · rw [if_pos hlast, Nat.min_eq_left (by omega), Nat.min_eq_left (by omega), backoffs_succ]
    · rw [if_neg hlast, Nat.min_eq_right (by omega), Nat.min_eq_right (by omega)]

theorem requestWithRetry_at {k : ℕ} (hk : k < config.maxAttempts.toNat)
    (hpass : ∀ j < k, Passes (ask j)) :
    requestWithRetry powi config ask =
      retryLoop powi config ask k (lastError ask k) (backoffs powi config k)
        (config.maxAttempts.toNat - (k + 1) + 1) := by
  have hremaining : config.maxAttempts.toNat - k = config.maxAttempts.toNat - (k + 1) + 1 := by
    omega
  rw [requestWithRetry_after powi config (Nat.le_of_lt hk) hpass, Nat.min_eq_left (by omega), hremaining]

theorem request_ok {k : ℕ} {a : α} (hk : k < config.maxAttempts.toNat)
    (hpass : ∀ j < k, Passes (ask j)) (hask : ask k = .ok a) :
    request powi config ask = ⟨k + 1, backoffs powi config k, .ok a⟩ :=
  (requestWithRetry_at powi config hk hpass).trans (retryLoop_ok hask)

theorem request_final {k : ℕ} {e : WillowError} (hk : k < config.maxAttempts.toNat)
    (hpass : ∀ j < k, Passes (ask j)) (hask : ask k = .error e) (hfinal : e.isFinal = true) :
    request powi config ask = ⟨k + 1, backoffs powi config k, .error (.error e)⟩ :=
  (requestWithRetry_at powi config hk hpass).trans (retryLoop_final hask hfinal)

/-- Every attempt made, the last one's error is what is left. -/
theorem request_exhausted {k : ℕ} {e : WillowError} (hk : config.maxAttempts.toNat = k + 1)
    (hpass : ∀ j < k + 1, Passes (ask j)) (hask : ask k = .error e) :
    request powi config ask = ⟨k + 1, backoffs powi config k, .error (.error e)⟩ := by
  have hafter := requestWithRetry_after powi config (Nat.le_of_eq hk.symm) hpass
  rw [hk, Nat.sub_self, lastError_succ ask hask, Nat.add_sub_cancel,
    Nat.min_eq_right (Nat.le_succ k)] at hafter
  exact hafter

/-- No attempt to make, there is no error to unwrap. -/
theorem request_none (hmax : config.maxAttempts.toNat = 0) :
    request powi config ask = ⟨0, [], .error .panic⟩ := by
  unfold request requestWithRetry
  rw [hmax]
  rfl

/-- **A run of the loop, in full.** -/
theorem request_cases (ask : ℕ → Result α) :
    config.maxAttempts.toNat = 0 ∧ request powi config ask = ⟨0, [], .error .panic⟩ ∨
    ∃ k < config.maxAttempts.toNat, (∀ j < k, Passes (ask j)) ∧
      request powi config ask = ⟨k + 1, backoffs powi config k, Checked.lift (ask k)⟩ ∧
      (Passes (ask k) → k + 1 = config.maxAttempts.toNat) := by
  obtain hall | ⟨k, hk, hpass, hstop⟩ :=
    Runs.all_or_first (fun j => Passes (ask j)) config.maxAttempts.toNat
  · cases hmax : config.maxAttempts.toNat with
    | zero => exact .inl ⟨rfl, request_none powi config hmax⟩
    | succ k =>
      rw [hmax] at hall
      obtain ⟨e, hask, -⟩ := hall k k.lt_succ_self
      refine .inr ⟨k, k.lt_succ_self, fun j hj => hall j (Nat.lt_succ_of_lt hj), ?_, fun _ => rfl⟩
      rw [request_exhausted powi config hmax hall hask, hask]
      rfl
  · refine .inr ⟨k, hk, hpass, ?_, fun h => absurd h hstop⟩
    cases hask : ask k with
    | ok a => exact request_ok powi config hk hpass hask
    | error e =>
      cases hfinal : e.isFinal with
      | false => exact absurd ⟨e, hask, hfinal⟩ hstop
      | true => exact request_final powi config hk hpass hask hfinal

end Loop

/-! ### What a request should return -/

/-- The first answer if no error before it is final, else the first final
error with nothing asked after it, else the last error once every attempt is
made; and no panic. -/
structure Returns {α : Type} (config : RetryConfig) (ask : ℕ → Result α) (r : Retried α) : Prop where
  first_ok : ∀ k < config.maxAttempts.toNat, (∀ j < k, Passes (ask j)) → ∀ a, ask k = .ok a →
    r.result = .ok a ∧ r.asked = k + 1
  first_final : ∀ k < config.maxAttempts.toNat, (∀ j < k, Passes (ask j)) → ∀ e,
    ask k = .error e → e.isFinal = true → r.result = .error (.error e) ∧ r.asked = k + 1
  exhausted : (∀ j < config.maxAttempts.toNat, Passes (ask j)) →
    r.asked = config.maxAttempts.toNat ∧
      ∃ k e, k + 1 = config.maxAttempts.toNat ∧ ask k = .error e ∧ r.result = .error (.error e)
  no_panic : Checked.NoPanic r.result

/-- One wait between two requests. -/
theorem request_slept {α : Type} (powi : Float → Int32 → Float) (config : RetryConfig)
    (ask : ℕ → Result α) :
    (request powi config ask).slept = backoffs powi config ((request powi config ask).asked - 1) := by
  obtain ⟨-, h⟩ | ⟨k, -, -, h, -⟩ := request_cases powi config ask
  · rw [h]
    rfl
  · rw [h, Nat.add_sub_cancel]

/-- **A request returns what it should exactly when an attempt may be made.** -/
theorem request_returns_iff {α : Type} (powi : Float → Int32 → Float) (config : RetryConfig)
    (ask : ℕ → Result α) :
    Returns config ask (request powi config ask) ↔ 1 ≤ config.maxAttempts.toNat := by
  obtain ⟨hmax, hrun⟩ | ⟨k, hk, hpass, hrun, hlast⟩ := request_cases powi config ask
  · refine iff_of_false (fun h => h.no_panic ?_) (by omega)
    rw [hrun]
  · refine iff_of_true ⟨fun i hi hpass' a hask => ?_, fun i hi hpass' e hask hfinal => ?_,
      fun hall => ?_, ?_⟩ (by omega)
    · rw [request_ok powi config hi hpass' hask]
      exact ⟨rfl, rfl⟩
    · rw [request_final powi config hi hpass' hask hfinal]
      exact ⟨rfl, rfl⟩
    · obtain ⟨e, hask, -⟩ := hall k hk
      have hmax := hlast (hall k hk)
      rw [hrun]
      exact ⟨hmax, k, e, hmax, hask, by rw [hask]; rfl⟩
    · rw [hrun]
      exact Checked.noPanic_lift (ask k)

/-- A configuration with no attempts, which the builder takes as it is. -/
theorem request_without_attempts_panics :
    (request (fun base n => base ^ Float.ofInt n.toInt)
      { RetryConfig.default with maxAttempts := 0 } (fun _ => .ok 7)).result = .error .panic ∧
    ¬∀ (config : RetryConfig) (ask : ℕ → Result ℕ),
      Returns config ask (request (fun base n => base ^ Float.ofInt n.toInt) config ask) := by
  refine ⟨rfl, fun h => ?_⟩
  exact (h { RetryConfig.default with maxAttempts := 0 } fun _ => .ok 7).no_panic rfl

end WillowSdk
