/-
# Reconnects are bounded and backed off

The loop of `subscription_loop` (src/subscriptions.rs) counts its attempts to
reconnect and waits longer before each. Since it started, or since the last
drop of a socket that had delivered a payload, it makes no more than
`max_reconnect_attempts`, each after a wait of its own; and none once it is
cancelled, the subscription is complete or no one receives it: then it looks
for no indexer, dials nothing and is done
(`reconnects_bounded_and_backed_off`).

A cancel is there when the task next looks for one: a cancel sent while it
dials is found by the new socket or the next wait. A dropped handle, and with
it the receiver, cancels too.
-/
import WillowSdk.Failover

namespace WillowSdk
namespace Subscriptions

open Indexers (Cache IndexerInfo)

/-! ### Waits -/

/-- `max_reconnect_attempts`, or as many as there are numbers. -/
def Task.maxAttempts (task : Task) : ℕ := task.options.maxReconnectAttempts.getD u64Max

/-- The first wait doubled with each attempt, up to 30 times and to the longest
wait. -/
def cappedWait (options : SubscribeOptions) (k : ℕ) : ℕ :=
  min (options.reconnectBackoff * 2 ^ min (k - 1) 30) options.maxReconnectBackoff

/-- `1u32 << k`. -/
def shiftOne (k : ℕ) : Checked ℕ := if 32 ≤ k then .error .panic else .ok (2 ^ k)

/-- `delay`, as the loop computes it. -/
def delay (options : SubscribeOptions) (attempts : ℕ) : Checked ℕ := do
  let doublings ← Checked.sub attempts 1
  let factor ← shiftOne (min doublings 30)
  .ok (min (min (options.reconnectBackoff * factor) durationMax) options.maxReconnectBackoff)

section Waits

variable {options : SubscribeOptions}

theorem delay_eq_ok {attempts : ℕ} (h : 1 ≤ attempts) :
    delay options attempts = .ok (backoff options attempts) := by
  have hshift : shiftOne (min (attempts - 1) 30) = .ok (2 ^ min (attempts - 1) 30) := by
    unfold shiftOne
    rw [if_neg (by omega)]
  unfold delay
  rw [Checked.sub_bind h, hshift]
  rfl

/-- Where the longest wait is a duration, no wait is cut to the longest one. -/
theorem backoff_eq_cappedWait (hcap : options.maxReconnectBackoff ≤ durationMax) (k : ℕ) :
    backoff options k = cappedWait options k := by
  unfold backoff cappedWait
  omega

theorem cappedWait_mono {k l : ℕ} (h : k ≤ l) : cappedWait options k ≤ cappedWait options l := by
  have hexp : min (k - 1) 30 ≤ min (l - 1) 30 := by omega
  have hpow : 2 ^ min (k - 1) 30 ≤ 2 ^ min (l - 1) 30 := Nat.pow_le_pow_right (by decide) hexp
  exact min_le_min_right _ (Nat.mul_le_mul_left _ hpow)

end Waits

section Loop

variable {task : Task} {s : State} {t : Turn}

/-! ### Where the loop ends -/

/-- What ends a subscription when its socket receives it: a cancel, its
completion, or a payload that no one takes. -/
def Received.Ends (subId : String) : Received → Prop
  | .cancel => True
  | .next id taken => id = some subId ∧ taken = false
  | .complete id => id = some subId
  | .lost | .other => False

/-- It ends a socket's pump, unless the socket is lost first. -/
theorem pumpSocket_of_ends {subId : String} {deliveredPayload : Bool} {received : List Received}
    (h : ∃ x ∈ received.takeWhile (· ≠ .lost), x.Ends subId) :
    pumpSocket subId deliveredPayload received = .cancelled ∨
      pumpSocket subId deliveredPayload received = .serverComplete := by
  obtain ⟨x, hx, hends⟩ := h
  induction received generalizing deliveredPayload with
  | nil => cases hx
  | cons y rest ih =>
    rcases eq_or_ne y .lost with rfl | hlost
    · cases hx
    · rw [List.takeWhile_cons_of_pos (by simpa using hlost)] at hx
      -- what is received first is what ends it, or is passed over
      rcases List.mem_cons.mp hx with rfl | hrest
      · cases x with
        | cancel => exact .inl rfl
        | lost => exact hends.elim
        | other => exact hends.elim
        | next id taken =>
          obtain ⟨rfl, rfl⟩ := hends
          exact .inl (by simp [pumpSocket])
        | complete id =>
          obtain rfl := hends
          exact .inr (by simp [pumpSocket])
      · unfold pumpSocket
        cases y with
        | cancel => exact .inl rfl
        | lost => exact absurd rfl hlost
        | other => exact ih hrest
        | next id taken =>
          dsimp only
          split_ifs
          · exact ih hrest
          · exact .inl rfl
          · exact ih hrest
        | complete id =>
          dsimp only
          split_ifs
          · exact .inr rfl
          · exact ih hrest

/-- The task is to stop in this pass of its loop. -/
inductive Stops (task : Task) (s : State) (t : Turn) : Prop
  | ended (h : s.ended = true)
  | socket (hconnected : s.connected = true)
      (h : ∃ x ∈ t.received.takeWhile (· ≠ .lost), x.Ends task.subId)
  | cancelled (h : t.cancelled = true)
  | reconnectOff (h : task.options.reconnect = false)

/-- This pass of the loop gets to an attempt. -/
def Attempts (task : Task) (s : State) (t : Turn) : Prop :=
  s.ended = false ∧ ((s.pump task t).backOff task t).ended = false

/-! ### What a pass does -/

/-- What its socket does before it is done. -/
def pumpEvents (task : Task) (s : State) (t : Turn) : List Event :=
  if s.connected = false then []
  else
    match pumpSocket task.subId false t.received with
    | .cancelled => []
    | .serverComplete => []
    | .disconnected deliveredPayload =>
      (if deliveredPayload = true then [.payload] else []) ++ [.dropped s.currentIndexerDid]

/-- What its attempt does: nothing where discovery fails. -/
def dialEvents (task : Task) (s : State) (t : Turn) : List Event :=
  match (resolveWsUrl task t.lookup s.currentIndexerDid s.cache).1 with
  | .error _ => []
  | .ok (url, indexer) =>
    .dialed url indexer ::
      if t.opens = true then [] else [.refused (indexer.map IndexerInfo.indexerDid)]

/-- A connection is dialed, or fails. -/
def Event.ofAttempt : Event → Bool
  | .dialed _ _ => true
  | .refused _ => true
  | _ => false

def Event.isDialed : Event → Bool
  | .dialed _ _ => true
  | _ => false

/-- The connections dialed since the last payload. -/
def dialsSincePayload (past : List Event) : ℕ := (sincePayload past).countP Event.isDialed

theorem pump_eq (task : Task) (s : State) (t : Turn) :
    (s.pump task t).trace = s.trace ++ pumpEvents task s t ∧ (s.pump task t).cache = s.cache ∧
      (s.pump task t).currentIndexerDid = s.currentIndexerDid := by
  unfold State.pump pumpEvents
  split
  case isTrue => exact ⟨(List.append_nil _).symm, rfl, rfl⟩
  case isFalse =>
    cases pumpSocket task.subId false t.received with
    | cancelled => exact ⟨(List.append_nil _).symm, rfl, rfl⟩
    | serverComplete => exact ⟨(List.append_nil _).symm, rfl, rfl⟩
    | disconnected deliveredPayload => exact ⟨List.append_assoc _ _ _, rfl, rfl⟩

theorem backOff_keeps (task : Task) (s : State) (t : Turn) :
    (s.backOff task t).cache = s.cache ∧
      (s.backOff task t).currentIndexerDid = s.currentIndexerDid := by
  unfold State.backOff
  dsimp only
  split_ifs <;> exact ⟨rfl, rfl⟩

/-- What ends before an attempt has waited, if it did anything. -/
theorem backOff_of_ended (h : (s.backOff task t).ended = true) :
    ∃ waits, (s.backOff task t).trace = s.trace ++ waits ∧ ∀ e ∈ waits, ∃ d, e = .waited d := by
  have hsame : ∃ waits, s.trace = s.trace ++ waits ∧ ∀ e ∈ waits, ∃ d, e = Event.waited d :=
    ⟨[], by simp⟩
  unfold State.backOff at h ⊢
  dsimp only at h ⊢
  split_ifs at h ⊢ with hended hoff hmax hcancelled
  · exact hsame
  · exact hsame
  · exact hsame
  · exact ⟨_, rfl, by simp⟩
  · exact absurd h hended

theorem attempt_of_ended (h : s.ended = true) : s.attempt task t = s := by
  unfold State.attempt
  rw [if_pos h]

theorem attempt_trace (h : s.ended = false) :
    (s.attempt task t).trace = s.trace ++ dialEvents task s t := by
  unfold State.attempt dialEvents
  rw [if_neg (by simp [h])]
  cases resolveWsUrl task t.lookup s.currentIndexerDid s.cache with
  | mk resolved cache =>
    dsimp only
    cases resolved with
    | error e => exact (List.append_nil _).symm
    | ok found =>
      dsimp only
      split
      case isTrue => rfl
      case isFalse => exact List.append_assoc _ _ _

/-- After a wait, one attempt more is counted. -/
theorem backOff_of_live (h : (s.backOff task t).ended = false) :
    (s.backOff task t).trace = s.trace ++ [.waited (backoff task.options (s.attempts + 1))] ∧
      (s.backOff task t).attempts = s.attempts + 1 ∧ s.attempts + 1 ≤ task.maxAttempts ∧
      s.ended = false ∧ t.cancelled = false ∧ task.options.reconnect = true := by
  unfold State.backOff at h ⊢
  dsimp only at h ⊢
  split_ifs at h ⊢ with hended hoff hmax hcancelled
  · rw [hended] at h
    cases h
  · cases h
  · cases h
  · cases h
  · exact ⟨rfl, rfl, Nat.not_le.mp hmax, by simpa using hended, by simpa using hcancelled,
      by simpa using hoff⟩

/-- An attempt leaves the count as it is. -/
theorem attempt_keeps (task : Task) (s : State) (t : Turn) :
    (s.attempt task t).attempts = s.attempts ∧ (s.attempt task t).ended = s.ended := by
  unfold State.attempt
  split
  case isTrue => exact ⟨rfl, rfl⟩
  case isFalse =>
    split
    dsimp only
    split
    case h_1 => exact ⟨rfl, rfl⟩
    case h_2 => split <;> exact ⟨rfl, rfl⟩

theorem step_of_live (h : s.ended = false) (t : Turn) :
    s.step task t = ((s.pump task t).backOff task t).attempt task t := by
  unfold State.step
  rw [if_neg (by simp [h])]

theorem step_of_ended (h : s.ended = true) : s.step task t = s := by
  unfold State.step
  rw [if_pos h]

theorem Stops.not_attempts (h : Stops task s t) : ¬ Attempts task s t := by
  intro hattempts
  obtain ⟨hlive, hwaited⟩ := hattempts
  obtain ⟨-, -, -, hpumped, hgoesOn, hon⟩ := backOff_of_live hwaited
  cases h with
  | ended h =>
    rw [h] at hlive
    cases hlive
  | socket hconnected h =>
    have hstopped : (s.pump task t).ended = true := by
      unfold State.pump
      rw [if_neg (by simp [hconnected])]
      rcases pumpSocket_of_ends h with hexit | hexit
      · rw [hexit]
        rfl
      · rw [hexit]
        rfl
    rw [hstopped] at hpumped
    cases hpumped
  | cancelled h =>
    rw [h] at hgoesOn
    cases hgoesOn
  | reconnectOff h =>
    rw [h] at hon
    cases hon

/-- A pass that gets to an attempt waits, then dials. -/
theorem Attempts.trace_eq (h : Attempts task s t) :
    (s.step task t).trace = s.trace ++ pumpEvents task s t ++
      .waited (backoff task.options ((s.pump task t).attempts + 1)) :: dialEvents task s t := by
  obtain ⟨hended, hlive⟩ := h
  obtain ⟨hpumped, hcache, hdid⟩ := pump_eq task s t
  obtain ⟨hcache', hdid'⟩ := backOff_keeps task (s.pump task t) t
  obtain ⟨hwaited, -⟩ := backOff_of_live hlive
  have hdials : dialEvents task ((s.pump task t).backOff task t) t = dialEvents task s t := by
    unfold dialEvents
    rw [hcache', hdid', hcache, hdid]
  rw [step_of_live hended, attempt_trace hlive, hwaited, hpumped, hdials, List.append_assoc]
  rfl

/-- A pass that gets to none ends the task: its socket is done, and it may have
waited. -/
theorem step_of_live_of_not_attempts (hended : s.ended = false) (h : ¬ Attempts task s t) :
    (s.step task t).ended = true ∧ (s.step task t).cache = s.cache ∧
      ∃ waits, (∀ e ∈ waits, ∃ d, e = .waited d) ∧
        (s.step task t).trace = s.trace ++ pumpEvents task s t ++ waits := by
  have hstopped : ((s.pump task t).backOff task t).ended = true := by
    by_contra hlive
    exact h ⟨hended, by simpa using hlive⟩
  obtain ⟨hpumped, hcache, -⟩ := pump_eq task s t
  obtain ⟨hcache', -⟩ := backOff_keeps task (s.pump task t) t
  obtain ⟨waits, hwaited, hwaits⟩ := backOff_of_ended hstopped
  rw [step_of_live hended, attempt_of_ended hstopped]
  refine ⟨hstopped, hcache'.trans hcache, waits, hwaits, ?_⟩
  rw [hwaited, hpumped]

theorem pumpEvents_quiet {e : Event} (h : e ∈ pumpEvents task s t) : e.ofAttempt = false := by
  unfold pumpEvents at h
  split at h
  · cases h
  · split at h
    · cases h
    · cases h
    · rcases List.mem_append.mp h with hpayload | hdropped
      · split at hpayload
        · rw [List.mem_singleton.mp hpayload]
          rfl
        · cases hpayload
      · rw [List.mem_singleton.mp hdropped]
        rfl

/-- It looks for no indexer and dials nothing. -/
theorem step_of_not_attempts (h : ¬ Attempts task s t) :
    (s.step task t).ended = true ∧ (s.step task t).cache = s.cache ∧
      ∃ events, (s.step task t).trace = s.trace ++ events ∧ ∀ e ∈ events, e.ofAttempt = false := by
  cases hended : s.ended with
  | true =>
    rw [step_of_ended hended]
    exact ⟨hended, rfl, [], (List.append_nil _).symm, nofun⟩
  | false =>
    obtain ⟨hstopped, hcache, waits, hwaits, htrace⟩ := step_of_live_of_not_attempts hended h
    rw [List.append_assoc] at htrace
    refine ⟨hstopped, hcache, _, htrace, fun e he => ?_⟩
    rcases List.mem_append.mp he with hpumped | hwaited
    · exact pumpEvents_quiet hpumped
    · obtain ⟨d, rfl⟩ := hwaits e hwaited
      rfl

/-- What has ended does nothing more. -/
theorem run_of_ended (h : s.ended = true) (turns : List Turn) :
    Runs.run (State.step task) s turns = s := by
  induction turns with
  | nil => rfl
  | cons t turns ih => rw [Runs.run_cons, step_of_ended h, ih]

/-! ### Counting attempts -/

/-- A socket that had delivered a payload drops in this pass of the loop. -/
def DropsAfterPayload (task : Task) (s : State) (t : Turn) : Prop :=
  s.ended = false ∧ s.connected = true ∧
    pumpSocket task.subId false t.received = .disconnected true

instance instDecidableDropsAfterPayload : Decidable (DropsAfterPayload task s t) :=
  inferInstanceAs (Decidable (_ ∧ _))

instance instDecidableAttempts : Decidable (Attempts task s t) :=
  inferInstanceAs (Decidable (_ ∧ _))

/-- The attempts there were, after one more pass: since the start, or since the
last drop of a socket that had delivered a payload. -/
def countAttempt (task : Task) (s : State) (n : ℕ) (t : Turn) : ℕ :=
  (if DropsAfterPayload task s t then 0 else n) + if Attempts task s t then 1 else 0

def countAttempts (task : Task) : State → ℕ → List Turn → ℕ
  | _, n, [] => n
  | s, n, t :: turns => countAttempts task (s.step task t) (countAttempt task s n t) turns

theorem countAttempts_concat (s : State) (n : ℕ) (turns : List Turn) (t : Turn) :
    countAttempts task s n (turns ++ [t]) =
      countAttempt task (Runs.run (State.step task) s turns) (countAttempts task s n turns) t := by
  induction turns generalizing s n with
  | nil => rfl
  | cons u turns ih => exact ih (s.step task u) (countAttempt task s n u)

theorem dialsSincePayload_concat (past : List Event) (e : Event) :
    dialsSincePayload (past ++ [e]) = if e = .payload then 0 else
      dialsSincePayload past + if e.isDialed = true then 1 else 0 := by
  unfold dialsSincePayload sincePayload
  rw [List.rtakeWhile_concat]
  by_cases h : e = .payload
  · simp [h]
  · simp [h, List.countP_singleton]

/-- Waits and failures are no dials. -/
theorem dialsSincePayload_append {events : List Event}
    (h : ∀ e ∈ events, e ≠ .payload ∧ e.isDialed = false) (past : List Event) :
    dialsSincePayload (past ++ events) = dialsSincePayload past := by
  induction events using List.reverseRecOn with
  | nil => rw [List.append_nil]
  | append_singleton events e ih =>
    have hevents : ∀ e ∈ events, e ≠ .payload ∧ e.isDialed = false := fun e he =>
      h e (List.mem_append_left _ he)
    obtain ⟨hpayload, hdialed⟩ := h e (by simp)
    rw [← List.append_assoc, dialsSincePayload_concat, if_neg hpayload, if_neg (by simp [hdialed]),
      ih hevents, Nat.add_zero]

theorem dialsSincePayload_pumpEvents (h : s.ended = false) (t : Turn) (past : List Event) :
    dialsSincePayload (past ++ pumpEvents task s t) =
      if DropsAfterPayload task s t then 0 else dialsSincePayload past := by
  by_cases hdrops : DropsAfterPayload task s t
  · obtain ⟨-, hconnected, hexit⟩ := hdrops
    have hevents : pumpEvents task s t = [.payload, .dropped s.currentIndexerDid] := by
      unfold pumpEvents
      rw [if_neg (by simp [hconnected]), hexit]
      rfl
    rw [if_pos ⟨h, hconnected, hexit⟩, hevents, List.append_cons, dialsSincePayload_concat,
      dialsSincePayload_concat]
    simp [Event.isDialed]
  · rw [if_neg hdrops]
    refine dialsSincePayload_append (fun e he => ?_) past
    have hdialed : e.isDialed = false := by
      have hquiet := pumpEvents_quiet he
      cases e <;> first | rfl | exact hquiet
    refine ⟨fun hpayload => hdrops ?_, hdialed⟩
    -- a payload among them is one the socket delivered before it dropped
    unfold pumpEvents at he
    split at he
    · cases he
    · split at he
      · cases he
      · cases he
      · rename_i hconnected _ deliveredPayload hexit
        cases deliveredPayload with
        | true => exact ⟨h, by simpa using hconnected, hexit⟩
        | false => simp [hpayload] at he

theorem dialsSincePayload_dialEvents (task : Task) (s : State) (t : Turn) (past : List Event) :
    dialsSincePayload (past ++ dialEvents task s t) ≤ dialsSincePayload past + 1 := by
  unfold dialEvents
  split
  · rw [List.append_nil]
    exact Nat.le_succ _
  · have hone : ∀ url indexer, dialsSincePayload (past ++ [Event.dialed url indexer]) =
        dialsSincePayload past + 1 := by
      intro url indexer
      rw [dialsSincePayload_concat, if_neg nofun]
      rfl
    rw [List.append_cons, dialsSincePayload_append, hone]
    split <;> simp [Event.isDialed]

/-- The loop counts its attempts, and stops at the most there may be. -/
structure Counts (task : Task) (s : State) (n : ℕ) : Prop where
  le_max : n ≤ task.maxAttempts
  eq_attempts : s.ended = false → s.attempts = n
  dials_le : dialsSincePayload s.trace ≤ n

theorem pump_attempts (h : s.ended = false) (t : Turn) :
    (s.pump task t).attempts = if DropsAfterPayload task s t then 0 else s.attempts := by
  by_cases hdrops : DropsAfterPayload task s t
  · obtain ⟨-, hconnected, hexit⟩ := hdrops
    rw [if_pos ⟨h, hconnected, hexit⟩]
    unfold State.pump
    rw [if_neg (by simp [hconnected]), hexit]
    rfl
  · rw [if_neg hdrops]
    unfold State.pump
    split
    case isTrue => rfl
    case isFalse hconnected =>
      split
      case h_1 => rfl
      case h_2 => rfl
      case h_3 deliveredPayload hexit =>
        cases deliveredPayload with
        | true => exact absurd ⟨h, by simpa using hconnected, hexit⟩ hdrops
        | false => rfl

/-- What one pass counts is what the loop has, and the wait before its attempt is
of that. -/
theorem Counts.attempt {n : ℕ} (h : Counts task s n) (hattempts : Attempts task s t) :
    Counts task (s.step task t) (countAttempt task s n t) ∧
      (s.step task t).trace = s.trace ++ pumpEvents task s t ++
        .waited (backoff task.options (countAttempt task s n t)) :: dialEvents task s t := by
  obtain ⟨hended, hlive⟩ := hattempts
  obtain ⟨-, hcounted, hmax, -⟩ := backOff_of_live hlive
  obtain ⟨hsame, -⟩ := attempt_keeps task ((s.pump task t).backOff task t) t
  have hone : (if Attempts task s t then 1 else 0) = 1 := if_pos ⟨hended, hlive⟩
  have hcount : countAttempt task s n t = (s.pump task t).attempts + 1 := by
    unfold countAttempt
    rw [hone, pump_attempts hended, h.eq_attempts hended]
  have htrace := Attempts.trace_eq ⟨hended, hlive⟩
  rw [← hcount] at htrace
  refine ⟨⟨hcount.trans_le hmax, fun _ => ?_, ?_⟩, htrace⟩
  · rw [step_of_live hended, hcount]
    exact hsame.trans hcounted
  · have hwait : dialsSincePayload (s.trace ++ pumpEvents task s t ++
        [.waited (backoff task.options (countAttempt task s n t))]) =
        if DropsAfterPayload task s t then 0 else dialsSincePayload s.trace := by
      rw [dialsSincePayload_append (by simp [Event.isDialed]),
        dialsSincePayload_pumpEvents hended]
    have hdials := dialsSincePayload_dialEvents task s t (s.trace ++
      pumpEvents task s t ++ [.waited (backoff task.options (countAttempt task s n t))])
    rw [hwait] at hdials
    rw [htrace, List.append_cons]
    have hle := h.dials_le
    unfold countAttempt at hdials ⊢
    rw [hone] at hdials ⊢
    split_ifs at hdials ⊢ <;> omega

theorem Counts.step {n : ℕ} (h : Counts task s n) (t : Turn) :
    Counts task (s.step task t) (countAttempt task s n t) := by
  by_cases hattempts : Attempts task s t
  · exact (h.attempt hattempts).1
  · obtain ⟨hstopped, -⟩ := step_of_not_attempts hattempts
    have hle := h.le_max
    have hdials := h.dials_le
    refine ⟨?_, fun hlive => ?_, ?_⟩
    · unfold countAttempt
      rw [if_neg hattempts]
      split_ifs <;> omega
    · rw [hstopped] at hlive
      cases hlive
    · cases hended : s.ended with
      | true =>
        have hnot : ¬ DropsAfterPayload task s t := by simp [DropsAfterPayload, hended]
        rw [step_of_ended hended, countAttempt, if_neg hnot, if_neg hattempts]
        exact hdials
      | false =>
        obtain ⟨-, -, waits, hwaits, htrace⟩ := step_of_live_of_not_attempts hended hattempts
        have hquiet : ∀ e ∈ waits, e ≠ .payload ∧ e.isDialed = false := by
          intro e he
          obtain ⟨d, rfl⟩ := hwaits e he
          exact ⟨nofun, rfl⟩
        rw [htrace, dialsSincePayload_append hquiet, dialsSincePayload_pumpEvents hended,
          countAttempt, if_neg hattempts]
        split_ifs <;> omega

theorem Counts.run {n : ℕ} (h : Counts task s n) (turns : List Turn) :
    Counts task (Runs.run (State.step task) s turns) (countAttempts task s n turns) := by
  induction turns generalizing s n with
  | nil => exact h
  | cons t turns ih => exact ih (h.step t)

end Loop

/-! ### Runs -/

section Runs

variable (task : Task) (did : Option String) (cache : Cache)

/-- A task after some passes of its loop. -/
def taskAfter (turns : List Turn) : State :=
  Runs.run (State.step task) (.opened did cache) turns

/-- The attempts since it started, or since the last drop of a socket that had
delivered a payload. -/
def attemptsSince (turns : List Turn) : ℕ := countAttempts task (.opened did cache) 0 turns

/-- **Reconnects are bounded and backed off.** After any passes of the loop,
the attempts since the task started, or since the last drop of a socket that
had delivered a payload, are no more than it may make, nor are the connections
dialed since then. A pass with an attempt does what its socket does, waits,
and only then dials: the wait before the `k`th attempt is the first wait
doubled `k - 1` times, up to 30 times and to the longest wait; it never gets
shorter, and no step of computing it overflows. A pass without one looks for
no indexer, dials nothing, and is the last to do anything; so is every pass in
which the task is to stop. -/
theorem reconnects_bounded_and_backed_off
    (hcap : task.options.maxReconnectBackoff ≤ durationMax) :
    (∀ turns, attemptsSince task did cache turns ≤ task.maxAttempts ∧
      dialsSincePayload (taskAfter task did cache turns).trace ≤
        attemptsSince task did cache turns) ∧
    (∀ turns t, Attempts task (taskAfter task did cache turns) t →
      (taskAfter task did cache (turns ++ [t])).trace =
        (taskAfter task did cache turns).trace ++
          pumpEvents task (taskAfter task did cache turns) t ++
          .waited (cappedWait task.options (attemptsSince task did cache (turns ++ [t]))) ::
          dialEvents task (taskAfter task did cache turns) t) ∧
    (∀ turns t, ¬ Attempts task (taskAfter task did cache turns) t →
      (taskAfter task did cache (turns ++ [t])).cache = (taskAfter task did cache turns).cache ∧
      (∃ events, (taskAfter task did cache (turns ++ [t])).trace =
        (taskAfter task did cache turns).trace ++ events ∧ ∀ e ∈ events, e.ofAttempt = false) ∧
      ∀ later, taskAfter task did cache (turns ++ t :: later) =
        taskAfter task did cache (turns ++ [t])) ∧
    (∀ turns t, Stops task (taskAfter task did cache turns) t →
      ¬ Attempts task (taskAfter task did cache turns) t ∧
        ∀ later t', ¬ Attempts task (taskAfter task did cache (turns ++ t :: later)) t') ∧
    (∀ k l, k ≤ l → cappedWait task.options k ≤ cappedWait task.options l) ∧
    ∀ k, 1 ≤ k → delay task.options k = .ok (cappedWait task.options k) := by
  have hcounts : ∀ turns, Counts task (taskAfter task did cache turns)
      (attemptsSince task did cache turns) := by
    have hnew : Counts task (.opened did cache) 0 := ⟨Nat.zero_le _, fun _ => rfl, Nat.le_refl 0⟩
    exact hnew.run
  have hnext : ∀ turns t, taskAfter task did cache (turns ++ [t]) =
      (taskAfter task did cache turns).step task t := fun _ _ => Runs.run_append _ _ _ _
  have hlater : ∀ turns t later, taskAfter task did cache (turns ++ t :: later) =
      Runs.run (State.step task) ((taskAfter task did cache turns).step task t) later :=
    fun _ _ _ => Runs.run_append _ _ _ _
  refine ⟨fun turns => ⟨(hcounts turns).le_max, (hcounts turns).dials_le⟩,
    fun turns t hattempts => ?_, fun turns t hnot => ?_,
    fun turns t hstops => ⟨hstops.not_attempts, fun later t' hattempts => ?_⟩,
    fun k l hkl => cappedWait_mono hkl, fun k hk => ?_⟩
  · have hcount : attemptsSince task did cache (turns ++ [t]) =
        countAttempt task (taskAfter task did cache turns) (attemptsSince task did cache turns) t :=
      countAttempts_concat _ _ _ _
    obtain ⟨-, htrace⟩ := (hcounts turns).attempt hattempts
    rw [hnext, hcount, ← backoff_eq_cappedWait hcap]
    exact htrace
  · obtain ⟨hstopped, hcache, hevents⟩ := step_of_not_attempts hnot
    rw [hnext]
    refine ⟨hcache, hevents, fun later => ?_⟩
    rw [hlater, run_of_ended hstopped]
  · have hended : (taskAfter task did cache (turns ++ t :: later)).ended = true := by
      obtain ⟨hstopped, -⟩ := step_of_not_attempts hstops.not_attempts
      rw [hlater, run_of_ended hstopped]
      exact hstopped
    exact (Stops.ended hended).not_attempts hattempts
  · rw [delay_eq_ok hk, backoff_eq_cappedWait hcap]

end Runs

/-- The second attempt in a row follows a wait of a second; a cancel in the pass
after it leaves what was found, and nothing more is dialed. -/
theorem reconnects_bounded_and_backed_off_sample :
    (taskAfter Sample.task (some "a") (some ⟨Sample.listed, 0⟩)
        [Sample.turn 1, Sample.turn 3]).trace =
      (taskAfter Sample.task (some "a") (some ⟨Sample.listed, 0⟩) [Sample.turn 1]).trace ++
        [.waited (10 ^ 9), .dialed "ws://b/graphql/ws" (some (Sample.indexer "b" 90)),
          .refused (some "b")] ∧
    ∀ later, taskAfter Sample.task (some "a") (some ⟨Sample.listed, 0⟩)
        (Sample.turn 1 :: { Sample.turn 3 with cancelled := true } :: later) =
      taskAfter Sample.task (some "a") (some ⟨Sample.listed, 0⟩)
        [Sample.turn 1, { Sample.turn 3 with cancelled := true }] := by
  obtain ⟨-, hattempt, hnone, -⟩ := reconnects_bounded_and_backed_off Sample.task (some "a")
    (some ⟨Sample.listed, 0⟩) (by decide)
  have hcount : attemptsSince Sample.task (some "a") (some ⟨Sample.listed, 0⟩)
      [Sample.turn 1, Sample.turn 3] = 2 := by
    decide +kernel
  have htrace := hattempt [Sample.turn 1] (Sample.turn 3) (by decide +kernel)
  rw [List.singleton_append, hcount] at htrace
  refine ⟨?_, ?_⟩
  · rw [htrace]
    decide +kernel
  · obtain ⟨-, -, hlast⟩ := hnone [Sample.turn 1] { Sample.turn 3 with cancelled := true }
      (by decide +kernel)
    exact hlast

end Subscriptions
end WillowSdk
