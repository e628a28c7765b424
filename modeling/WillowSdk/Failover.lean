/-
# Failover between indexers

A subscription to an indexer dials another when one fails (the module notes
of src/subscriptions.rs). It should not dial the one that failed last while
the validator lists another for the subgrove, nor, between two payloads, any
that failed while a listed one has not been tried.

The task remembers only the indexer it was last connected to, and forgets it
from a cache that expires and is then fetched whole. So an attempt fails over
exactly when some indexer that discovery finds, and that need not be avoided,
outranks every one that must be (`failover_iff`). An indexer that refuses a
connection is dialed again though another is listed
(`refusing_indexer_dialed_again`).
-/
import WillowSdk.Subscriptions
import WillowSdk.Lib.Runs
import Mathlib.Data.List.DropRight

namespace WillowSdk
namespace Subscriptions

open Indexers (IndexerInfo Cache pool)

/-! ### What a task has tried -/

/-- The indexer whose connection, handshake or socket failed. -/
def Event.failure : Event → Option String
  | .dropped did => did
  | .refused did => did
  | _ => none

def Event.dialedDid : Event → Option String
  | .dialed _ (some info) => some info.indexerDid
  | _ => none

def failedLast (past : List Event) : Option String := (past.filterMap Event.failure).getLast?

def sincePayload (past : List Event) : List Event := past.rtakeWhile (· ≠ .payload)

/-- The indexers that failed since the last payload. -/
def failed (past : List Event) : List String := (sincePayload past).filterMap Event.failure

/-- Those dialed or failed since then. -/
def tried (past : List Event) : List String :=
  failed past ++ (sincePayload past).filterMap Event.dialedDid

section Failover

variable (task : Task) (listed : List IndexerInfo)

/-- An indexer an attempt has to avoid: the one that failed last, if another is
listed for the subgrove, or one that failed since the last payload, if a
listed one has not been tried. -/
def MustAvoid (past : List Event) (did : String) : Prop :=
  (failedLast past = some did ∧ ∃ other ∈ pool task.subgroveId listed, other.indexerDid ≠ did) ∨
  (did ∈ failed past ∧ ∃ other ∈ pool task.subgroveId listed, other.indexerDid ∉ tried past)

/-- Every attempt dials an active indexer of the subgrove, and none it has to
avoid. -/
def FailsOver (trace : List Event) : Prop :=
  ∀ before url info after, trace = before ++ .dialed url (some info) :: after →
    info.status = .active ∧ task.subgroveId ∈ info.subgroves ∧
      ¬ MustAvoid task listed before info.indexerDid

/-- What discovery finds: the cache without the remembered indexer, if it has
not expired, or else the validator's answer. -/
def discovered (s : State) (lookup : Lookup) : Result (List IndexerInfo) :=
  Indexers.known task.discovery.cacheTtl lookup.now lookup.answer
    (lookup.meanwhile (skip s.currentIndexerDid (lookup.others s.cache)))

/-- If this pass of the loop gets to discovery, what it finds has an indexer
that outranks all those to be avoided, or none for the subgrove. -/
def Outranks (s : State) (t : Turn) : Prop :=
  s.ended = false → ((s.pump task t).backOff task t).ended = false →
    ∀ data, discovered task ((s.pump task t).backOff task t) t.lookup = .ok data →
      pool task.subgroveId data = [] ∨
      Foremost.Outranked IndexerInfo.performanceScore
        (fun info => MustAvoid task listed ((s.pump task t).backOff task t).trace info.indexerDid)
        (pool task.subgroveId data)

variable {task listed} {trace : List Event}

/-- One more event. -/
theorem failsOver_concat {e : Event} :
    FailsOver task listed (trace ++ [e]) ↔ FailsOver task listed trace ∧
      ∀ url info, e = .dialed url (some info) → info.status = .active ∧
        task.subgroveId ∈ info.subgroves ∧ ¬ MustAvoid task listed trace info.indexerDid := by
  refine ⟨fun h => ⟨fun before url info after heq => ?_, fun url info he => ?_⟩, fun h => ?_⟩
  · refine h before url info (after ++ [e]) ?_
    rw [heq, List.append_assoc, List.cons_append]
  · exact h trace url info [] (by rw [he])
  · obtain ⟨hbefore, hlast⟩ := h
    intro before url info after heq
    rcases List.eq_nil_or_concat after with rfl | ⟨after, e', rfl⟩
    · obtain ⟨rfl, he⟩ := List.append_inj' heq rfl
      exact hlast url info (List.singleton_inj.mp he)
    · rw [List.concat_eq_append, ← List.cons_append, ← List.append_assoc] at heq
      obtain ⟨htrace, -⟩ := List.append_inj' heq rfl
      exact hbefore before url info after htrace

/-- Events of which none is a dial of an indexer. -/
def DialsNone (events : List Event) : Prop := ∀ e ∈ events, ∀ url info, e ≠ .dialed url (some info)

@[simp] theorem dialsNone_nil : DialsNone [] := nofun

@[simp] theorem dialsNone_singleton {e : Event} :
    DialsNone [e] ↔ ∀ url info, e ≠ .dialed url (some info) := List.forall_mem_singleton

@[simp] theorem dialsNone_append {es es' : List Event} :
    DialsNone (es ++ es') ↔ DialsNone es ∧ DialsNone es' := List.forall_mem_append

theorem failsOver_append {events : List Event} (h : DialsNone events) :
    FailsOver task listed (trace ++ events) ↔ FailsOver task listed trace := by
  induction events using List.reverseRecOn with
  | nil => rw [List.append_nil]
  | append_singleton events e ih =>
    obtain ⟨hinit, hlast⟩ := dialsNone_append.mp h
    rw [← List.append_assoc, failsOver_concat, ih hinit]
    exact and_iff_left fun url info he => absurd he (dialsNone_singleton.mp hlast url info)

/-! ### A pass of the loop -/

/-- Pumping a socket dials nothing. -/
theorem pump_trace (task : Task) (s : State) (t : Turn) :
    ∃ events, (s.pump task t).trace = s.trace ++ events ∧ DialsNone events := by
  have hsame : ∃ events, s.trace = s.trace ++ events ∧ DialsNone events := ⟨[], by simp⟩
  unfold State.pump
  split
  · exact hsame
  · split
    · exact hsame
    · exact hsame
    · refine ⟨_, List.append_assoc _ _ _, dialsNone_append.mpr ⟨?_, by simp⟩⟩
      split <;> simp

/-- Nor does a wait. -/
theorem backOff_trace (task : Task) (s : State) (t : Turn) :
    ∃ events, (s.backOff task t).trace = s.trace ++ events ∧ DialsNone events := by
  have hsame : ∃ events, s.trace = s.trace ++ events ∧ DialsNone events := ⟨[], by simp⟩
  have hwaited : ∀ delay, DialsNone [Event.waited delay] := by simp
  unfold State.backOff
  dsimp only
  split
  · exact hsame
  · split
    · exact hsame
    · split
      · exact hsame
      · split
        · exact ⟨_, rfl, hwaited _⟩
        · exact ⟨_, rfl, hwaited _⟩

/-- What is recorded up to an attempt dials nothing. -/
theorem waited_failsOver {s : State} (t : Turn) :
    FailsOver task listed ((s.pump task t).backOff task t).trace ↔ FailsOver task listed s.trace := by
  obtain ⟨pumped, hpumped, hquiet⟩ := pump_trace task s t
  obtain ⟨waited, hwaited, hquiet'⟩ := backOff_trace task (s.pump task t) t
  rw [hwaited, failsOver_append hquiet', hpumped, failsOver_append hquiet]

/-- **What discovery resolves to**: the foremost indexer of the subgrove. -/
theorem resolveWsUrl_cases (hsource : task.options.source = .indexer)
    (hurl : task.discovery.indexerUrl = none) (s : State) (lookup : Lookup) :
    (∃ data info, discovered task s lookup = .ok data ∧
      Foremost.foremost IndexerInfo.performanceScore (pool task.subgroveId data) = some info ∧
      (resolveWsUrl task lookup s.currentIndexerDid s.cache).1 = .ok (wsUrl info, some info)) ∨
    ((∀ data, discovered task s lookup = .ok data → pool task.subgroveId data = []) ∧
      ∃ e, (resolveWsUrl task lookup s.currentIndexerDid s.cache).1 = .error e) := by
  unfold resolveWsUrl
  rw [hsource]
  dsimp only
  rw [Indexers.forSubgrove_eq hurl]
  show (∃ data info, discovered task s lookup = .ok data ∧ _ ∧
    ((discovered task s lookup).map _ >>= _) = _) ∨ _ ∧ ∃ e, ((discovered task s lookup).map _ >>= _) = _
  cases discovered task s lookup with
  | error e => exact .inr ⟨nofun, e, rfl⟩
  | ok data =>
    have hhead := Foremost.head?_sorted IndexerInfo.performanceScore (pool task.subgroveId data)
    cases hsorted : Foremost.sorted IndexerInfo.performanceScore (pool task.subgroveId data) with
    | nil =>
      rw [hsorted] at hhead
      have hnone : pool task.subgroveId data = [] := by
        by_contra hsome
        obtain ⟨info, hinfo⟩ := Foremost.exists_foremost IndexerInfo.performanceScore hsome
        rw [hinfo] at hhead
        cases hhead
      refine .inr ⟨fun data' hdata' => Except.ok.inj hdata' ▸ hnone, ?_⟩
      show ∃ e, (do
        let chosen ← chooseIndexer task.subgroveId
          (Foremost.sorted IndexerInfo.performanceScore (pool task.subgroveId data))
        Except.ok (wsUrl chosen, some chosen)) = .error e
      rw [hsorted]
      exact ⟨_, rfl⟩
    | cons info rest =>
      rw [hsorted] at hhead
      refine .inl ⟨data, info, rfl, hhead.symm, ?_⟩
      show (do
        let chosen ← chooseIndexer task.subgroveId
          (Foremost.sorted IndexerInfo.performanceScore (pool task.subgroveId data))
        Except.ok (wsUrl chosen, some chosen)) = .ok (wsUrl info, some info)
      rw [hsorted]
      rfl

/-- An attempt fails over exactly when what discovery finds has an indexer
that outranks all those to be avoided. -/
theorem attempt_failsOver_iff (hsource : task.options.source = .indexer)
    (hurl : task.discovery.indexerUrl = none) {s : State} (hended : s.ended = false) (t : Turn) :
    FailsOver task listed (s.attempt task t).trace ↔ FailsOver task listed s.trace ∧
      ∀ data, discovered task s t.lookup = .ok data → pool task.subgroveId data = [] ∨
        Foremost.Outranked IndexerInfo.performanceScore
          (fun info => MustAvoid task listed s.trace info.indexerDid)
          (pool task.subgroveId data) := by
  have hlive : ¬ s.ended = true := by simp [hended]
  unfold State.attempt
  rw [if_neg hlive]
  dsimp only
  rcases resolveWsUrl_cases hsource hurl s t.lookup with hfound | hnone
  · obtain ⟨data, info, hdata, hinfo, hresolved⟩ := hfound
    rw [hresolved]
    have hmem : info ∈ pool task.subgroveId data := by
      obtain ⟨before, after, hsplit, -, -⟩ := Foremost.foremost_split hinfo
      rw [hsplit]
      exact List.mem_append_right before List.mem_cons_self
    obtain ⟨-, hactive, hserves⟩ := Indexers.mem_pool.mp hmem
    -- what is dialed, and then the refusal if there is one
    have htrace : FailsOver task listed (s.trace ++ [.dialed (wsUrl info) (some info)]) ↔
        FailsOver task listed s.trace ∧ ¬ MustAvoid task listed s.trace info.indexerDid := by
      rw [failsOver_concat]
      refine and_congr_right fun _ => ⟨fun h => (h _ info rfl).2.2, fun h url info' heq => ?_⟩
      obtain ⟨-, hsame⟩ := Event.dialed.inj heq
      obtain rfl := Option.some.inj hsame
      exact ⟨hactive, hserves, h⟩
    have hafter : FailsOver task listed (if t.opens = true then
          s.trace ++ [.dialed (wsUrl info) (some info)]
        else s.trace ++ [.dialed (wsUrl info) (some info)] ++ [.refused (some info.indexerDid)]) ↔
        FailsOver task listed (s.trace ++ [.dialed (wsUrl info) (some info)]) := by
      split
      · rfl
      · exact failsOver_append (by simp)
    rw [apply_ite State.trace]
    show FailsOver task listed (if t.opens = true then
        s.trace ++ [.dialed (wsUrl info) (some info)]
      else s.trace ++ [.dialed (wsUrl info) (some info)] ++ [.refused (some info.indexerDid)]) ↔ _
    rw [hafter, htrace, hdata]
    refine and_congr_right fun _ => ⟨fun h data' hdata' => ?_, fun h => ?_⟩
    · obtain rfl := Except.ok.inj hdata'
      refine Foremost.foremost_iff_outranked.mp fun other hother => ?_
      obtain rfl := Option.some.inj (hinfo.symm.trans hother)
      exact h
    · exact Foremost.foremost_iff_outranked.mpr (h data rfl) info hinfo
  · obtain ⟨hempty, e, hresolved⟩ := hnone
    rw [hresolved]
    exact (and_iff_left fun data hdata => .inl (hempty data hdata)).symm

/-- A pass of the loop fails over exactly when its discovery does. -/
theorem step_failsOver_iff (hsource : task.options.source = .indexer)
    (hurl : task.discovery.indexerUrl = none) (s : State) (t : Turn)
    (h : FailsOver task listed s.trace) :
    FailsOver task listed (s.step task t).trace ↔ Outranks task listed s t := by
  unfold State.step Outranks
  cases hended : s.ended with
  | true => exact iff_of_true h nofun
  | false =>
    have hbefore : FailsOver task listed ((s.pump task t).backOff task t).trace :=
      (waited_failsOver t).mpr h
    rw [if_neg Bool.false_ne_true]
    dsimp only
    cases hstopped : ((s.pump task t).backOff task t).ended with
    | true =>
      have hsame : ((s.pump task t).backOff task t).attempt task t =
          (s.pump task t).backOff task t := by
        unfold State.attempt
        rw [if_pos hstopped]
      rw [hsame]
      exact iff_of_true hbefore fun _ => nofun
    | false =>
      rw [attempt_failsOver_iff hsource hurl hstopped t]
      exact ⟨fun hafter _ _ => hafter.2, fun hrank => ⟨hbefore, hrank rfl rfl⟩⟩

end Failover

/-- **When a subscription fails over**: exactly in the runs whose discoveries
all find an indexer that outranks those to be avoided, whatever the list, the
cache and what its other users do to it. -/
theorem failover_iff (task : Task) (listed : List IndexerInfo)
    (hsource : task.options.source = .indexer) (hurl : task.discovery.indexerUrl = none)
    (did : Option String) (cache : Cache) (turns : List Turn) :
    (∀ done, done <+: turns →
      FailsOver task listed (Runs.run (State.step task) (.opened did cache) done).trace) ↔
    Runs.EachGood (State.step task) (Outranks task listed) (.opened did cache) turns := by
  have hnew : FailsOver task listed (State.opened did cache).trace := by
    intro before url info after heq
    cases before <;> cases heq
  exact Runs.invariant_iff (step_failsOver_iff hsource hurl) hnew turns

namespace Sample

open Indexers (defaultCacheTtl)

def indexer (did : String) (score : ℚ) : IndexerInfo where
  indexerDid := did
  subgroves := ["sg"]
  endpoint := "http://" ++ did
  queryEndpoint := none
  status := .active
  performanceScore := score

/-- Three active indexers of the subgrove. -/
def listed : List IndexerInfo := [indexer "a" 100, indexer "b" 90, indexer "c" 80]

def task : Task where
  apiUrl := "http://api"
  discovery := ⟨none, defaultCacheTtl⟩
  subgroveId := "sg"
  options := ⟨.indexer, true, none, 500 * 10 ^ 6, 30 * 10 ^ 9⟩
  subId := "sub-1"

/-- The socket is lost, if one is open, and the next connection refused, at
some second. -/
def turn (second : ℕ) : Turn :=
  ⟨[.lost], false, ⟨second * 10 ^ 9, id, id, .ok listed⟩, false⟩

/-- Connected to `a`, the list fetched at 0. -/
def start : State := .opened (some "a") (some ⟨listed, 0⟩)

/-- What is dialed after the socket drops. -/
theorem trace_eq : (Runs.run (State.step task) start [turn 1, turn 3]).trace =
    [.dropped (some "a"), .waited (500 * 10 ^ 6), .dialed "ws://b/graphql/ws" (indexer "b" 90),
      .refused (some "b"), .waited (10 ^ 9)] ++
    .dialed "ws://b/graphql/ws" (indexer "b" 90) :: [.refused (some "b")] := by
  decide +kernel

end Sample

theorem failover_iff_sample :
    (∀ done, done <+: [Sample.turn 1] → FailsOver Sample.task Sample.listed
      (Runs.run (State.step Sample.task) (.opened (some "a") (some ⟨Sample.listed, 0⟩)) done).trace) ↔
    Runs.EachGood (State.step Sample.task) (Outranks Sample.task Sample.listed)
      (.opened (some "a") (some ⟨Sample.listed, 0⟩)) [Sample.turn 1] :=
  failover_iff Sample.task Sample.listed rfl rfl (some "a") (some ⟨Sample.listed, 0⟩) [Sample.turn 1]

/-- `b`, which refused a connection, is dialed again while `c` has not been
tried. -/
theorem refusing_indexer_dialed_again :
    ¬ FailsOver Sample.task Sample.listed
      (Runs.run (State.step Sample.task) Sample.start [Sample.turn 1, Sample.turn 3]).trace := by
  intro h
  obtain ⟨-, -, hfree⟩ := h _ _ _ _ Sample.trace_eq
  refine hfree (.inr ⟨by decide +kernel, Sample.indexer "c" 80, by decide +kernel, ?_⟩)
  decide +kernel

end Subscriptions
end WillowSdk
