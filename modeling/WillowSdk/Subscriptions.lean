/-
# A subscription's task

`subscription_loop` (src/subscriptions.rs): the task behind a subscription
pumps its socket until it drops, waits, and dials again, an indexer that
discovery finds or the validator. `State` is what the task keeps, with what
it has done so far; one `Turn` is one pass of its loop: what its socket
receives, whether the caller cancels, what discovery answers and whether the
new connection opens.

Times are nanoseconds.
-/
import WillowSdk.Indexers
import WillowSdk.Lib.Text
import WillowSdk.Machine

namespace WillowSdk
namespace Subscriptions

open Indexers (IndexerInfo Cache Discovery)

inductive SubscribeSource
  | validator
  | indexer
deriving DecidableEq

structure SubscribeOptions where
  source : SubscribeSource
  reconnect : Bool
  maxReconnectAttempts : Option ℕ
  reconnectBackoff : ℕ
  maxReconnectBackoff : ℕ

/-- What a task is started with. -/
structure Task where
  apiUrl : String
  discovery : Discovery
  subgroveId : String
  options : SubscribeOptions
  subId : String

/-! ### A socket -/

/-- What a socket's pump receives next: a cancel, the socket's end, a frame
of the protocol with its ID (and whether the caller still receives), or a
frame that is answered or ignored. -/
inductive Received
  | cancel
  | lost
  | next (id : Option String) (taken : Bool)
  | complete (id : Option String)
  | other
deriving DecidableEq

inductive PumpExit
  | cancelled
  | serverComplete
  | disconnected (deliveredPayload : Bool)
deriving DecidableEq

/-- A socket that receives nothing more is lost. -/
def pumpSocket (subId : String) (deliveredPayload : Bool) : List Received → PumpExit
  | [] => .disconnected deliveredPayload
  | .cancel :: _ => .cancelled
  | .lost :: _ => .disconnected deliveredPayload
  | .next id taken :: rest =>
    if id ≠ some subId then pumpSocket subId deliveredPayload rest
    else if taken = false then .cancelled
    else pumpSocket subId true rest
  | .complete id :: rest =>
    if id = some subId then .serverComplete else pumpSocket subId deliveredPayload rest
  | .other :: rest => pumpSocket subId deliveredPayload rest

/-! ### Where to connect -/

/-- A URL's WebSocket scheme, with a slash at its end. -/
def httpToWs (url : String) : String :=
  let s := match Text.stripPrefix url.toList "https://".toList with
    | some rest => "wss://".toList ++ rest
    | none =>
      match Text.stripPrefix url.toList "http://".toList with
      | some rest => "ws://".toList ++ rest
      | none => url.toList
  String.ofList (if s.getLast? = some '/' then s else s ++ ['/'])

/-- The first candidate. -/
def chooseIndexer (subgroveId : String) : List IndexerInfo → Result IndexerInfo
  | [] => .error (.custom
      s!"No indexer serves subgrove {subgroveId} — cannot open indexer subscription")
  | chosen :: _ => .ok chosen

/-- An indexer's URL. -/
def wsUrl (chosen : IndexerInfo) : String :=
  let endpoint := String.ofList (Text.trimEndMatches chosen.effectiveQueryEndpoint.toList '/')
  httpToWs endpoint ++ "graphql/ws"

/-- The indexer to skip is evicted. -/
def skip (skipIndexerDid : Option String) (cache : Cache) : Cache :=
  match skipIndexerDid with
  | some did => Indexers.evict cache did
  | none => cache

/-- A discovery: when, what the cache's other users do to it before and after
the eviction, and what the validator answers if it is asked. -/
structure Lookup where
  now : ℕ
  others : Cache → Cache
  meanwhile : Cache → Cache
  answer : Result (List IndexerInfo)

/-- `resolve_ws_url`: the URL and the indexer to dial, of which the task keeps
the DID, and the cache it leaves. -/
def resolveWsUrl (task : Task) (lookup : Lookup) (skipIndexerDid : Option String)
    (cache : Cache) : Result (String × Option IndexerInfo) × Cache :=
  match task.options.source with
  | .validator => (.ok (httpToWs task.apiUrl ++ "graphql/ws", none), lookup.others cache)
  | .indexer =>
    let cache := lookup.meanwhile (skip skipIndexerDid (lookup.others cache))
    let (candidates, cache) :=
      Indexers.forSubgrove task.discovery lookup.now lookup.answer cache task.subgroveId
    let resolved : Result (String × Option IndexerInfo) := do
      let candidates ← candidates
      let chosen ← chooseIndexer task.subgroveId candidates
      .ok (wsUrl chosen, some chosen)
    (resolved, cache)

/-! ### The loop -/

/-- `Duration::MAX`. -/
def durationMax : ℕ := (2 ^ 64 - 1) * 10 ^ 9 + 999999999

/-- The wait before an attempt, doubled with each. -/
def backoff (options : SubscribeOptions) (attempts : ℕ) : ℕ :=
  min (min (options.reconnectBackoff * 2 ^ min (attempts - 1) 30) durationMax)
    options.maxReconnectBackoff

/-- What a task does: a socket delivers payloads, or drops; it waits, dials,
and a connection or handshake fails. -/
inductive Event
  | payload
  | dropped (did : Option String)
  | waited (delay : ℕ)
  | dialed (url : String) (indexer : Option IndexerInfo)
  | refused (did : Option String)
deriving DecidableEq

/-- A task between two passes of its loop. -/
structure State where
  currentIndexerDid : Option String
  connected : Bool
  attempts : ℕ
  cache : Cache
  ended : Bool
  trace : List Event

/-- A pass of the loop. -/
structure Turn where
  received : List Received
  cancelled : Bool
  lookup : Lookup
  opens : Bool

def State.record (s : State) (events : List Event) : State := { s with trace := s.trace ++ events }

def State.stop (s : State) : State := { s with ended := true }

/-- The socket is pumped until it is done, if there is one. -/
def State.pump (task : Task) (s : State) (t : Turn) : State :=
  if s.connected = false then s
  else
    match pumpSocket task.subId false t.received with
    | .cancelled => s.stop
    | .serverComplete => s.stop
    | .disconnected deliveredPayload =>
      { s with
        connected := false
        attempts := if deliveredPayload = true then 0 else s.attempts
        trace := s.trace ++ (if deliveredPayload = true then [.payload] else []) ++
          [.dropped s.currentIndexerDid] }

/-- The wait before another attempt, if there is to be one. -/
def State.backOff (task : Task) (s : State) (t : Turn) : State :=
  let maxAttempts := task.options.maxReconnectAttempts.getD u64Max
  if s.ended = true then s
  else if task.options.reconnect = false then s.stop
  else if maxAttempts ≤ s.attempts then s.stop
  else
    let attempts := s.attempts + 1
    let waited := { s.record [.waited (backoff task.options attempts)] with attempts := attempts }
    if t.cancelled = true then waited.stop else waited

/-- An attempt: discovery, then the connection. -/
def State.attempt (task : Task) (s : State) (t : Turn) : State :=
  if s.ended = true then s
  else
    let (resolved, cache) := resolveWsUrl task t.lookup s.currentIndexerDid s.cache
    let s := { s with cache := cache }
    match resolved with
    | .error _ => s
    | .ok (url, indexer) =>
      let s := s.record [.dialed url indexer]
      let newDid := indexer.map IndexerInfo.indexerDid
      if t.opens = true then { s with currentIndexerDid := newDid, connected := true }
      else s.record [.refused newDid]

/-- A pass of the loop, unless the task has ended. -/
def State.step (task : Task) (s : State) (t : Turn) : State :=
  if s.ended = true then s
  else
    let s := s.pump task t
    let s := s.backOff task t
    s.attempt task t

/-- A task whose first connection is open. -/
def State.opened (did : Option String) (cache : Cache) : State where
  currentIndexerDid := did
  connected := true
  attempts := 0
  cache := cache
  ended := false
  trace := []

end Subscriptions
end WillowSdk
