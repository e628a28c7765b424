/-
# The frames of a subscription's socket

`handshake` and `pump_socket` (src/subscriptions.rs), frame by frame: what a
socket receives, sends and hands its caller, in order.

However the server behaves, what is sent is what graphql-transport-ws lets a
client send: `connection_init` once and first, `subscribe` once and only
after an ack, one pong for each ping and nothing else until the caller
cancels, which is when `complete` and the close are sent and the only time
they are; and what the caller receives is each `next` of the subscription,
once (`socket_follows_protocol`). The pump ends as
`Subscriptions.pumpSocket` does on what was received, so what is proved of
the loop over that holds over these frames (`pump_refines`).
-/
import WillowSdk.JsonBudget
import WillowSdk.Subscriptions

namespace WillowSdk
namespace SocketFrames

open Subscriptions (PumpExit Received pumpSocket)

/-- The most JSON one subscription message may hold. -/
def maxSubscriptionValues : ℕ := 1 <<< 16

/-- What a socket's reader gives. -/
inductive Incoming
  | text (t : String)
  | ping (payload : Bytes)
  | close
  /-- A pong or a binary message. -/
  | other
  | failed (message : String)
  | ended
deriving DecidableEq

inductive Outgoing
  | text (t : String)
  | pong (payload : Bytes)
  | close
deriving DecidableEq

/-- What a `next` frame carries. -/
structure SubscriptionPayload (V : Type) where
  data : Option V
  errors : Option V

/-- What of a socket is seen: what it receives, what it tries to send, what it
hands the caller, and the caller's cancel. -/
inductive Act (V : Type)
  | received (incoming : Incoming)
  | sent (outgoing : Outgoing)
  | delivered (payload : SubscriptionPayload V)
  | cancelled

/-- What the socket's code calls of serde_json. -/
structure SocketJson (V : Type) extends Json V where
  /-- `serde_json::from_str`. -/
  fromStr : String → Option V
  /-- `Value::to_string`. -/
  toText : V → String
  string : String → V
  /-- `json!` of an object's members. -/
  object : List (String × V) → V
  /-- `{:?}`. -/
  debug : Option V → String
  /-- `from_value::<SubscriptionPayload>`, of null if there is none. -/
  payload : Option V → Option (SubscriptionPayload V)

/-- What a socket is opened for. -/
structure Subscription (V : Type) where
  subId : String
  query : String
  «variables» : Option V
  operationName : Option String
  connectionPayload : Option V

section Socket

variable {V : Type} (json : SocketJson V) (sub : Subscription V)

/-! ### What is sent -/

def initText : String :=
  json.toText (json.object [("type", json.string "connection_init"),
    ("payload", sub.connectionPayload.getD (json.object []))])

def subscribePayload : V :=
  let vars := match sub.«variables» with
    | some v => [("variables", v)]
    | none => []
  let operationName := match sub.operationName with
    | some op => [("operationName", json.string op)]
    | none => []
  json.object ([("query", json.string sub.query)] ++ vars ++ operationName)

def subscribeText : String :=
  json.toText (json.object [("type", json.string "subscribe"), ("id", json.string sub.subId),
    ("payload", subscribePayload json sub)])

def completeText : String :=
  json.toText (json.object [("type", json.string "complete"), ("id", json.string sub.subId)])

def pongText : String := json.toText (json.object [("type", json.string "pong")])

/-! ### What a text is -/

/-- A text's JSON, within the budget. -/
def decoded (t : String) : Option V := do
  (JsonBudget.checkJsonWithin (Utf8.encode t) maxSubscriptionValues .full).toOption
  json.fromStr t

def typeOf (msg : V) : Option String := (json.get msg "type").bind json.asStr

def idOf (msg : V) : Option String := (json.get msg "id").bind json.asStr

def payloadOf (msg : V) : SubscriptionPayload V :=
  (json.payload (json.get msg "payload")).getD ⟨none, none⟩

/-! ### The handshake -/

/-- Frames are read until the server acks; when no more come, the timeout is
over. What is left to read, and what was seen. -/
def awaitAck (late : WillowError) : List Incoming → Result (List Incoming) × List (Act V)
  | [] => (.error late, [])
  | incoming :: rest =>
    let go (replies : List Outgoing) : Result (List Incoming) × List (Act V) :=
      let (result, acts) := awaitAck late rest
      (result, .received incoming :: replies.map .sent ++ acts)
    let fail (message : String) : Result (List Incoming) × List (Act V) :=
      (.error (.custom message), [.received incoming])
    match incoming with
    | .ended => fail "socket closed during handshake"
    | .failed e => fail s!"read during handshake: {e}"
    | .close => fail "server closed during handshake"
    | .ping p => go [.pong p]
    | .other => go []
    | .text t =>
      match decoded json t with
      | none => go []
      | some msg =>
        match typeOf json msg with
        | some "connection_ack" => (.ok rest, [.received incoming])
        | some "ping" => go [.text (pongText json)]
        | some "connection_error" =>
          let payload := json.get msg "payload"
          fail s!"server refused connection: {json.debug payload}"
        | _ => go []

/-- `connect_and_handshake`, once the socket is open: whether `connection_init`
and `subscribe` can be sent, and what is received. -/
def handshake (late : WillowError) (initSent subscribeSent : Except String Unit)
    (incoming : List Incoming) : Result (List Incoming) × List (Act V) :=
  let init : Act V := .sent (.text (initText json sub))
  match initSent with
  | .error e => (.error (.custom s!"send connection_init: {e}"), [init])
  | .ok () =>
    let (acked, acts) := awaitAck json late incoming
    match acked with
    | .error e => (.error e, init :: acts)
    | .ok rest =>
      let acts := init :: acts ++ [.sent (.text (subscribeText json sub))]
      match subscribeSent with
      | .error e => (.error (.custom s!"send subscribe: {e}"), acts)
      | .ok () => (.ok rest, acts)

/-! ### The pump -/

/-- What the pump's select takes next: a cancel, or a read (and whether the
caller still receives). -/
inductive Event
  | cancel
  | read (incoming : Incoming) (taken : Bool)
deriving DecidableEq

/-- `pump_socket`; a socket that receives nothing more is lost. -/
def pump (deliveredPayload : Bool) : List Event → PumpExit × List (Act V)
  | [] => (.disconnected deliveredPayload, [])
  | .cancel :: _ => (.cancelled, [.cancelled, .sent (.text (completeText json sub)), .sent .close])
  | .read incoming taken :: rest =>
    let go (acts : List (Act V)) (deliveredPayload : Bool) : PumpExit × List (Act V) :=
      let (exit, more) := pump deliveredPayload rest
      (exit, .received incoming :: acts ++ more)
    let stop (exit : PumpExit) : PumpExit × List (Act V) := (exit, [.received incoming])
    match incoming with
    | .ended | .failed _ | .close => stop (.disconnected deliveredPayload)
    | .ping p => go [.sent (.pong p)] deliveredPayload
    | .other => go [] deliveredPayload
    | .text t =>
      match decoded json t with
      | none => go [] deliveredPayload
      | some msg =>
        match (typeOf json msg).getD "" with
        | "next" =>
          if idOf json msg ≠ some sub.subId then go [] deliveredPayload
          else if taken = false then stop .cancelled
          else go [.delivered (payloadOf json msg)] true
        | "complete" =>
          if idOf json msg = some sub.subId then stop .serverComplete else go [] deliveredPayload
        | "ping" => go [.sent (.text (pongText json))] deliveredPayload
        | _ => go [] deliveredPayload

/-! ### What frames are to the loop -/

/-- A message of some type as the loop's model has it. -/
def receivedFor (msg : V) (taken : Bool) : String → Received
  | "next" => .next (idOf json msg) taken
  | "complete" => .complete (idOf json msg)
  | _ => .other

/-- An event as the loop's model has it. -/
def Event.toReceived : Event → Received
  | .cancel => .cancel
  | .read incoming taken =>
    match incoming with
    | .ended | .failed _ | .close => .lost
    | .ping _ | .other => .other
    | .text t =>
      match decoded json t with
      | none => .other
      | some msg => receivedFor json msg taken ((typeOf json msg).getD "")

/-! ### What the protocol lets a client do -/

inductive Stage
  | fresh
  | initialised
  | subscribed
  | cancelled
deriving DecidableEq

/-- A client may receive from its `connection_init` until it is cancelled. -/
def Stage.Receives (stage : Stage) : Prop := stage = .initialised ∨ stage = .subscribed

/-- How far a client is, and what it owes before it may receive more. -/
structure Conduct (V : Type) where
  stage : Stage
  due : List (Act V)

/-- What a client owes for a message of some type: a pong, its `subscribe` for
the ack, a payload of its subscription to the caller. -/
def owedFor (stage : Stage) (msg : V) : String → List (Act V)
  | "ping" => [.sent (.text (pongText json))]
  | "connection_ack" =>
    if stage = .initialised then [.sent (.text (subscribeText json sub))] else []
  | "next" =>
    if stage = .subscribed ∧ idOf json msg = some sub.subId then
      [.delivered (payloadOf json msg)]
    else []
  | _ => []

/-- What a client owes for what it received. -/
def owed (stage : Stage) : Incoming → List (Act V)
  | .ping p => [.sent (.pong p)]
  | .text t =>
    match decoded json t with
    | none => []
    | some msg => owedFor json sub stage msg ((typeOf json msg).getD "")
  | _ => []

/-- The ack lets a client subscribe. -/
def Incoming.isAck : Incoming → Bool
  | .text t => (decoded json t).any fun msg => typeOf json msg = some "connection_ack"
  | _ => false

def Stage.after (stage : Stage) (incoming : Incoming) : Stage :=
  if stage = .initialised ∧ incoming.isAck json = true then .subscribed else stage

inductive Conduct.Step : Conduct V → Act V → Conduct V → Prop
  | init : Step ⟨.fresh, []⟩ (.sent (.text (initText json sub))) ⟨.initialised, []⟩
  | receive {stage : Stage} (incoming : Incoming) : stage.Receives →
    Step ⟨stage, []⟩ (.received incoming)
      ⟨stage.after json incoming, owed json sub stage incoming⟩
  | owed {stage : Stage} {act : Act V} {due : List (Act V)} :
    Step ⟨stage, act :: due⟩ act ⟨stage, due⟩
  | cancel : Step ⟨.subscribed, []⟩ .cancelled
      ⟨.cancelled, [.sent (.text (completeText json sub)), .sent .close]⟩

/-- What is done, in order, is each time let. -/
inductive Follows : Conduct V → List (Act V) → Conduct V → Prop
  | done (c : Conduct V) : Follows c [] c
  | act {c c' c'' : Conduct V} {a : Act V} {acts : List (Act V)} : Conduct.Step json sub c a c' →
    Follows c' acts c'' → Follows c (a :: acts) c''

/-- What the pump's select finds first, each time. -/
inductive Choice
  | cancel
  | read (taken : Bool)
deriving DecidableEq

/-- What it takes: a cancel, or the next of what is left to read. -/
def selected : List Incoming → List Choice → List Event
  | _, [] => []
  | _, .cancel :: _ => [.cancel]
  | [], .read _ :: _ => []
  | incoming :: rest, .read taken :: choices => .read incoming taken :: selected rest choices

/-- What a socket does, from its opening to its end: the pump reads what the
handshake left. -/
def session (late : WillowError) (initSent subscribeSent : Except String Unit)
    (incoming : List Incoming) (choices : List Choice) : List (Act V) :=
  let (opened, acts) := handshake json sub late initSent subscribeSent incoming
  match opened with
  | .ok rest => acts ++ (pump json sub false (selected rest choices)).2
  | .error _ => acts

/-! ### What is read and what is handed over -/

def Act.incoming : Act V → Option Incoming
  | .received incoming => some incoming
  | _ => none

def Event.incoming : Event → Option Incoming
  | .read incoming _ => some incoming
  | .cancel => none

/-- What a frame carries for the caller of the subscription. -/
def Event.payload (json : SocketJson V) (sub : Subscription V) : Event → Option (SubscriptionPayload V)
  | .read (.text t) _ => do
    let msg ← decoded json t
    if (typeOf json msg).getD "" = "next" ∧ idOf json msg = some sub.subId then some (payloadOf json msg)
    else none
  | _ => none

def Act.payload : Act V → Option (SubscriptionPayload V)
  | .delivered payload => some payload
  | _ => none

/-- The pump goes no further than what it received here. -/
def Received.stops (subId : String) : Received → Bool
  | .cancel | .lost => true
  | .next id taken => id = some subId && !taken
  | .complete id => id = some subId
  | .other => false

/-- The handshake ends here, and not with the ack. -/
def Incoming.refuses (json : SocketJson V) : Incoming → Bool
  | .ended | .failed _ | .close => true
  | .text t => (decoded json t).any fun msg => typeOf json msg = some "connection_error"
  | _ => false

variable {json sub}

theorem toReceived_text {t : String} {msg : V} (hmsg : decoded json t = some msg) (taken : Bool) :
    Event.toReceived json (.read (.text t) taken) =
      receivedFor json msg taken ((typeOf json msg).getD "") := by
  unfold Event.toReceived
  dsimp only
  rw [hmsg]

theorem receivedFor_other {msg : V} {taken : Bool} {kind : String} (hnext : kind ≠ "next")
    (hcomplete : kind ≠ "complete") : receivedFor json msg taken kind = .other := by
  unfold receivedFor
  split
  · exact absurd rfl hnext
  · exact absurd rfl hcomplete
  · rfl

theorem payload_text {t : String} {msg : V} (hmsg : decoded json t = some msg) (taken : Bool) :
    Event.payload json sub (.read (.text t) taken) =
      if (typeOf json msg).getD "" = "next" ∧ idOf json msg = some sub.subId then
        some (payloadOf json msg) else none := by
  simp [Event.payload, hmsg]

theorem owed_text {stage : Stage} {t : String} {msg : V} (hmsg : decoded json t = some msg) :
    owed json sub stage (.text t) = owedFor json sub stage msg ((typeOf json msg).getD "") := by
  unfold owed
  dsimp only
  rw [hmsg]

/-- A subscribed client owes nothing for a message but a ping and a `next`. -/
theorem owedFor_subscribed {msg : V} {kind : String} (hping : kind ≠ "ping")
    (hnext : kind ≠ "next") : owedFor json sub .subscribed msg kind = [] := by
  unfold owedFor
  split
  · exact absurd rfl hping
  · rfl
  · exact absurd rfl hnext
  · rfl

/-- An initialised client owes nothing for a message but a ping and the ack. -/
theorem owedFor_initialised {msg : V} {kind : String} (hping : kind ≠ "ping")
    (hack : kind ≠ "connection_ack") : owedFor json sub .initialised msg kind = [] := by
  unfold owedFor
  split
  · exact absurd rfl hping
  · exact absurd rfl hack
  · simp
  · rfl

/-- What is owed receives nothing. -/
theorem owed_reads (stage : Stage) (incoming : Incoming) :
    (owed json sub stage incoming).filterMap Act.incoming = [] := by
  unfold owed
  split
  · rfl
  · split
    · rfl
    · unfold owedFor
      split
      · rfl
      · split_ifs <;> rfl
      · split_ifs <;> rfl
      · rfl
  · rfl

theorem isAck_text {t : String} {msg : V} (hmsg : decoded json t = some msg) :
    (Incoming.text t).isAck json = true ↔ typeOf json msg = some "connection_ack" := by
  unfold Incoming.isAck
  simp [hmsg]

/-! ### What a frame does -/

variable (json sub) in
/-- What the pump makes of a frame, beside the loop's pump: it ends there, or
does what it owes and goes on. -/
inductive Pumps (deliveredPayload : Bool) (incoming : Incoming) (taken : Bool)
    (rest : List Event) : Prop
  | ends (exit : PumpExit)
    (pump_eq : pump json sub deliveredPayload (.read incoming taken :: rest) =
      (exit, [.received incoming]))
    (loop_eq : ∀ received, pumpSocket sub.subId deliveredPayload
      (Event.toReceived json (.read incoming taken) :: received) = exit)
    (stops : Received.stops sub.subId (Event.toReceived json (.read incoming taken)) = true)
  | goesOn (after : Bool)
    (pump_eq : pump json sub deliveredPayload (.read incoming taken :: rest) =
      ((pump json sub after rest).1,
        .received incoming :: owed json sub .subscribed incoming ++ (pump json sub after rest).2))
    (loop_eq : ∀ received, pumpSocket sub.subId deliveredPayload
      (Event.toReceived json (.read incoming taken) :: received) =
        pumpSocket sub.subId after received)
    (stops : Received.stops sub.subId (Event.toReceived json (.read incoming taken)) = false)
    (payload : (owed json sub .subscribed incoming).filterMap Act.payload =
      [.read incoming taken].filterMap (Event.payload json sub))

theorem pumps_text {t : String} {msg : V} (hmsg : decoded json t = some msg)
    (deliveredPayload taken : Bool) (rest : List Event) :
    Pumps json sub deliveredPayload (.text t) taken rest := by
  have hreceived := toReceived_text hmsg taken
  have hpayload : Event.payload json sub (.read (.text t) taken) = _ := payload_text hmsg taken
  have howed : owed json sub .subscribed (.text t) = _ := owed_text hmsg
  have hpump := pump.eq_def json sub deliveredPayload (.read (.text t) taken :: rest)
  simp only [hmsg] at hpump
  generalize (typeOf json msg).getD "" = kind at hreceived hpayload howed hpump
  by_cases hnext : kind = "next"
  · subst hnext
    by_cases hid : idOf json msg = some sub.subId
    · cases taken with
      | false =>
        refine .ends .cancelled (by simpa [hid] using hpump) (fun received => ?_) ?_
        · simp [hreceived, receivedFor, pumpSocket, hid]
        · simp [hreceived, receivedFor, Received.stops, hid]
      | true =>
        refine .goesOn true ?_ (fun received => ?_) ?_ ?_
        · simpa [howed, owedFor, hid] using hpump
        · simp [hreceived, receivedFor, pumpSocket, hid]
        · simp [hreceived, receivedFor, Received.stops]
        · simp [howed, hpayload, owedFor, hid, Act.payload]
    · refine .goesOn deliveredPayload ?_ (fun received => ?_) ?_ ?_
      · simpa [howed, owedFor, hid] using hpump
      · simp [hreceived, receivedFor, pumpSocket, hid]
      · simp [hreceived, receivedFor, Received.stops, hid]
      · simp [howed, hpayload, owedFor, hid]
  · by_cases hcomplete : kind = "complete"
    · subst hcomplete
      by_cases hid : idOf json msg = some sub.subId
      · refine .ends .serverComplete (by simpa [hid] using hpump) (fun received => ?_) ?_
        · simp [hreceived, receivedFor, pumpSocket, hid]
        · simp [hreceived, receivedFor, Received.stops, hid]
      · refine .goesOn deliveredPayload ?_ (fun received => ?_) ?_ ?_
        · simpa [howed, owedFor, hid] using hpump
        · simp [hreceived, receivedFor, pumpSocket, hid]
        · simp [hreceived, receivedFor, Received.stops, hid]
        · simp [howed, hpayload, owedFor]
    · rw [receivedFor_other hnext hcomplete] at hreceived
      refine .goesOn deliveredPayload ?_ (fun received => ?_) ?_ ?_
      · by_cases hping : kind = "ping"
        · subst hping
          simpa [howed, owedFor] using hpump
        · rw [howed, owedFor_subscribed hping hnext]
          simpa using hpump
      · simp [hreceived, pumpSocket]
      · simp [hreceived, Received.stops]
      · by_cases hping : kind = "ping"
        · subst hping
          simp [howed, hpayload, owedFor, Act.payload]
        · simp [howed, hpayload, owedFor_subscribed hping hnext, hnext]

variable (json sub) in
theorem pumps (deliveredPayload : Bool) (incoming : Incoming) (taken : Bool) (rest : List Event) :
    Pumps json sub deliveredPayload incoming taken rest := by
  cases incoming with
  | ended | failed | close => exact .ends (.disconnected deliveredPayload) rfl (fun _ => rfl) rfl
  | ping | other => exact .goesOn deliveredPayload rfl (fun _ => rfl) rfl rfl
  | text t =>
    cases hmsg : decoded json t with
    | none =>
      refine .goesOn deliveredPayload ?_ (fun received => ?_) ?_ ?_
      · simp [pump, owed, hmsg]
      · simp [Event.toReceived, hmsg, pumpSocket]
      · simp [Event.toReceived, hmsg, Received.stops]
      · simp [Event.payload, owed, hmsg]
    | some msg => exact pumps_text hmsg deliveredPayload taken rest

variable (json) in
/-- What the handshake makes of a frame: the ack, or what refuses it, ends it;
for any other it does what it owes and reads on. -/
inductive Awaits (late : WillowError) (incoming : Incoming) (rest : List Incoming) : Prop
  | acked (await_eq : awaitAck json late (incoming :: rest) = (.ok rest, [.received incoming]))
    (ack : incoming.isAck json = true)
    (owed_eq : ∀ sub, owed json sub .initialised incoming =
      [.sent (.text (subscribeText json sub))])
  | refused (e : WillowError)
    (await_eq : awaitAck json late (incoming :: rest) = (.error e, [.received incoming]))
    (ack : incoming.isAck json = false) (refuses : incoming.refuses json = true)
  | goesOn (replies : List Outgoing)
    (await_eq : awaitAck json late (incoming :: rest) = ((awaitAck json late rest).1,
      .received incoming :: replies.map .sent ++ (awaitAck json late rest).2))
    (ack : incoming.isAck json = false) (refuses : incoming.refuses json = false)
    (owed_eq : ∀ sub, owed json sub .initialised incoming = replies.map .sent)

theorem awaits_text {t : String} {msg : V} (hmsg : decoded json t = some msg) (late : WillowError)
    (rest : List Incoming) : Awaits json late (.text t) rest := by
  have howed : ∀ sub, owed json sub .initialised (.text t) = _ := fun sub => owed_text hmsg
  have hack : (Incoming.text t).isAck json = decide (typeOf json msg = some "connection_ack") := by
    simp [Incoming.isAck, hmsg]
  have hrefuses : (Incoming.text t).refuses json =
      decide (typeOf json msg = some "connection_error") := by
    simp [Incoming.refuses, hmsg]
  have hawait := awaitAck.eq_def json late (.text t :: rest)
  simp only [hmsg] at hawait
  split at hawait
  · next htype =>
    refine .acked hawait (by simp [hack, htype]) fun sub => ?_
    rw [howed, htype]
    rfl
  · next htype =>
    refine .goesOn [.text (pongText json)] hawait (by simp [hack, htype]) (by simp [hrefuses, htype])
      fun sub => ?_
    rw [howed, htype]
    rfl
  · next htype => exact .refused _ hawait (by simp [hack, htype]) (by simp [hrefuses, htype])
  · next hnotAck hnotPing hnotError =>
    refine .goesOn [] hawait (by simpa [hack] using hnotAck) (by simpa [hrefuses] using hnotError)
      fun sub => ?_
    rw [howed]
    cases htype : typeOf json msg with
    | none => rfl
    | some kind =>
      rw [htype, Option.some.injEq] at hnotAck hnotPing
      exact owedFor_initialised hnotPing hnotAck

variable (json) in
theorem awaits (late : WillowError) (incoming : Incoming) (rest : List Incoming) :
    Awaits json late incoming rest := by
  cases incoming with
  | ended | failed | close => exact .refused _ rfl rfl rfl
  | ping p => exact .goesOn [.pong p] rfl rfl rfl fun _ => rfl
  | other => exact .goesOn [] rfl rfl rfl fun _ => rfl
  | text t =>
    cases hmsg : decoded json t with
    | none =>
      refine .goesOn [] ?_ ?_ ?_ fun sub => ?_
      · simp [awaitAck, hmsg]
      · simp [Incoming.isAck, hmsg]
      · simp [Incoming.refuses, hmsg]
      · simp [owed, hmsg]
    | some msg => exact awaits_text hmsg late rest

/-! ### The loop's pump -/

/-- **The frames refine the loop's pump.** -/
theorem pump_refines (deliveredPayload : Bool) (events : List Event) :
    (pump json sub deliveredPayload events).1 =
      pumpSocket sub.subId deliveredPayload (events.map (Event.toReceived json)) := by
  induction events generalizing deliveredPayload with
  | nil => rfl
  | cons event rest ih =>
    cases event with
    | cancel => rfl
    | read incoming taken =>
      rw [List.map_cons]
      cases pumps json sub deliveredPayload incoming taken rest with
      | ends exit hpump hloop => rw [hpump, hloop]
      | goesOn after hpump hloop => rw [hpump, hloop, ih after]

/-! ### Conduct -/

theorem Follows.append {c c' c'' : Conduct V} {acts more : List (Act V)}
    (h : Follows json sub c acts c') (hmore : Follows json sub c' more c'') :
    Follows json sub c (acts ++ more) c'' := by
  induction h with
  | done c => exact hmore
  | act hstep _ ih => exact .act hstep (ih hmore)

/-- What is owed is done first. -/
theorem Follows.owed {stage : Stage} {due acts : List (Act V)} {c : Conduct V}
    (h : Follows json sub ⟨stage, []⟩ acts c) : Follows json sub ⟨stage, due⟩ (due ++ acts) c := by
  induction due with
  | nil => exact h
  | cons act due ih => exact .act .owed ih

/-- Something is received, and what is owed for it done. -/
theorem Follows.receive {stage : Stage} (hstage : stage.Receives) {incoming : Incoming}
    (hsame : stage.after json incoming = stage) {acts : List (Act V)} {c : Conduct V}
    (h : Follows json sub ⟨stage, []⟩ acts c) :
    Follows json sub ⟨stage, []⟩
      (.received incoming :: SocketFrames.owed json sub stage incoming ++ acts) c := by
  refine .act (.receive incoming hstage) ?_
  rw [hsame]
  exact h.owed

variable (json sub) in
theorem follows_received {stage : Stage} (hstage : stage.Receives) (incoming : Incoming) :
    Follows json sub ⟨stage, []⟩ [.received incoming]
      ⟨stage.after json incoming, owed json sub stage incoming⟩ :=
  .act (.receive incoming hstage) (.done _)

variable (json sub) in
theorem pump_follows (deliveredPayload : Bool) (events : List Event) :
    ∃ c, Follows json sub ⟨.subscribed, []⟩ (pump json sub deliveredPayload events).2 c := by
  have hstage : Stage.subscribed.Receives := .inr rfl
  have hsame : ∀ incoming, Stage.after json .subscribed incoming = .subscribed :=
    fun incoming => if_neg (by simp)
  induction events generalizing deliveredPayload with
  | nil => exact ⟨_, .done _⟩
  | cons event rest ih =>
    cases event with
    | cancel => exact ⟨_, .act .cancel (.act .owed (.act .owed (.done _)))⟩
    | read incoming taken =>
      cases pumps json sub deliveredPayload incoming taken rest with
      | ends exit hpump =>
        rw [hpump]
        exact ⟨_, follows_received json sub hstage incoming⟩
      | goesOn after hpump =>
        obtain ⟨c, hc⟩ := ih after
        rw [hpump]
        exact ⟨c, hc.receive hstage (hsame incoming)⟩

variable (json sub) in
/-- What is done up to the ack is let, and the ack makes `subscribe` due. -/
theorem awaitAck_follows (late : WillowError) (incoming : List Incoming) :
    ∃ c, Follows json sub ⟨.initialised, []⟩ (awaitAck json late incoming).2 c ∧
      ∀ rest, (awaitAck json late incoming).1 = .ok rest →
        c = ⟨.subscribed, [.sent (.text (subscribeText json sub))]⟩ := by
  have hstage : Stage.initialised.Receives := .inl rfl
  induction incoming with
  | nil => exact ⟨_, .done _, fun rest h => by cases h⟩
  | cons incoming later ih =>
    have hreceived := follows_received json sub hstage incoming
    cases awaits json late incoming later with
    | acked hawait hack howed =>
      rw [hawait]
      refine ⟨_, hreceived, fun _ _ => ?_⟩
      rw [howed, Stage.after, if_pos ⟨rfl, hack⟩]
    | refused e hawait =>
      rw [hawait]
      exact ⟨_, hreceived, fun rest h => by cases h⟩
    | goesOn replies hawait hack hrefuses howed =>
      obtain ⟨c, hc, hok⟩ := ih
      have hsame : Stage.after json .initialised incoming = .initialised :=
        if_neg (by simp [hack])
      rw [hawait, ← howed sub]
      exact ⟨c, hc.receive hstage hsame, hok⟩

/-- The ack is read when nothing before it refuses, and what follows it is left. -/
theorem awaitAck_eq_ok {late : WillowError} {incoming rest : List Incoming} :
    (awaitAck json late incoming).1 = .ok rest ↔
      ∃ before ack, incoming = before ++ ack :: rest ∧ ack.isAck json = true ∧
        ∀ i ∈ before, i.isAck json = false ∧ i.refuses json = false := by
  refine ⟨fun h => ?_, ?_⟩
  · induction incoming with
    | nil => cases h
    | cons incoming later ih =>
      cases awaits json late incoming later with
      | acked hawait hack =>
        rw [hawait] at h
        obtain rfl := Except.ok.inj h
        exact ⟨[], incoming, rfl, hack, List.forall_mem_nil _⟩
      | refused e hawait =>
        rw [hawait] at h
        cases h
      | goesOn replies hawait hack hrefuses =>
        rw [hawait] at h
        obtain ⟨before, ack, rfl, hisAck, hbefore⟩ := ih h
        exact ⟨incoming :: before, ack, rfl, hisAck,
          List.forall_mem_cons.mpr ⟨⟨hack, hrefuses⟩, hbefore⟩⟩
  · rintro ⟨before, ack, rfl, hisAck, hbefore⟩
    induction before with
    | nil =>
      rw [List.nil_append]
      cases awaits json late ack rest with
      | acked hawait => rw [hawait]
      | refused e hawait hack =>
        rw [hisAck] at hack
        cases hack
      | goesOn replies hawait hack =>
        rw [hisAck] at hack
        cases hack
    | cons b before ih =>
      obtain ⟨⟨hnotAck, hnotRefuses⟩, hbefore⟩ := List.forall_mem_cons.mp hbefore
      rw [List.cons_append]
      cases awaits json late b (before ++ ack :: rest) with
      | acked hawait hack =>
        rw [hnotAck] at hack
        cases hack
      | refused e hawait hack hrefuses =>
        rw [hnotRefuses] at hrefuses
        cases hrefuses
      | goesOn replies hawait =>
        rw [hawait]
        exact ih hbefore

variable (json sub) in
theorem handshake_follows (late : WillowError) (initSent subscribeSent : Except String Unit)
    (incoming : List Incoming) :
    ∃ c, Follows json sub ⟨.fresh, []⟩
        (handshake json sub late initSent subscribeSent incoming).2 c ∧
      ∀ rest, (handshake json sub late initSent subscribeSent incoming).1 = .ok rest →
        c = ⟨.subscribed, []⟩ := by
  unfold handshake
  cases initSent with
  | error e => exact ⟨_, .act .init (.done _), fun rest h => by cases h⟩
  | ok =>
    obtain ⟨c, hc, hok⟩ := awaitAck_follows json sub late incoming
    dsimp only
    cases hacked : (awaitAck json late incoming).1 with
    | error e => exact ⟨c, .act .init hc, fun rest h => by cases h⟩
    | ok rest =>
      obtain rfl := hok rest hacked
      have hsubscribe : Follows json sub ⟨.fresh, []⟩
          (.sent (.text (initText json sub)) :: (awaitAck json late incoming).2 ++
            [.sent (.text (subscribeText json sub))]) ⟨.subscribed, []⟩ :=
        (Follows.act .init hc).append (.act .owed (.done _))
      cases subscribeSent with
      | error e => exact ⟨_, hsubscribe, fun rest h => by cases h⟩
      | ok => exact ⟨_, hsubscribe, fun _ _ => rfl⟩

theorem handshake_eq_ok {late : WillowError} {initSent subscribeSent : Except String Unit}
    {incoming rest : List Incoming} :
    (handshake json sub late initSent subscribeSent incoming).1 = .ok rest ↔
      initSent = .ok () ∧ subscribeSent = .ok () ∧ (awaitAck json late incoming).1 = .ok rest := by
  unfold handshake
  cases initSent with
  | error e => simp
  | ok =>
    dsimp only
    cases (awaitAck json late incoming).1 with
    | error e => simp
    | ok more => cases subscribeSent <;> simp

/-! ### The order of reading -/

@[simp] theorem reads_received (incoming : Incoming) (acts : List (Act V)) :
    (Act.received incoming :: acts).filterMap Act.incoming =
      incoming :: acts.filterMap Act.incoming := rfl

@[simp] theorem reads_sent (outgoing : Outgoing) (acts : List (Act V)) :
    (Act.sent outgoing :: acts).filterMap Act.incoming = acts.filterMap Act.incoming := rfl

/-- Nothing more is read before what is due for a frame is done. -/
theorem reads_goesOn (incoming : Incoming) {due : List (Act V)}
    (hdue : due.filterMap Act.incoming = []) (acts : List (Act V)) :
    (.received incoming :: due ++ acts).filterMap Act.incoming =
      incoming :: acts.filterMap Act.incoming := by
  rw [List.cons_append, reads_received, List.filterMap_append, hdue, List.nil_append]

theorem reads_replies (replies : List Outgoing) :
    (replies.map (Act.sent (V := V))).filterMap Act.incoming = [] := by
  induction replies with
  | nil => rfl
  | cons reply replies ih => exact ih

variable (json) in
/-- The frames up to the ack are read in order; what is left follows them. -/
theorem awaitAck_reads (late : WillowError) (incoming : List Incoming) :
    (awaitAck json late incoming).2.filterMap Act.incoming <+: incoming ∧
      ∀ rest, (awaitAck json late incoming).1 = .ok rest →
        incoming = (awaitAck json late incoming).2.filterMap Act.incoming ++ rest := by
  induction incoming with
  | nil => exact ⟨List.prefix_rfl, fun rest h => by cases h⟩
  | cons incoming later ih =>
    obtain ⟨hread, hleft⟩ := ih
    cases awaits json late incoming later with
    | acked hawait =>
      rw [hawait]
      refine ⟨⟨later, rfl⟩, fun rest h => ?_⟩
      obtain rfl := Except.ok.inj h
      rfl
    | refused e hawait =>
      rw [hawait]
      exact ⟨⟨later, rfl⟩, fun rest h => by cases h⟩
    | goesOn replies hawait =>
      rw [hawait]
      dsimp only
      rw [reads_goesOn incoming (reads_replies replies)]
      refine ⟨(List.prefix_cons_inj _).mpr hread, fun rest h => ?_⟩
      rw [List.cons_append, ← hleft rest h]

theorem handshake_reads (late : WillowError) (initSent subscribeSent : Except String Unit)
    (incoming : List Incoming) :
    (handshake json sub late initSent subscribeSent incoming).2.filterMap Act.incoming <+: incoming ∧
      ∀ rest, (handshake json sub late initSent subscribeSent incoming).1 = .ok rest →
        incoming = (handshake json sub late initSent subscribeSent incoming).2.filterMap
          Act.incoming ++ rest := by
  unfold handshake
  cases initSent with
  | error e => exact ⟨List.nil_prefix, fun rest h => by cases h⟩
  | ok =>
    obtain ⟨hread, hleft⟩ := awaitAck_reads json late incoming
    dsimp only
    cases hacked : (awaitAck json late incoming).1 with
    | error e => exact ⟨hread, fun rest h => by cases h⟩
    | ok rest =>
      -- `subscribe` is sent between the ack and what is left
      have hacts : (.sent (.text (initText json sub)) :: (awaitAck json late incoming).2 ++
          [.sent (.text (subscribeText json sub))] : List (Act V)).filterMap Act.incoming =
          (awaitAck json late incoming).2.filterMap Act.incoming := by
        rw [List.cons_append, reads_sent, List.filterMap_append, reads_sent, List.filterMap_nil,
          List.append_nil]
      cases subscribeSent with
      | error e =>
        dsimp only
        rw [hacts]
        exact ⟨hread, fun rest h => by cases h⟩
      | ok =>
        dsimp only
        rw [hacts]
        refine ⟨hread, fun rest' h => ?_⟩
        obtain rfl := Except.ok.inj h
        exact hleft rest hacked

theorem selected_reads (incoming : List Incoming) (choices : List Choice) :
    (selected incoming choices).filterMap Event.incoming <+: incoming := by
  induction choices generalizing incoming with
  | nil => simp [selected]
  | cons choice choices ih =>
    cases choice with
    | cancel =>
      have hcancel : selected incoming (.cancel :: choices) = [.cancel] := by simp [selected]
      rw [hcancel]
      exact List.nil_prefix
    | read taken =>
      cases incoming with
      | nil => exact List.nil_prefix
      | cons incoming rest => exact (List.prefix_cons_inj _).mpr (ih rest)

variable (json sub) in
/-- The pump reads in order, too. -/
theorem pump_reads (deliveredPayload : Bool) (events : List Event) :
    (pump json sub deliveredPayload events).2.filterMap Act.incoming <+:
      events.filterMap Event.incoming := by
  induction events generalizing deliveredPayload with
  | nil => exact List.prefix_rfl
  | cons event rest ih =>
    cases event with
    | cancel => exact List.nil_prefix
    | read incoming taken =>
      show _ <+: incoming :: rest.filterMap Event.incoming
      cases pumps json sub deliveredPayload incoming taken rest with
      | ends exit hpump =>
        rw [hpump]
        exact ⟨_, rfl⟩
      | goesOn after hpump =>
        rw [hpump]
        dsimp only
        rw [reads_goesOn incoming (owed_reads _ incoming)]
        exact (List.prefix_cons_inj _).mpr (ih after)

/-- A socket reads what the server sends in order, each frame once: what it reads
after the handshake is what the handshake left. -/
theorem session_reads (late : WillowError) (initSent subscribeSent : Except String Unit)
    (incoming : List Incoming) (choices : List Choice) :
    (session json sub late initSent subscribeSent incoming choices).filterMap Act.incoming <+:
      incoming := by
  obtain ⟨hread, hleft⟩ := handshake_reads late initSent subscribeSent incoming
  unfold session
  dsimp only
  cases hok : (handshake json sub late initSent subscribeSent incoming).1 with
  | error e => exact hread
  | ok rest =>
    have hpumped := (pump_reads json sub false (selected rest choices)).trans
      (selected_reads rest choices)
    have hall := (List.prefix_append_right_inj ((handshake json sub late initSent subscribeSent
      incoming).2.filterMap Act.incoming)).mpr hpumped
    rw [← hleft rest hok] at hall
    rw [List.filterMap_append]
    exact hall

/-! ### Deliveries -/

/-- The events a pump takes, but for the one that ends it. -/
def pumped (json : SocketJson V) (sub : Subscription V) (events : List Event) : List Event :=
  events.takeWhile fun e => !Received.stops sub.subId (e.toReceived json)

theorem pumped_cons_of_stops {e : Event} {rest : List Event}
    (h : Received.stops sub.subId (e.toReceived json) = true) : pumped json sub (e :: rest) = [] :=
  List.takeWhile_cons_of_neg (by simp [h])

theorem pumped_cons {e : Event} {rest : List Event}
    (h : Received.stops sub.subId (e.toReceived json) = false) :
    pumped json sub (e :: rest) = e :: pumped json sub rest :=
  List.takeWhile_cons_of_pos (by simp [h])

/-- **What is handed over is what was sent for the subscription**, in order. -/
theorem pump_delivers (deliveredPayload : Bool) (events : List Event) :
    (pump json sub deliveredPayload events).2.filterMap Act.payload =
      (pumped json sub events).filterMap (Event.payload json sub) := by
  induction events generalizing deliveredPayload with
  | nil => rfl
  | cons event rest ih =>
    cases event with
    | cancel => rfl
    | read incoming taken =>
      cases pumps json sub deliveredPayload incoming taken rest with
      | ends exit hpump _ hstops =>
        rw [hpump, pumped_cons_of_stops hstops]
        rfl
      | goesOn after hpump _ hstops hpayload =>
        rw [hpump, pumped_cons hstops]
        calc
          (.received incoming :: owed json sub .subscribed incoming ++
              (pump json sub after rest).2).filterMap Act.payload =
            (owed json sub .subscribed incoming).filterMap Act.payload ++
              (pump json sub after rest).2.filterMap Act.payload := List.filterMap_append ..
          _ = [.read incoming taken].filterMap (Event.payload json sub) ++
              (pumped json sub rest).filterMap (Event.payload json sub) := by rw [hpayload, ih after]
          _ = (.read incoming taken :: pumped json sub rest).filterMap (Event.payload json sub) :=
            (List.filterMap_append ..).symm

/-- A lost socket's pump reports whether anything was delivered. -/
theorem pumpSocket_eq_disconnected {subId : String} {deliveredPayload delivered : Bool}
    {received : List Received} (h : pumpSocket subId deliveredPayload received = .disconnected delivered) :
    delivered = (deliveredPayload ||
      (received.takeWhile fun r => !Received.stops subId r).any fun r => r = .next (some subId) true) := by
  induction received generalizing deliveredPayload with
  | nil =>
    obtain rfl := PumpExit.disconnected.inj h
    simp
  | cons r rest ih =>
    unfold pumpSocket at h
    cases r with
    | cancel => cases h
    | lost =>
      obtain rfl := PumpExit.disconnected.inj h
      simp [Received.stops]
    | other =>
      rw [List.takeWhile_cons_of_pos (by simp [Received.stops])]
      simpa using ih h
    | next id taken =>
      by_cases hid : id = some subId
      · cases taken with
        | false => simp [hid] at h
        | true =>
          have hrest : pumpSocket subId true rest = .disconnected delivered := by simpa [hid] using h
          rw [List.takeWhile_cons_of_pos (by simp [Received.stops]), ih hrest]
          simp [hid]
      · rw [List.takeWhile_cons_of_pos (by simp [Received.stops, hid])]
        simpa [hid] using ih (by simpa [hid] using h)
    | complete id =>
      by_cases hid : id = some subId
      · simp [hid] at h
      · rw [List.takeWhile_cons_of_pos (by simp [Received.stops, hid])]
        simpa [hid] using ih (by simpa [hid] using h)

/-- A frame that is pumped carries a payload if it is a `next` of the subscription. -/
theorem payload_isSome_iff {e : Event} (hstops : Received.stops sub.subId (e.toReceived json) = false) :
    (Event.payload json sub e).isSome = true ↔ e.toReceived json = .next (some sub.subId) true := by
  cases e with
  | cancel => cases hstops
  | read incoming taken =>
    cases incoming with
    | ended | failed | close => cases hstops
    | ping | other => simp [Event.payload, Event.toReceived]
    | text t =>
      cases hmsg : decoded json t with
      | none => simp [Event.payload, Event.toReceived, hmsg]
      | some msg =>
        have hpayload : Event.payload json sub (.read (.text t) taken) = _ := payload_text hmsg taken
        rw [toReceived_text hmsg] at hstops ⊢
        rw [hpayload]
        generalize (typeOf json msg).getD "" = kind at hstops ⊢
        by_cases hnext : kind = "next"
        · subst hnext
          by_cases hid : idOf json msg = some sub.subId
          · cases taken with
            | false => simp [receivedFor, Received.stops, hid] at hstops
            | true => simp [receivedFor, hid]
          · simp [receivedFor, hid]
        · by_cases hcomplete : kind = "complete"
          · subst hcomplete
            simp [receivedFor]
          · simp [receivedFor_other hnext hcomplete, hnext]

/-- Something is delivered if some frame that is pumped is a `next` of the subscription. -/
theorem delivers_iff {events : List Event} :
    ((events.map (Event.toReceived json)).takeWhile fun r => !Received.stops sub.subId r).any
        (fun r => r = .next (some sub.subId) true) = true ↔
      (pumped json sub events).filterMap (Event.payload json sub) ≠ [] := by
  have hpumped : (events.map (Event.toReceived json)).takeWhile
      (fun r => !Received.stops sub.subId r) = (pumped json sub events).map (Event.toReceived json) :=
    List.takeWhile_map ..
  have hstops : ∀ e ∈ pumped json sub events,
      Received.stops sub.subId (e.toReceived json) = false := by
    intro e he
    simpa using List.mem_takeWhile_imp he
  rw [hpumped, List.any_map, List.any_eq_true, ne_eq, List.filterMap_eq_nil_iff]
  push Not
  refine exists_congr fun e => and_congr_right fun he => ?_
  rw [← Option.isSome_iff_ne_none, payload_isSome_iff (hstops e he)]
  exact decide_eq_true_iff

end Socket

/-- **A socket follows the protocol.** Whatever the server sends, however the
sending goes and whenever the caller cancels: what the socket does, each time
in order, is what a client of graphql-transport-ws may do, and it reads the
server's frames in order, each once. It opens exactly when both messages are
sent and an ack is read before anything that refuses it, and the pump reads
what follows the ack. -/
theorem socket_follows_protocol {V : Type} (json : SocketJson V) (sub : Subscription V)
    (late : WillowError) (initSent subscribeSent : Except String Unit) (incoming : List Incoming)
    (choices : List Choice) :
    (∃ c, Follows json sub ⟨.fresh, []⟩
      (session json sub late initSent subscribeSent incoming choices) c) ∧
    (session json sub late initSent subscribeSent incoming choices).filterMap Act.incoming <+:
      incoming ∧
    ∀ rest, (handshake json sub late initSent subscribeSent incoming).1 = .ok rest ↔
      initSent = .ok () ∧ subscribeSent = .ok () ∧
        ∃ before ack, incoming = before ++ ack :: rest ∧ ack.isAck json = true ∧
          ∀ i ∈ before, i.isAck json = false ∧ i.refuses json = false := by
  refine ⟨?_, session_reads late initSent subscribeSent incoming choices, fun rest => ?_⟩
  · obtain ⟨c, hc, hopen⟩ := handshake_follows json sub late initSent subscribeSent
      incoming
    unfold session
    dsimp only
    cases hok : (handshake json sub late initSent subscribeSent incoming).1 with
    | error e => exact ⟨c, hc⟩
    | ok rest =>
      obtain rfl := hopen rest hok
      obtain ⟨d, hd⟩ := pump_follows json sub false (selected rest choices)
      exact ⟨d, hc.append hd⟩
  · rw [handshake_eq_ok, awaitAck_eq_ok]

/-- **The frames are the loop's.** On any frames, within or past the budget,
the pump ends as the loop's model of it does on what they are to it; it hands
over the payload of each `next` of the subscription, in order and once, up to
the event that ends it; and a socket that is lost counts as having delivered
one exactly if it did. -/
theorem frames_refine_the_loop {V : Type} (json : SocketJson V) (sub : Subscription V)
    (events : List Event) :
    (pump json sub false events).1 =
        pumpSocket sub.subId false (events.map (Event.toReceived json)) ∧
    (pump json sub false events).2.filterMap Act.payload =
        (pumped json sub events).filterMap (Event.payload json sub) ∧
    ∀ delivered, (pump json sub false events).1 = .disconnected delivered →
      (delivered = true ↔ (pump json sub false events).2.filterMap Act.payload ≠ []) := by
  refine ⟨pump_refines false events, pump_delivers false events, fun delivered h => ?_⟩
  rw [pump_refines] at h
  rw [pump_delivers, ← delivers_iff, pumpSocket_eq_disconnected h, Bool.false_or]

end SocketFrames
end WillowSdk
