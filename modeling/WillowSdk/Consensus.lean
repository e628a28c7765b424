/-
# Broadcasting a write

How a write of `ConsensusClient` (src/consensus.rs) and of the key grants
(src/privacy.rs) is sent and its nonce settled: `send_bytes` reads what
CometBFT answered a `broadcast_tx_sync`, `send_signed` settles or releases
the nonce by it, and each call before it releases the nonce where it stops
short of sending.

A request is in flight for a while, in which other writes use the tracker:
the network returns what became of the request and the client as it is then.
-/
import WillowSdk.Nonces
import WillowSdk.SignedMessages

namespace WillowSdk
namespace Consensus

structure BroadcastResult where
  code : ℕ
  log : String
  hash : String
deriving DecidableEq

structure CometBftError where
  code : ℤ
  message : String
  data : Option String
deriving DecidableEq

structure CometBftResponse where
  result : Option BroadcastResult
  error : Option CometBftError
deriving DecidableEq

/-- What became of a request. -/
inductive Reply
  /-- It could not connect, or could not be built. -/
  | unsent (e : WillowError)
  /-- It failed otherwise while it was sent or answered. -/
  | lost (e : WillowError)
  /-- Its answer could not be read. -/
  | unreadable (e : WillowError)
  /-- Its answer is no RPC response. -/
  | garbled (message : String)
  | answered (response : CometBftResponse)

/-- What CometBFT answered a `broadcast_tx_sync`. -/
inductive Submission
  | accepted (hash : String)
  | refused (code : ℕ) (log : String)
  | unknown (e : WillowError)

/-- The nonces a client has handed out, and what its clock reads. -/
structure Client where
  tracker : NonceTracker
  now : ℕ

namespace Client

variable (client : Client) (did : String) (nonce : ℕ)

def hold : Client := { client with tracker := client.tracker.hold client.now did nonce }

def release : Client := { client with tracker := client.tracker.release did nonce }

def settle (outcome : NonceOutcome) : Client :=
  { client with tracker := client.tracker.settle client.now did nonce outcome }

end Client

structure GrantSubgroveKeyTx (Grant : Type) where
  subgroveId : String
  encryptedKeyGrant : Grant
  senderDid : String
  signature : Bytes
  publicKeyId : String
  nonce : ℕ

structure RotateSubgroveKeyTx (Grant : Type) where
  subgroveId : String
  newEpoch : ℕ
  newGrants : List Grant
  senderDid : String
  signature : Bytes
  publicKeyId : String
  nonce : ℕ

/-- What a client's calls use: the chain's report of a DID's nonces, a posted
transaction's fate, and the code of other crates. -/
structure Network (Tx Grant : Type) where
  /-- `account_nonce_state`. -/
  accountNonceState : String → Client → Result AccountNonceState × Client
  /-- The request that broadcasts the bytes, and the client when it is over. -/
  post : Bytes → Client → Reply × Client
  /-- `bincode::serialize`. -/
  serialize : Tx → Except String Bytes
  sha256 : Bytes → Bytes
  validateDid : String → String → Except String Unit
  grantMessage : GrantSubgroveKeyTx Grant → Result String
  rotateMessage : RotateSubgroveKeyTx Grant → Result String
  grantTransaction : GrantSubgroveKeyTx Grant → Tx
  revokeTransaction : SignedMessages.RevokeSubgroveKeyTx → Tx
  rotateTransaction : RotateSubgroveKeyTx Grant → Tx

/-! ### What the node answered -/

/-- `hex::encode_upper`. -/
def hexUpper (bytes : Bytes) : String :=
  String.ofList ((Hex.encode bytes).map fun c =>
    if 97 ≤ c.toNat ∧ c.toNat ≤ 102 then Char.ofNat (c.toNat - 32) else c)

namespace CometBftError

variable (error : CometBftError)

def detail : String := error.data.getD ""

/-- CometBFT already holds these exact bytes. -/
def alreadyHeld : Bool :=
  [error.detail, error.message].any fun text =>
    "tx already exists in cache".toList.isSuffixOf (Text.trimEnd text.toList)

/-- The mempool refused the bytes before CheckTx: it is full, or they are
over its size limit. -/
def beforeCheckTx : Bool :=
  [error.message, error.detail].any fun text =>
    let text := Text.asciiLowercase text.toList
    Text.contains text "mempool is full".toList || Text.contains text "tx too large".toList

end CometBftError

section Calls

variable {Tx Grant : Type} (net : Network Tx Grant)

def txHash (txBytes : Bytes) : String := hexUpper (net.sha256 txBytes)

/-- `send_bytes`, once the request is over. An error only when the node took
nothing. -/
def readReply (txBytes : Bytes) : Reply → Result Submission
  | .unsent e => .error e
  | .lost e => .ok (.unknown e)
  | .unreadable e => .ok (.unknown e)
  | .garbled m => .ok (.unknown (.serialization m))
  | .answered response =>
    match response.error with
    | some error =>
      if error.alreadyHeld then .ok (.accepted (txHash net txBytes))
      else if error.beforeCheckTx then
        let detail := if error.detail = "" then error.message else error.detail
        .error (.notAdmitted s!"CometBFT's mempool refused it ({error.code}): {detail}")
      else
        let data := (error.data.map fun d => s!": {d}").getD ""
        .ok (.unknown (.custom s!"CometBFT error: {error.message} ({error.code}){data}"))
    | none =>
      match response.result with
      | some result =>
        if result.code ≠ 0 then .ok (.refused result.code result.log)
        else .ok (.accepted result.hash)
      | none => .ok (.unknown (.custom "No result in response"))

def sendBytes (txBytes : Bytes) (client : Client) : Result Submission × Client :=
  let (reply, client) := net.post txBytes client
  (readReply net txBytes reply, client)

/-- The error of a refusal, with what it says of the nonce. -/
def refused (code : ℕ) (log : String) (outcome : Option NonceOutcome) : WillowError :=
  let note :=
    match outcome with
    | some .used =>
      "; its nonce is used: a write refused this way may be one whose earlier attempt " ++
        "landed, so read what it wrote before signing it again under a fresh nonce"
    | some .held =>
      "; a pending transaction holds its nonce: it is not given back until that one " ++
        "lands or its hold lapses"
    | _ => ""
  .custom s!"Transaction failed: {log} (code: {code}){note}"

/-- Broadcast a submission and settle its nonce by the answer. Where the node
took nothing, a new write gives its nonce back and a rebroadcast doesn't. -/
def sendSigned (submission : SignedSubmission) (releaseUnsent : Bool) (client : Client) :
    Result String × Client :=
  let (answer, client) := sendBytes net submission.txBytes client
  let did := submission.did
  let nonce := submission.nonce
  match answer with
  | .error e =>
    if !releaseUnsent then (.error (.submissionUnknown e.text submission), client)
    else (.error e, client.release did nonce)
  | .ok (.accepted hash) => (.ok hash, client.settle did nonce .accepted)
  | .ok (.refused code log) =>
    let outcome := refusalOutcome log nonce
    (.error (refused code log (some outcome)), client.settle did nonce outcome)
  | .ok (.unknown e) =>
    (.error (.submissionUnknown e.text submission), client.settle did nonce .unknown)

/-! ### The calls -/

def encode (tx : Tx) : Result Bytes :=
  (net.serialize tx).mapError fun e => .custom s!"bincode serialize transaction: {e}"

def submitUnder (did : String) (nonce : ℕ) (tx : Tx) (client : Client) : Result String × Client :=
  match encode net tx with
  | .error e => (.error e, client.release did nonce)
  | .ok txBytes =>
    sendSigned net ⟨did, nonce, txBytes, txHash net txBytes⟩ true client

/-- Submit a transaction under a nonce the caller chose. -/
def submitWithGivenNonce (did : String) (nonce : ℕ) (tx : Tx) (client : Client) :
    Result String × Client :=
  submitUnder net did nonce tx (client.hold did nonce)

/-- Take a nonce, build the transaction under it and submit it. -/
def submitWithNonce (did : String) (build : ℕ → Result Tx) (client : Client) :
    Result String × Client :=
  match net.accountNonceState did client with
  | (.error e, client) => (.error e, client)
  | (.ok state, client) =>
    match client.tracker.take client.now did state with
    | (.error e, tracker) => (.error e, { client with tracker := tracker })
    | (.ok nonce, tracker) =>
      let client := { client with tracker := tracker }
      match build nonce with
      | .error e => (.error e, client.release did nonce)
      | .ok tx => submitUnder net did nonce tx client

/-- Update a DID document, given the transaction its caller's key signed, or
why there is none. -/
def updateDidWithNonce (did : String) (transaction : Result Tx) (nonce : ℕ) (client : Client) :
    Result String × Client :=
  match transaction with
  | .error e => (.error e, client.release did nonce)
  | .ok tx => submitWithGivenNonce net did nonce tx client

/-- The result; where it is an error, the nonce is given back. -/
def givenBack {α : Type} (did : String) (nonce : ℕ) (result : Result α) (client : Client) :
    Result α × Client :=
  match result with
  | .error e => (.error e, client.release did nonce)
  | .ok a => (.ok a, client)

/-- Sign a key transaction's message and submit it, or give its nonce back. -/
def submitKeyTransaction (sender : String) (nonce : ℕ) (message : Result String)
    (signed : String → Tx) (client : Client) : Result String × Client :=
  match givenBack sender nonce message client with
  | (.error e, client) => (.error e, client)
  | (.ok message, client) => submitWithGivenNonce net sender nonce (signed message) client

-- the caller's key
variable (sign : String → Bytes)

def grantSubgroveKey (subgroveId : String) (grant : Grant) (sender publicKeyId : String)
    (nonce : ℕ) (client : Client) : Result String × Client :=
  let tx : GrantSubgroveKeyTx Grant := ⟨subgroveId, grant, sender, [], publicKeyId, nonce⟩
  submitKeyTransaction net sender nonce (net.grantMessage tx)
    (fun m => net.grantTransaction { tx with signature := sign m }) client

def revokeSubgroveKey (subgroveId revokee sender publicKeyId : String) (nonce : ℕ)
    (client : Client) : Result String × Client :=
  let tx : SignedMessages.RevokeSubgroveKeyTx :=
    ⟨subgroveId, revokee, sender, [], publicKeyId, nonce⟩
  submitKeyTransaction net sender nonce (SignedMessages.revokeSubgroveKey net.validateDid tx)
    (fun m => net.revokeTransaction { tx with signature := sign m }) client

def rotateSubgroveKey (subgroveId : String) (newEpoch : ℕ) (newGrants : List Grant)
    (sender publicKeyId : String) (nonce : ℕ) (client : Client) : Result String × Client :=
  let tx : RotateSubgroveKeyTx Grant :=
    ⟨subgroveId, newEpoch, newGrants, sender, [], publicKeyId, nonce⟩
  submitKeyTransaction net sender nonce (net.rotateMessage tx)
    (fun m => net.rotateTransaction { tx with signature := sign m }) client

/-- Send a signed transaction again, the same bytes under the same nonce. -/
def rebroadcast (submission : SignedSubmission) (client : Client) : Result String × Client :=
  sendSigned net submission false (client.hold submission.did submission.nonce)

end Calls

end Consensus
end WillowSdk
