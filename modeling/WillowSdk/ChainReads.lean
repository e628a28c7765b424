/-
# Reads of the chain's store

What `ConsensusClient` (src/consensus.rs) reads of the chain's state: an
`abci_query` to the CometBFT RPC, and over it a block's `events_commitment`
and an account's nonce state. The node answers without a proof.

`WillowClient::verify_block_completeness` (src/completeness.rs) compares what
an indexer serves with the anchor the node answers. A node that answers only
anchors the chain stores, of whatever block, can't make another event set
pass, and the committed one passes (`completeness_is_checked`).
-/
import WillowSdk.Completeness
import WillowSdk.JsonBudget
import WillowSdk.NonceState
import WillowSdk.Signing

namespace WillowSdk
namespace ChainReads

open Completeness (Log ServedLog canonicalEventSetHash preimage parseMatchedLogs
  parseMatchedLogs_served)
open EthState (B256 U64)
open HttpBody (Response)

/-- The completeness anchor stored at `/store/events_commitment/..`. -/
structure EventsCommitmentAnchor where
  subgroveId : String
  blockNumber : U64
  /-- 64 hex characters. -/
  eventsCommitment : String

/-- A node's RPC, the API beside it, and what decodes their answers. -/
structure Node (V : Type) where
  json : Json V
  /-- How the error of bytes that aren't JSON shows. -/
  decodeError : Bytes → String
  /-- `base64::decode` of the standard alphabet. -/
  base64 : String → Except String Bytes
  /-- `serde_json::from_slice` of an anchor. -/
  anchorFrom : Bytes → Except String EventsCommitmentAnchor
  /-- The answer to an `abci_query` for a path, or the transport's error. -/
  query : String → Except String Response
  apiUrl : Option String
  /-- The answer to a `GET`. -/
  get : String → Except String Response

namespace Node

variable {V : Type} (node : Node V)

/-- `http_body::json` of an answer of a fixed shape. -/
def decoded (resp : Response) : Result V := do
  let body ← HttpBody.read resp HttpBody.small
  JsonBudget.checkJson body .full
  Outcome.okOr (node.json.fromSlice body) (.serialization (node.decodeError body))

/-- The value's bytes when the node answers code 0, empty when it has none;
`none` for another code. -/
def abciQueryValue (path : String) : Result (Option Bytes) := do
  let resp ← (node.query path).mapError fun e => .network s!"abci_query {path}: {e}"
  let answer ← (node.decoded resp).mapError fun e => .network s!"abci_query {path}: {e.text}"
  let response ← Outcome.okOr (node.json.path answer ["result", "response"])
    (.network s!"abci_query {path}: no response")
  if ((node.json.get response "code").bind node.json.asU64).getD 0 ≠ 0 then .ok none
  else
    let value := ((node.json.get response "value").bind node.json.asStr).getD ""
    let bytes ← (node.base64 value).mapError fun e => .network s!"abci_query {path}: value: {e}"
    .ok (some bytes)

def anchorPath (subgroveId : String) (blockNumber : U64) : String :=
  s!"/store/events_commitment/{subgroveId}/{blockNumber.val}"

/-- The 32 bytes of an anchor, if it is the one asked for. -/
def commitmentOf (subgroveId : String) (blockNumber : U64) (anchor : EventsCommitmentAnchor) :
    Result B256 :=
  if anchor.subgroveId ≠ subgroveId ∨ anchor.blockNumber ≠ blockNumber then
    .error (.validation
      s!"the events_commitment anchor answered for {subgroveId} block {blockNumber.val} names {anchor.subgroveId} block {anchor.blockNumber.val}")
  else do
    let commitment ← Auth.decodeHex anchor.eventsCommitment
    if h : commitment.length = 32 then .ok ⟨commitment, h⟩
    else .error (.validation s!"events_commitment is {commitment.length} bytes, expected 32")

/-- A block's completeness anchor; `none` when the chain has none. -/
def eventsCommitment (subgroveId : String) (blockNumber : U64) : Result (Option B256) :=
  match node.abciQueryValue (anchorPath subgroveId blockNumber) with
  | .error e => .error (.network s!"Failed to fetch events_commitment: {e.text}")
  | .ok none | .ok (some []) => .ok none
  | .ok (some bytes) => do
    let anchor ← (node.anchorFrom bytes).mapError .serialization
    let commitment ← commitmentOf subgroveId blockNumber anchor
    .ok (some commitment)

/-- The account's base nonce alone. -/
def baseNonce (did : String) : Result ℕ :=
  match node.apiUrl with
  | some apiUrl => do
    let base := String.ofList (Text.trimEndMatches apiUrl.toList '/')
    let url := s!"{base}/account/{did}/nonce"
    let resp ← (node.get url).mapError fun e => .network s!"Failed to fetch nonce: {e}"
    let body ← (node.decoded resp).mapError fun e =>
      .network s!"Failed to parse nonce response: {e.text}"
    .ok (((node.json.path body ["data", "nonce"]).bind node.json.asU64).getD 0)
  | none => do
    let value ← node.abciQueryValue s!"/store/account_nonce/{did}"
    let state ← AccountNonceState.fromBytes ((value.getD []).take 8)
    .ok state.base

/-- An account's nonce state, or its base alone when the RPC doesn't answer it. -/
def accountNonceState (did : String) : Result AccountNonceState :=
  match node.abciQueryValue s!"/store/account_nonce_state/{did}" with
  | .ok (some value) =>
    match AccountNonceState.fromBytes value with
    | .ok state => .ok state
    | .error _ => baseOnly
  | _ => baseOnly
where
  baseOnly : Result AccountNonceState := do
    let base ← node.baseNonce did
    .ok ⟨base, 0⟩

end Node

/-! ### Verifying a block -/

/-- What `verify_block_completeness` uses of a client. -/
structure WillowClient (V : Type) where
  consensus : Option (Node V)
  indexerUrl : Option String
  /-- `Url::join`. -/
  join : String → String → Except String String
  /-- The answer to a `GET`, or the transport's error as the SDK's. -/
  fetch : String → Result Response
  /-- `serde_json::from_slice` of a matched-logs answer. -/
  fromSlice : Bytes → Except String (List ServedLog)
  keccak : Bytes → B256

namespace WillowClient

variable {V : Type} (client : WillowClient V) (subgroveId : String) (blockNumber : U64)

def requireIndexerUrl : Result String :=
  Outcome.okOr client.indexerUrl
    (.config "this route is served by indexers only: set indexer_url on the client builder")

/-- The answer of the indexer. -/
def matchedLogs : Result Response := do
  let base ← client.requireIndexerUrl
  let url ← (client.join base s!"completeness/{subgroveId}/{blockNumber.val}/matched-logs").mapError
    fun e => .config s!"Invalid URL: {e}"
  client.fetch url

def verifyBlockCompleteness : Result Bool :=
  match client.consensus with
  | none => .error (.config
      "verify_block_completeness needs a consensus URL; set consensus_url(..) on the builder")
  | some consensus =>
    Completeness.verifyBlockCompleteness client.fromSlice client.keccak subgroveId blockNumber
      (consensus.eventsCommitment subgroveId blockNumber)
      (client.matchedLogs subgroveId blockNumber)

end WillowClient

/-! ### What an anchor says -/

/-- The event set each block's commitment was made from. -/
abbrev Chain := String → U64 → Option (List Log)

/-- Every anchor a node answers, to any query, is one the chain stores. -/
def Node.AnswersStored {V : Type} (node : Node V) (keccak : Bytes → B256) (chain : Chain) : Prop :=
  ∀ path bytes anchor, node.abciQueryValue path = .ok (some bytes) →
    node.anchorFrom bytes = .ok anchor →
    ∃ logs, chain anchor.subgroveId anchor.blockNumber = some logs ∧
      anchor.eventsCommitment =
        Hex.text (canonicalEventSetHash keccak anchor.blockNumber logs).val

/-- The node answers a query with a value, whole. -/
def Node.Answers {V : Type} (node : Node V) (path : String) (bytes : Bytes) : Prop :=
  ∃ resp body answer response text, node.query path = .ok resp ∧ resp.Carries body ∧
    body.length ≤ HttpBody.small ∧ JsonBudget.checkJson body .full = .ok () ∧
    node.json.fromSlice body = some answer ∧
    node.json.path answer ["result", "response"] = some response ∧
    (node.json.get response "code").bind node.json.asU64 = some 0 ∧
    (node.json.get response "value").bind node.json.asStr = some text ∧
    node.base64 text = .ok bytes

/-- What the indexer served for a block parses to some logs. -/
def WillowClient.Served {V : Type} (client : WillowClient V) (subgroveId : String)
    (blockNumber : U64) (served : List Log) : Prop :=
  ∃ resp body, client.matchedLogs subgroveId blockNumber = .ok resp ∧
    HttpBody.read resp HttpBody.large = .ok body ∧
    parseMatchedLogs client.fromSlice body = .ok served

/-- The indexer serves a block's event set, whole. -/
def WillowClient.Serves {V : Type} (client : WillowClient V) (subgroveId : String)
    (blockNumber : U64) (logs : List Log) : Prop :=
  ∃ resp body, client.matchedLogs subgroveId blockNumber = .ok resp ∧ resp.Carries body ∧
    body.length ≤ HttpBody.large ∧ client.fromSlice body = .ok (logs.map Log.served)

section Anchors

variable {V : Type} {node : Node V} {subgroveId : String} {blockNumber : U64}

theorem abciQueryValue_of_answers {path : String} {bytes : Bytes} (h : node.Answers path bytes) :
    node.abciQueryValue path = .ok (some bytes) := by
  obtain ⟨resp, body, answer, response, text, hquery, hcarries, hsmall, hcheck, hjson, hresponse,
    hcode, hvalue, hbytes⟩ := h
  have hdecoded : node.decoded resp = .ok answer := by
    unfold Node.decoded
    rw [hcarries.read hsmall, Outcome.bind_eq_ok]
    refine ⟨body, rfl, ?_⟩
    rw [hcheck, hjson]
    rfl
  unfold Node.abciQueryValue
  simp only [Outcome.bind_eq_ok, Outcome.mapError_eq_ok, Outcome.okOr_eq_ok]
  refine ⟨resp, hquery, answer, hdecoded, response, hresponse, ?_⟩
  rw [hcode, hvalue]
  simp [hbytes, Bind.bind, Except.bind, Except.mapError]

theorem commitmentOf_eq_ok {anchor : EventsCommitmentAnchor} {commitment : B256} :
    Node.commitmentOf subgroveId blockNumber anchor = .ok commitment ↔
      anchor.subgroveId = subgroveId ∧ anchor.blockNumber = blockNumber ∧
        Auth.decodeHex anchor.eventsCommitment = .ok commitment.val := by
  unfold Node.commitmentOf
  by_cases hnames : anchor.subgroveId ≠ subgroveId ∨ anchor.blockNumber ≠ blockNumber
  · rw [if_pos hnames]
    refine iff_of_false (by simp) ?_
    rintro ⟨hsubgrove, hblock, -⟩
    rcases hnames with h | h
    · exact h hsubgrove
    · exact h hblock
  · rw [if_neg hnames, Outcome.bind_eq_ok]
    rw [not_or, not_not, not_not] at hnames
    constructor
    · rintro ⟨bytes, hbytes, h⟩
      split at h
      case isTrue hlen =>
        obtain rfl := Except.ok.inj h
        exact ⟨hnames.1, hnames.2, hbytes⟩
      case isFalse => cases h
    · rintro ⟨-, -, hbytes⟩
      exact ⟨commitment.val, hbytes, dif_pos commitment.property⟩

/-- A commitment read is of an anchor that names the subgrove and block. -/
theorem eventsCommitment_eq_some {commitment : B256}
    (h : node.eventsCommitment subgroveId blockNumber = .ok (some commitment)) :
    ∃ bytes anchor, node.abciQueryValue (Node.anchorPath subgroveId blockNumber) =
      .ok (some bytes) ∧ node.anchorFrom bytes = .ok anchor ∧
      Node.commitmentOf subgroveId blockNumber anchor = .ok commitment := by
  unfold Node.eventsCommitment at h
  split at h
  · cases h
  · cases h
  · cases h
  · next bytes _ hvalue =>
    simp only [Outcome.bind_eq_ok, Outcome.mapError_eq_ok, Except.ok.injEq, Option.some.injEq] at h
    obtain ⟨anchor, hanchor, found, hfound, rfl⟩ := h
    exact ⟨bytes, anchor, hvalue, hanchor, hfound⟩

/-- **A commitment read is the chain's for the block**, whichever anchors the
node answers. -/
theorem commitment_is_stored {keccak : Bytes → B256} {chain : Chain}
    (hnode : node.AnswersStored keccak chain) {commitment : B256}
    (h : node.eventsCommitment subgroveId blockNumber = .ok (some commitment)) :
    ∃ logs, chain subgroveId blockNumber = some logs ∧
      commitment = canonicalEventSetHash keccak blockNumber logs := by
  obtain ⟨bytes, anchor, hvalue, hanchor, hcommitment⟩ := eventsCommitment_eq_some h
  obtain ⟨hsubgrove, hblock, hhex⟩ := commitmentOf_eq_ok.mp hcommitment
  obtain ⟨logs, hchain, htext⟩ := hnode _ bytes anchor hvalue hanchor
  rw [hsubgrove, hblock] at hchain
  rw [htext, Auth.decodeHex_text, Except.ok.injEq, hblock] at hhex
  exact ⟨logs, hchain, Subtype.ext hhex.symm⟩

/-- The anchor of the block, answered whole, is read. -/
theorem eventsCommitment_of_answers {bytes : Bytes} {commitment : B256} (hne : bytes ≠ [])
    (h : node.Answers (Node.anchorPath subgroveId blockNumber) bytes)
    (hanchor : node.anchorFrom bytes =
      .ok ⟨subgroveId, blockNumber, Hex.text commitment.val⟩) :
    node.eventsCommitment subgroveId blockNumber = .ok (some commitment) := by
  have hcommitment : Node.commitmentOf subgroveId blockNumber
      ⟨subgroveId, blockNumber, Hex.text commitment.val⟩ = .ok commitment :=
    commitmentOf_eq_ok.mpr ⟨rfl, rfl, Auth.decodeHex_text _⟩
  unfold Node.eventsCommitment
  rw [abciQueryValue_of_answers h]
  cases bytes with
  | nil => exact absurd rfl hne
  | cons b bytes =>
    simp only [Outcome.bind_eq_ok, Outcome.mapError_eq_ok]
    exact ⟨_, hanchor, commitment, hcommitment, rfl⟩

end Anchors

section Verify

variable {V : Type} {client : WillowClient V} {consensus : Node V} {subgroveId : String}
  {blockNumber : U64}

/-- A verification that ends compared what was served with the anchor. -/
theorem verifyBlockCompleteness_eq_ok (hconsensus : client.consensus = some consensus)
    {answer : Bool} (h : client.verifyBlockCompleteness subgroveId blockNumber = .ok answer) :
    ∃ commitment served, consensus.eventsCommitment subgroveId blockNumber = .ok (some commitment) ∧
      client.Served subgroveId blockNumber served ∧
      answer = Completeness.verifyServedEvents client.keccak commitment blockNumber served := by
  unfold WillowClient.verifyBlockCompleteness at h
  rw [hconsensus] at h
  dsimp only at h
  unfold Completeness.verifyBlockCompleteness at h
  obtain ⟨found, hfound, h⟩ := Outcome.bind_eq_ok.mp h
  obtain ⟨commitment, hcommitment, h⟩ := Outcome.bind_eq_ok.mp h
  obtain ⟨resp, hresp, h⟩ := Outcome.bind_eq_ok.mp h
  obtain ⟨body, hbody, h⟩ := Outcome.bind_eq_ok.mp h
  obtain ⟨-, h⟩ := Outcome.refuse_eq_ok.mp h
  obtain ⟨served, hserved, h⟩ := Outcome.bind_eq_ok.mp h
  rw [Outcome.okOr_eq_ok] at hcommitment
  rw [hcommitment] at hfound
  exact ⟨commitment, served, hfound, ⟨resp, body, hresp, hbody, hserved⟩, (Except.ok.inj h).symm⟩

/-- The anchor and the event set of a block, each answered whole, verify. -/
theorem verifyBlockCompleteness_of_answers (hconsensus : client.consensus = some consensus)
    {commitment : B256} {logs : List Log}
    (hanchor : consensus.eventsCommitment subgroveId blockNumber = .ok (some commitment))
    (hserves : client.Serves subgroveId blockNumber logs) :
    client.verifyBlockCompleteness subgroveId blockNumber =
      .ok (Completeness.verifyServedEvents client.keccak commitment blockNumber logs) := by
  obtain ⟨resp, body, hresp, hcarries, hlarge, hbody⟩ := hserves
  have hparsed := parseMatchedLogs_served hbody
  have hsuccess : ¬ resp.isSuccess = false := by simp [hcarries.success]
  unfold WillowClient.verifyBlockCompleteness
  rw [hconsensus]
  dsimp only
  unfold Completeness.verifyBlockCompleteness
  simp only [Outcome.bind_eq_ok, Outcome.okOr_eq_ok]
  refine ⟨_, hanchor, _, rfl, resp, hresp, body, hcarries.read hlarge, ?_⟩
  rw [if_neg hsuccess, Outcome.bind_eq_ok]
  exact ⟨logs, hparsed, rfl⟩

/-- **Completeness is checked end to end.** Let the node answer only anchors
the chain stores, though maybe of another block or subgrove than asked for,
and the indexer anything. A verification that ends is of a block whose
commitment the chain stores; it passes what was served if that is the
committed event set, and passes nothing else, or there is a collision of
Keccak. The anchor and the committed event set, each answered whole, pass. -/
theorem completeness_is_checked (client : WillowClient V) (consensus : Node V) (chain : Chain)
    (hconsensus : client.consensus = some consensus)
    (hfits : Completeness.FitsBody client.fromSlice)
    (hstored : consensus.AnswersStored client.keccak chain)
    (hcounted : ∀ subgroveId blockNumber logs, chain subgroveId blockNumber = some logs →
      ∀ log ∈ logs, log.Counted)
    (subgroveId : String) (blockNumber : U64) :
    (∀ answer, client.verifyBlockCompleteness subgroveId blockNumber = .ok answer →
      ∃ logs served, chain subgroveId blockNumber = some logs ∧
        client.Served subgroveId blockNumber served ∧ (served = logs → answer = true) ∧
        (answer = true → served = logs ∨
          preimage blockNumber served ≠ preimage blockNumber logs ∧
          client.keccak (preimage blockNumber served) =
            client.keccak (preimage blockNumber logs))) ∧
    ∀ logs bytes, bytes ≠ [] →
      consensus.Answers (Node.anchorPath subgroveId blockNumber) bytes →
      consensus.anchorFrom bytes = .ok ⟨subgroveId, blockNumber,
        Hex.text (canonicalEventSetHash client.keccak blockNumber logs).val⟩ →
      client.Serves subgroveId blockNumber logs →
      client.verifyBlockCompleteness subgroveId blockNumber = .ok true := by
  refine ⟨fun answer h => ?_, fun logs bytes hne hanswers hanchor hserves => ?_⟩
  · obtain ⟨commitment, served, hanchor, hserved, rfl⟩ := verifyBlockCompleteness_eq_ok hconsensus h
    obtain ⟨logs, hchain, rfl⟩ := commitment_is_stored hstored hanchor
    have hserved' := hserved
    obtain ⟨resp, body, -, hbody, hparsed⟩ := hserved'
    have hcounts := Completeness.parsed_counted hfits (HttpBody.read_length_le hbody) hparsed
    refine ⟨logs, served, hchain, hserved, fun heq => ?_, fun hpasses => ?_⟩
    · rw [heq]
      exact decide_eq_true rfl
    · by_cases heq : preimage blockNumber served = preimage blockNumber logs
      · exact .inl (Completeness.preimage_inj hcounts (hcounted _ _ _ hchain) heq).2
      · exact .inr ⟨heq, of_decide_eq_true hpasses⟩
  · rw [verifyBlockCompleteness_of_answers hconsensus
      (eventsCommitment_of_answers hne hanswers hanchor) hserves]
    exact congrArg Except.ok (decide_eq_true rfl)

end Verify

/-! ### A block served whole, and served without its second log -/

namespace Sample

open Completeness.Sample (first second block commitment both firstAlone)

/-- The values of the node's answer. -/
inductive Body
  | answer
  | result
  | response
  | code
  | value
deriving DecidableEq

/-- The stored anchor, `{"subgrove_id":"sg","block_number":7,"events_commitment":".."}`. -/
def anchorBytes : Bytes :=
  [123, 34, 115, 117, 98, 103, 114, 111, 118, 101, 95, 105, 100, 34, 58, 34, 115, 103, 34, 44, 34,
  98, 108, 111, 99, 107, 95, 110, 117, 109, 98, 101, 114, 34, 58, 55, 44, 34, 101, 118, 101, 110,
  116, 115, 95, 99, 111, 109, 109, 105, 116, 109, 101, 110, 116, 34, 58, 34] ++
    Hex.encodeBytes commitment.val ++ [34, 125]

/-- Its base64. -/
def anchorBase64 : Bytes :=
  [101, 121, 74, 122, 100, 87, 74, 110, 99, 109, 57, 50, 90, 86, 57, 112, 90, 67, 73, 54, 73, 110,
  78, 110, 73, 105, 119, 105, 89, 109, 120, 118, 89, 50, 116, 102, 98, 110, 86, 116, 89, 109, 86,
  121, 73, 106, 111, 51, 76, 67, 74, 108, 100, 109, 86, 117, 100, 72, 78, 102, 89, 50, 57, 116, 98,
  87, 108, 48, 98, 87, 86, 117, 100, 67, 73, 54, 73, 109, 85, 120, 78, 84, 81, 48, 89, 87, 85, 53,
  77, 84, 107, 48, 78, 84, 103, 50, 78, 106, 78, 108, 79, 71, 90, 106, 90, 84, 69, 48, 89, 109, 82,
  106, 90, 68, 65, 50, 90, 71, 89, 50, 89, 84, 99, 51, 78, 122, 81, 120, 77, 71, 77, 119, 78, 106,
  103, 122, 77, 68, 74, 106, 77, 68, 85, 52, 78, 71, 82, 109, 90, 106, 69, 49, 79, 68, 99, 49, 77,
  106, 82, 107, 90, 109, 81, 105, 102, 81, 61, 61]

def anchorText : String := String.ofList (anchorBase64.map fun b => Char.ofNat b.toNat)

/-- `{"result":{"response":{"code":0,"value":".."}}}` -/
def rpcBody : Bytes :=
  [123, 34, 114, 101, 115, 117, 108, 116, 34, 58, 123, 34, 114, 101, 115, 112, 111, 110, 115, 101,
  34, 58, 123, 34, 99, 111, 100, 101, 34, 58, 48, 44, 34, 118, 97, 108, 117, 101, 34, 58, 34] ++ anchorBase64 ++ [34, 125, 125, 125]

def json : Json Body where
  get
    | .answer, "result" => some .result
    | .result, "response" => some .response
    | .response, "code" => some .code
    | .response, "value" => some .value
    | _, _ => none
  asStr v := if v = .value then some anchorText else none
  asU64 v := if v = .code then some 0 else none
  fromSlice bytes := if bytes = rpcBody then some .answer else none
  hexObject _ := .answer

def chain : Chain := fun subgroveId blockNumber =>
  if subgroveId = "sg" ∧ blockNumber = block then some [first, second] else none

def answered (body : Bytes) : Response := ⟨200, "200 OK", none, [.ok body]⟩

theorem carries (body : Bytes) : (answered body).Carries body where
  success := by simp [answered, Response.isSuccess]
  declared _ h := by cases h
  pieces := ⟨[body], rfl, by simp⟩

def node : Node Body where
  json := json
  decodeError _ := "expected value at line 1 column 1"
  base64 text := if text = anchorText then .ok anchorBytes else .error "Invalid padding"
  anchorFrom bytes :=
    if bytes = anchorBytes then .ok ⟨"sg", block, Hex.text commitment.val⟩
    else .error "expected value at line 1 column 1"
  query path :=
    if path = "/store/events_commitment/sg/7" then .ok (answered rpcBody)
    else .error "connection refused"
  apiUrl := none
  get _ := .error "connection refused"

/-- A client of an indexer that answers `served` for block 7. -/
def client (served : Bytes) : WillowClient Body where
  consensus := some node
  indexerUrl := some "http://indexer/"
  join base path := .ok (base ++ path)
  fetch url :=
    if url = "http://indexer/completeness/sg/7/matched-logs" then .ok (answered served)
    else .error (.network "connection refused")
  fromSlice := Completeness.Sample.fromSlice
  keccak := Completeness.Sample.keccak

theorem answersStored : node.AnswersStored Completeness.Sample.keccak chain := by
  intro path bytes anchor _ hanchor
  dsimp only [node] at hanchor
  split at hanchor
  · obtain rfl := Except.ok.inj hanchor
    refine ⟨[first, second], if_pos ⟨rfl, rfl⟩, ?_⟩
    rw [canonicalEventSetHash, Completeness.Sample.keccak_both]
  · cases hanchor

theorem counted (subgroveId : String) (blockNumber : U64) (logs : List Log)
    (h : chain subgroveId blockNumber = some logs) : ∀ log ∈ logs, log.Counted := by
  unfold chain at h
  split at h
  · obtain rfl := Option.some.inj h
    exact Completeness.Sample.counted
  · cases h

theorem matchedLogs (served : Bytes) :
    (client served).matchedLogs "sg" block = .ok (answered served) := by
  have hurl : ∀ name, name = "sg" →
      "http://indexer/" ++ s!"completeness/{name}/{block.val}/matched-logs" =
        "http://indexer/completeness/sg/7/matched-logs" := by
    rintro _ rfl
    rfl
  have hfetch : (client served).fetch "http://indexer/completeness/sg/7/matched-logs" =
      .ok (answered served) := by
    dsimp only [client]
    rw [if_pos rfl]
  rw [← hurl "sg" rfl] at hfetch
  exact hfetch

theorem serves {served : Bytes} {logs : List Log} (hlarge : served.length ≤ HttpBody.large)
    (hserved : Completeness.Sample.fromSlice served = .ok (logs.map Log.served)) :
    (client served).Serves "sg" block logs :=
  ⟨answered served, served, matchedLogs served, carries _, hlarge, hserved⟩

theorem serves_both : (client both).Serves "sg" block [first, second] := by
  have hlarge : both.length ≤ HttpBody.large := by decide +kernel
  exact serves hlarge Completeness.Sample.fromSlice_both

theorem serves_first : (client firstAlone).Serves "sg" block [first] := by
  have hlarge : firstAlone.length ≤ HttpBody.large := by decide +kernel
  exact serves hlarge Completeness.Sample.fromSlice_firstAlone

theorem answers : node.Answers (Node.anchorPath "sg" block) anchorBytes := by
  have hpath : Node.anchorPath "sg" block = "/store/events_commitment/sg/7" := by decide +kernel
  have hquery : node.query "/store/events_commitment/sg/7" = .ok (answered rpcBody) := by
    dsimp only [node]
    rw [if_pos rfl]
  have hsmall : rpcBody.length ≤ HttpBody.small := by decide +kernel
  have hshort : JsonBudget.containerCost * rpcBody.length ≤ JsonBudget.maxValues := by
    decide +kernel
  have hjson : node.json.fromSlice rpcBody = some .answer := by
    dsimp only [node, json]
    rw [if_pos rfl]
  have hbytes : node.base64 anchorText = .ok anchorBytes := by
    dsimp only [node]
    rw [if_pos rfl]
  rw [hpath]
  exact ⟨answered rpcBody, rpcBody, .answer, .response, anchorText, hquery, carries _, hsmall,
    JsonBudget.checkJson_of_short hshort, hjson, rfl, rfl, rfl, hbytes⟩

theorem anchorBytes_ne_nil : anchorBytes ≠ [] := by decide +kernel

theorem anchored : node.anchorFrom anchorBytes =
    .ok ⟨"sg", block, Hex.text (canonicalEventSetHash Completeness.Sample.keccak block
      [first, second]).val⟩ := by
  rw [canonicalEventSetHash, Completeness.Sample.keccak_both]
  dsimp only [node]
  rw [if_pos rfl]

/-- Without the second log, the hash is another. -/
theorem first_fails : (client firstAlone).verifyBlockCompleteness "sg" block = .ok false := by
  have hne : Completeness.Sample.withoutSecond ≠ commitment := by decide
  have hanchor := eventsCommitment_of_answers anchorBytes_ne_nil answers anchored
  rw [canonicalEventSetHash, Completeness.Sample.keccak_both] at hanchor
  have hhash : canonicalEventSetHash Completeness.Sample.keccak block [first] ≠ commitment := by
    rw [canonicalEventSetHash, Completeness.Sample.keccak_first]
    exact hne
  rw [verifyBlockCompleteness_of_answers rfl hanchor serves_first]
  exact congrArg Except.ok (decide_eq_false hhash)

end Sample

theorem completeness_is_checked_sample :
    (Sample.client Completeness.Sample.both).verifyBlockCompleteness "sg"
      Completeness.Sample.block = .ok true ∧
    ∃ served, (Sample.client Completeness.Sample.firstAlone).Served "sg"
      Completeness.Sample.block served ∧
      served ≠ [Completeness.Sample.first, Completeness.Sample.second] := by
  have hchecked := fun served => completeness_is_checked (Sample.client served) Sample.node
    Sample.chain rfl Completeness.Sample.fitsBody Sample.answersStored Sample.counted "sg"
    Completeness.Sample.block
  refine ⟨?_, ?_⟩
  · exact (hchecked _).2 _ Sample.anchorBytes Sample.anchorBytes_ne_nil Sample.answers
      Sample.anchored Sample.serves_both
  · obtain ⟨logs, served, hlogs, hserved, hpasses, -⟩ := (hchecked _).1 false Sample.first_fails
    have hchain : Sample.chain "sg" Completeness.Sample.block =
        some [Completeness.Sample.first, Completeness.Sample.second] := if_pos ⟨rfl, rfl⟩
    have heq := Option.some.inj (hlogs.symm.trans hchain)
    refine ⟨served, hserved, fun hall => ?_⟩
    exact absurd (hpasses (hall.trans heq.symm)) (by decide)

end ChainReads
end WillowSdk
