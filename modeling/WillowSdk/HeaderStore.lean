/-
# The headers a light client holds

The operations of `LightClient` (src/light_client.rs) that write the header
store: `initialize_with_trusted_header`, `initialize_with_trust_on_first_use`,
`sync_to_latest`, `import_trusted_state` and `prune_old_headers`, with the
fetching and parsing of a light block from an endpoint's two answers.

Every held header is stored under its own height. It is of the configured
chain as long as no block taken on first use, and no header of an imported
state, is of another: those two operations don't look
(`held_headers_of_chain_iff`).
-/
import WillowSdk.Headers
import WillowSdk.Lib.OrderedMap
import WillowSdk.Lib.Runs

namespace WillowSdk
namespace Headers

open LightClient (endpointUrl)

/-! ### Parsing a light block -/

/-- JSON values, with what the parser calls of them besides. -/
structure JsonTree (V : Type) extends Json V where
  /-- `Value::as_array`. -/
  asArray : V → Option (List V)
  /-- Whether `Value::as_object` gives the value's members. -/
  isObject : V → Bool

/-- What the parser calls of chrono and base64. -/
structure Codecs where
  /-- `DateTime::parse_from_rfc3339`. -/
  rfc3339 : String → Option ℤ
  /-- The standard alphabet's `decode`. -/
  base64 : String → Option Bytes

def u32Max : ℕ := 2 ^ 32 - 1

def parseHexBytes (hexStr : String) : Bytes :=
  (Hex.decode (Utf8.encode hexStr)).toOption.getD []

section Parse

-- a value that may be missing: indexing by a name gives null, which has no text
variable {V : Type} (json : JsonTree V) (codecs : Codecs) (now : ℤ) (v : Option V)

def strAt (name : String) : Option String := do
  let v ← v
  let v ← json.get v name
  json.asStr v

def numberAt (max : ℕ) (name : String) : ℕ :=
  ((strAt json v name).bind fun s => Text.parseUnsigned max s.toList).getD 0

def hexAt (name : String) : Bytes := parseHexBytes ((strAt json v name).getD "")

def timeAt (name : String) : ℤ := ((strAt json v name).bind codecs.rfc3339).getD now

def parsePartSetHeader (p : V) : Checked PartSetHeader := do
  -- indexing the members of an object by a name they lack panics
  let _ ← Outcome.okOr (json.get p "total") .panic
  let _ ← Outcome.okOr (json.get p "hash") .panic
  .ok ⟨.ofNat (numberAt json (some p) u32Max "total"), hexAt json (some p) "hash"⟩

def parseBlockId : Checked (Option BlockId) :=
  match strAt json v "hash" with
  | none => .ok none
  | some hash =>
    match (v.bind fun v => json.get v "parts").filter json.isObject with
    | none => .ok (some ⟨parseHexBytes hash, none⟩)
    | some p => do
      let parts ← parsePartSetHeader json p
      .ok (some ⟨parseHexBytes hash, some parts⟩)

def parseCommitSignature (sig : V) : CommitSig :=
  let flag := (strAt json (some sig) "block_id_flag").getD ""
  if flag = "BLOCK_ID_FLAG_COMMIT" then
    .blockIdFlagCommit (hexAt json (some sig) "validator_address")
      (timeAt json codecs now (some sig) "timestamp") (hexAt json (some sig) "signature")
  else if flag = "BLOCK_ID_FLAG_NIL" then .blockIdFlagNil
  else .blockIdFlagAbsent

def parseCommitSignatures : List CommitSig :=
  ((v.bind json.asArray).getD []).map (parseCommitSignature json codecs now)

def parseValidator (validator : V) : Validator :=
  let pubKey := json.get validator "pub_key"
  let keyType := (strAt json pubKey "type").getD ""
  let bytes := (codecs.base64 ((strAt json pubKey "value").getD "")).getD []
  { address := hexAt json (some validator) "address"
    pubKey := if Text.contains keyType.toList "ed25519".toList then .ed25519 bytes
      else .secp256k1 bytes
    votingPower := .ofNat (numberAt json (some validator) u64Max "voting_power") }

def parseValidatorSet : Checked ValidatorSet := do
  let validators := ((v.bind json.asArray).getD []).map (parseValidator json codecs)
  let total ← validators.foldlM (fun sum v => Checked.add sum v.votingPower.toNat) 0
  .ok ⟨validators, .ofNat total⟩

/-- Parses CometBFT RPC responses into a light block, read at a time. -/
def parseLightBlock (commitResp validatorsResp : V) : Checked LightBlock := do
  let headerJson := json.path commitResp ["result", "signed_header", "header"]
  let commitJson := json.path commitResp ["result", "signed_header", "commit"]
  let lastBlockId ← parseBlockId json (headerJson.bind fun h => json.get h "last_block_id")
  let blockId ← parseBlockId json (commitJson.bind fun c => json.get c "block_id")
  let validators ← parseValidatorSet json codecs
    (json.path validatorsResp ["result", "validators"])
  .ok { header :=
          { chainId := (strAt json headerJson "chain_id").getD ""
            height := .ofNat (numberAt json headerJson u64Max "height")
            time := timeAt json codecs now headerJson "time"
            lastBlockId := lastBlockId
            validatorsHash := hexAt json headerJson "validators_hash"
            nextValidatorsHash := hexAt json headerJson "next_validators_hash"
            appHash := hexAt json headerJson "app_hash" }
        commit :=
          { height := .ofNat (numberAt json commitJson u64Max "height")
            round := .ofNat (numberAt json commitJson u32Max "round")
            blockId := blockId.getD ⟨[], none⟩
            signatures := parseCommitSignatures json codecs now
              (commitJson.bind fun c => json.get c "signatures") }
        validators := validators }

end Parse

/-! ### Fetching -/

/-- What the endpoints answer an operation: the JSON body for a URL or the
failure's text, in each of its rounds of requests and at each endpoint's
place; and the clock in each round. -/
structure Answers (V : Type) where
  reply : (round place : ℕ) → (url : String) → Except String V
  now : (round : ℕ) → ℤ

abbrev Store := OrderedMap ℕ LightBlock

/-- A state saved earlier. -/
structure TrustedState where
  chainId : String
  headers : List LightBlock

section Operations

variable {V : Type} (json : JsonTree V) (codecs : Codecs) (schemes : Schemes) (config : Config)
  (answers : Answers V)

def commitSuffix (height : ℕ) : String :=
  if height = 0 then "/commit" else s!"/commit?height={height}"

/-- Fetches a block from an endpoint (0 is the latest). -/
def fetchBlockFromEndpoint (round place : ℕ) (endpoint : String) (height : ℕ) :
    Checked LightBlock := do
  let commitResp ← Checked.lift
    ((answers.reply round place (endpointUrl endpoint (commitSuffix height))).mapError .network)
  let served := (json.path commitResp ["result", "signed_header", "header", "height"]).bind
    json.asStr
  let actualHeight := (served.bind fun h => Text.parseUnsigned u64Max h.toList).getD height
  let validatorsResp ← Checked.lift ((answers.reply round place
    (endpointUrl endpoint s!"/validators?height={actualHeight}")).mapError .network)
  parseLightBlock json codecs (answers.now round) commitResp validatorsResp

/-- The first endpoint's block, from a place on; the last failure if there is
none. -/
def fetchBlockFrom (round height : ℕ) :
    (place : ℕ) → (lastError : Option WillowError) → List String → Checked LightBlock
  | _, lastError, [] =>
    Checked.refuse (lastError.getD (.lightClient "No validator endpoints available"))
  | place, _, endpoint :: endpoints =>
    match fetchBlockFromEndpoint json codecs answers round place endpoint height with
    | .ok block => .ok block
    | .error .panic => .error .panic
    | .error (.error e) => fetchBlockFrom round height (place + 1) (some e) endpoints

def fetchBlockAtHeight (round height : ℕ) : Checked LightBlock :=
  fetchBlockFrom json codecs answers round height 0 none config.validatorEndpoints

/-! ### Writing the store -/

/-- Each operation gives its result and the store it leaves. -/
def initializeWithTrustedHeader (block : LightBlock) (store : Store) : Checked Unit × Store :=
  if block.header.chainId ≠ config.chainId then
    (Checked.refuse (chainMismatch config.chainId block.header.chainId), store)
  else (.ok (), store.insert block.header.height.toNat block)

def initializeWithTrustOnFirstUse (store : Store) : Checked Unit × Store :=
  if config.validatorEndpoints = [] then
    (Checked.refuse (.lightClient
      "No validator endpoints configured for trust-on-first-use initialization"), store)
  else
    match fetchBlockAtHeight json codecs config answers 0 0 with
    | .error e => (.error e, store)
    | .ok latest => (.ok (), store.insert latest.header.height.toNat latest)

/-- Verifies a new header against the latest held. -/
def verifyAndStoreHeader (now : ℤ) (block : LightBlock) (store : Store) : Checked Unit × Store :=
  match store.last with
  | none => (Checked.refuse (.lightClient "No trusted header available"), store)
  | some trusted =>
    match verifyHeader schemes config now trusted block with
    | .error e => (.error e, store)
    | .ok _ => (.ok (), store.insert block.header.height.toNat block)

/-- The loop of `sync_to_latest`, `count` heights from one on. -/
def syncHeights (round height : ℕ) : (count : ℕ) → Store → Checked Unit × Store
  | 0, store => (.ok (), store)
  | count + 1, store =>
    match fetchBlockAtHeight json codecs config answers round height with
    | .error e => (.error e, store)
    | .ok block =>
      match verifyAndStoreHeader schemes config (answers.now round) block store with
      | (.error e, store) => (.error e, store)
      | (.ok _, store) => syncHeights (round + 1) (height + 1) count store

def syncToLatest (store : Store) : Checked Unit × Store :=
  if config.validatorEndpoints = [] then
    (Checked.refuse (.lightClient "No validator endpoints configured"), store)
  else
    match fetchBlockAtHeight json codecs config answers 0 0 with
    | .error e => (.error e, store)
    | .ok latest =>
      let targetHeight := latest.header.height.toNat
      let currentHeight := store.lastKey.getD 0
      if currentHeight ≥ targetHeight then (.ok (), store)
      else if currentHeight = 0 then initializeWithTrustedHeader config latest store
      else syncHeights json codecs schemes config answers 1 (currentHeight + 1)
        (targetHeight - currentHeight) store

def importTrustedState (state : TrustedState) (store : Store) : Checked Unit × Store :=
  if state.chainId ≠ config.chainId then
    (Checked.refuse (chainMismatch config.chainId state.chainId), store)
  else (.ok (), state.headers.foldl (fun s b => s.insert b.header.height.toNat b) store)

/-- Prunes headers outside the trusting period; how many. -/
def pruneOldHeaders (now : ℤ) (store : Store) : Checked ℕ × Store :=
  match fromStd config.trustingPeriod with
  | .error e => (.error e, store)
  | .ok trustingPeriod =>
    let kept := store.retain fun block => now - block.header.time < trustingPeriod
    (.ok (store.entries.length - kept.entries.length), kept)

/-- A call of one of the operations, with what the endpoints answer it. -/
inductive Operation (V : Type)
  | initializeWithTrustedHeader (block : LightBlock)
  | initializeWithTrustOnFirstUse (answers : Answers V)
  | syncToLatest (answers : Answers V)
  | importTrustedState (state : TrustedState)
  | pruneOldHeaders (now : ℤ)

/-- The store an operation leaves. -/
def step (store : Store) : Operation V → Store
  | .initializeWithTrustedHeader block => (initializeWithTrustedHeader config block store).2
  | .initializeWithTrustOnFirstUse answers =>
    (initializeWithTrustOnFirstUse json codecs config answers store).2
  | .syncToLatest answers => (syncToLatest json codecs schemes config answers store).2
  | .importTrustedState state => (importTrustedState config state store).2
  | .pruneOldHeaders now => (pruneOldHeaders config now store).2

/-- The store after some operations on a new client. -/
def storeAfter (ops : List (Operation V)) : Store :=
  Runs.run (step json codecs schemes config) OrderedMap.empty ops

end Operations

/-! ### What is held -/

/-- Every held header is of the configured chain, under its own height. -/
def Held (config : Config) (store : Store) : Prop :=
  ∀ height block, store.get height = some block →
    block.header.chainId = config.chainId ∧ block.header.height.toNat = height

section Held

variable {V : Type} {json : JsonTree V} {codecs : Codecs} {schemes : Schemes} {config : Config}
  {answers : Answers V} {store : Store} {block : LightBlock}

theorem held_empty : Held config OrderedMap.empty := by
  intro height block h
  cases h

theorem Held.insert (h : Held config store) (hchain : block.header.chainId = config.chainId) :
    Held config (store.insert block.header.height.toNat block) := by
  intro height b hb
  rw [OrderedMap.get_insert] at hb
  split_ifs at hb with heq
  · obtain rfl := Option.some.inj hb
    exact ⟨hchain, heq⟩
  · exact h height b hb

/-- What was just stored is of the configured chain if what is held is. -/
theorem Held.of_insert (h : Held config (store.insert block.header.height.toNat block)) :
    block.header.chainId = config.chainId := by
  have hget : (store.insert block.header.height.toNat block).get block.header.height.toNat =
      some block := by
    rw [OrderedMap.get_insert, if_pos rfl]
  exact (h _ block hget).1

section Keeps

-- a property of stores that inserting a header of the chain keeps
variable {P : Store → Prop} (hinsert : ∀ {store : Store} {block : LightBlock}, P store →
  block.header.chainId = config.chainId → P (store.insert block.header.height.toNat block))
include hinsert

theorem initializeWithTrustedHeader_keeps (h : P store) :
    P (initializeWithTrustedHeader config block store).2 := by
  unfold initializeWithTrustedHeader
  by_cases hchain : block.header.chainId = config.chainId
  · rw [if_neg (not_not.mpr hchain)]
    exact hinsert h hchain
  · rw [if_pos hchain]
    exact h

theorem verifyAndStoreHeader_keeps {now : ℤ} (h : P store) :
    P (verifyAndStoreHeader schemes config now block store).2 := by
  unfold verifyAndStoreHeader
  split
  case h_1 => exact h
  case h_2 trusted _ =>
    split
    case h_1 => exact h
    case h_2 hverify =>
      obtain ⟨_, _, haccepted⟩ := verifyHeader_accepted hverify
      exact hinsert h haccepted.chainId_eq

theorem syncHeights_keeps {round height count : ℕ} (h : P store) :
    P (syncHeights json codecs schemes config answers round height count store).2 := by
  induction count generalizing round height store with
  | zero => exact h
  | succ count ih =>
    unfold syncHeights
    split
    case h_1 => exact h
    case h_2 block _ =>
      have hstored : P (verifyAndStoreHeader schemes config (answers.now round) block store).2 :=
        verifyAndStoreHeader_keeps hinsert h
      split
      case h_1 hresult =>
        rw [hresult] at hstored
        exact hstored
      case h_2 hresult =>
        rw [hresult] at hstored
        exact ih hstored

/-- A sync keeps what inserting a header of the chain keeps. -/
theorem syncToLatest_keeps (h : P store) :
    P (syncToLatest json codecs schemes config answers store).2 := by
  unfold syncToLatest
  split_ifs with hendpoints
  · exact h
  cases fetchBlockAtHeight json codecs config answers 0 0 with
  | error e => exact h
  | ok latest =>
    show P (if _ then _ else if _ then _ else _ : Checked Unit × Store).2
    split_ifs
    · exact h
    · exact initializeWithTrustedHeader_keeps hinsert h
    · exact syncHeights_keeps hinsert h

end Keeps

theorem pruneOldHeaders_held {now : ℤ} (h : Held config store) :
    Held config (pruneOldHeaders config now store).2 := by
  unfold pruneOldHeaders
  cases fromStd config.trustingPeriod with
  | error e => exact h
  | ok trustingPeriod => exact fun height b hb => h height b (OrderedMap.get_retain hb)

/-! ### What the two operations that don't look take -/

/-- Of several headers of one height, the last is held. -/
theorem get_foldl_insert (headers : List LightBlock) (store : Store) (height : ℕ) :
    (headers.foldl (fun s b => s.insert b.header.height.toNat b) store).get height =
      (headers.reverse.find? fun b => b.header.height.toNat = height).or (store.get height) := by
  induction headers generalizing store with
  | nil => simp
  | cons b headers ih =>
    rw [List.foldl_cons, ih, OrderedMap.get_insert, List.reverse_cons, List.find?_append,
      List.find?_singleton, Option.or_assoc]
    by_cases hb : b.header.height.toNat = height <;> simp [hb]

/-- The last of a state's headers at each height is of a chain. -/
def TrustedState.OfChain (state : TrustedState) (chainId : String) : Prop :=
  ∀ height block, (state.headers.reverse.find? fun b => b.header.height.toNat = height) = some block →
    block.header.chainId = chainId

theorem importTrustedState_held {state : TrustedState} (h : Held config store) :
    Held config (importTrustedState config state store).2 ↔
      (state.chainId = config.chainId → state.OfChain config.chainId) := by
  unfold importTrustedState
  by_cases hchain : state.chainId = config.chainId
  · rw [if_neg (not_not.mpr hchain)]
    refine ⟨fun hheld _ height b hb => ?_, fun hof height b hb => ?_⟩
    · refine (hheld height b ?_).1
      show (List.foldl _ store state.headers).get height = some b
      rw [get_foldl_insert, hb]
      rfl
    · have hget : (List.foldl (fun s b => s.insert b.header.height.toNat b) store
          state.headers).get height = some b := hb
      rw [get_foldl_insert] at hget
      rcases Option.or_eq_some_iff.mp hget with hfound | ⟨-, hstore⟩
      · have hheight : b.header.height.toNat = height := by
          simpa using List.find?_some hfound
        exact ⟨hof hchain height b hfound, hheight⟩
      · exact h height b hstore
  · rw [if_pos hchain]
    exact ⟨fun _ hsame => absurd hsame hchain, fun _ => h⟩

/-- The block the endpoints answer, if they do, is of the configured chain. -/
def Answers.OfChain (json : JsonTree V) (codecs : Codecs) (config : Config) (answers : Answers V) :
    Prop :=
  ∀ block, fetchBlockAtHeight json codecs config answers 0 0 = .ok block →
    block.header.chainId = config.chainId

theorem initializeWithTrustOnFirstUse_held (h : Held config store) :
    Held config (initializeWithTrustOnFirstUse json codecs config answers store).2 ↔
      answers.OfChain json codecs config := by
  unfold initializeWithTrustOnFirstUse Answers.OfChain
  by_cases hendpoints : config.validatorEndpoints = []
  · rw [if_pos hendpoints]
    refine ⟨fun _ block hblock => ?_, fun _ => h⟩
    rw [fetchBlockAtHeight, hendpoints] at hblock
    cases hblock
  · rw [if_neg hendpoints]
    cases hfetch : fetchBlockAtHeight json codecs config answers 0 0 with
    | error e => exact ⟨fun _ => nofun, fun _ => h⟩
    | ok latest =>
      refine ⟨fun hheld block hblock => ?_, fun hof => h.insert (hof latest rfl)⟩
      obtain rfl := Except.ok.inj hblock
      exact hheld.of_insert

/-! ### Runs -/

/-- An operation that takes no other chain's header: the block taken on first
use, and the headers of an imported state, are of the configured chain. -/
def Operation.OfChain (json : JsonTree V) (codecs : Codecs) (config : Config) : Operation V → Prop
  | .initializeWithTrustOnFirstUse answers => answers.OfChain json codecs config
  | .importTrustedState state => state.chainId = config.chainId → state.OfChain config.chainId
  | .initializeWithTrustedHeader _ | .syncToLatest _ | .pruneOldHeaders _ => True

variable (json codecs schemes) in
/-- What one operation keeps. -/
theorem step_held (h : Held config store) (op : Operation V) :
    Held config (step json codecs schemes config store op) ↔ op.OfChain json codecs config := by
  cases op with
  | initializeWithTrustedHeader block =>
    exact iff_of_true (initializeWithTrustedHeader_keeps Held.insert h) trivial
  | initializeWithTrustOnFirstUse answers => exact initializeWithTrustOnFirstUse_held h
  | syncToLatest answers => exact iff_of_true (syncToLatest_keeps Held.insert h) trivial
  | importTrustedState state => exact importTrustedState_held h
  | pruneOldHeaders now => exact iff_of_true (pruneOldHeaders_held h) trivial

end Held

/-- **When every held header is of the configured chain.** In a run, after
every operation, exactly when no operation of the run takes another chain's
header. -/
theorem held_headers_of_chain_iff {V : Type} (json : JsonTree V) (codecs : Codecs)
    (schemes : Schemes) (config : Config) (ops : List (Operation V)) :
    (∀ done, done <+: ops → Held config (storeAfter json codecs schemes config done)) ↔
      ∀ op ∈ ops, op.OfChain json codecs config := by
  have hruns := Runs.invariant_iff
    (fun store op (hheld : Held config store) => step_held json codecs schemes hheld op)
    held_empty ops
  rw [Runs.eachGood_iff_forall_mem] at hruns
  exact hruns

namespace Sample

/-- JSON, as far as the answers below go. -/
inductive Value
  | text (s : String)
  | object (members : List (String × Value))

def Value.get : Value → String → Option Value
  | .object members, name => (members.find? fun e => e.1 = name).map Prod.snd
  | .text _, _ => none

def tree : JsonTree Value where
  get := Value.get
  asStr
    | .text s => some s
    | .object _ => none
  asU64 _ := none
  fromSlice _ := none
  hexObject s := .object [("hex", .text s)]
  asArray _ := none
  isObject
    | .text _ => false
    | .object _ => true

def noCodecs : Codecs := ⟨fun _ => none, fun _ => none⟩

def noSchemes : Schemes where
  ed25519 _ := .error "Verification equation was not satisfied"
  secp256k1 _ := .error "malformed public key"
  fromCompact _ := .error "malformed signature"
  sha256 _ := List.replicate 32 0

def willow : Config where
  validatorEndpoints := ["http://node"]
  minValidatorsForConsensus := 1
  maxProofLagBlocks := 20
  chainId := "willow"
  trustThreshold := (2, 3)
  trustingPeriod := 86400 * 10 ^ 9
  maxClockDrift := 10 * 10 ^ 9

/-- An endpoint's commit of another chain's block 7. -/
def foreignCommit : Value :=
  .object [("result", .object [("signed_header", .object [("header", .object [
    ("chain_id", .text "other"), ("height", .text "7")])])])]

def foreignAnswers : Answers Value :=
  ⟨fun _ _ _ => .ok foreignCommit, fun _ => 0⟩

/-- What the SDK parses of it. -/
def foreignBlock : LightBlock where
  header := ⟨⟨7, []⟩, "other", 0, none, [], []⟩
  commit := ⟨0, 0, ⟨[], none⟩, []⟩
  validators := ⟨[], 0⟩

end Sample

/-- Another chain's header is held after a first use, and after the import of
a state of the configured chain that has it. -/
theorem foreign_headers_held :
    (storeAfter Sample.tree Sample.noCodecs Sample.noSchemes Sample.willow
        [.initializeWithTrustOnFirstUse Sample.foreignAnswers]).get 7 = some Sample.foreignBlock ∧
      (storeAfter Sample.tree Sample.noCodecs Sample.noSchemes Sample.willow
        [.importTrustedState ⟨"willow", [Sample.foreignBlock]⟩]).get 7 = some Sample.foreignBlock ∧
      Sample.foreignBlock.header.chainId ≠ Sample.willow.chainId :=
  ⟨by rfl, by rfl, by decide⟩

end Headers
end WillowSdk
