/-
# Verifiable RPC queries

`VerifiableRpcOperations::query` (src/verifiable_rpc.rs): an indexer's answer
for a key of a subgrove, checked against the state root in the same answer,
and against the root this client last saw for the subgrove.

What a query accepts has passed the checks of its mode, and a query that
refuses leaves the cache of seen roots as it was
(`query_accepts_only_checked`). Digests are 32 bytes; the GKR verifier, and
the header its full proofs start with, are parameters.
-/
import WillowSdk.EthState
import WillowSdk.Grove.Descended

namespace WillowSdk
namespace VerifiableRpc

open EthState (B256)

/-- How strictly an answer is verified. -/
inductive VerifyMode
  | strict
  | groveDbOnly
  | disabled
deriving DecidableEq, Repr

structure GkrPublicInputs where
  outputRoot : B256
  blockRange : ℕ × ℕ
  configHash : B256
  startingStateRoot : B256
deriving DecidableEq

/-- What of a GKR proof its verification reads. -/
structure GkrProofData where
  proof : Bytes
  publicInputs : GkrPublicInputs
  verificationKeyHash : B256
deriving DecidableEq

/-- What of an indexer's answer a query reads. -/
structure VerifiableRpcResponse where
  subgroveId : String
  key : Bytes
  answer : Bytes
  answerExists : Bool
  checkpointId : B256
  stateRoot : B256
  blockRange : ℕ × ℕ
  grovedbProof : Bytes
  gkrProofs : List GkrProofData
deriving DecidableEq

/-- The state root last seen for a subgrove. -/
structure SeenStateRoot where
  stateRoot : B256
  blockRange : ℕ × ℕ
  checkpointId : B256
  observedAtUnixSecs : ℕ
deriving DecidableEq

/-- The client's seen roots, by subgrove. -/
abbrev Cache := String → Option SeenStateRoot

inductive VerificationResult
  | gkrAndGroveDb
  | groveDbOnly
  | skipped
deriving DecidableEq, Repr

structure VerifiedAnswer where
  answer : Option Bytes
  stateRoot : B256
  blockRange : ℕ × ℕ
  verification : VerificationResult
  stateRootAnchored : Bool
deriving DecidableEq

def fail (m : String) : WillowError := .proofVerificationFailed m

/-! ### Continuity -/

def forkError (subgroveId : String) (tip : ℕ) (expected got : B256) : WillowError :=
  fail s!"state-root fork on subgrove '{subgroveId}' at block {tip}: expected {Hex.text expected.val}, got {Hex.text got.val}"

def regressedError (subgroveId : String) (seen got : ℕ) : WillowError :=
  fail s!"subgrove '{subgroveId}' regressed: last seen tip at block {seen}, new response at block {got}"

def checkContinuity (cache : Cache) (subgroveId : String) (resp : VerifiableRpcResponse) :
    Result Unit :=
  match cache subgroveId with
  | none => .ok ()
  | some prev =>
    if prev.blockRange.2 = resp.blockRange.2 ∧ prev.stateRoot ≠ resp.stateRoot then
      .error (forkError subgroveId resp.blockRange.2 prev.stateRoot resp.stateRoot)
    else if resp.blockRange.2 < prev.blockRange.2 then
      .error (regressedError subgroveId prev.blockRange.2 resp.blockRange.2)
    else .ok ()

/-- The entry of an answer observed at a time. -/
def VerifiableRpcResponse.seen (resp : VerifiableRpcResponse) (now : ℕ) : SeenStateRoot :=
  { stateRoot := resp.stateRoot
    blockRange := resp.blockRange
    checkpointId := resp.checkpointId
    observedAtUnixSecs := now }

def recordSeenRoot (now : ℕ) (cache : Cache) (subgroveId : String) (resp : VerifiableRpcResponse) :
    Cache :=
  Function.update cache subgroveId (some (resp.seen now))

/-! ### The proofs -/

/-- `b"indexed"` -/
def indexed : Bytes := [105, 110, 100, 101, 120, 101, 100]

/-- An entity tree's path in a subgrove. -/
def entityPath (subgroveId : String) (entity : Bytes) : List Bytes :=
  [Grove.subgroves, Utf8.encode subgroveId, indexed, entity]

def isEntityTree (subgroveId : String) : List Bytes → Bool
  | [s, id, i, _] => s = Grove.subgroves ∧ id = Utf8.encode subgroveId ∧ i = indexed
  | _ => false

section Proofs

-- `full` is how GKR_PROOF_FULL proofs start, `verifyFullProof` what verifies
-- one with the embedded circuits
variable (deps : Grove.Deps B256) (full : Bytes) (verifyFullProof : GkrProofData → Except String Unit)

/-- The GroveDB proof proves the answer at the key in one entity tree of the
subgrove, under the answer's state root. -/
def verifyGrovedbProof (resp : VerifiableRpcResponse) (subgroveId : String) (key : Bytes) :
    Result Unit :=
  if resp.grovedbProof = [] then .error (fail "GroveDB proof is empty")
  else if resp.subgroveId ≠ subgroveId ∨ resp.key ≠ key then
    .error (fail "the response is for another subgrove or key than the one asked")
  else if resp.answerExists = false then
    .error (.unsupported
      "an absent answer can't be checked: the indexer proves absence under one entity tree, not the subgrove")
  else do
    let path ← Grove.descendedPath deps resp.grovedbProof
    if isEntityTree subgroveId path = false then
      .error (fail "the proof is not of an entity tree of the subgrove asked")
    else
      let (root, item) ← Grove.verifyItemAtPath deps resp.grovedbProof path key
      if item ≠ resp.answer then
        .error (fail "the answer is not the item the proof proves at the key")
      else if root ≠ resp.stateRoot then
        .error (fail
          s!"GroveDB proof root {Hex.text root.val} does not match response state_root {Hex.text resp.stateRoot.val}")
      else .ok ()

def verifyFull (proof : GkrProofData) : Result Unit := (verifyFullProof proof).mapError fail

def outputMismatch (output expected : B256) : WillowError :=
  fail s!"GKR proof output_root {Hex.text output.val} does not match response state_root {Hex.text expected.val}"

def verifyGkrProof (proof : GkrProofData) (expectedStateRoot : B256) : Result Unit :=
  if proof.publicInputs.outputRoot ≠ expectedStateRoot then
    .error (outputMismatch proof.publicInputs.outputRoot expectedStateRoot)
  else if proof.proof.length < full.length ∨ proof.proof.take full.length ≠ full then
    .error (fail "GKR proof header is not GKR_PROOF_FULL")
  else verifyFull verifyFullProof proof

/-- Each proof's output is the next one's start, the last one's the state
root. -/
def verifyGkrProofs (stateRoot : B256) : List GkrProofData → Result Unit
  | [] => .ok ()
  | proof :: proofs => do
    let expectedRoot := match proofs with
      | [] => stateRoot
      | next :: _ => next.publicInputs.startingStateRoot
    verifyGkrProof full verifyFullProof proof expectedRoot
    verifyGkrProofs stateRoot proofs

/-- The checks of a mode. -/
def verify (mode : VerifyMode) (resp : VerifiableRpcResponse) (subgroveId : String) (key : Bytes) :
    Result VerificationResult :=
  match mode with
  | .disabled => .ok .skipped
  | .groveDbOnly => do
    verifyGrovedbProof deps resp subgroveId key
    .ok .groveDbOnly
  | .strict => do
    verifyGrovedbProof deps resp subgroveId key
    if resp.gkrProofs = [] then
      .error (fail "Strict verify mode: indexer returned no GKR proofs")
    else
      verifyGkrProofs full verifyFullProof resp.stateRoot resp.gkrProofs
      .ok .gkrAndGroveDb

/-- What is returned of an accepted answer. -/
def VerifiableRpcResponse.verifiedAnswer (raw : VerifiableRpcResponse)
    (verification : VerificationResult) : VerifiedAnswer where
  answer := if raw.answerExists then some raw.answer else none
  stateRoot := raw.stateRoot
  blockRange := raw.blockRange
  verification := verification
  stateRootAnchored := false

/-- A query: the subgrove and key asked, the client's mode, what the indexer
answers, and when. -/
structure Query where
  subgroveId : String
  key : Bytes
  mode : VerifyMode
  fetched : Result VerifiableRpcResponse
  now : ℕ

/-- `query`: its result, and the cache it leaves. -/
def query (q : Query) (cache : Cache) : Result VerifiedAnswer × Cache :=
  let checked : Result (VerifiableRpcResponse × VerificationResult) := do
    let raw ← q.fetched
    checkContinuity cache q.subgroveId raw
    let verification ← verify deps full verifyFullProof q.mode raw q.subgroveId q.key
    .ok (raw, verification)
  match checked with
  | .error e => (.error e, cache)
  | .ok (raw, verification) =>
    (.ok (raw.verifiedAnswer verification), recordSeenRoot q.now cache q.subgroveId raw)

end Proofs

/-! ### What the checks establish -/

theorem checkContinuity_eq_ok {cache : Cache} {subgroveId : String} {resp : VerifiableRpcResponse} :
    checkContinuity cache subgroveId resp = .ok () ↔
      ∀ prev, cache subgroveId = some prev → prev.blockRange.2 ≤ resp.blockRange.2 ∧
        (prev.blockRange.2 = resp.blockRange.2 → prev.stateRoot = resp.stateRoot) := by
  unfold checkContinuity
  cases cache subgroveId with
  | none => exact ⟨fun _ => nofun, fun _ => rfl⟩
  | some prev =>
    simp only [Outcome.refuse_eq_ok, not_and, not_not, not_lt, and_true, Option.some.injEq,
      forall_eq']
    exact and_comm

theorem isEntityTree_iff {subgroveId : String} {path : List Bytes} :
    isEntityTree subgroveId path = true ↔ ∃ entity, path = entityPath subgroveId entity := by
  unfold isEntityTree entityPath
  split
  case h_1 s id i e => simp
  case h_2 hno =>
    refine ⟨nofun, fun h => ?_⟩
    obtain ⟨entity, rfl⟩ := h
    exact absurd rfl (hno _ _ _ _)

section Establish

variable {deps : Grove.Deps B256} {full : Bytes} {verifyFullProof : GkrProofData → Except String Unit}
  {resp : VerifiableRpcResponse} {subgroveId : String} {key : Bytes}

/-- An answer bound to its state root: it is the one asked for, and its
proof's only chain of layers is an entity tree of the subgrove, where it
proves the answer. -/
structure Bound (deps : Grove.Deps B256) (resp : VerifiableRpcResponse) (subgroveId : String)
    (key : Bytes) : Prop where
  subgrove_eq : resp.subgroveId = subgroveId
  key_eq : resp.key = key
  exists_ : resp.answerExists = true
  proven : ∃ entity v0, Grove.decodeEnvelope deps resp.grovedbProof = .ok v0 ∧
    Grove.OnlyChain v0.rootLayer (entityPath subgroveId entity) ∧
    Grove.verifyItemAtPath deps resp.grovedbProof (entityPath subgroveId entity) key =
      .ok (resp.stateRoot, resp.answer)

/-- GKR proofs that end at a state root, each from where the one before it
does. -/
structure Chained (full : Bytes) (verifyFullProof : GkrProofData → Except String Unit)
    (stateRoot : B256) (proofs : List GkrProofData) : Prop where
  verified : ∀ proof ∈ proofs, full <+: proof.proof ∧ verifyFullProof proof = .ok ()
  linked : proofs.IsChain fun proof next =>
    proof.publicInputs.outputRoot = next.publicInputs.startingStateRoot
  last : ∀ proof ∈ proofs.getLast?, proof.publicInputs.outputRoot = stateRoot

theorem verifyGrovedbProof_bound (h : verifyGrovedbProof deps resp subgroveId key = .ok ()) :
    Bound deps resp subgroveId key := by
  unfold verifyGrovedbProof at h
  simp only [Outcome.refuse_eq_ok, Outcome.bind_eq_ok, Prod.exists, not_or, ne_eq, not_not,
    Bool.not_eq_false] at h
  obtain ⟨-, ⟨hsubgrove, hkey⟩, hexists, path, hpath, htree, root, item, hitem, rfl, rfl, -⟩ := h
  obtain ⟨v0, hv, hchain⟩ := Grove.descendedPath_eq_ok.mp hpath
  obtain ⟨entity, rfl⟩ := isEntityTree_iff.mp htree
  exact ⟨hsubgrove, hkey, hexists, entity, v0, hv, hchain, hitem⟩

theorem verifyGkrProof_eq_ok {proof : GkrProofData} {expected : B256} :
    verifyGkrProof full verifyFullProof proof expected = .ok () ↔
      proof.publicInputs.outputRoot = expected ∧ full <+: proof.proof ∧
        verifyFullProof proof = .ok () := by
  have hprefixed : ¬ (proof.proof.length < full.length ∨ proof.proof.take full.length ≠ full) ↔
      full <+: proof.proof := by
    rw [List.prefix_iff_eq_take]
    refine ⟨fun h => ?_, fun h => ?_⟩
    · exact (not_not.mp (not_or.mp h).2).symm
    · have hlen : (proof.proof.take full.length).length = full.length := by rw [← h]
      rw [List.length_take] at hlen
      exact not_or.mpr ⟨by omega, not_not.mpr h.symm⟩
  unfold verifyGkrProof verifyFull
  rw [Outcome.refuse_eq_ok, Outcome.refuse_eq_ok, not_not, hprefixed, Outcome.mapError_eq_ok]

/-- By the proofs, from the first: each is checked against the next. -/
theorem verifyGkrProofs_chained {stateRoot : B256} {proofs : List GkrProofData}
    (h : verifyGkrProofs full verifyFullProof stateRoot proofs = .ok ()) :
    Chained full verifyFullProof stateRoot proofs := by
  induction proofs with
  | nil => exact ⟨nofun, .nil, nofun⟩
  | cons proof proofs ih =>
    unfold verifyGkrProofs at h
    rw [Outcome.check_bind_eq_ok, verifyGkrProof_eq_ok] at h
    obtain ⟨⟨hout, hfull, hverify⟩, hrest⟩ := h
    have hchained := ih hrest
    have hverified : ∀ p ∈ proof :: proofs, full <+: p.proof ∧ verifyFullProof p = .ok () :=
      List.forall_mem_cons.mpr ⟨⟨hfull, hverify⟩, hchained.verified⟩
    cases proofs with
    | nil =>
      refine ⟨hverified, .singleton _, fun p hp => ?_⟩
      obtain rfl : proof = p := by simpa using hp
      exact hout
    | cons next proofs =>
      refine ⟨hverified, List.isChain_cons_cons.mpr ⟨hout, hchained.linked⟩, fun p hp => ?_⟩
      rw [List.getLast?_cons_cons] at hp
      exact hchained.last p hp

end Establish

end VerifiableRpc
end WillowSdk
