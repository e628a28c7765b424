/-
# Ethereum calls

`EthOperations::get_call` (src/eth_state.rs). An answer carries the call's
result, a state root, a block range, and an account proof for everything the
call touched; each proof names a root, a block and a block hash of its own.

`Strict` walks every proof, each from the root it names. Nothing compares
those roots, blocks and hashes with each other, with the answer's or with the
block asked, as a state read's are (`checkReadIsTheOneAsked`): a call is about
one state exactly when the answer was (`strict_call_iff`).
-/
import WillowSdk.EthReads

namespace WillowSdk
namespace EthState

/-- What of an indexer's answer a call looks at. -/
structure CallResponse extends VerifiableRpcResponse where
  answer : Bytes
  blockRange : ℕ × ℕ
deriving DecidableEq

structure VerifiedCall where
  blockNumber : ℕ
  blockHash : B256
  stateRoot : B256
  result : Bytes
  accessStateReads : List VerifiedStateRead
  mode : StateVerifyMode
deriving DecidableEq

/-- The call an answer carries. -/
def CallResponse.call (raw : CallResponse) (mode : StateVerifyMode) : VerifiedCall :=
  { blockNumber := raw.blockRange.1
    blockHash := (raw.stateProofs.head?.map (·.blockHash)).getD zeroHash
    stateRoot := raw.stateRoot
    result := raw.answer
    accessStateReads := raw.stateProofs.map (·.read mode)
    mode := mode }

section Calls

variable {Tx : Type} (keccak256 : Bytes → B256)
  (verifyProof : B256 → List ℕ → Option Bytes → List Bytes → Except String Unit)
  (showAddress : Address → String)

/-- `get_call`; `fetchCall` is what the indexer answers to a transaction and
a block. -/
def getCall (mode : StateVerifyMode) (fetchCall : Tx → ℕ → Result CallResponse) (tx : Tx)
    (blockNumber : ℕ) : Result VerifiedCall := do
  let raw ← fetchCall tx blockNumber
  if mode = .strict then raw.stateProofs.forM (verifyStateProof keccak256 verifyProof showAddress)
    else .ok ()
  .ok (raw.call mode)

/-- The values of a read are what a proof's walks from `root` end at. -/
def WalkedAgainst (root : B256) (read : VerifiedStateRead) : Prop :=
  ∃ proof : StateProof, proof.stateRoot = root ∧
    verifyStateProof keccak256 verifyProof showAddress proof = .ok () ∧ proof.read .strict = read

/-- A call of the block asked whose reads are all of its own state. -/
structure VerifiedCall.OneState (call : VerifiedCall) (blockNumber : ℕ) : Prop where
  block_eq : call.blockNumber = blockNumber
  walked : ∀ read ∈ call.accessStateReads,
    WalkedAgainst keccak256 verifyProof showAddress call.stateRoot read
  reads_block : ∀ read ∈ call.accessStateReads, read.blockNumber = call.blockNumber
  reads_hash : ∀ read ∈ call.accessStateReads, read.blockHash = call.blockHash

/-- Some proof's walk does not end at the value the proof carries. -/
def CallResponse.Unproven (raw : CallResponse) : Prop :=
  ∃ proof ∈ raw.stateProofs, verifyStateProof keccak256 verifyProof showAddress proof ≠ .ok ()

end Calls

/-- The answer is of the block asked, and so are its proofs, of the answer's
root and of one block hash. -/
structure CallResponse.OfOneState (raw : CallResponse) (blockNumber : ℕ) : Prop where
  block_eq : raw.blockRange.1 = blockNumber
  proofs_root : ∀ proof ∈ raw.stateProofs, proof.stateRoot = raw.stateRoot
  proofs_block : ∀ proof ∈ raw.stateProofs, proof.blockNumber = blockNumber
  proofs_hash : ∀ proof ∈ raw.stateProofs, ∀ other ∈ raw.stateProofs,
    proof.blockHash = other.blockHash

section Accepts

variable {Tx : Type} {keccak256 : Bytes → B256}
  {verifyProof : B256 → List ℕ → Option Bytes → List Bytes → Except String Unit}
  {showAddress : Address → String}

theorem getCall_eq_ok {fetchCall : Tx → ℕ → Result CallResponse} {tx : Tx} {blockNumber : ℕ}
    {call : VerifiedCall} :
    getCall keccak256 verifyProof showAddress .strict fetchCall tx blockNumber = .ok call ↔
      ∃ raw, fetchCall tx blockNumber = .ok raw ∧
        ¬ raw.Unproven keccak256 verifyProof showAddress ∧ raw.call .strict = call := by
  have hproven : ∀ raw : CallResponse, ¬ raw.Unproven keccak256 verifyProof showAddress ↔
      ∀ proof ∈ raw.stateProofs,
        verifyStateProof keccak256 verifyProof showAddress proof = .ok () := by
    intro raw
    simp only [CallResponse.Unproven, not_exists, not_and, not_not]
  unfold getCall
  rw [Outcome.bind_eq_ok]
  refine exists_congr fun raw => and_congr_right fun _ => ?_
  simp only [if_true, Outcome.check_bind_eq_ok, Outcome.forM_eq_ok, hproven, Except.ok.injEq]

/-- The first proof's hash is the call's. -/
theorem CallResponse.call_blockHash {raw : CallResponse} {mode : StateVerifyMode} {first : StateProof}
    {rest : List StateProof} (h : raw.stateProofs = first :: rest) :
    (raw.call mode).blockHash = first.blockHash := by
  unfold CallResponse.call
  rw [h]
  rfl

theorem CallResponse.call_oneState {raw : CallResponse} {blockNumber : ℕ}
    (hproven : ¬ raw.Unproven keccak256 verifyProof showAddress) :
    (raw.call .strict).OneState keccak256 verifyProof showAddress blockNumber ↔
      raw.OfOneState blockNumber := by
  have hreads : ∀ {P : VerifiedStateRead → Prop}, (∀ read ∈ (raw.call .strict).accessStateReads, P read) ↔
      ∀ proof ∈ raw.stateProofs, P (proof.read .strict) := List.forall_mem_map
  refine ⟨fun h => ?_, fun h => ?_⟩
  · refine ⟨h.block_eq, fun proof hp => ?_, fun proof hp => ?_, fun proof hp other ho => ?_⟩
    · obtain ⟨walked, hroot, -, hread⟩ := hreads.mp h.walked proof hp
      have hsame : walked.stateRoot = proof.stateRoot := congrArg VerifiedStateRead.stateRoot hread
      rw [← hsame, hroot]
      rfl
    · have hblock := hreads.mp h.reads_block proof hp
      exact hblock.trans h.block_eq
    · have hhash := hreads.mp h.reads_hash proof hp
      have hother := hreads.mp h.reads_hash other ho
      exact hhash.trans hother.symm
  · refine ⟨h.block_eq, hreads.mpr fun proof hp => ?_, hreads.mpr fun proof hp => ?_,
      hreads.mpr fun proof hp => ?_⟩
    · have hwalk : verifyStateProof keccak256 verifyProof showAddress proof = .ok () := by
        by_contra hno
        exact hproven ⟨proof, hp, hno⟩
      exact ⟨proof, h.proofs_root proof hp, hwalk, rfl⟩
    · exact (h.proofs_block proof hp).trans h.block_eq.symm
    · cases hproofs : raw.stateProofs with
      | nil =>
        rw [hproofs] at hp
        cases hp
      | cons first rest =>
        have hfirst : first ∈ raw.stateProofs := by
          rw [hproofs]
          exact List.mem_cons_self
        rw [CallResponse.call_blockHash hproofs]
        exact h.proofs_hash proof hp first hfirst

end Accepts

/-- **When a strict call is about one state.** Exactly when the answer names
one: the block asked, its own root in every proof, and one block hash. -/
theorem strict_call_iff {Tx : Type} (keccak256 : Bytes → B256)
    (verifyProof : B256 → List ℕ → Option Bytes → List Bytes → Except String Unit)
    (showAddress : Address → String) (fetchCall : Tx → ℕ → Result CallResponse) (tx : Tx)
    (blockNumber : ℕ) :
    (∀ call, getCall keccak256 verifyProof showAddress .strict fetchCall tx blockNumber = .ok call →
        call.OneState keccak256 verifyProof showAddress blockNumber) ↔
      ∀ raw, fetchCall tx blockNumber = .ok raw →
        raw.Unproven keccak256 verifyProof showAddress ∨ raw.OfOneState blockNumber := by
  refine ⟨fun h raw hraw => ?_, fun h call hcall => ?_⟩
  · by_cases hproven : raw.Unproven keccak256 verifyProof showAddress
    · exact .inl hproven
    · have hcall := h _ (getCall_eq_ok.mpr ⟨raw, hraw, hproven, rfl⟩)
      exact .inr ((CallResponse.call_oneState hproven).mp hcall)
  · obtain ⟨raw, hraw, hproven, rfl⟩ := getCall_eq_ok.mp hcall
    have hone := (h raw hraw).resolve_left hproven
    exact (CallResponse.call_oneState hproven).mpr hone

namespace Sample

/-- An answer for block 9, at no state's root, whose proofs are of block 7
and of block 8. -/
def mixedAnswer : CallResponse :=
  { stateRoot := zeroHash
    stateProofs := [answer, { answer with blockNumber := 8, blockHash := emptyCode }]
    answer := [1]
    blockRange := (9, 9) }

end Sample

/-- A strict call at block 9 is accepted with reads of two other blocks, none
of them walked from the root it reports. -/
theorem strict_call_mixes_states :
    ∃ call, getCall Sample.keccak256 Sample.verifyProof Sample.showAddress .strict
        (fun (_ : Unit) _ => .ok Sample.mixedAnswer) () 9 = .ok call ∧
      ¬ call.OneState Sample.keccak256 Sample.verifyProof Sample.showAddress 9 := by
  have hwalk : verifyStateProof Sample.keccak256 Sample.verifyProof Sample.showAddress
      Sample.answer = .ok () :=
    (verifyStateProof_of_answers Sample.verifyProof_contract Sample.answers).mpr
      ⟨Sample.account, rfl, by decide⟩
  have hproven : ¬ Sample.mixedAnswer.Unproven Sample.keccak256 Sample.verifyProof
      Sample.showAddress := by
    intro h
    obtain ⟨proof, hp, hno⟩ := h
    rcases List.mem_pair.mp hp with rfl | rfl
    · exact hno hwalk
    · exact hno hwalk
  refine ⟨_, getCall_eq_ok.mpr ⟨_, rfl, hproven, rfl⟩, fun h => ?_⟩
  have hblock : Sample.answer.blockNumber = 9 := h.reads_block _ List.mem_cons_self
  exact absurd hblock (by decide)

end EthState
end WillowSdk
