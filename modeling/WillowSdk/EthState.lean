/-
# Ethereum state reads

`EthOperations::get_state` and its proof walk (src/eth_state.rs). An answer
carries an account's fields, a value for each slot asked and a trie proof for
each; `Strict` walks every proof to the value the answer carries, the account
from the answer's own state root and the slots from the account's storage
root.

The state trie's hash is a parameter, and so is the walk itself, which
accepts a value or its absence. `verifyOne` only ever asks for a value.
-/
import WillowSdk.Errors
import WillowSdk.Lib.Hex
import WillowSdk.Lib.Outcome
import WillowSdk.Lib.Rlp

namespace WillowSdk
namespace EthState

/-- 32 bytes: a hash, a slot, a word of storage. -/
abbrev B256 := { bytes : Bytes // bytes.length = 32 }

/-- `[0u8; 32]` -/
def zeroHash : B256 := ⟨List.replicate 32 0, List.length_replicate⟩

abbrev Address := { bytes : Bytes // bytes.length = 20 }

abbrev U64 := { n : ℕ // n < 2 ^ 64 }

abbrev U256 := { n : ℕ // n < 2 ^ 256 }

theorem u256_eq : 256 ^ 32 = 2 ^ 256 := by
  decide

theorem value_lt_u256 (word : B256) : BigEndian.value word.val < 2 ^ 256 := by
  have h := BigEndian.value_lt word.val
  rwa [word.property, u256_eq] at h

/-- `U256::from_be_bytes`. -/
def fromBeBytes (word : B256) : U256 := ⟨BigEndian.value word.val, value_lt_u256 word⟩

def toBeBytes (n : U256) : B256 := ⟨BigEndian.bytes 32 n.val, BigEndian.length_bytes 32 n.val⟩

theorem val_fromBeBytes (word : B256) : (fromBeBytes word).val = BigEndian.value word.val := rfl

theorem val_toBeBytes (n : U256) : (toBeBytes n).val = BigEndian.bytes 32 n.val := rfl

@[simp] theorem fromBeBytes_toBeBytes (n : U256) : fromBeBytes (toBeBytes n) = n := by
  apply Subtype.ext
  rw [val_fromBeBytes, val_toBeBytes]
  exact BigEndian.value_bytes (n.property.trans_eq u256_eq.symm)

/-- How much of an answer is checked. -/
inductive StateVerifyMode
  | strict
  | anchorOnly
  | disabled
deriving DecidableEq, Repr

structure MptProof where
  proofNodes : List Bytes
deriving DecidableEq

structure AccountState where
  nonce : U64
  balance : B256
  storageHash : B256
  codeHash : B256
deriving DecidableEq

structure StorageSlotProof where
  slot : B256
  value : B256
  proof : MptProof
deriving DecidableEq

structure StateProof where
  address : Address
  blockNumber : ℕ
  blockHash : B256
  stateRoot : B256
  accountProof : MptProof
  accountState : AccountState
  storageProofs : List StorageSlotProof
deriving DecidableEq

/-- What of an indexer's answer a state read looks at. -/
structure VerifiableRpcResponse where
  stateRoot : B256
  stateProofs : List StateProof
deriving DecidableEq

structure VerifiedStateRead where
  address : Address
  blockNumber : ℕ
  blockHash : B256
  stateRoot : B256
  nonce : U64
  balance : U256
  storageHash : B256
  codeHash : B256
  storage : List (B256 × U256)
  mode : StateVerifyMode
deriving DecidableEq

/-- `Nibbles::unpack`. -/
def unpack (bytes : Bytes) : List ℕ := bytes.flatMap fun b => [b.toNat / 16, b.toNat % 16]

/-- The account's leaf in the state trie. -/
def rlpAccount (state : AccountState) : Bytes :=
  Rlp.list [Rlp.number state.nonce.val, Rlp.number (fromBeBytes state.balance).val,
    Rlp.word state.storageHash.val, Rlp.word state.codeHash.val]

section Walks

-- Keccak-256, alloy_trie's walk (a state root, a path, the value or none at
-- it, and the proof's nodes), and an address's checksummed text
variable (keccak256 : Bytes → B256)
  (verifyProof : B256 → List ℕ → Option Bytes → List Bytes → Except String Unit)
  (showAddress : Address → String)

def verifyOne (proof : MptProof) (root keyHash : B256) (expectedValue : Bytes) :
    Except String Unit :=
  verifyProof root (unpack keyHash.val) (some expectedValue) proof.proofNodes

def verifyStorage (sp : StorageSlotProof) (storageHash : B256) : Result Unit :=
  (verifyOne verifyProof sp.proof storageHash (keccak256 sp.slot.val)
    (Rlp.number (fromBeBytes sp.value).val)).mapError fun e =>
      .proofVerificationFailed s!"storage proof for slot 0x{Hex.text sp.slot.val}: {e}"

/-- The account's walk, then each slot's from the storage root it shows. -/
def verifyStateProof (proof : StateProof) : Result Unit := do
  (verifyOne verifyProof proof.accountProof proof.stateRoot (keccak256 proof.address.val)
    (rlpAccount proof.accountState)).mapError fun e =>
      .proofVerificationFailed s!"account proof for {showAddress proof.address}: {e}"
  proof.storageProofs.forM fun sp =>
    verifyStorage keccak256 verifyProof sp proof.accountState.storageHash

/-- The proof is of the account, the slots in order and the block asked, at
the answer's state root. -/
def checkReadIsTheOneAsked (proof : StateProof) (resp : VerifiableRpcResponse) (address : Address)
    (slots : List B256) (blockNumber : ℕ) : Result Unit :=
  if resp.stateProofs.length ≠ 1 then
    .error (.proofVerificationFailed "a state read answered with other than one account proof")
  else if proof.address ≠ address then
    .error (.proofVerificationFailed "the proof is of another account than the one asked")
  else if proof.blockNumber ≠ blockNumber then
    .error (.proofVerificationFailed "the proof is of another block than the one asked")
  else if proof.stateRoot ≠ resp.stateRoot then
    .error (.proofVerificationFailed "the proof's state root differs from the response's")
  else if proof.storageProofs.map (·.slot) ≠ slots then
    .error (.proofVerificationFailed
      "the storage proofs are not of exactly the slots asked, in order")
  else .ok ()

/-- The values a proof carries. -/
def StateProof.read (proof : StateProof) (mode : StateVerifyMode) : VerifiedStateRead :=
  { address := proof.address
    blockNumber := proof.blockNumber
    blockHash := proof.blockHash
    stateRoot := proof.stateRoot
    nonce := proof.accountState.nonce
    balance := fromBeBytes proof.accountState.balance
    storageHash := proof.accountState.storageHash
    codeHash := proof.accountState.codeHash
    storage := proof.storageProofs.map fun sp => (sp.slot, fromBeBytes sp.value)
    mode := mode }

/-- `get_state`, on what the indexer answered. -/
def getState (mode : StateVerifyMode) (address : Address) (slots : List B256) (blockNumber : ℕ)
    (fetched : Result VerifiableRpcResponse) : Result VerifiedStateRead := do
  let raw ← fetched
  let proof ← Outcome.okOr raw.stateProofs.head?
    (.proofVerificationFailed "response carried no state proof")
  if mode ≠ .disabled then checkReadIsTheOneAsked proof raw address slots blockNumber else .ok ()
  if mode = .strict then verifyStateProof keccak256 verifyProof showAddress proof else .ok ()
  .ok (proof.read mode)

end Walks

/-! ### What a read accepts -/

section Accepts

variable {keccak256 : Bytes → B256}
  {verifyProof : B256 → List ℕ → Option Bytes → List Bytes → Except String Unit}
  {showAddress : Address → String}

theorem rlpAccount_inj {a b : AccountState} (h : rlpAccount a = rlpAccount b) :
    a.nonce = b.nonce ∧ fromBeBytes a.balance = fromBeBytes b.balance ∧
      a.storageHash = b.storageHash ∧ a.codeHash = b.codeHash := by
  have hpayload := Rlp.list_inj h
  simp only [List.flatten_cons, List.flatten_nil, List.append_nil] at hpayload
  have hnonce : ∀ n : U64, n.val < 256 ^ 32 := fun n => n.property.trans (by decide)
  have hbalance : ∀ n : U256, n.val < 256 ^ 32 := fun n =>
    n.property.trans_eq u256_eq.symm
  obtain ⟨hn, hrest⟩ := Rlp.number_append_inj (hnonce _) (hnonce _) hpayload
  obtain ⟨hb, hrest⟩ := Rlp.number_append_inj (hbalance _) (hbalance _) hrest
  simp only [Rlp.word, a.storageHash.property, b.storageHash.property, List.cons_append,
    List.cons.injEq, true_and] at hrest
  obtain ⟨hs, hrest⟩ := List.append_inj hrest
    (a.storageHash.property.trans b.storageHash.property.symm)
  simp only [a.codeHash.property, b.codeHash.property, List.cons.injEq, true_and] at hrest
  exact ⟨Subtype.ext hn, Subtype.ext hb, Subtype.ext hs, Subtype.ext hrest⟩

theorem verifyStorage_eq_ok {sp : StorageSlotProof} {storageHash : B256} :
    verifyStorage keccak256 verifyProof sp storageHash = .ok () ↔
      verifyProof storageHash (unpack (keccak256 sp.slot.val).val)
        (some (Rlp.number (fromBeBytes sp.value).val)) sp.proof.proofNodes = .ok () := by
  rw [verifyStorage, Outcome.mapError_eq_ok, verifyOne]

theorem verifyStateProof_eq_ok {proof : StateProof} :
    verifyStateProof keccak256 verifyProof showAddress proof = .ok () ↔
      verifyProof proof.stateRoot (unpack (keccak256 proof.address.val).val)
        (some (rlpAccount proof.accountState)) proof.accountProof.proofNodes = .ok () ∧
      ∀ sp ∈ proof.storageProofs,
        verifyProof proof.accountState.storageHash (unpack (keccak256 sp.slot.val).val)
          (some (Rlp.number (fromBeBytes sp.value).val)) sp.proof.proofNodes = .ok () := by
  simp only [verifyStateProof, Outcome.check_bind_eq_ok, Outcome.mapError_eq_ok, verifyOne,
    Outcome.forM_eq_ok, verifyStorage_eq_ok]

theorem checkReadIsTheOneAsked_eq_ok {proof : StateProof} {resp : VerifiableRpcResponse}
    {address : Address} {slots : List B256} {blockNumber : ℕ} :
    checkReadIsTheOneAsked proof resp address slots blockNumber = .ok () ↔
      resp.stateProofs.length = 1 ∧ proof.address = address ∧ proof.blockNumber = blockNumber ∧
        proof.stateRoot = resp.stateRoot ∧ proof.storageProofs.map (·.slot) = slots := by
  simp only [checkReadIsTheOneAsked, Outcome.refuse_eq_ok, ne_eq, not_not, and_true]

/-- A strict read gives what a lone proof carries, when it is the one asked
and every walk of it ends at the value carried. -/
theorem getState_eq_ok {address : Address} {slots : List B256} {blockNumber : ℕ}
    {raw : VerifiableRpcResponse} {read : VerifiedStateRead} :
    getState keccak256 verifyProof showAddress .strict address slots blockNumber (.ok raw) =
        .ok read ↔
      ∃ proof, raw.stateProofs = [proof] ∧ proof.address = address ∧
        proof.blockNumber = blockNumber ∧ proof.stateRoot = raw.stateRoot ∧
        proof.storageProofs.map (·.slot) = slots ∧
        verifyStateProof keccak256 verifyProof showAddress proof = .ok () ∧
        read = proof.read .strict := by
  have hmode : StateVerifyMode.strict ≠ .disabled := by decide
  simp only [getState, Outcome.bind_eq_ok, Outcome.okOr_eq_ok, if_pos hmode, if_true,
    Except.ok.injEq, exists_eq_left']
  refine ⟨fun h => ?_, fun h => ?_⟩
  · obtain ⟨proof, hhead, ⟨⟩, hcheck, ⟨⟩, hverify, rfl⟩ := h
    obtain ⟨hlen, ha, hb, hr, hs⟩ := checkReadIsTheOneAsked_eq_ok.mp hcheck
    obtain ⟨only, honly⟩ := List.length_eq_one_iff.mp hlen
    rw [honly, List.head?_cons, Option.some.injEq] at hhead
    rw [hhead] at honly
    exact ⟨proof, honly, ha, hb, hr, hs, hverify, rfl⟩
  · obtain ⟨proof, hproofs, ha, hb, hr, hs, hverify, rfl⟩ := h
    have hlen : raw.stateProofs.length = 1 := by rw [hproofs, List.length_singleton]
    have hhead : raw.stateProofs.head? = some proof := by rw [hproofs, List.head?_cons]
    have hcheck : checkReadIsTheOneAsked proof raw address slots blockNumber = .ok () :=
      checkReadIsTheOneAsked_eq_ok.mpr ⟨hlen, ha, hb, hr, hs⟩
    exact ⟨proof, hhead, (), hcheck, (), hverify, rfl⟩

end Accepts

end EthState
end WillowSdk
