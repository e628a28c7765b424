/-
# Token reads

`EthOperations`'s reads of well-known contracts (src/eth_state.rs): balances,
total supply and allowances of an ERC-20, owners of an ERC-721, the reserves
of a Uniswap V2 pair. Each is one slot of the contract's storage, which the
function computes and `get_state` reads.

In Solidity's layout a variable is at a small word, and an entry of a mapping
at the Keccak-256 of its key and the mapping's slot; `Slots.Layout` with
`keccakLayout`. A strict read gives what the contract's variable holds in the
state (`token_reads_are_exact`), and its entries don't overwrite each other
unless Keccak-256 clashes on the inputs of those very slots
(`token_entries_keep`).
-/
import WillowSdk.EthReads
import WillowSdk.Lib.Slots

namespace WillowSdk
namespace TokenReads

open EthState
open Slots (Location Layout)

/-! ### The slots -/

/-- A small number, left-padded to 32 bytes. -/
def slotWord (n : UInt8) : B256 := ⟨List.replicate 31 0 ++ [n], rfl⟩

/-- An address, left-padded to 32 bytes. -/
def paddedAddress (addr : Address) : B256 :=
  ⟨List.replicate 12 0 ++ addr.val, by simp [addr.property]⟩

/-- The low 20 bytes of a word. -/
def lowAddress (value : U256) : Address :=
  ⟨(toBeBytes value).val.drop 12, by rw [List.length_drop, (toBeBytes value).property]⟩

theorem val_lowAddress (value : U256) :
    (lowAddress value).val = (toBeBytes value).val.drop 12 := by
  rw [lowAddress]

/-- A timestamp of 4 bytes and two reserves of 14, packed big-endian. -/
def unpackReserves (value : U256) : ℕ × ℕ × ℕ :=
  let bytes := (toBeBytes value).val
  let blockTimestampLast := BigEndian.value (bytes.take 4)
  let reserve1 := BigEndian.value ((bytes.drop 4).take 14)
  let reserve0 := BigEndian.value (bytes.drop 18)
  (reserve0, reserve1, blockTimestampLast)

section Reads

-- Keccak-256, alloy_trie's walk, an address's checksummed text, the reads'
-- mode, and what the indexer answers to a state read
variable (keccak256 : Bytes → B256)
  (verifyProof : B256 → List ℕ → Option Bytes → List Bytes → Except String Unit)
  (showAddress : Address → String) (mode : StateVerifyMode)
  (fetchState : Address → List B256 → ℕ → Result VerifiableRpcResponse)

/-- Storage slot of `mapping(address => _)` at base slot `slotIndex`. -/
def mappingSlotForAddress (addr : Address) (slotIndex : UInt8) : B256 :=
  keccak256 ((paddedAddress addr).val ++ (slotWord slotIndex).val)

/-- The value of one slot, as the read named gives it. -/
def readSlot (name : String) (contract : Address) (slot : B256) (blockNumber : ℕ) :
    Result U256 := do
  let state ← getState keccak256 verifyProof showAddress mode contract [slot] blockNumber
    (fetchState contract [slot] blockNumber)
  let (_, value) ← Outcome.okOr state.storage.head?
    (.proofVerificationFailed s!"{name}: empty storage_proofs")
  .ok value

def erc20Balance (token holder : Address) (balanceSlot : UInt8) (blockNumber : ℕ) : Result U256 :=
  readSlot keccak256 verifyProof showAddress mode fetchState "erc20_balance" token
    (mappingSlotForAddress keccak256 holder balanceSlot) blockNumber

def erc20TotalSupply (token : Address) (totalSupplySlot : UInt8) (blockNumber : ℕ) : Result U256 :=
  readSlot keccak256 verifyProof showAddress mode fetchState "erc20_total_supply" token
    (slotWord totalSupplySlot) blockNumber

/-- A nested mapping: first the holder, then the spender. -/
def erc20Allowance (token holder spender : Address) (allowanceSlot : UInt8) (blockNumber : ℕ) :
    Result U256 :=
  let innerSlot := mappingSlotForAddress keccak256 holder allowanceSlot
  readSlot keccak256 verifyProof showAddress mode fetchState "erc20_allowance" token
    (keccak256 ((paddedAddress spender).val ++ innerSlot.val)) blockNumber

def erc721Owner (contract : Address) (tokenId : U256) (ownersSlot : UInt8) (blockNumber : ℕ) :
    Result Address := do
  let slot := keccak256 ((toBeBytes tokenId).val ++ (slotWord ownersSlot).val)
  let value ← readSlot keccak256 verifyProof showAddress mode fetchState "erc721_owner" contract slot
    blockNumber
  .ok (lowAddress value)

/-- The reserves and the timestamp, packed in slot 8. -/
def uniV2Reserves (pair : Address) (blockNumber : ℕ) : Result (ℕ × ℕ × ℕ) := do
  let value ← readSlot keccak256 verifyProof showAddress mode fetchState "uni_v2_reserves" pair
    (slotWord 8) blockNumber
  .ok (unpackReserves value)

end Reads

/-! ### The variables they are of -/

/-- Solidity's layout of plain variables and of mappings to words. -/
def keccakLayout (keccak256 : Bytes → B256) : Layout UInt8 B256 B256 :=
  ⟨slotWord, fun base key => keccak256 (key.val ++ base.val)⟩

theorem slotWord_injective : Function.Injective slotWord := by
  intro m n h
  have hbytes := congrArg Subtype.val h
  simpa [slotWord] using hbytes

def balanceOf (balanceSlot : UInt8) (holder : Address) : Location UInt8 B256 :=
  .entry (.fixed balanceSlot) (paddedAddress holder)

def allowanceOf (allowanceSlot : UInt8) (holder spender : Address) : Location UInt8 B256 :=
  .entry (.entry (.fixed allowanceSlot) (paddedAddress holder)) (paddedAddress spender)

def ownerOf (ownersSlot : UInt8) (tokenId : U256) : Location UInt8 B256 :=
  .entry (.fixed ownersSlot) (toBeBytes tokenId)

/-- The word an address is stored as. -/
def addressWord (addr : Address) : U256 := fromBeBytes (paddedAddress addr)

/-- The reserves and the timestamp as one word. -/
def packedReserves (reserve0 reserve1 blockTimestampLast : ℕ) : ℕ :=
  reserve0 + 2 ^ 112 * reserve1 + 2 ^ 224 * blockTimestampLast

theorem value_replicate_zero (k : ℕ) (xs : Bytes) :
    BigEndian.value (List.replicate k 0 ++ xs) = BigEndian.value xs := by
  unfold BigEndian.value
  induction k with
  | zero => rfl
  | succ k ih => simpa [List.replicate_succ] using ih

theorem lowAddress_addressWord (addr : Address) : lowAddress (addressWord addr) = addr := by
  apply Subtype.ext
  have hsplit : BigEndian.bytes 32 (BigEndian.value addr.val) =
      BigEndian.bytes 12 (BigEndian.value addr.val / 256 ^ 20) ++ addr.val := by
    have hlow := BigEndian.bytes_value addr.val
    rw [addr.property] at hlow
    rw [BigEndian.bytes_add 12 20, hlow]
  rw [val_lowAddress, val_toBeBytes, addressWord, val_fromBeBytes, paddedAddress,
    value_replicate_zero, hsplit]
  exact List.drop_left' (BigEndian.length_bytes 12 _)

theorem addressWord_eq_zero {addr : Address} :
    (addressWord addr).val = 0 ↔ addr.val = List.replicate 20 0 := by
  refine ⟨fun h => ?_, fun h => ?_⟩
  · have hbytes := BigEndian.bytes_value addr.val
    rw [addressWord, val_fromBeBytes, paddedAddress, value_replicate_zero] at h
    rw [h, addr.property] at hbytes
    rw [← hbytes]
    decide
  · rw [addressWord, val_fromBeBytes, paddedAddress, value_replicate_zero, h]
    decide

/-- What is packed is unpacked. -/
theorem unpack_packedReserves {reserve0 reserve1 blockTimestampLast : ℕ} {word : U256}
    (h0 : reserve0 < 2 ^ 112) (h1 : reserve1 < 2 ^ 112) (ht : blockTimestampLast < 2 ^ 32)
    (hword : word.val = packedReserves reserve0 reserve1 blockTimestampLast) :
    unpackReserves word = (reserve0, reserve1, blockTimestampLast) := by
  have hsplit : (toBeBytes word).val = BigEndian.bytes 4 (word.val / 256 ^ 28) ++
      (BigEndian.bytes 14 (word.val / 256 ^ 14) ++ BigEndian.bytes 14 word.val) := by
    rw [val_toBeBytes, BigEndian.bytes_add 4 28, BigEndian.bytes_add 14 14]
  have hlow : (toBeBytes word).val.drop 18 = BigEndian.bytes 14 word.val := by
    rw [hsplit, ← List.append_assoc]
    exact List.drop_left' (by simp)
  have hrest : (toBeBytes word).val.drop 4 =
      BigEndian.bytes 14 (word.val / 256 ^ 14) ++ BigEndian.bytes 14 word.val := by
    rw [hsplit]
    exact List.drop_left' (by simp)
  have hhigh : (toBeBytes word).val.take 4 = BigEndian.bytes 4 (word.val / 256 ^ 28) := by
    rw [hsplit]
    exact List.take_left' (by simp)
  have hmiddle : (BigEndian.bytes 14 (word.val / 256 ^ 14) ++ BigEndian.bytes 14 word.val).take 14 =
      BigEndian.bytes 14 (word.val / 256 ^ 14) := List.take_left' (by simp)
  have h0' : BigEndian.value (BigEndian.bytes 14 word.val) = reserve0 := by
    rw [BigEndian.value_bytes_mod, hword, packedReserves]
    omega
  have h1' : BigEndian.value (BigEndian.bytes 14 (word.val / 256 ^ 14)) = reserve1 := by
    rw [BigEndian.value_bytes_mod, hword, packedReserves]
    omega
  have ht' : BigEndian.value (BigEndian.bytes 4 (word.val / 256 ^ 28)) = blockTimestampLast := by
    rw [BigEndian.value_bytes_mod, hword, packedReserves]
    omega
  rw [unpackReserves, hlow, hrest, hmiddle, hhigh, h0', h1', ht']

/-! ### What a read gives -/

section Servers

variable {Trie : Type} {tries : Tries Trie} {keccak256 : Bytes → B256}

/-- Whatever is answered is at the state's root. -/
def AtRoot (state : State tries keccak256)
    (fetchState : Address → List B256 → ℕ → Result VerifiableRpcResponse) : Prop :=
  ∀ address slots blockNumber raw, fetchState address slots blockNumber = .ok raw →
    raw.stateRoot = tries.root state.trie

/-- Every read is answered from the state, with its proofs. -/
def Honest (state : State tries keccak256)
    (fetchState : Address → List B256 → ℕ → Result VerifiableRpcResponse) : Prop :=
  ∀ address slots blockNumber, ∃ proof, state.Answers address slots blockNumber proof ∧
    fetchState address slots blockNumber = .ok ⟨tries.root state.trie, [proof]⟩

/-- A read gives nothing but the value, and only if it is one that strict
reads accept; from an honest indexer it gives it. -/
def Exact (state : State tries keccak256)
    (fetchState : Address → List B256 → ℕ → Result VerifiableRpcResponse) {α : Type}
    (read : Result α) (value : α) (readable : Prop) : Prop :=
  (AtRoot state fetchState → ∀ v, read = .ok v → v = value ∧ readable) ∧
    (Honest state fetchState → readable → read = .ok value)

variable {verifyProof : B256 → List ℕ → Option Bytes → List Bytes → Except String Unit}
  {showAddress : Address → String} {state : State tries keccak256} {contract : Address}
  {fetchState : Address → List B256 → ℕ → Result VerifiableRpcResponse}
  {blockNumber : ℕ}

theorem allPresent_singleton {slot : B256} :
    state.AllPresent contract [slot] ↔ ((state.accountAt contract).storage slot).val ≠ 0 := by
  refine ⟨fun h => ?_, fun h => ?_⟩
  · obtain ⟨account, haccount, hslots⟩ := h
    rw [accountAt_of_some haccount]
    exact hslots slot (List.mem_singleton_self slot)
  · cases haccount : state.account contract with
    | none =>
      -- every slot of an account the state doesn't have is zero
      rw [State.accountAt, haccount] at h
      exact absurd rfl h
    | some account =>
      rw [accountAt_of_some haccount] at h
      refine ⟨account, haccount, fun s hs => ?_⟩
      rw [List.mem_singleton.mp hs]
      exact h

/-- What a strict read accepts at the state's root has no zero slot. -/
theorem allPresent_of_getState (hverify : VerifyProofContract tries verifyProof)
    {slots : List B256} {raw : VerifiableRpcResponse} {read : VerifiedStateRead}
    (hroot : raw.stateRoot = tries.root state.trie)
    (h : getState keccak256 verifyProof showAddress .strict contract slots blockNumber (.ok raw) =
      .ok read) :
    state.AllPresent contract slots := by
  obtain ⟨proof, -, rfl, -, hproot, rfl, hwalks, -⟩ := getState_eq_ok.mp h
  obtain ⟨account, haccount, -, -, hslots⟩ :=
    (verifyStateProof_iff hverify (hproot.trans hroot)).mp hwalks
  refine ⟨account, haccount, fun slot hslot => ?_⟩
  obtain ⟨sp, hsp, rfl⟩ := List.mem_map.mp hslot
  have hwalk := (verifyStorage_iff hverify account sp).mp (hslots sp hsp)
  exact hwalk.2.1

/-- A slot's read is exact, and readable unless the slot is zero. -/
theorem readSlot_exact (hverify : VerifyProofContract tries verifyProof) (name : String)
    (slot : B256) :
    Exact state fetchState
      (readSlot keccak256 verifyProof showAddress .strict fetchState name contract slot blockNumber)
      ((state.accountAt contract).storage slot)
      (((state.accountAt contract).storage slot).val ≠ 0) := by
  refine ⟨fun hroot v h => ?_, fun hhonest hpresent => ?_⟩
  · simp only [readSlot, Outcome.bind_eq_ok, Outcome.okOr_eq_ok, Except.ok.injEq] at h
    obtain ⟨read, hread, ⟨_, _⟩, hhead, rfl⟩ := h
    have hraw : ∃ raw, fetchState contract [slot] blockNumber = .ok raw := by
      obtain ⟨raw, hraw, -⟩ := Outcome.bind_eq_ok.mp hread
      exact ⟨raw, hraw⟩
    obtain ⟨raw, hraw⟩ := hraw
    rw [hraw] at hread
    have hstate := getState_sound hverify (hroot _ _ _ _ hraw) hread
    have hpresent := allPresent_of_getState hverify (hroot _ _ _ _ hraw) hread
    rw [hstate, State.read, List.map_singleton, List.head?_cons, Option.some.injEq] at hhead
    exact ⟨(congrArg Prod.snd hhead).symm, allPresent_singleton.mp hpresent⟩
  · obtain ⟨proof, hanswers, hraw⟩ := hhonest contract [slot] blockNumber
    have hwalks : verifyStateProof keccak256 verifyProof showAddress proof = .ok () :=
      (verifyStateProof_of_answers hverify hanswers).mpr (allPresent_singleton.mpr hpresent)
    have hread : getState keccak256 verifyProof showAddress .strict contract [slot] blockNumber
        (.ok ⟨tries.root state.trie, [proof]⟩) = .ok (proof.read .strict) :=
      getState_eq_ok.mpr ⟨proof, rfl, hanswers.address_eq, hanswers.block_eq, hanswers.root_eq,
        hanswers.slots_eq, hwalks, rfl⟩
    have hstate := getState_sound hverify rfl hread
    rw [hstate] at hread
    rw [readSlot, hraw, hread]
    rfl

/-- What an exact read's value is made into. -/
theorem Exact.map {α β : Type} {read : Result α} {value : α} {readable readable' : Prop}
    (h : Exact state fetchState read value readable) {f : α → β} {b : β} (hf : f value = b)
    (hreadable : readable' ↔ readable) :
    Exact state fetchState (read >>= fun v => .ok (f v)) b readable' := by
  refine ⟨fun hroot w hw => ?_, fun hhonest hpresent => ?_⟩
  · obtain ⟨v, hv, hfv⟩ := Outcome.bind_eq_ok.mp hw
    obtain ⟨rfl, hpresent⟩ := h.1 hroot v hv
    have hwb : w = b := (Except.ok.inj hfv).symm.trans hf
    exact ⟨hwb, hreadable.mpr hpresent⟩
  · have hread := h.2 hhonest (hreadable.mp hpresent)
    rw [hread, ← hf]
    rfl

/-- A read of a variable that the contract's storage holds. -/
theorem readSlot_of_holds (hverify : VerifyProofContract tries verifyProof) (name : String)
    {S : Set (Location UInt8 B256)} {contents : Location UInt8 B256 → U256}
    (hholds : (keccakLayout keccak256).Holds S (state.accountAt contract).storage contents)
    {l : Location UInt8 B256} (hl : l ∈ S) :
    Exact state fetchState
      (readSlot keccak256 verifyProof showAddress .strict fetchState name contract
        ((keccakLayout keccak256).slot l) blockNumber)
      (contents l) ((contents l).val ≠ 0) := by
  rw [← hholds l hl]
  exact readSlot_exact hverify name _

variable {S : Set (Location UInt8 B256)} {contents : Location UInt8 B256 → U256}

/-- **Token reads are exact.** Whatever an indexer answers at the state's root,
a strict read of a contract's variable gives what the variable holds there,
and never of one that holds zero; an honest indexer's answer gives it. -/
theorem token_reads_are_exact (hverify : VerifyProofContract tries verifyProof)
    (showAddress : Address → String) (state : State tries keccak256) (contract : Address)
    (fetchState : Address → List B256 → ℕ → Result VerifiableRpcResponse) (blockNumber : ℕ)
    (hholds : (keccakLayout keccak256).Holds S (state.accountAt contract).storage contents) :
    (∀ balanceSlot holder, balanceOf balanceSlot holder ∈ S →
      Exact state fetchState
        (erc20Balance keccak256 verifyProof showAddress .strict fetchState contract holder
          balanceSlot blockNumber)
        (contents (balanceOf balanceSlot holder))
        ((contents (balanceOf balanceSlot holder)).val ≠ 0)) ∧
    (∀ totalSupplySlot, .fixed totalSupplySlot ∈ S →
      Exact state fetchState
        (erc20TotalSupply keccak256 verifyProof showAddress .strict fetchState contract
          totalSupplySlot blockNumber)
        (contents (.fixed totalSupplySlot)) ((contents (.fixed totalSupplySlot)).val ≠ 0)) ∧
    (∀ allowanceSlot holder spender, allowanceOf allowanceSlot holder spender ∈ S →
      Exact state fetchState
        (erc20Allowance keccak256 verifyProof showAddress .strict fetchState contract holder spender
          allowanceSlot blockNumber)
        (contents (allowanceOf allowanceSlot holder spender))
        ((contents (allowanceOf allowanceSlot holder spender)).val ≠ 0)) ∧
    (∀ ownersSlot tokenId owner, ownerOf ownersSlot tokenId ∈ S →
      contents (ownerOf ownersSlot tokenId) = addressWord owner →
      Exact state fetchState
        (erc721Owner keccak256 verifyProof showAddress .strict fetchState contract tokenId
          ownersSlot blockNumber)
        owner (owner.val ≠ List.replicate 20 0)) ∧
    ∀ reserve0 reserve1 blockTimestampLast, .fixed 8 ∈ S →
      reserve0 < 2 ^ 112 → reserve1 < 2 ^ 112 → blockTimestampLast < 2 ^ 32 →
      (contents (.fixed 8)).val = packedReserves reserve0 reserve1 blockTimestampLast →
      Exact state fetchState
        (uniV2Reserves keccak256 verifyProof showAddress .strict fetchState contract blockNumber)
        (reserve0, reserve1, blockTimestampLast)
        (packedReserves reserve0 reserve1 blockTimestampLast ≠ 0) := by
  refine ⟨fun balanceSlot holder hl => ?_, fun totalSupplySlot hl => ?_,
    fun allowanceSlot holder spender hl => ?_, fun ownersSlot tokenId owner hl howner => ?_,
    fun reserve0 reserve1 blockTimestampLast hl h0 h1 ht hpacked => ?_⟩
  · exact readSlot_of_holds hverify _ hholds hl
  · exact readSlot_of_holds hverify _ hholds hl
  · exact readSlot_of_holds hverify _ hholds hl
  · have hlow : lowAddress (contents (ownerOf ownersSlot tokenId)) = owner := by
      rw [howner, lowAddress_addressWord]
    have hzero : owner.val ≠ List.replicate 20 0 ↔
        (contents (ownerOf ownersSlot tokenId)).val ≠ 0 := by
      rw [howner]
      exact addressWord_eq_zero.symm.not
    exact (readSlot_of_holds hverify _ hholds hl).map hlow hzero
  · have hunpack := unpack_packedReserves h0 h1 ht hpacked
    have hzero : packedReserves reserve0 reserve1 blockTimestampLast ≠ 0 ↔
        (contents (.fixed 8)).val ≠ 0 := by rw [hpacked]
    exact (readSlot_of_holds hverify _ hholds hl).map hunpack hzero

end Servers

namespace Sample

open EthState.Sample

/-- What an honest indexer answers of the sample's state. -/
def proofOf (address : Address) (slots : List B256) (blockNumber : ℕ) : StateProof :=
  let account := state.accountAt address
  { address := address
    blockNumber := blockNumber
    blockHash := zeroHash
    stateRoot := tries.root state.trie
    accountProof := ⟨Leaf.nodes state.trie⟩
    accountState := account.state
    storageProofs := slots.map fun slot =>
      ⟨slot, toBeBytes (account.storage slot), ⟨Leaf.nodes account.storageTrie⟩⟩ }

def serve (address : Address) (slots : List B256) (blockNumber : ℕ) :
    Result VerifiableRpcResponse :=
  .ok ⟨tries.root state.trie, [proofOf address slots blockNumber]⟩

theorem serve_honest : Honest state serve := by
  intro address slots blockNumber
  refine ⟨proofOf address slots blockNumber, ⟨rfl, rfl, rfl, rfl, rfl, ?_, ?_⟩, rfl⟩
  · show (slots.map _).map _ = slots
    rw [List.map_map]
    exact List.map_id slots
  · intro sp hsp
    obtain ⟨slot, -, rfl⟩ := List.mem_map.mp hsp
    exact ⟨rfl, rfl⟩

/-- The account's storage is one write away from an empty one. -/
theorem storage_written : (state.accountAt address).storage =
    [((.fixed 0, ⟨5, by decide⟩) : Location UInt8 B256 × U256)].foldl
      (fun s w => Function.update s ((keccakLayout keccak256).slot w.1) w.2)
      fun _ => ⟨0, by decide⟩ := by
  funext s
  have hat : state.accountAt address = account := accountAt_of_some rfl
  have hslot : (keccakLayout keccak256).slot (.fixed 0) = slot := rfl
  rw [hat, List.foldl_cons, List.foldl_nil, hslot, Function.update_apply]
  rfl

/-- The supply, and one holder's balance. -/
def supplyAndBalance : Set (Location UInt8 B256) := {.fixed 0, balanceOf 1 otherAddress}

theorem supplyAndBalance_no_clash : ∀ l ∈ supplyAndBalance, ∀ m ∈ supplyAndBalance,
    ¬ (keccakLayout keccak256).Clash
      ((keccakLayout keccak256).inputs l ++ (keccakLayout keccak256).inputs m) := by
  -- one input is hashed, and its hash is no small word
  have hinputs : ∀ l ∈ supplyAndBalance, ∀ a ∈ (keccakLayout keccak256).inputs l,
      a = (slotWord 1, paddedAddress otherAddress) := by
    intro l hl a ha
    rcases hl with rfl | rfl
    · exact absurd ha List.not_mem_nil
    · exact List.mem_singleton.mp ha
  have hhash : ((keccakLayout keccak256).entry (slotWord 1)
      (paddedAddress otherAddress)).val.head? = some 0xFF := by decide
  intro l hl m hm hclash
  have hall : ∀ a ∈ (keccakLayout keccak256).inputs l ++ (keccakLayout keccak256).inputs m,
      a = (slotWord 1, paddedAddress otherAddress) := by
    intro a ha
    rcases List.mem_append.mp ha with ha | ha
    · exact hinputs l hl a ha
    · exact hinputs m hm a ha
  rcases hclash with ⟨a, ha, b, hb, hne, -⟩ | ⟨a, ha, n, heq⟩
  · exact hne ((hall a ha).trans (hall b hb).symm)
  · rw [hall a ha] at heq
    rw [heq] at hhash
    exact absurd hhash (by simp [keccakLayout, slotWord])

end Sample

theorem token_reads_are_exact_sample :
    erc20TotalSupply EthState.Sample.keccak256 EthState.Sample.verifyProof
        EthState.Sample.showAddress .strict Sample.serve EthState.Sample.address 0 7 =
      .ok ⟨5, by decide⟩ := by
  have hholds : (keccakLayout EthState.Sample.keccak256).Holds {.fixed 0}
      (EthState.Sample.state.accountAt EthState.Sample.address).storage
      fun _ => ⟨5, by decide⟩ := by
    intro l hl
    rw [Set.mem_singleton_iff.mp hl]
    decide
  have hreads := token_reads_are_exact EthState.Sample.verifyProof_contract
    EthState.Sample.showAddress EthState.Sample.state EthState.Sample.address Sample.serve 7 hholds
  have hsupply := hreads.2.1 0 (Set.mem_singleton _)
  exact hsupply.2 Sample.serve_honest (by decide)

section Entries

variable {Trie : Type} {tries : Tries Trie} {keccak256 : Bytes → B256}
  {verifyProof : B256 → List ℕ → Option Bytes → List Bytes → Except String Unit}
  {S : Set (Location UInt8 B256)}

/-- **Entries keep.** Where Keccak-256 doesn't clash on the inputs of any two
of some variables' slots, a contract can hold any contents in them, and after
any writes to them, in any order, a strict read at the state's root gives what
was last written to its variable. -/
theorem token_entries_keep (hverify : VerifyProofContract tries verifyProof)
    (showAddress : Address → String)
    (hclash : ∀ l ∈ S, ∀ m ∈ S, ¬ (keccakLayout keccak256).Clash
      ((keccakLayout keccak256).inputs l ++ (keccakLayout keccak256).inputs m)) :
    (∀ contents : Location UInt8 B256 → U256, ∃ storage : B256 → U256,
      (keccakLayout keccak256).Holds S storage contents) ∧
    ∀ (storage : B256 → U256) (contents : Location UInt8 B256 → U256),
      (keccakLayout keccak256).Holds S storage contents →
      ∀ writes : List (Location UInt8 B256 × U256), (∀ w ∈ writes, w.1 ∈ S) →
      ∀ (state : State tries keccak256) (contract : Address),
        (state.accountAt contract).storage = writes.foldl
          (fun s w => Function.update s ((keccakLayout keccak256).slot w.1) w.2) storage →
        ∀ fetchState name blockNumber, ∀ l ∈ S,
          Exact state fetchState
            (readSlot keccak256 verifyProof showAddress .strict fetchState name contract
              ((keccakLayout keccak256).slot l) blockNumber)
            (writes.foldl (fun c w => Function.update c w.1 w.2) contents l)
            ((writes.foldl (fun c w => Function.update c w.1 w.2) contents l).val ≠ 0) := by
  have hS : Set.InjOn (keccakLayout keccak256).slot S := by
    intro l hl m hm heq
    rcases Slots.slot_cases slotWord_injective heq with hsame | hcl
    · exact hsame
    · exact absurd hcl (hclash l hl m hm)
  have hnontrivial : Nontrivial U256 := ⟨⟨⟨0, by decide⟩, ⟨1, by decide⟩, by decide⟩⟩
  refine ⟨Slots.exists_holds_iff.mpr hS, ?_⟩
  intro storage contents hholds writes hwrites state contract hstorage fetchState name blockNumber
    l hl
  have hafter := hholds.run hS writes hwrites
  rw [← hstorage] at hafter
  exact readSlot_of_holds hverify name hafter hl

end Entries

theorem token_entries_keep_sample :
    readSlot EthState.Sample.keccak256 EthState.Sample.verifyProof EthState.Sample.showAddress
        .strict Sample.serve "erc20_total_supply" EthState.Sample.address (slotWord 0) 7 =
      .ok ⟨5, by decide⟩ := by
  have hkeep := (token_entries_keep EthState.Sample.verifyProof_contract
    EthState.Sample.showAddress Sample.supplyAndBalance_no_clash).2
  have hzero : (keccakLayout EthState.Sample.keccak256).Holds Sample.supplyAndBalance
      (fun _ => (⟨0, by decide⟩ : U256)) fun _ => ⟨0, by decide⟩ := fun _ _ => rfl
  have hread := hkeep _ _ hzero [(.fixed 0, ⟨5, by decide⟩)] (by simp [Sample.supplyAndBalance])
    EthState.Sample.state EthState.Sample.address Sample.storage_written Sample.serve
    "erc20_total_supply" 7 (.fixed 0) (by simp [Sample.supplyAndBalance])
  exact hread.2 Sample.serve_honest (by decide)

end TokenReads
end WillowSdk
