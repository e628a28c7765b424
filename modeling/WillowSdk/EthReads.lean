/-
# What strict reads show, and of which states

An Ethereum state is a trie of accounts, each with a trie of the slots that
aren't zero; an honest answer carries the values a read asks for and the
tries' proofs of them, inclusions and absences alike.

What a strict read accepts at the state's root is what the state holds
(`getState_sound`). It accepts the honest answer exactly when the account
exists and no slot asked is zero (`strict_read_iff`): an absence is walked as
if a value were there.
-/
import WillowSdk.EthState

namespace WillowSdk
namespace EthState

/-- Merkle Patricia tries over hashed keys: their roots, what they hold, and
which nodes prove what they hold at a key. -/
structure Tries (Trie : Type) where
  root : Trie → B256
  get : Trie → B256 → Option Bytes
  Proves : Trie → B256 → List Bytes → Prop
  empty : Trie
  get_empty : ∀ key, get empty key = none

variable {Trie : Type}

/-- The walk accepts exactly the proofs that the trie holds the value asked
about, or that it holds none. -/
def VerifyProofContract (tries : Tries Trie)
    (verifyProof : B256 → List ℕ → Option Bytes → List Bytes → Except String Unit) : Prop :=
  ∀ trie key expected nodes,
    verifyProof (tries.root trie) (unpack key.val) expected nodes = .ok () ↔
      tries.Proves trie key nodes ∧ tries.get trie key = expected

/-- An account and its storage, whose trie has the slots that aren't zero. -/
structure Account (tries : Tries Trie) (keccak256 : Bytes → B256) where
  nonce : U64
  balance : U256
  codeHash : B256
  storage : B256 → U256
  storageTrie : Trie
  storage_get : ∀ slot, tries.get storageTrie (keccak256 slot.val) =
    if (storage slot).val = 0 then none else some (Rlp.number (storage slot).val)

section States

variable {tries : Tries Trie} {keccak256 : Bytes → B256}

def Account.state (account : Account tries keccak256) : AccountState :=
  { nonce := account.nonce
    balance := toBeBytes account.balance
    storageHash := tries.root account.storageTrie
    codeHash := account.codeHash }

/-- The account a state doesn't have. -/
def emptyAccount (tries : Tries Trie) (keccak256 : Bytes → B256) : Account tries keccak256 :=
  { nonce := ⟨0, by decide⟩
    balance := ⟨0, by decide⟩
    codeHash := keccak256 []
    storage := fun _ => ⟨0, by decide⟩
    storageTrie := tries.empty
    storage_get := fun _ => tries.get_empty _ }

end States

/-- An Ethereum state: its accounts, and the trie of their leaves. -/
structure State (tries : Tries Trie) (keccak256 : Bytes → B256) where
  account : Address → Option (Account tries keccak256)
  trie : Trie
  account_get : ∀ address, tries.get trie (keccak256 address.val) =
    (account address).map fun a => rlpAccount a.state

namespace State

variable {tries : Tries Trie} {keccak256 : Bytes → B256} (state : State tries keccak256)
  (address : Address) (slots : List B256) (blockNumber : ℕ)

/-- The account, the empty one where the state has none. -/
def accountAt : Account tries keccak256 :=
  (state.account address).getD (emptyAccount tries keccak256)

/-- What a read of the account and the slots gives. -/
def read (blockHash : B256) : VerifiedStateRead :=
  let account := state.accountAt address
  { address := address
    blockNumber := blockNumber
    blockHash := blockHash
    stateRoot := tries.root state.trie
    nonce := account.nonce
    balance := account.balance
    storageHash := tries.root account.storageTrie
    codeHash := account.codeHash
    storage := slots.map fun slot => (slot, account.storage slot)
    mode := .strict }

/-- A slot's value and the trie's proof of it. -/
structure ProvesSlot (sp : StorageSlotProof) : Prop where
  value_eq : sp.value = toBeBytes ((state.accountAt address).storage sp.slot)
  proves : tries.Proves (state.accountAt address).storageTrie (keccak256 sp.slot.val)
    sp.proof.proofNodes

/-- The honest answer: the account's fields and the slots' values, in order,
with the tries' proofs. -/
structure Answers (proof : StateProof) : Prop where
  address_eq : proof.address = address
  block_eq : proof.blockNumber = blockNumber
  root_eq : proof.stateRoot = tries.root state.trie
  account_eq : proof.accountState = (state.accountAt address).state
  proves : tries.Proves state.trie (keccak256 address.val) proof.accountProof.proofNodes
  slots_eq : proof.storageProofs.map (·.slot) = slots
  proves_slots : ∀ sp ∈ proof.storageProofs, state.ProvesSlot address sp

/-- The account exists and no slot asked is zero. -/
def AllPresent : Prop :=
  ∃ account, state.account address = some account ∧
    ∀ slot ∈ slots, (account.storage slot).val ≠ 0

end State

section Reads

variable {tries : Tries Trie} {keccak256 : Bytes → B256}
  {verifyProof : B256 → List ℕ → Option Bytes → List Bytes → Except String Unit}
  {showAddress : Address → String} {state : State tries keccak256} {address : Address}
  {slots : List B256} {blockNumber : ℕ}

/-- A slot's walk ends at the value carried exactly when the account's
storage has it there and it isn't zero. -/
theorem verifyStorage_iff (hverify : VerifyProofContract tries verifyProof)
    (account : Account tries keccak256) (sp : StorageSlotProof) :
    verifyStorage keccak256 verifyProof sp (tries.root account.storageTrie) = .ok () ↔
      tries.Proves account.storageTrie (keccak256 sp.slot.val) sp.proof.proofNodes ∧
        (account.storage sp.slot).val ≠ 0 ∧ fromBeBytes sp.value = account.storage sp.slot := by
  rw [verifyStorage_eq_ok, hverify, account.storage_get]
  refine and_congr_right fun _ => ?_
  by_cases hzero : (account.storage sp.slot).val = 0
  · simp [hzero]
  · rw [if_neg hzero, Option.some.injEq]
    refine ⟨fun h => ?_, fun h => ?_⟩
    · have hlt : ∀ n : U256, n.val < 256 ^ 32 := fun n => n.property.trans_eq u256_eq.symm
      have hval : (fromBeBytes sp.value).val = (account.storage sp.slot).val :=
        Rlp.number_inj (hlt _) (hlt _) h.symm
      exact ⟨hzero, Subtype.ext hval⟩
    · obtain ⟨-, h⟩ := h
      rw [h]

/-- The walks of a proof end at the values carried exactly when the account
exists, the values are its own and none carried is zero. -/
theorem verifyStateProof_iff (hverify : VerifyProofContract tries verifyProof)
    {proof : StateProof} (hroot : proof.stateRoot = tries.root state.trie) :
    verifyStateProof keccak256 verifyProof showAddress proof = .ok () ↔
      ∃ account, state.account proof.address = some account ∧
        tries.Proves state.trie (keccak256 proof.address.val) proof.accountProof.proofNodes ∧
        rlpAccount proof.accountState = rlpAccount account.state ∧
        ∀ sp ∈ proof.storageProofs,
          verifyStorage keccak256 verifyProof sp (tries.root account.storageTrie) = .ok () := by
  rw [verifyStateProof_eq_ok, hroot, hverify, state.account_get]
  refine ⟨fun h => ?_, fun h => ?_⟩
  · obtain ⟨⟨hproves, hget⟩, hslots⟩ := h
    obtain ⟨account, haccount, hleaf⟩ := Option.map_eq_some_iff.mp hget
    obtain ⟨-, -, hstorage, -⟩ := rlpAccount_inj hleaf
    have hroots : tries.root account.storageTrie = proof.accountState.storageHash := hstorage
    refine ⟨account, haccount, hproves, hleaf.symm, fun sp hsp => ?_⟩
    rw [verifyStorage_eq_ok, hroots]
    exact hslots sp hsp
  · obtain ⟨account, haccount, hproves, hleaf, hslots⟩ := h
    obtain ⟨-, -, hstorage, -⟩ := rlpAccount_inj hleaf
    have hget : (state.account proof.address).map (fun a => rlpAccount a.state) =
        some (rlpAccount proof.accountState) := by
      rw [haccount, hleaf]
      rfl
    refine ⟨⟨hproves, hget⟩, fun sp hsp => ?_⟩
    rw [hstorage]
    exact verifyStorage_eq_ok.mp (hslots sp hsp)

/-- The account at an address that has one. -/
theorem accountAt_of_some {account : Account tries keccak256}
    (h : state.account address = some account) : state.accountAt address = account := by
  rw [State.accountAt, h, Option.getD_some]

/-- What a strict read accepts at the state's root is what the state holds. -/
theorem getState_sound (hverify : VerifyProofContract tries verifyProof)
    {raw : VerifiableRpcResponse} {read : VerifiedStateRead}
    (hroot : raw.stateRoot = tries.root state.trie)
    (h : getState keccak256 verifyProof showAddress .strict address slots blockNumber (.ok raw) =
      .ok read) :
    read = state.read address slots blockNumber read.blockHash := by
  obtain ⟨proof, -, rfl, rfl, hproot, rfl, hwalks, rfl⟩ := getState_eq_ok.mp h
  obtain ⟨account, haccount, -, hleaf, hslots⟩ :=
    (verifyStateProof_iff hverify (hproot.trans hroot)).mp hwalks
  obtain ⟨hnonce, hbalance, hstorage, hcode⟩ := rlpAccount_inj hleaf
  have hat := accountAt_of_some haccount
  have hvalues : (proof.storageProofs.map fun sp => (sp.slot, fromBeBytes sp.value)) =
      (proof.storageProofs.map (·.slot)).map fun slot => (slot, account.storage slot) := by
    rw [List.map_map]
    refine List.map_congr_left fun sp hsp => ?_
    obtain ⟨-, -, hvalue⟩ := (verifyStorage_iff hverify account sp).mp (hslots sp hsp)
    rw [hvalue]
    rfl
  have hbalance' : fromBeBytes proof.accountState.balance = account.balance := by
    rw [hbalance, Account.state, fromBeBytes_toBeBytes]
  simp only [StateProof.read, State.read, hat, hvalues, hproot, hroot, hnonce, hbalance', hstorage,
    hcode, Account.state]

/-- An answer's walks end when the account exists and no slot is zero. -/
theorem verifyStateProof_of_answers (hverify : VerifyProofContract tries verifyProof)
    {proof : StateProof} (hanswers : state.Answers address slots blockNumber proof) :
    verifyStateProof keccak256 verifyProof showAddress proof = .ok () ↔
      state.AllPresent address slots := by
  rw [verifyStateProof_iff hverify hanswers.root_eq, hanswers.address_eq]
  refine ⟨fun h => ?_, fun h => ?_⟩
  · obtain ⟨account, haccount, -, -, hslots⟩ := h
    refine ⟨account, haccount, fun slot hslot => ?_⟩
    rw [← hanswers.slots_eq] at hslot
    obtain ⟨sp, hsp, rfl⟩ := List.mem_map.mp hslot
    obtain ⟨-, hnonzero, -⟩ := (verifyStorage_iff hverify account sp).mp (hslots sp hsp)
    exact hnonzero
  · obtain ⟨account, haccount, hnonzero⟩ := h
    have hat := accountAt_of_some haccount
    have hleaf : rlpAccount proof.accountState = rlpAccount account.state := by
      rw [hanswers.account_eq, hat]
    refine ⟨account, haccount, hanswers.proves, hleaf, fun sp hsp => ?_⟩
    obtain ⟨hvalue, hproves⟩ := hanswers.proves_slots sp hsp
    rw [hat] at hvalue hproves
    have hmem : sp.slot ∈ slots := by
      rw [← hanswers.slots_eq]
      exact List.mem_map_of_mem hsp
    have hcarried : fromBeBytes sp.value = account.storage sp.slot := by
      rw [hvalue, fromBeBytes_toBeBytes]
    exact (verifyStorage_iff hverify account sp).mpr ⟨hproves, hnonzero _ hmem, hcarried⟩

/-- The tries prove every answer. -/
theorem exists_answer (hprove : ∀ trie key, ∃ nodes, tries.Proves trie key nodes)
    (state : State tries keccak256) (address : Address) (slots : List B256) (blockNumber : ℕ)
    (blockHash : B256) :
    ∃ proof, state.Answers address slots blockNumber proof := by
  choose nodes hnodes using hprove
  let account := state.accountAt address
  refine ⟨{ address := address
            blockNumber := blockNumber
            blockHash := blockHash
            stateRoot := tries.root state.trie
            accountProof := ⟨nodes state.trie (keccak256 address.val)⟩
            accountState := account.state
            storageProofs := slots.map fun slot =>
              ⟨slot, toBeBytes (account.storage slot),
                ⟨nodes account.storageTrie (keccak256 slot.val)⟩⟩ },
    rfl, rfl, rfl, rfl, hnodes _ _, ?_, ?_⟩
  · rw [List.map_map]
    exact List.map_id slots
  · intro sp hsp
    obtain ⟨slot, -, rfl⟩ := List.mem_map.mp hsp
    exact ⟨rfl, hnodes _ _⟩

/-- **When strict reads are complete and sound.** A strict read accepts every
honest answer, and nothing else at its root, exactly when the account exists
and no slot asked is zero. -/
theorem strict_read_iff (hverify : VerifyProofContract tries verifyProof)
    (hprove : ∀ trie key, ∃ nodes, tries.Proves trie key nodes)
    (state : State tries keccak256) (address : Address) (slots : List B256) (blockNumber : ℕ) :
    ((∀ proof, state.Answers address slots blockNumber proof →
        getState keccak256 verifyProof showAddress .strict address slots blockNumber
            (.ok ⟨tries.root state.trie, [proof]⟩) =
          .ok (state.read address slots blockNumber proof.blockHash)) ∧
      ∀ raw read, raw.stateRoot = tries.root state.trie →
        getState keccak256 verifyProof showAddress .strict address slots blockNumber (.ok raw) =
          .ok read →
        read = state.read address slots blockNumber read.blockHash) ↔
      state.AllPresent address slots := by
  refine ⟨fun h => ?_, fun hpresent => ?_⟩
  · obtain ⟨hcomplete, -⟩ := h
    obtain ⟨proof, hanswers⟩ :=
      exists_answer hprove state address slots blockNumber (tries.root state.trie)
    obtain ⟨_, hproofs, -, -, -, -, hwalks, -⟩ := getState_eq_ok.mp (hcomplete proof hanswers)
    obtain rfl := List.singleton_inj.mp hproofs
    exact (verifyStateProof_of_answers hverify hanswers).mp hwalks
  · refine ⟨fun proof hanswers => ?_, fun raw read hroot h => getState_sound hverify hroot h⟩
    let raw : VerifiableRpcResponse := ⟨tries.root state.trie, [proof]⟩
    have hwalks : verifyStateProof keccak256 verifyProof showAddress proof = .ok () :=
      (verifyStateProof_of_answers hverify hanswers).mpr hpresent
    have hread : getState keccak256 verifyProof showAddress .strict address slots blockNumber
        (.ok raw) = .ok (proof.read .strict) :=
      getState_eq_ok.mpr ⟨proof, rfl, hanswers.address_eq, hanswers.block_eq, hanswers.root_eq,
        hanswers.slots_eq, hwalks, rfl⟩
    rw [hread]
    exact congrArg Except.ok (getState_sound hverify rfl hread)

end Reads

namespace Sample

/-! A state of one account with one slot: each trie is a single leaf. -/

def address : Address := ⟨List.replicate 20 0x11, rfl⟩

def otherAddress : Address := ⟨List.replicate 20 0x22, rfl⟩

def slot : B256 := ⟨List.replicate 32 0, rfl⟩

/-- A slot that was never written. -/
def unsetSlot : B256 := ⟨List.replicate 31 0 ++ [1], rfl⟩

def addressKey : B256 :=
  ⟨[0xE2, 0xC0, 0x74, 0x04, 0xB8, 0xC1, 0xDF, 0x4C, 0x46, 0x22, 0x64, 0x25, 0xCA, 0xC6, 0x8C, 0x28,
    0xD2, 0x7A, 0x76, 0x6B, 0xBD, 0xDC, 0xE6, 0x23, 0x09, 0xF3, 0x67, 0x24, 0x83, 0x9B, 0x22, 0xC0], rfl⟩

def slotKey : B256 :=
  ⟨[0x29, 0x0D, 0xEC, 0xD9, 0x54, 0x8B, 0x62, 0xA8, 0xD6, 0x03, 0x45, 0xA9, 0x88, 0x38, 0x6F, 0xC8,
    0x4B, 0xA6, 0xBC, 0x95, 0x48, 0x40, 0x08, 0xF6, 0x36, 0x2F, 0x93, 0x16, 0x0E, 0xF3, 0xE5, 0x63], rfl⟩

/-- Keccak-256 of the empty string. -/
def emptyCode : B256 :=
  ⟨[0xC5, 0xD2, 0x46, 0x01, 0x86, 0xF7, 0x23, 0x3C, 0x92, 0x7E, 0x7D, 0xB2, 0xDC, 0xC7, 0x03, 0xC0,
    0xE5, 0x00, 0xB6, 0x53, 0xCA, 0x82, 0x27, 0x3B, 0x7B, 0xFA, 0xD8, 0x04, 0x5D, 0x85, 0xA4, 0x70], rfl⟩

def keccak256 (bytes : Bytes) : B256 :=
  if bytes = address.val then addressKey
  else if bytes = slot.val then slotKey
  else if bytes = [] then emptyCode
  else ⟨List.replicate 32 0xFF, rfl⟩

inductive Leaf
  | state
  | storage
  | empty

def storageRoot : B256 :=
  ⟨[0xA8, 0x1D, 0x62, 0x53, 0xCF, 0xE9, 0x82, 0xC4, 0x66, 0x84, 0xC6, 0xF1, 0x0F, 0x9E, 0x86, 0x0E,
    0x65, 0x95, 0x9F, 0x04, 0x91, 0x4B, 0x84, 0x35, 0x82, 0x81, 0xB6, 0xCD, 0xEF, 0x63, 0xA0, 0x2D], rfl⟩

def stateRoot : B256 :=
  ⟨[0x62, 0x91, 0x1E, 0xC0, 0x0D, 0x27, 0xF3, 0x84, 0x74, 0xD1, 0x89, 0x73, 0xB4, 0x39, 0xD9, 0xAA,
    0x51, 0x55, 0x27, 0x5E, 0x12, 0x20, 0x45, 0xCD, 0xAC, 0x81, 0xEA, 0x50, 0x91, 0x6F, 0x15, 0x14], rfl⟩

def emptyRoot : B256 :=
  ⟨[0x56, 0xE8, 0x1F, 0x17, 0x1B, 0xCC, 0x55, 0xA6, 0xFF, 0x83, 0x45, 0xE6, 0x92, 0xC0, 0xF8, 0x6E,
    0x5B, 0x48, 0xE0, 0x1B, 0x99, 0x6C, 0xAD, 0xC0, 0x01, 0x62, 0x2F, 0xB5, 0xE3, 0x63, 0xB4, 0x21], rfl⟩

def accountState : AccountState :=
  ⟨⟨1, by decide⟩, toBeBytes ⟨1000, by decide⟩, storageRoot, emptyCode⟩

/-- What a trie holds at a path. -/
def Leaf.lookup (trie : Leaf) (path : List ℕ) : Option Bytes :=
  match trie with
  | .state => if path = unpack addressKey.val then some (rlpAccount accountState) else none
  | .storage => if path = unpack slotKey.val then some (Rlp.number 5) else none
  | .empty => none

/-- The trie's one leaf, on the way to every key. -/
def Leaf.nodes : Leaf → List Bytes
  | .state => [Rlp.list [Rlp.word (0x20 :: addressKey.val), 0xB8 :: 0x48 :: rlpAccount accountState]]
  | .storage => [Rlp.list [Rlp.word (0x20 :: slotKey.val), Rlp.number 5]]
  | .empty => []

def Leaf.root : Leaf → B256
  | .state => stateRoot
  | .storage => storageRoot
  | .empty => emptyRoot

def tries : Tries Leaf :=
  { root := Leaf.root
    get := fun trie key => trie.lookup (unpack key.val)
    Proves := fun trie _ nodes => nodes = trie.nodes
    empty := .empty
    get_empty := fun _ => rfl }

def verifyProof (root : B256) (path : List ℕ) (expected : Option Bytes) (nodes : List Bytes) :
    Except String Unit :=
  if ∃ trie ∈ [Leaf.state, .storage, .empty],
      root = trie.root ∧ nodes = trie.nodes ∧ trie.lookup path = expected then .ok ()
  else .error "RootMismatch"

theorem verifyProof_contract : VerifyProofContract tries verifyProof := by
  have hroots : Leaf.state.root ≠ Leaf.storage.root ∧ Leaf.state.root ≠ Leaf.empty.root ∧
      Leaf.storage.root ≠ Leaf.empty.root := by decide
  obtain ⟨hss, hse, hte⟩ := hroots
  intro trie key expected nodes
  cases trie <;>
    simp [verifyProof, tries, hss, hss.symm, hse, hse.symm, hte, hte.symm]

theorem proves (trie : Leaf) (key : B256) : ∃ nodes, tries.Proves trie key nodes :=
  ⟨trie.nodes, rfl⟩

theorem lookup_state {bytes : Bytes} (h : bytes ≠ address.val) :
    Leaf.state.lookup (unpack (keccak256 bytes).val) = none := by
  rw [keccak256, if_neg h]
  split_ifs <;> decide

theorem lookup_storage {bytes : Bytes} (h : bytes ≠ slot.val) :
    Leaf.storage.lookup (unpack (keccak256 bytes).val) = none := by
  rw [keccak256, if_neg h]
  split_ifs <;> decide

def account : Account tries keccak256 :=
  { nonce := ⟨1, by decide⟩
    balance := ⟨1000, by decide⟩
    codeHash := emptyCode
    storage := fun s => if s = slot then ⟨5, by decide⟩ else ⟨0, by decide⟩
    storageTrie := .storage
    storage_get := by
      intro s
      by_cases hs : s = slot
      · subst hs
        decide
      · rw [if_neg hs]
        exact lookup_storage fun h => hs (Subtype.ext h) }

def state : State tries keccak256 :=
  { account := fun a => if a = address then some account else none
    trie := .state
    account_get := by
      intro a
      by_cases ha : a = address
      · subst ha
        decide
      · rw [if_neg ha]
        exact lookup_state fun h => ha (Subtype.ext h) }

def answer : StateProof :=
  { address := address
    blockNumber := 7
    blockHash := ⟨List.replicate 32 0xAB, rfl⟩
    stateRoot := stateRoot
    accountProof := ⟨Leaf.state.nodes⟩
    accountState := accountState
    storageProofs := [⟨slot, toBeBytes ⟨5, by decide⟩, ⟨Leaf.storage.nodes⟩⟩] }

/-- The answer to a read of the slot that was never written. -/
def unsetAnswer : StateProof :=
  { answer with storageProofs := [⟨unsetSlot, toBeBytes ⟨0, by decide⟩, ⟨Leaf.storage.nodes⟩⟩] }

/-- The answer to a read of an account the state doesn't have. -/
def absentAnswer : StateProof :=
  { answer with
    address := otherAddress
    accountState := (emptyAccount tries keccak256).state
    storageProofs := [] }

def showAddress (a : Address) : String := "0x" ++ Hex.text a.val

theorem answers : state.Answers address [slot] 7 answer := by
  refine ⟨rfl, rfl, rfl, rfl, rfl, rfl, ?_⟩
  intro sp hsp
  obtain rfl := List.mem_singleton.mp hsp
  exact ⟨rfl, rfl⟩

end Sample

theorem strict_read_iff_sample :
    Sample.state.Answers Sample.address [Sample.slot] 7 Sample.answer ∧
      getState Sample.keccak256 Sample.verifyProof Sample.showAddress .strict Sample.address
          [Sample.slot] 7 (.ok ⟨Sample.stateRoot, [Sample.answer]⟩) =
        .ok (Sample.state.read Sample.address [Sample.slot] 7 Sample.answer.blockHash) :=
  ⟨Sample.answers, ((strict_read_iff Sample.verifyProof_contract Sample.proves Sample.state
    Sample.address [Sample.slot] 7).mpr ⟨Sample.account, rfl, by decide⟩).1 _ Sample.answers⟩

/-- The honest answers to a read of an unset slot and to one of an account
that doesn't exist are refused. -/
theorem strict_read_refuses_absence :
    Sample.state.Answers Sample.address [Sample.unsetSlot] 7 Sample.unsetAnswer ∧
      Sample.state.Answers Sample.otherAddress [] 7 Sample.absentAnswer ∧
      ∀ read : VerifiedStateRead,
        getState Sample.keccak256 Sample.verifyProof Sample.showAddress .strict Sample.address
            [Sample.unsetSlot] 7 (.ok ⟨Sample.stateRoot, [Sample.unsetAnswer]⟩) ≠ .ok read ∧
        getState Sample.keccak256 Sample.verifyProof Sample.showAddress .strict Sample.otherAddress
            [] 7 (.ok ⟨Sample.stateRoot, [Sample.absentAnswer]⟩) ≠ .ok read := by
  have hunset : Sample.state.Answers Sample.address [Sample.unsetSlot] 7 Sample.unsetAnswer := by
    refine ⟨rfl, rfl, rfl, rfl, rfl, rfl, ?_⟩
    intro sp hsp
    obtain rfl := List.mem_singleton.mp hsp
    exact ⟨rfl, rfl⟩
  have habsent : Sample.state.Answers Sample.otherAddress [] 7 Sample.absentAnswer :=
    ⟨rfl, rfl, rfl, rfl, rfl, rfl, fun sp hsp => by cases hsp⟩
  refine ⟨hunset, habsent, fun read => ⟨fun h => ?_, fun h => ?_⟩⟩
  · obtain ⟨_, hproofs, -, -, -, -, hwalks, -⟩ := getState_eq_ok.mp h
    obtain rfl := List.singleton_inj.mp hproofs
    obtain ⟨account, haccount, hslots⟩ :=
      (verifyStateProof_of_answers Sample.verifyProof_contract hunset).mp hwalks
    cases haccount
    exact hslots Sample.unsetSlot (.head _) rfl
  · obtain ⟨_, hproofs, -, -, -, -, hwalks, -⟩ := getState_eq_ok.mp h
    obtain rfl := List.singleton_inj.mp hproofs
    obtain ⟨account, haccount, -⟩ :=
      (verifyStateProof_of_answers Sample.verifyProof_contract habsent).mp hwalks
    cases haccount

end EthState
end WillowSdk
