/-
# A verified read

`DataOperations::get_verified` (src/data.rs): the API serves a value, a proof
and the height of the proof's state; the value is returned only if the proof
proves it at the subgrove's data path and key, and the chain's headers carry
the proof's root, recently.

`get_verified_sound` composes what the two checks establish:
`verify_item_at_path` binds the value to the root (`Accepted.stored`), and
`verify_root_after` the root to a recent header (`verifyRootAfter_sound`).
-/
import WillowSdk.Grove.Binding
import WillowSdk.LightClient
import Mathlib.Logic.Equiv.List
import Mathlib.Tactic.DeriveCountable

namespace WillowSdk
namespace Data

open LightClient
open Grove (fail)

/-- A value read with a proof, and the height of the header that carries the
proof's root. -/
structure VerifiedValue (V : Type) where
  value : V
  height : ℕ

/-- What the API answers to one read: whether the client has logged in, the
answers of `/data` and `/proof`, and the light client, made on first use. -/
structure Session (V : Type) where
  authenticated : Bool
  data : Result (Option V)
  proof : Result (Option V)
  lightClient : Result Client
  network : Network V

section Read

variable {V D : Type} [DecidableEq V]

def requireAuth (authenticated : Bool) : Result Unit :=
  if authenticated then .ok () else .error .notAuthenticated

def utf8 (s : String) : Bytes := Utf8.encode s

/-- The path of a subgrove's data tree. -/
def subgroveDataPath (subgroveId : String) : List Bytes :=
  [Grove.subgroves, utf8 subgroveId, Grove.data]

variable (json : Json V) (deps : Grove.Deps D) (rootBytes : D → Bytes) (session : Session V)

/-- The value `GET /data` serves for an item's bytes: their JSON, or
`{"hex": <hex>}` when they aren't JSON. -/
def servedValue (bytes : Bytes) : V :=
  (json.fromSlice bytes).getD (json.hexObject (Hex.text bytes))

/-- The proof's bytes and height, as `/proof` serves them. `debug` quotes a
key (`{:?}`). -/
def servedProof (debug : String → String) (key : String) (proofData : V) : Result (Bytes × ℕ) := do
  let proofHex ← Outcome.okOr ((json.get proofData "proof").bind json.asStr)
    (fail s!"the proof served for key {debug key} has no proof bytes")
  let height ← Outcome.okOr (((json.get proofData "height").bind json.asU64).filter (· > 0))
    (fail s!"the proof served for key {debug key} names no block height, so its root can't be checked against the chain's")
  let maxHex := 2 * Grove.maxProofBytes
  if (utf8 proofHex).length > maxHex then
    .error (fail
      s!"the proof served for key {debug key} is {(utf8 proofHex).length} hex characters; at most {maxHex} are accepted")
  else
    let proof ← (Hex.decode (utf8 proofHex)).mapError fun e => fail s!"Invalid proof hex: {e}"
    .ok (proof, height)

/-- The proven value of a key, if it is the one served: with the root its
proof computes and the proof's height. -/
def provenValue (debug : String → String) (subgroveId key : String) : Result (V × D × ℕ) := do
  requireAuth session.authenticated
  let data ← Outcome.okOr (← session.data) (.notFound s!"Key not found: {key}")
  let proofData ← Outcome.okOr (← session.proof) (fail
    s!"no proof served for key {debug key}, so the value can't be verified (use get_unverified to read it unverified)")
  let (proof, height) ← servedProof json debug key proofData
  let (root, item) ← Grove.verifyItemAtPath deps proof (subgroveDataPath subgroveId) (utf8 key)
  let proven := servedValue json item
  if proven ≠ data then
    .error (fail s!"the value served for key {debug key} is not the value its proof proves")
  else .ok (proven, root, height)

/-- Get a single item, its value proven against the chain's headers. -/
def getVerified (debug : String → String) (subgroveId key : String) :
    Checked (VerifiedValue V) := do
  let (proven, root, height) ← Checked.lift (provenValue json deps session debug subgroveId key)
  let client ← Checked.lift session.lightClient
  let height ← verifyRootAfter json client session.network (rootBytes root) height
  .ok ⟨proven, height⟩

variable {json deps rootBytes session} {debug : String → String} {subgroveId key : String}

theorem provenValue_eq_ok {value : V} {root : D} {height : ℕ}
    (h : provenValue json deps session debug subgroveId key = .ok (value, root, height)) :
    ∃ proof item, Grove.verifyItemAtPath deps proof (subgroveDataPath subgroveId) (utf8 key) =
      .ok (root, item) ∧ servedValue json item = value := by
  simp only [provenValue, Outcome.bind_eq_ok, Outcome.refuse_eq_ok, Prod.exists, Except.ok.injEq,
    Prod.mk.injEq] at h
  obtain ⟨_, -, _, -, _, -, _, -, _, -, proof, _, -, _, item, hv, -, rfl, rfl, rfl⟩ := h
  exact ⟨proof, item, hv, rfl⟩

/-- **A verified read is the chain's.** Whatever the API answers to `/data`
and `/proof`: the value returned is at a height within the lag of the chain's
latest, and every state that the app hash of the header at that height
commits to stores, at the key in the subgrove's data tree, an Item that is
served as that value. -/
theorem get_verified_sound (json : Json V) (deps : Grove.Deps D) (rootBytes : D → Bytes)
    (session : Session V) (debug : String → String) (subgroveId key : String)
    (H : Grove.Hashing D) (client : Client) (A : ℕ → Bytes) (L : ℕ) (v : VerifiedValue V)
    (hH : H.Sound) (hverify : Grove.VerifyContract H deps) (hroot : Function.Injective rootBytes)
    (hclient : session.lightClient = .ok client) (hA : Reports json client session.network A)
    (hL : latestChainHeight json client session.network = .ok L)
    (hok : getVerified json deps rootBytes session debug subgroveId key = .ok v) :
    L + 1 ≤ v.height + client.config.maxProofLagBlocks ∧
    ∀ state : Grove.Merk D, rootBytes (state.root H) = A v.height → state.UniqueKeys →
      state.SubtreesOrNothing (subgroveDataPath subgroveId) →
      state.OnlyItemsAt (Grove.decodeElement deps) (subgroveDataPath subgroveId) →
      ∃ bytes, state.StoresItem (Grove.decodeElement deps) (subgroveDataPath subgroveId) (utf8 key)
        bytes ∧ servedValue json bytes = v.value := by
  simp only [getVerified, Outcome.bind_eq_ok, Checked.lift_eq_ok, hclient, Except.ok.injEq,
    exists_eq_left', Prod.exists] at hok
  obtain ⟨value, root, height, hproven, h, hrecent, rfl⟩ := hok
  obtain ⟨proof, item, hitem, rfl⟩ := provenValue_eq_ok hproven
  obtain ⟨-, -, hc, hor, hle⟩ := verifyRootAfter_sound hL hrecent
  refine ⟨hle, fun state hstate hunique hpath hitems => ?_⟩
  have hcarried : rootBytes root = A h := by
    rcases hor with rfl | ⟨hat, -⟩
    · exact hA.after hc
    · exact hA.at_ hat
  have hcommitted : root = state.root H := hroot (hcarried.trans hstate.symm)
  obtain ⟨v0, layer, element, haccepted⟩ := Grove.verifyItemAtPath_eq_ok.mp hitem
  have hstores := haccepted.stored hH hverify hcommitted hunique hpath.unmistakable fun _ => hitems
  exact ⟨item, hstores, rfl⟩

end Read

/-! ### A read of one item -/

namespace Sample

open Grove.Sample (Digest)

/-- The values of the bodies: the number 1, the proof's answer and its two
fields, and a node's status. -/
inductive Body
  | one
  | proof
  | proofHex
  | height
  | status
deriving DecidableEq

def json : Json Body where
  get
    | .proof, "proof" => some .proofHex
    | .proof, "height" => some .height
    | .status, name => if name = "app_hash" then none else some .status
    | _, _ => none
  asStr
    | .proofHex => some (Hex.text Grove.Sample.proof)
    | .status => some "1"
    | _ => none
  asU64 v := if v = .height then some 1 else none
  fromSlice bytes := if bytes = Grove.Sample.value then some .one else none
  hexObject _ := .proof

instance countableUInt8 : Countable UInt8 :=
  (show Function.Injective UInt8.toNat from fun _ _ h => UInt8.toNat_inj.mp h).countable

deriving instance Countable for Grove.Sample.Digest

/-- Bytes that tell digests apart. -/
noncomputable def rootBytes (d : Digest) : Bytes :=
  List.replicate ((exists_injective_nat Digest).choose d) 0

theorem rootBytes_injective : Function.Injective rootBytes := by
  intro a b h
  exact (exists_injective_nat Digest).choose_spec (by simpa [rootBytes] using congrArg List.length h)

noncomputable def root : Bytes := rootBytes (Grove.Sample.state.root Grove.Sample.hashing)

/-- It holds the header after the proof's block. -/
noncomputable def client : Client where
  config := ⟨["http://node"], 1, 20⟩
  headers := [(2, ⟨⟨2, root⟩⟩)]

noncomputable def session : Session Body where
  authenticated := true
  data := .ok (some .one)
  proof := .ok (some .proof)
  lightClient := .ok client
  network := ⟨fun _ _ => some .status, 0⟩

noncomputable def appHashes (h : ℕ) : Bytes := if h = 2 then root else []

theorem reports : Reports json client session.network appHashes :=
  .of_held (fun _ _ => rfl) rfl fun h block hb => by
    by_cases h2 : h = 2
    · subst h2
      cases hb
      rfl
    · simp [getHeaderByHeight, client, eq_comm (b := h), h2] at hb

theorem latest : latestChainHeight json client session.network = .ok 2 := by
  have hstatus : client.config.validatorEndpoints.filterMap
      (fetchStatusHeight json session.network) = [1] := by
    rfl
  rw [latestChainHeight, hstatus]
  simp only [List.mergeSort_singleton]
  rfl

theorem path_eq : subgroveDataPath "sg" = Grove.Sample.path := by
  decide

theorem key_eq : utf8 "k" = Grove.Sample.key := by
  decide

theorem servedProof_eq (debug : String → String) :
    servedProof json debug "k" .proof = .ok (Grove.Sample.proof, 1) := by
  have hlen : ¬ (utf8 (Hex.text Grove.Sample.proof)).length > 2 * Grove.maxProofBytes := by
    rw [utf8, Hex.utf8_encode]
    decide +kernel
  have hdecode : Hex.decode (utf8 (Hex.text Grove.Sample.proof)) = .ok Grove.Sample.proof :=
    Hex.decode_encode _
  have hhex : (json.get .proof "proof").bind json.asStr = some (Hex.text Grove.Sample.proof) := rfl
  have hheight : ((json.get .proof "height").bind json.asU64).filter (· > 0) = some 1 := rfl
  simp only [servedProof, Outcome.bind_eq_ok, Outcome.okOr_eq_ok, Outcome.refuse_eq_ok,
    Outcome.mapError_eq_ok]
  exact ⟨_, hhex, 1, hheight, hlen, _, hdecode, rfl⟩

theorem verified (debug : String → String) :
    getVerified json Grove.Sample.deps rootBytes session debug "sg" "k" = .ok ⟨.one, 2⟩ := by
  have hproven : provenValue json Grove.Sample.deps session debug "sg" "k" =
      .ok (.one, Grove.Sample.state.root Grove.Sample.hashing, 1) := by
    have hserved : servedValue json Grove.Sample.value = .one := rfl
    simp only [provenValue, Outcome.bind_eq_ok, Outcome.okOr_eq_ok, Outcome.refuse_eq_ok,
      Prod.exists, path_eq, key_eq]
    exact ⟨(), rfl, _, rfl, .one, rfl, _, rfl, .proof, rfl, _, _, servedProof_eq debug, _, _,
      Grove.Sample.accepted, by simp [hserved], by rw [hserved]⟩
  have hrecent : verifyRootAfter json client session.network root 1 = .ok 2 := by
    have hcarried : appHashAfter json client session.network 1 = .ok root := rfl
    have hlag : client.config.maxProofLagBlocks = 20 := rfl
    rw [verifyRootAfter_eq latest]
    simp [hcarried, hlag, Checked.lift, Bind.bind, Except.bind, u64Max]
  rw [getVerified, hproven]
  show verifyRootAfter json client session.network root 1 >>= _ = _
  rw [hrecent]
  rfl

def debug (s : String) : String := s!"\"{s}\""

end Sample

theorem get_verified_sound_sample :
    ∃ bytes, Grove.Sample.state.StoresItem (Grove.decodeElement Grove.Sample.deps)
      (subgroveDataPath "sg") (utf8 "k") bytes ∧ servedValue Sample.json bytes = .one :=
  (get_verified_sound Sample.json Grove.Sample.deps Sample.rootBytes Sample.session Sample.debug "sg"
    "k" Grove.Sample.hashing Sample.client Sample.appHashes 2 ⟨.one, 2⟩ Grove.Sample.hashing_sound
    Grove.Sample.verifyContract Sample.rootBytes_injective rfl Sample.reports Sample.latest
    (Sample.verified Sample.debug)).2 Grove.Sample.state rfl Grove.Sample.uniqueKeys
    (Sample.path_eq ▸ Grove.Sample.subtreesOrNothing) (Sample.path_eq ▸ Grove.Sample.onlyItems)

end Data
end WillowSdk
