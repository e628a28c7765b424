/-
# Recent state roots

`LightClient::latest_chain_height`, `app_hash_after`, `app_hash_at` and
`verify_root_after` (src/light_client.rs). A root is accepted when the header
after the proof's block carries it, and either that block is within the lag
of the chain's latest height or a header within the lag still carries it.

Only the latest header and the oldest within the lag are read for the second
case. That decides it for every header in between, because the headers that
carry a root are one run of heights (`verify_root_after_recency`).
-/
import WillowSdk.HttpBody
import WillowSdk.Lib.Hex
import WillowSdk.Lib.Text
import WillowSdk.Lib.Utf8
import WillowSdk.Machine

namespace WillowSdk
namespace LightClient

variable {V : Type}

/-- The settings that verified reads use. -/
structure LightClientConfig where
  validatorEndpoints : List String
  minValidatorsForConsensus : ℕ
  maxProofLagBlocks : ℕ

structure Header where
  height : UInt64
  appHash : Bytes
deriving DecidableEq

structure LightBlock where
  header : Header
deriving DecidableEq

/-- A light client: its settings, and the headers it holds, a map from
heights in order. -/
structure Client where
  config : LightClientConfig
  headers : List (ℕ × LightBlock)

/-- What the endpoints answer: the JSON body for a URL, if there is one within
the size cap. `attempt` numbers the rounds of requests, and `waits` is how
many rounds end before the deadline. -/
structure Network (V : Type) where
  get : (attempt : ℕ) → (url : String) → Option V
  waits : ℕ

section Rule

variable (json : Json V) (client : Client) (net : Network V)

def getLatestHeader : Option LightBlock := client.headers.getLast?.map Prod.snd

def getHeaderByHeight (height : ℕ) : Option LightBlock :=
  (client.headers.find? fun e => e.1 = height).map Prod.snd

def endpointUrl (endpoint suffix : String) : String :=
  String.ofList (Text.trimEndMatches endpoint.toList '/') ++ suffix

/-- The latest height `endpoint`'s `/status` reports. -/
def fetchStatusHeight (endpoint : String) : Option ℕ := do
  let body ← net.get 0 (endpointUrl endpoint "/status")
  let height ← json.path body ["result", "sync_info", "latest_block_height"]
  let height ← json.asStr height
  (Text.parseUnsigned u64Max height.toList).filter (· > 0)

/-- The `app_hash` of the header at exactly `height`, from `endpoint`'s
`/commit`. -/
def fetchAppHashAt (attempt : ℕ) (endpoint : String) (height : ℕ) : Option Bytes := do
  let body ← net.get attempt (endpointUrl endpoint s!"/commit?height={height}")
  let header ← json.path body ["result", "signed_header", "header"]
  let served ← json.get header "height"
  let served ← json.asStr served
  let servedHeight ← Text.parseUnsigned u64Max served.toList
  let appHash ← json.get header "app_hash"
  let appHash ← json.asStr appHash
  let appHash ← (Hex.decode (Utf8.encode appHash)).toOption
  if servedHeight = height ∧ appHash.length = 32 then some appHash else none

/-- The first endpoint's answer at one round. -/
def fetchAppHash (attempt : ℕ) (height : ℕ) : Option Bytes :=
  client.config.validatorEndpoints.findSome? fun endpoint =>
    fetchAppHashAt json net attempt endpoint height

/-- The rounds of `app_hash_after`, `waits` of them before the deadline. -/
def waitForAppHash (height : ℕ) : (attempt waits : ℕ) → Option Bytes
  | attempt, 0 => fetchAppHash json client net attempt (height + 1)
  | attempt, waits + 1 =>
    match fetchAppHash json client net attempt (height + 1) with
    | some appHash => some appHash
    | none => waitForAppHash height (attempt + 1) waits

/-- The GroveDB root of the state after block `height`: the `app_hash` in the
header of block `height + 1`. -/
def appHashAfter (height : ℕ) : Result Bytes :=
  if height + 1 > u64Max then .error (.lightClient s!"no block after height {height}")
  else
    match getHeaderByHeight client (height + 1) with
    | some block => .ok block.header.appHash
    | none =>
      if client.config.validatorEndpoints = [] then
        .error (.lightClient "No validator endpoints configured")
      else Outcome.okOr (waitForAppHash json client net height 0 net.waits) (.lightClient
        s!"no header at height {height + 1} (the state after block {height}) from any validator endpoint")

/-- The `app_hash` of the header at exactly `height`: a header this client
holds, else the first endpoint's that serves it. -/
def appHashAt (height : ℕ) : Result Bytes :=
  match getHeaderByHeight client height with
  | some block => .ok block.header.appHash
  | none => Outcome.okOr (fetchAppHash json client net (net.waits + 1) height) (.lightClient
      s!"no header at height {height} from any validator endpoint")

/-- The chain's latest height as the endpoints report it: the highest that a
majority of those that answer, and at least the configured number, have
reached, or that of the latest header held if it is higher. -/
def latestChainHeight : Checked ℕ := do
  let heights := client.config.validatorEndpoints.filterMap (fetchStatusHeight json net)
  let needed := max client.config.minValidatorsForConsensus 1
  if heights.length < needed then
    Checked.refuse (.lightClient
      s!"{heights.length} validator endpoints reported the latest height; {needed} are needed")
  else
    -- highest first: the k-th has been reached by k endpoints
    let sorted := heights.mergeSort (fun a b => b ≤ a)
    let rank ← Checked.sub (max needed (sorted.length / 2 + 1)) 1
    let reached ← Checked.index sorted rank
    let held := (getLatestHeader client).elim 0 fun block => block.header.height.toNat
    .ok (max reached held)

/-- The first of some headers that carries `root`. -/
def firstCarrying (root : Bytes) : List ℕ → Checked (Option ℕ)
  | [] => .ok none
  | header :: headers => do
    let appHash ← Checked.lift (appHashAt json client net header)
    if appHash = root then .ok (some header) else firstCarrying root headers

def behindError (height latest behind lag : ℕ) : WillowError :=
  .proofHeightOutOfRange
    s!"the proof is of the state after block {height}, {behind} blocks behind the chain's latest height {latest}, and the chain has changed it since: no header within {lag} blocks carries its root (max_proof_lag_blocks)"

/-- The end of `verify_root_after`, for a state older than the lag: the
height of a header within the lag that carries `root`. -/
def stillHeld (root : Bytes) (height latest : ℕ) : Checked ℕ := do
  let lag := client.config.maxProofLagBlocks
  let carrying ← if lag > 0 then do
      let behind ← Checked.sub latest lag
      let oldest ← Checked.add behind 1
      firstCarrying json client net root [latest, oldest]
    else .ok none
  match carrying with
  | some header => .ok header
  | none =>
    let behind ← Checked.sub latest height
    Checked.refuse (behindError height latest behind lag)

def aheadError (height latest ahead lag : ℕ) : WillowError :=
  .proofHeightOutOfRange
    s!"the proof is of the state after block {height}, {ahead} blocks ahead of the chain's latest height {latest}; at most {lag} is accepted (max_proof_lag_blocks)"

def mismatchError (root : Bytes) (height : ℕ) (carried : Bytes) : WillowError :=
  .proofVerificationFailed
    s!"Root hash mismatch: the proof computes {Hex.text root} but the header after block {height} has app hash {Hex.text carried}"

/-- Check that `root` is the chain's state after block `height`, and recent;
return the height of the header found to carry it. -/
def verifyRootAfter (root : Bytes) (height : ℕ) : Checked ℕ := do
  let lag := client.config.maxProofLagBlocks
  let latest ← latestChainHeight json client net
  -- 0 unless the proof is ahead of the chain
  let ahead ← if height > latest then Checked.sub height latest else .ok 0
  if ahead > lag then
    Checked.refuse (aheadError height latest ahead lag)
  else if height + 1 > u64Max then
    Checked.refuse (.lightClient s!"no block after height {height}")
  else
    let carried ← Checked.lift (appHashAfter json client net height)
    if carried ≠ root then
      Checked.refuse (mismatchError root height carried)
    else if latest - height ≤ lag then .ok (height + 1)
    else stillHeld json client net root height latest

/-! ### Heights stay in range -/

variable {json client net} {root : Bytes} {height L : ℕ}

theorem fetchStatusHeight_le {endpoint : String} {h : ℕ}
    (hs : fetchStatusHeight json net endpoint = some h) : h ≤ u64Max := by
  simp only [fetchStatusHeight, Option.bind_eq_bind, Option.bind_eq_some_iff,
    Option.filter_eq_some_iff] at hs
  obtain ⟨_, -, _, -, _, -, hp, -⟩ := hs
  exact Text.parseUnsigned_le hp

/-- The rank of the height a majority has reached is one of the heights'. -/
theorem latestChainHeight_rank {heights : List ℕ} {needed : ℕ} (hn : 1 ≤ needed)
    (h : needed ≤ heights.length) : max needed (heights.length / 2 + 1) - 1 < heights.length := by
  omega

theorem latestChainHeight_le (h : latestChainHeight json client net = .ok L) : L ≤ u64Max := by
  simp only [latestChainHeight, Checked.refuse, Outcome.refuse_eq_ok, Outcome.bind_eq_ok,
    Checked.index, Outcome.okOr_eq_ok, Except.ok.injEq] at h
  obtain ⟨-, rank, -, reached, hr, rfl⟩ := h
  have hreached : reached ≤ u64Max := by
    have hmem := List.mem_mergeSort.mp (List.mem_of_getElem? hr)
    obtain ⟨endpoint, -, he⟩ := List.mem_filterMap.mp hmem
    exact fetchStatusHeight_le he
  have hheld : ((getLatestHeader client).elim 0 fun block => block.header.height.toNat) ≤ u64Max := by
    cases getLatestHeader client with
    | none => exact Nat.zero_le _
    | some block =>
      have hlt : block.header.height.toNat < 2 ^ 64 := block.header.height.toNat_lt
      rw [Option.elim, u64Max]
      omega
  exact max_le hreached hheld

theorem latestChainHeight_noPanic : Checked.NoPanic (latestChainHeight json client net) := by
  rw [latestChainHeight]
  generalize client.config.validatorEndpoints.filterMap (fetchStatusHeight json net) = heights
  by_cases hlen : heights.length < max client.config.minValidatorsForConsensus 1
  · simp [hlen]
  · have hrank := latestChainHeight_rank (le_max_right _ _) (Nat.le_of_not_lt hlen)
    simp only [if_neg hlen, List.length_mergeSort]
    rw [Checked.sub_bind (by omega), Checked.index_bind (by rwa [List.length_mergeSort])]
    exact Checked.noPanic_ok _

/-! ### The recency rule -/

theorem firstCarrying_noPanic (headers : List ℕ) :
    Checked.NoPanic (firstCarrying json client net root headers) := by
  induction headers with
  | nil => exact Checked.noPanic_ok _
  | cons header headers ih =>
    refine (Checked.noPanic_lift _).bind fun appHash _ => ?_
    by_cases h : appHash = root
    · simp [h]
    · simpa [h] using ih

theorem firstCarrying_some {headers : List ℕ} {h : ℕ}
    (hf : firstCarrying json client net root headers = .ok (some h)) :
    h ∈ headers ∧ appHashAt json client net h = .ok root := by
  induction headers with
  | nil => simp [firstCarrying] at hf
  | cons header headers ih =>
    simp only [firstCarrying, Outcome.bind_eq_ok, Checked.lift_eq_ok] at hf
    obtain ⟨appHash, ha, hf⟩ := hf
    by_cases hr : appHash = root
    · subst hr
      rw [if_pos rfl] at hf
      obtain rfl : header = h := Option.some.inj (Except.ok.inj hf)
      exact ⟨List.mem_cons_self, ha⟩
    · rw [if_neg hr] at hf
      obtain ⟨hm, hat⟩ := ih hf
      exact ⟨List.mem_cons_of_mem _ hm, hat⟩

variable (root) in
/-- If every header is there, one carries the root or none does. -/
theorem firstCarrying_cases {headers : List ℕ}
    (hall : ∀ h ∈ headers, ∃ v, appHashAt json client net h = .ok v) :
    (∃ h, firstCarrying json client net root headers = .ok (some h)) ∨
      firstCarrying json client net root headers = .ok none ∧
        ∀ h ∈ headers, appHashAt json client net h ≠ .ok root := by
  induction headers with
  | nil => exact .inr ⟨rfl, by simp⟩
  | cons header headers ih =>
    obtain ⟨⟨v, hv⟩, htail⟩ := List.forall_mem_cons.mp hall
    have hstep : firstCarrying json client net root (header :: headers) =
        if v = root then .ok (some header) else firstCarrying json client net root headers := by
      simp [firstCarrying, hv, Checked.lift, Bind.bind, Except.bind]
    rw [hstep]
    by_cases hr : v = root
    · rw [if_pos hr]
      exact .inl ⟨header, rfl⟩
    · rw [if_neg hr]
      rcases ih htail with h | ⟨h, hno⟩
      · exact .inl h
      · have hhead : appHashAt json client net header ≠ .ok root := by
          rw [hv]
          intro he
          exact hr (Except.ok.inj he)
        exact .inr ⟨h, List.forall_mem_cons.mpr ⟨hhead, hno⟩⟩

/-- The headers read past the lag. -/
def window (latest lag : ℕ) : List ℕ := if lag > 0 then [latest, latest - lag + 1] else []

theorem mem_window {lag h : ℕ} (hlag : lag < L) (hm : h ∈ window L lag) :
    L + 1 ≤ h + lag ∧ h ≤ L := by
  unfold window at hm
  split at hm
  · have hends : h = L ∨ h = L - lag + 1 := by simpa using hm
    omega
  · cases hm

/-- Past the lag, no arithmetic step goes out of range. -/
theorem stillHeld_eq (hL : L ≤ u64Max) (hold : L - height > client.config.maxProofLagBlocks) :
    stillHeld json client net root height L = (do
      let lag := client.config.maxProofLagBlocks
      let carrying ← firstCarrying json client net root (window L lag)
      match carrying with
      | some header => .ok header
      | none => Checked.refuse (behindError height L (L - height) lag)) := by
  have hheight : height ≤ L := by omega
  rw [stillHeld]
  by_cases hlag : client.config.maxProofLagBlocks > 0
  · have hle : client.config.maxProofLagBlocks ≤ L := by omega
    have hoverflow : L - client.config.maxProofLagBlocks + 1 ≤ u64Max := by omega
    simp only [if_pos hlag, window]
    rw [Checked.sub_bind hle, Checked.add_bind hoverflow]
    simp only [Checked.sub_bind hheight]
  · simp only [if_neg hlag, window, firstCarrying, Checked.sub_bind hheight]

theorem stillHeld_noPanic (hL : L ≤ u64Max) (hold : L - height > client.config.maxProofLagBlocks) :
    Checked.NoPanic (stillHeld json client net root height L) := by
  rw [stillHeld_eq hL hold]
  refine (firstCarrying_noPanic _).bind fun carrying _ => ?_
  cases carrying <;> simp

/-- `verify_root_after`, its arithmetic done. -/
theorem verifyRootAfter_eq (hL : latestChainHeight json client net = .ok L) :
    verifyRootAfter json client net root height =
      (let lag := client.config.maxProofLagBlocks
      if height - L > lag then Checked.refuse (aheadError height L (height - L) lag)
      else if height + 1 > u64Max then Checked.refuse (.lightClient s!"no block after height {height}")
      else do
        let carried ← Checked.lift (appHashAfter json client net height)
        if carried ≠ root then Checked.refuse (mismatchError root height carried)
        else if L - height ≤ lag then .ok (height + 1)
        else stillHeld json client net root height L) := by
  rw [verifyRootAfter, hL]
  by_cases h : height > L
  · simp only [if_pos h, Bind.bind, Except.bind]
    have hsub : Checked.sub height L = .ok (height - L) := by
      rw [Checked.sub, if_neg (Nat.not_lt.mpr h.le)]
    rw [hsub]
  · simp only [if_neg h, Bind.bind, Except.bind]
    have hzero : height - L = 0 := by omega
    rw [hzero]

theorem verifyRootAfter_noPanic : Checked.NoPanic (verifyRootAfter json client net root height) := by
  cases hL : latestChainHeight json client net with
  | error e =>
    intro h
    rw [verifyRootAfter, hL] at h
    have hpanic : e = .panic := by simpa [Bind.bind, Except.bind] using h
    rw [hpanic] at hL
    exact latestChainHeight_noPanic hL
  | ok L =>
    simp only [verifyRootAfter_eq hL]
    split
    · exact Checked.noPanic_refuse _
    split
    · exact Checked.noPanic_refuse _
    refine (Checked.noPanic_lift _).bind fun carried _ => ?_
    split
    · exact Checked.noPanic_refuse _
    split
    · exact Checked.noPanic_ok _
    case isFalse hold => exact stillHeld_noPanic (latestChainHeight_le hL) (by omega)

/-- The header a stale state is accepted for is within the lag and carries its root. -/
theorem stillHeld_sound {h : ℕ} (hL : L ≤ u64Max)
    (hold : L - height > client.config.maxProofLagBlocks)
    (hh : stillHeld json client net root height L = .ok h) :
    appHashAt json client net h = .ok root ∧
      L + 1 ≤ h + client.config.maxProofLagBlocks ∧ h ≤ L := by
  simp only [stillHeld_eq hL hold, Outcome.bind_eq_ok] at hh
  obtain ⟨carrying, hf, hh⟩ := hh
  cases carrying with
  | none => simp [Checked.refuse] at hh
  | some header =>
    obtain rfl : header = h := by simpa using hh
    obtain ⟨hm, hat⟩ := firstCarrying_some hf
    have hlag : client.config.maxProofLagBlocks < L := by omega
    exact ⟨hat, mem_window hlag hm⟩

/-- What is accepted is the root of the header after the block, and of the
header returned, which is within the lag. -/
theorem verifyRootAfter_sound {h : ℕ} (hL : latestChainHeight json client net = .ok L)
    (hh : verifyRootAfter json client net root height = .ok h) :
    height < u64Max ∧ height ≤ L + client.config.maxProofLagBlocks ∧
    appHashAfter json client net height = .ok root ∧
    (h = height + 1 ∨ appHashAt json client net h = .ok root ∧ h ≤ L) ∧
    L + 1 ≤ h + client.config.maxProofLagBlocks := by
  rw [verifyRootAfter_eq hL] at hh
  simp only [Checked.refuse, Outcome.refuse_eq_ok, Outcome.bind_eq_ok, Checked.lift_eq_ok,
    not_not] at hh
  obtain ⟨hahead, hmax, carried, hc, rfl, hh⟩ := hh
  refine ⟨by omega, by omega, hc, ?_⟩
  split at hh
  case isTrue hlag =>
    obtain rfl : height + 1 = h := by simpa using hh
    exact ⟨.inl rfl, by omega⟩
  case isFalse hold =>
    obtain ⟨hat, hle, hh⟩ := stillHeld_sound (latestChainHeight_le hL) (by omega) hh
    exact ⟨.inr ⟨hat, hh⟩, hle⟩

/-- The headers there are have the app hashes `A`. -/
structure Reports (json : Json V) (client : Client) (net : Network V) (A : ℕ → Bytes) : Prop where
  after : ∀ {h v}, appHashAfter json client net h = .ok v → v = A (h + 1)
  at_ : ∀ {h v}, appHashAt json client net h = .ok v → v = A h

/-- Headers held are all there is to report, if no endpoint serves one. -/
theorem Reports.of_held {A : ℕ → Bytes}
    (hnone : ∀ attempt h, fetchAppHash json client net attempt h = none) (hwaits : net.waits = 0)
    (hheld : ∀ h block, getHeaderByHeight client h = some block → block.header.appHash = A h) :
    Reports json client net A where
  after {h v} hv := by
    simp only [appHashAfter, Outcome.refuse_eq_ok] at hv
    cases hblock : getHeaderByHeight client (h + 1) with
    | some block =>
      rw [hblock] at hv
      obtain ⟨-, hv⟩ := hv
      rw [← Except.ok.inj hv]
      exact hheld _ _ hblock
    | none => simp [hblock, hwaits, waitForAppHash, hnone] at hv
  at_ {h v} hv := by
    rw [appHashAt] at hv
    cases hblock : getHeaderByHeight client h with
    | some block =>
      rw [hblock] at hv
      rw [← Except.ok.inj hv]
      exact hheld _ _ hblock
    | none => simp [hblock, hnone] at hv

/-- Some header within the lag carries the root. -/
def CarriedWithin (A : ℕ → Bytes) (root : Bytes) (L lag : ℕ) : Prop :=
  ∃ G, L + 1 ≤ G + lag ∧ G ≤ L ∧ A G = root

/-- The headers from `first` up that carry the root are at consecutive heights. -/
def OneRun (A : ℕ → Bytes) (root : Bytes) (first : ℕ) : Prop :=
  ∀ a b c, first ≤ a → a ≤ b → b ≤ c → A a = root → A c = root → A b = root

/-- Of the headers within the lag, the two read decide whether any carries
the root, if those that carry it are one run from the header after the block. -/
theorem stillHeld_complete {A : ℕ → Bytes} (hA : Reports json client net A) (hL : L ≤ u64Max)
    (hold : L - height > client.config.maxProofLagBlocks)
    (hall : ∀ h, height < h → h ≤ L → ∃ v, appHashAt json client net h = .ok v)
    (hnext : A (height + 1) = root) (hrun : OneRun A root (height + 1)) :
    (CarriedWithin A root L client.config.maxProofLagBlocks →
      ∃ h, stillHeld json client net root height L = .ok h) ∧
    (¬ CarriedWithin A root L client.config.maxProofLagBlocks →
      ∃ m, stillHeld json client net root height L = .error (.error (.proofHeightOutOfRange m))) := by
  have hlag : client.config.maxProofLagBlocks < L := by omega
  have hwin : ∀ h ∈ window L client.config.maxProofLagBlocks,
      L + 1 ≤ h + client.config.maxProofLagBlocks ∧ h ≤ L := fun h hm => mem_window hlag hm
  have hread : ∀ h ∈ window L client.config.maxProofLagBlocks,
      ∃ v, appHashAt json client net h = .ok v := by
    intro h hm
    obtain ⟨hlow, hhigh⟩ := hwin h hm
    exact hall h (by omega) hhigh
  simp only [stillHeld_eq hL hold]
  rcases firstCarrying_cases root hread with ⟨h, hf⟩ | ⟨hf, hno⟩
  · rw [hf]
    refine ⟨fun _ => ⟨h, rfl⟩, fun hnot => absurd ?_ hnot⟩
    obtain ⟨hm, hath⟩ := firstCarrying_some hf
    obtain ⟨hlow, hhigh⟩ := hwin h hm
    exact ⟨h, hlow, hhigh, (hA.at_ hath).symm⟩
  · rw [hf]
    refine ⟨?_, fun _ => ⟨_, rfl⟩⟩
    -- a header within the lag is at or above the oldest, which is above the next one
    intro hwithin
    obtain ⟨G, hG, hGL, hAG⟩ := hwithin
    have holdest : L - client.config.maxProofLagBlocks + 1 ∈
        window L client.config.maxProofLagBlocks := by
      simp only [window, if_pos (show client.config.maxProofLagBlocks > 0 by omega)]
      exact List.mem_cons_of_mem _ List.mem_cons_self
    have hAold : A (L - client.config.maxProofLagBlocks + 1) = root :=
      hrun (height + 1) _ G le_rfl (by omega) (by omega) hnext hAG
    obtain ⟨v, hv⟩ := hread _ holdest
    have hvroot : v = root := (hA.at_ hv).trans hAold
    rw [hvroot] at hv
    exact absurd hv (hno _ holdest)

/-- **The recency rule is sound and complete.** With `A` the app hashes of the
headers and `L` the latest height: what is accepted is carried by the header
after the block and by the header returned, which is within the lag, and
nothing more than the lag ahead is accepted. Where the header after the block
carries the root, and those that do are one run, it is accepted if the block
is within the lag or a header within the lag carries the root, and refused as
out of range otherwise. No arithmetic step ever goes out of range. -/
theorem verify_root_after_recency (json : Json V) (client : Client) (net : Network V) :
    (∀ root height, Checked.NoPanic (verifyRootAfter json client net root height)) ∧
    ∀ (A : ℕ → Bytes) (L : ℕ), Reports json client net A →
      latestChainHeight json client net = .ok L →
      ∀ (root : Bytes) (height : ℕ),
        (∀ h, verifyRootAfter json client net root height = .ok h →
          A (height + 1) = root ∧ A h = root ∧ L + 1 ≤ h + client.config.maxProofLagBlocks) ∧
        (L + client.config.maxProofLagBlocks < height →
          ∀ h, verifyRootAfter json client net root height ≠ .ok h) ∧
        ((∃ v, appHashAfter json client net height = .ok v) →
          (∀ h, height < h → h ≤ L → ∃ v, appHashAt json client net h = .ok v) →
          A (height + 1) = root → height ≤ L + client.config.maxProofLagBlocks →
          OneRun A root (height + 1) →
          (L - height ≤ client.config.maxProofLagBlocks ∨
              CarriedWithin A root L client.config.maxProofLagBlocks →
            ∃ h, verifyRootAfter json client net root height = .ok h) ∧
          (¬ (L - height ≤ client.config.maxProofLagBlocks ∨
              CarriedWithin A root L client.config.maxProofLagBlocks) →
            ∃ m, verifyRootAfter json client net root height =
              .error (.error (.proofHeightOutOfRange m)))) := by
  refine ⟨fun root height => verifyRootAfter_noPanic, ?_⟩
  intro A L hA hL root height
  refine ⟨fun h hh => ?_, fun hahead h hh => ?_, fun hv hall hnext hle hrun => ?_⟩
  · obtain ⟨-, -, hc, hor, hle⟩ := verifyRootAfter_sound hL hh
    refine ⟨(hA.after hc).symm, ?_, hle⟩
    rcases hor with rfl | ⟨hath, -⟩
    · exact (hA.after hc).symm
    · exact (hA.at_ hath).symm
  · obtain ⟨-, hle, -⟩ := verifyRootAfter_sound hL hh
    omega
  · obtain ⟨v, hv⟩ := hv
    obtain rfl : v = root := (hA.after hv).trans hnext
    have hmax : ¬ height + 1 > u64Max := by
      intro h
      simp [appHashAfter, h] at hv
    have hahead : ¬ height - L > client.config.maxProofLagBlocks := by omega
    have heq : verifyRootAfter json client net v height =
        if L - height ≤ client.config.maxProofLagBlocks then .ok (height + 1)
        else stillHeld json client net v height L := by
      rw [verifyRootAfter_eq hL]
      simp only [if_neg hahead, if_neg hmax, hv]
      simp [Checked.lift, Bind.bind, Except.bind]
    rw [heq]
    by_cases hlag : L - height ≤ client.config.maxProofLagBlocks
    · simp [hlag]
    · have hold : L - height > client.config.maxProofLagBlocks := by omega
      simp only [hlag, false_or]
      exact stillHeld_complete hA (latestChainHeight_le hL) hold hall hnext hrun

end Rule

namespace Sample

/-- A body is its own value at every name but `app_hash`, which it lacks. -/
def json : Json String where
  get v name := if name = "app_hash" then none else some v
  asStr v := some v
  asU64 _ := none
  fromSlice _ := none
  hexObject text := text

/-- One endpoint; the headers at 2 and 3, with one app hash. -/
def client : Client where
  config := ⟨["http://node"], 1, 1⟩
  headers := [(2, ⟨⟨2, [7]⟩⟩), (3, ⟨⟨3, [7]⟩⟩)]

/-- The endpoint is at height 3. -/
def net : Network String := ⟨fun _ _ => some "3", 0⟩

def appHashes (h : ℕ) : Bytes := if h = 2 ∨ h = 3 then [7] else []

theorem reports : Reports json client net appHashes :=
  .of_held (fun _ _ => rfl) rfl fun h block hb => by
    by_cases h2 : h = 2
    · subst h2
      cases hb
      rfl
    · by_cases h3 : h = 3
      · subst h3
        cases hb
        rfl
      · simp [getHeaderByHeight, client, eq_comm (b := h), h2, h3] at hb

theorem latest : latestChainHeight json client net = .ok 3 := by
  have hstatus : client.config.validatorEndpoints.filterMap (fetchStatusHeight json net) = [3] := by
    rfl
  rw [latestChainHeight, hstatus]
  simp only [List.mergeSort_singleton]
  rfl

theorem oneRun : OneRun appHashes [7] 2 := by
  intro a b c _ hab hbc _ hc
  have hc' : c = 2 ∨ c = 3 := by
    by_contra h
    simp [appHashes, h] at hc
  have : b = 2 ∨ b = 3 := by omega
  simp [appHashes, this]

end Sample

/-- A state two blocks old, with a lag of one, that the latest header still carries. -/
theorem verify_root_after_recency_sample :
    ∃ h, verifyRootAfter Sample.json Sample.client Sample.net [7] 1 = .ok h := by
  refine ((((verify_root_after_recency Sample.json Sample.client Sample.net).2 Sample.appHashes 3
    Sample.reports Sample.latest [7] 1).2.2 ⟨[7], rfl⟩ ?_ rfl (by decide) Sample.oneRun).1
    (.inr ⟨3, by decide, le_rfl, rfl⟩))
  intro h hlow hhigh
  obtain rfl | rfl : h = 2 ∨ h = 3 := by omega
  · exact ⟨[7], rfl⟩
  · exact ⟨[7], rfl⟩

end LightClient
end WillowSdk
