/-
# Reading what a node serves

`data().get` (src/data.rs) and `LightClient::verify_item`
(src/light_client.rs) against a node that serves the state it has: the value
of an item, the proof grovedb makes of it, and the height the proof is of.

A read of a stored item verifies exactly if the proof is at most 1 MiB and
the state recent (`stored_item_reads_iff`); what it is refused for is never
the item. `verify_item` accepts the served proof of a value at a height, and,
on a path where no item passes for a subtree, no bytes at all for a value that
the state after the height doesn't store (`verify_item_iff`).
-/
import WillowSdk.Data
import WillowSdk.Grove.Served

namespace WillowSdk
namespace VerifiedReads

open Data
open Grove (fail Hashing Merk GroveDBProofV0)
open LightClient

variable {V D : Type}

/-! ### Recent roots -/

section Recent

variable {json : Json V} {client : Client} {net : Network V} {root : Bytes} {height L : ℕ}

/-- The state after block `height` is at most the lag ahead, and it is at most
the lag behind or a header within the lag carries it still. -/
def Recent (A : ℕ → Bytes) (root : Bytes) (L lag height : ℕ) : Prop :=
  height ≤ L + lag ∧ (L - height ≤ lag ∨ CarriedWithin A root L lag)

/-- The headers read are the chain's, and none is missing from the one after
the block to the latest. -/
structure Follows (json : Json V) (client : Client) (net : Network V) (A : ℕ → Bytes)
    (L height : ℕ) : Prop where
  reports : Reports json client net A
  latest : latestChainHeight json client net = .ok L
  after : ∃ v, appHashAfter json client net height = .ok v
  between : ∀ h, height < h → h ≤ L → ∃ v, appHashAt json client net h = .ok v

theorem verifyRootAfter_iff {A : ℕ → Bytes} (hA : Follows json client net A L height)
    (hnext : A (height + 1) = root) (hrun : OneRun A root (height + 1)) :
    (∃ h, verifyRootAfter json client net root height = .ok h) ↔
      Recent A root L client.config.maxProofLagBlocks height := by
  obtain ⟨v, hv⟩ := hA.after
  obtain rfl : v = root := (hA.reports.after hv).trans hnext
  refine ⟨fun h => ?_, fun h => ?_⟩
  · obtain ⟨h, hh⟩ := h
    obtain ⟨-, hahead, -, hor, hle⟩ := verifyRootAfter_sound hA.latest hh
    refine ⟨hahead, ?_⟩
    rcases hor with rfl | ⟨hat, hhigh⟩
    · exact .inl (by omega)
    · exact .inr ⟨h, hle, hhigh, (hA.reports.at_ hat).symm⟩
  · obtain ⟨hahead, hrecent⟩ := h
    have hmax : ¬ height + 1 > u64Max := by
      intro h
      simp [appHashAfter, h] at hv
    have heq : verifyRootAfter json client net v height =
        if L - height ≤ client.config.maxProofLagBlocks then .ok (height + 1)
        else stillHeld json client net v height L := by
      rw [verifyRootAfter_eq hA.latest]
      simp only [if_neg (show ¬ height - L > client.config.maxProofLagBlocks by omega), if_neg hmax,
        hv]
      simp [Checked.lift, Bind.bind, Except.bind]
    rw [heq]
    by_cases hlag : L - height ≤ client.config.maxProofLagBlocks
    · exact ⟨_, if_pos hlag⟩
    · rw [if_neg hlag]
      have hold : L - height > client.config.maxProofLagBlocks := by omega
      exact (stillHeld_complete hA.reports (latestChainHeight_le hA.latest) hold hA.between hnext
        hrun).1 (hrecent.resolve_left hlag)

end Recent

/-! ### The value a node serves -/

section Served

variable (json : Json V) (deps : Grove.Deps D) (H : Hashing D) (state : Merk D)
  (session : Session V) (subgroveId key : String) (item : Bytes) (layer : Grove.LayerProof)
  (height : ℕ)

/-- The API answers a read with the item's value, the proof of it in hex, and
the height of the state both are of. -/
structure Serves : Prop where
  authenticated : session.authenticated = true
  data : session.data = .ok (some (servedValue json item))
  proof : ∃ body, session.proof = .ok (some body) ∧
    (json.get body "proof").bind json.asStr =
      some (Hex.text (GroveDBProofV0.mk layer true).encode) ∧
    (json.get body "height").bind json.asU64 = some height
  positive : 0 < height
  layers : state.Serves H deps (utf8 key) (subgroveDataPath subgroveId) layer

variable {json deps H state session subgroveId key item layer height}

theorem length_utf8_text (bytes : Bytes) : (utf8 (Hex.text bytes)).length = 2 * bytes.length := by
  rw [utf8, Hex.utf8_encode]
  unfold Hex.encodeBytes
  induction bytes with
  | nil => rfl
  | cons b bytes ih =>
    rw [List.flatMap_cons, List.length_append, ih]
    simp only [List.length_cons, List.length_nil]
    omega

theorem servedProof_eq_ok (debug : String → String) {body : V} {bytes : Bytes}
    {answer : Bytes × ℕ}
    (hproof : (json.get body "proof").bind json.asStr = some (Hex.text bytes))
    (hheight : (json.get body "height").bind json.asU64 = some height) (hpos : 0 < height) :
    servedProof json debug key body = .ok answer ↔
      bytes.length ≤ 2 ^ 20 ∧ answer = (bytes, height) := by
  have hpositive : ((json.get body "height").bind json.asU64).filter (· > 0) = some height := by
    rw [hheight, Option.filter_some, if_pos (decide_eq_true hpos)]
  have hmax : Grove.maxProofBytes = 2 ^ 20 := rfl
  have hdecode : Hex.decode (utf8 (Hex.text bytes)) = .ok bytes := Hex.decode_encode bytes
  simp only [servedProof, Outcome.bind_eq_ok, Outcome.okOr_eq_ok, Outcome.refuse_eq_ok, hproof,
    hpositive, Option.some.injEq, exists_eq_left', length_utf8_text, Outcome.mapError_eq_ok,
    hdecode, Except.ok.injEq]
  refine and_congr ?_ eq_comm
  rw [hmax]
  omega

/-- A subgrove's data tree holds only items, whatever their length. -/
theorem holdsOnlyItems_dataPath : Grove.holdsOnlyItems (subgroveDataPath subgroveId) = true := by
  simp [Grove.holdsOnlyItems, subgroveDataPath]

variable [DecidableEq V]
  (hserves : Serves json deps H state session subgroveId key item layer height)
  (hunique : state.UniqueKeys)
  (hstores : state.StoresItem (Grove.decodeElement deps) (subgroveDataPath subgroveId) (utf8 key)
    item)
  (hdecodes : state.DecodesAlong (Grove.decodeElement deps) (subgroveDataPath subgroveId))
  (hbincode : deps.decodeProof (GroveDBProofV0.mk layer true).encode =
    .ok (⟨layer, true⟩, (GroveDBProofV0.mk layer true).encode.length))
  (hgrove : Grove.AnswersItems H deps ⟨layer, true⟩ (subgroveDataPath subgroveId) (utf8 key))
include hserves hunique hstores hdecodes hbincode hgrove

/-- The value is proven exactly if its proof is short enough. -/
theorem provenValue_served (debug : String → String) {answer : V × D × ℕ} :
    provenValue json deps session debug subgroveId key = .ok answer ↔
      (GroveDBProofV0.mk layer true).encode.length ≤ 2 ^ 20 ∧
        answer = (servedValue json item, state.root H, height) := by
  obtain ⟨body, hbody, hproof, hheight⟩ := hserves.proof
  have hauth : requireAuth session.authenticated = .ok () := by
    rw [hserves.authenticated]
    rfl
  have hserved : ∀ served, servedProof json debug key body = .ok served ↔
      (GroveDBProofV0.mk layer true).encode.length ≤ 2 ^ 20 ∧
        served = ((GroveDBProofV0.mk layer true).encode, height) :=
    fun _ => servedProof_eq_ok debug hproof hheight hserves.positive
  have hitem : (GroveDBProofV0.mk layer true).encode.length ≤ 2 ^ 20 →
      Grove.verifyItemAtPath deps (GroveDBProofV0.mk layer true).encode
        (subgroveDataPath subgroveId) (utf8 key) = .ok (state.root H, item) := fun hlen =>
    Grove.served_complete hserves.layers hunique hstores hbincode hgrove hdecodes hlen
      (by simp [subgroveDataPath]) fun _ _ _ _ _ => holdsOnlyItems_dataPath
  simp only [provenValue, Outcome.bind_eq_ok, Outcome.okOr_eq_ok, Outcome.refuse_eq_ok,
    Prod.exists, hauth, hserves.data, hbody, hserved, Except.ok.injEq, exists_eq_left',
    Option.some.injEq, Prod.mk.injEq, not_not]
  refine ⟨fun h => ?_, fun h => ?_⟩
  · obtain ⟨-, -, _, _, ⟨hlen, rfl, rfl⟩, r, i, hv, -, rfl⟩ := h
    obtain ⟨rfl, rfl⟩ := Prod.mk.inj (Except.ok.inj ((hitem hlen).symm.trans hv))
    exact ⟨hlen, rfl⟩
  · obtain ⟨hlen, rfl⟩ := h
    exact ⟨(), trivial, _, _, ⟨hlen, rfl, rfl⟩, _, _, hitem hlen, rfl, rfl⟩

end Served

/-- **A read of what the node serves.** A state stores an item at a key of a
subgrove's data tree, and the API serves its value, its proof and the height;
the headers are the chain's, of which the one after the height carries the
state's root. The read verifies exactly if the proof is at most 1 MiB and the
state recent, and gives no other value. -/
theorem stored_item_reads_iff [DecidableEq V] (json : Json V) (deps : Grove.Deps D)
    (rootBytes : D → Bytes) (session : Session V) (debug : String → String)
    (subgroveId key : String) (H : Hashing D) (client : Client) (A : ℕ → Bytes) (L : ℕ)
    (state : Merk D) (item : Bytes) (layer : Grove.LayerProof) (height : ℕ)
    (hserves : Serves json deps H state session subgroveId key item layer height)
    (hunique : state.UniqueKeys)
    (hstores : state.StoresItem (Grove.decodeElement deps) (subgroveDataPath subgroveId) (utf8 key)
      item)
    (hdecodes : state.DecodesAlong (Grove.decodeElement deps) (subgroveDataPath subgroveId))
    (hbincode : deps.decodeProof (GroveDBProofV0.mk layer true).encode =
      .ok (⟨layer, true⟩, (GroveDBProofV0.mk layer true).encode.length))
    (hgrove : Grove.AnswersItems H deps ⟨layer, true⟩ (subgroveDataPath subgroveId) (utf8 key))
    (hclient : session.lightClient = .ok client)
    (hA : Follows json client session.network A L height)
    (hcommitted : A (height + 1) = rootBytes (state.root H))
    (hrun : OneRun A (rootBytes (state.root H)) (height + 1)) :
    ((∃ v, getVerified json deps rootBytes session debug subgroveId key = .ok v) ↔
      (GroveDBProofV0.mk layer true).encode.length ≤ 2 ^ 20 ∧
        Recent A (rootBytes (state.root H)) L client.config.maxProofLagBlocks height) ∧
    ∀ v, getVerified json deps rootBytes session debug subgroveId key = .ok v →
      v.value = servedValue json item ∧ L + 1 ≤ v.height + client.config.maxProofLagBlocks := by
  have hproven : ∀ {answer}, provenValue json deps session debug subgroveId key = .ok answer ↔
      (GroveDBProofV0.mk layer true).encode.length ≤ 2 ^ 20 ∧
        answer = (servedValue json item, state.root H, height) :=
    provenValue_served hserves hunique hstores hdecodes hbincode hgrove debug
  have hread : ∀ v, getVerified json deps rootBytes session debug subgroveId key = .ok v ↔
      (GroveDBProofV0.mk layer true).encode.length ≤ 2 ^ 20 ∧
        ∃ h, verifyRootAfter json client session.network (rootBytes (state.root H)) height = .ok h ∧
          v = ⟨servedValue json item, h⟩ := by
    intro v
    simp only [getVerified, Outcome.bind_eq_ok, Checked.lift_eq_ok, hclient, Except.ok.injEq,
      exists_eq_left', Prod.exists, hproven, Prod.mk.injEq]
    refine ⟨fun h => ?_, fun h => ?_⟩
    · obtain ⟨_, _, _, ⟨hlen, rfl, rfl, rfl⟩, h, hh, rfl⟩ := h
      exact ⟨hlen, h, hh, rfl⟩
    · obtain ⟨hlen, h, hh, rfl⟩ := h
      exact ⟨_, _, _, ⟨hlen, rfl, rfl, rfl⟩, h, hh, rfl⟩
  refine ⟨?_, fun v hv => ?_⟩
  · rw [← verifyRootAfter_iff hA hcommitted hrun]
    refine ⟨fun h => ?_, fun h => ?_⟩
    · obtain ⟨v, hv⟩ := h
      obtain ⟨hlen, h, hh, -⟩ := (hread v).mp hv
      exact ⟨hlen, h, hh⟩
    · obtain ⟨hlen, h, hh⟩ := h
      exact ⟨_, (hread _).mpr ⟨hlen, h, hh, rfl⟩⟩
  · obtain ⟨-, h, hh, rfl⟩ := (hread v).mp hv
    obtain ⟨-, -, -, -, hle⟩ := verifyRootAfter_sound hA.latest hh
    exact ⟨rfl, hle⟩

/-! ### An item at a height -/

section VerifyItem

variable (json : Json V) (deps : Grove.Deps D) (rootBytes : D → Bytes) (client : Client)
  (net : Network V)

/-- Verify that a proof proves `value` at the path and key in the state after
block `height`, however old; return the root. -/
def verifyItem (proof : Bytes) (path : List Bytes) (key value : Bytes) (height : ℕ) :
    Result D := do
  let (root, item) ← Grove.verifyItemAtPath deps proof path key
  if item ≠ value then .error (fail "the proof proves another value at the path and key")
  else
    let trusted ← appHashAfter json client net height
    if rootBytes root ≠ trusted then
      .error (fail
        s!"Root hash mismatch: the proof computes {Hex.text (rootBytes root)} but the header after block {height} has app hash {Hex.text trusted}")
    else .ok root

variable {json deps rootBytes client net}

theorem verifyItem_eq_ok {proof : Bytes} {path : List Bytes} {key value : Bytes} {height : ℕ}
    {root : D} :
    verifyItem json deps rootBytes client net proof path key value height = .ok root ↔
      Grove.verifyItemAtPath deps proof path key = .ok (root, value) ∧
        appHashAfter json client net height = .ok (rootBytes root) := by
  simp only [verifyItem, Outcome.bind_eq_ok, Outcome.refuse_eq_ok, Prod.exists, not_not,
    Except.ok.injEq]
  refine ⟨fun h => ?_, fun h => ?_⟩
  · obtain ⟨_, _, hitem, rfl, _, htrusted, rfl, rfl⟩ := h
    exact ⟨hitem, htrusted⟩
  · obtain ⟨hitem, htrusted⟩ := h
    exact ⟨root, value, hitem, rfl, _, htrusted, rfl, rfl⟩

end VerifyItem

/-- **`verify_item` is exact at its height.** Of the state whose root the
header after the height carries: on a path with no segment that an item can
be mistaken for a subtree at, whatever bytes are accepted as a proof of a
value, the state stores the value there; and on any path the proof served of
an item the state stores is accepted for it within the bounds, and for no
other value. -/
theorem verify_item_iff (json : Json V) (deps : Grove.Deps D) (rootBytes : D → Bytes)
    (client : Client) (net : Network V) (H : Hashing D) (A : ℕ → Bytes) (state : Merk D)
    (path : List Bytes) (key : Bytes) (height : ℕ) (hH : H.Sound)
    (hverify : Grove.VerifyContract H deps) (hroot : Function.Injective rootBytes)
    (hA : Reports json client net A) (hafter : ∃ v, appHashAfter json client net height = .ok v)
    (hcommitted : A (height + 1) = rootBytes (state.root H)) (hunique : state.UniqueKeys) :
    (state.Unmistakable path →
      (Grove.holdsOnlyItems path = true → state.OnlyItemsAt (Grove.decodeElement deps) path) →
      ∀ proof value root,
        verifyItem json deps rootBytes client net proof path key value height = .ok root →
          root = state.root H ∧ state.StoresItem (Grove.decodeElement deps) path key value) ∧
    ∀ item layer, state.Serves H deps key path layer →
      state.StoresItem (Grove.decodeElement deps) path key item →
      state.DecodesAlong (Grove.decodeElement deps) path →
      deps.decodeProof (GroveDBProofV0.mk layer true).encode =
        .ok (⟨layer, true⟩, (GroveDBProofV0.mk layer true).encode.length) →
      Grove.AnswersItems H deps ⟨layer, true⟩ path key →
      ∀ value root, verifyItem json deps rootBytes client net
          (GroveDBProofV0.mk layer true).encode path key value height = .ok root ↔
        root = state.root H ∧ value = item ∧
          (GroveDBProofV0.mk layer true).encode.length ≤ 2 ^ 20 ∧ path.length ≤ 64 ∧
          ∀ tree v, state.subtreeAt path = some tree → tree.lookup key = some (.plain v) →
            v.length = 63 → Grove.holdsOnlyItems path = true := by
  have htrusted : appHashAfter json client net height = .ok (rootBytes (state.root H)) := by
    obtain ⟨v, hv⟩ := hafter
    rw [hv, hA.after hv, hcommitted]
  refine ⟨fun hpath hitems proof value root h => ?_,
    fun item layer hserves hstores hdecodes hbincode hgrove value root =>
      ⟨fun h => ?_, fun h => ?_⟩⟩
  · obtain ⟨hitem, hcarried⟩ := verifyItem_eq_ok.mp h
    have hsame : root = state.root H := hroot (Except.ok.inj (hcarried.symm.trans htrusted))
    obtain ⟨v0, layer, element, haccepted⟩ := Grove.verifyItemAtPath_eq_ok.mp hitem
    exact ⟨hsame, haccepted.stored hH hverify hsame hunique hpath hitems⟩
  · obtain ⟨hitem, -⟩ := verifyItem_eq_ok.mp h
    obtain ⟨hanswer, hbounds⟩ :=
      Grove.served_sound hserves hunique hstores hbincode hgrove hitem
    obtain ⟨rfl, rfl⟩ := Prod.mk.inj hanswer
    exact ⟨rfl, rfl, hbounds⟩
  · obtain ⟨rfl, rfl, hlen, hdepth, hunambiguous⟩ := h
    exact verifyItem_eq_ok.mpr ⟨Grove.served_complete hserves hunique hstores hbincode hgrove
      hdecodes hlen hdepth hunambiguous, htrusted⟩

/-! ### One item, served -/

namespace Sample

open Data.Sample (json rootBytes session client appHashes path_eq key_eq)
open Grove.Sample (deps hashing state rootLayer)

theorem follows : Follows json client session.network appHashes 2 1 where
  reports := Data.Sample.reports
  latest := Data.Sample.latest
  after := ⟨Data.Sample.root, rfl⟩
  between h hlow hhigh := by
    obtain rfl : h = 2 := by omega
    exact ⟨Data.Sample.root, rfl⟩

theorem serves : Serves json deps hashing state session "sg" "k" Grove.Sample.value rootLayer 1 where
  authenticated := rfl
  data := rfl
  proof := ⟨.proof, rfl, (congrArg (fun bytes => some (Hex.text bytes)) Grove.Sample.encode_v0).symm,
    rfl⟩
  positive := by decide
  layers := by
    rw [path_eq, key_eq]
    exact Grove.Sample.serves

theorem oneRun : OneRun appHashes (rootBytes (state.root hashing)) 2 := by
  intro a b c _ hab hbc ha hc
  unfold appHashes at ha hc ⊢
  by_cases hb : b = 2
  · rw [if_pos hb]
    rfl
  · have hempty : ([] : Bytes) = rootBytes (state.root hashing) := by
      by_cases h : a = 2
      · rwa [if_neg (show c ≠ 2 by omega)] at hc
      · rwa [if_neg h] at ha
    rw [if_neg hb, hempty]

end Sample

theorem stored_item_reads_iff_sample :
    ∃ v, getVerified Data.Sample.json Grove.Sample.deps Data.Sample.rootBytes Data.Sample.session
      Data.Sample.debug "sg" "k" = .ok v := by
  have hpath := Data.Sample.path_eq
  have hkey := Data.Sample.key_eq
  refine ((stored_item_reads_iff Data.Sample.json Grove.Sample.deps Data.Sample.rootBytes
    Data.Sample.session Data.Sample.debug "sg" "k" Grove.Sample.hashing Data.Sample.client
    Data.Sample.appHashes 2 Grove.Sample.state Grove.Sample.value Grove.Sample.rootLayer 1 Sample.serves
    Grove.Sample.uniqueKeys ?_ ?_ Grove.Sample.bincode ?_ rfl Sample.follows rfl Sample.oneRun).1).mpr
    ⟨Grove.Sample.short, by decide, .inl (by decide)⟩
  · rw [hpath, hkey]
    exact Grove.Sample.stores
  · rw [hpath]
    exact Grove.Sample.decodesAlong
  · rw [hpath, hkey]
    exact Grove.Sample.answersItems

theorem verify_item_iff_sample :
    verifyItem Data.Sample.json Grove.Sample.deps Data.Sample.rootBytes Data.Sample.client
      Data.Sample.session.network Grove.Sample.v0.encode Grove.Sample.path Grove.Sample.key
      Grove.Sample.value 1 = .ok (Grove.Sample.state.root Grove.Sample.hashing) ∧
    Grove.Sample.state.StoresItem (Grove.decodeElement Grove.Sample.deps) Grove.Sample.path
      Grove.Sample.key Grove.Sample.value := by
  have h := verify_item_iff Data.Sample.json Grove.Sample.deps Data.Sample.rootBytes
    Data.Sample.client Data.Sample.session.network Grove.Sample.hashing Data.Sample.appHashes
    Grove.Sample.state Grove.Sample.path Grove.Sample.key 1 Grove.Sample.hashing_sound
    Grove.Sample.verifyContract Data.Sample.rootBytes_injective Data.Sample.reports
    ⟨Data.Sample.root, rfl⟩ rfl Grove.Sample.uniqueKeys
  have haccepted := (h.2 Grove.Sample.value Grove.Sample.rootLayer Grove.Sample.serves
    Grove.Sample.stores Grove.Sample.decodesAlong Grove.Sample.bincode Grove.Sample.answersItems
    Grove.Sample.value _).mpr ⟨rfl, rfl, Grove.Sample.short, by decide, fun _ _ _ _ _ => rfl⟩
  exact ⟨haccepted, (h.1 Grove.Sample.subtreesOrNothing.unmistakable
    (fun _ => Grove.Sample.onlyItems) _ _ _ haccepted).2⟩

end VerifiedReads
end WillowSdk
