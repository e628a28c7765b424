/-
# Continuity of a subgrove's state roots

A client rejects a response of a subgrove whose tip is below the last one
seen, or at the same tip with another root (src/verifiable_rpc.rs).

One query at a time, the responses accepted for a subgrove never go back and
never fork (`query_accepts_only_checked`). Queries on clones of one client
share the cache, and the check reads it under one lock where the record
writes it under another: the responses recorded are continuous exactly when
each would still pass its check as it is recorded (`continuity_iff`), as one
does that no other overtakes (`record_passes_unless_overtaken`).
-/
import WillowSdk.Grove.Binding
import WillowSdk.VerifiableRpc
import WillowSdk.Lib.Runs

namespace WillowSdk
namespace VerifiableRpc

open EthState (B256)

/-! ### Sequences of responses -/

/-- A response that may be accepted after another of its subgrove. -/
def VerifiableRpcResponse.Follows (prev next : VerifiableRpcResponse) : Prop :=
  prev.blockRange.2 ≤ next.blockRange.2 ∧
    (prev.blockRange.2 = next.blockRange.2 → prev.stateRoot = next.stateRoot)

theorem VerifiableRpcResponse.Follows.trans {a b c : VerifiableRpcResponse} (hab : a.Follows b)
    (hbc : b.Follows c) : a.Follows c := by
  obtain ⟨hab, hroots⟩ := hab
  obtain ⟨hbc, hroots'⟩ := hbc
  refine ⟨hab.trans hbc, fun htips => ?_⟩
  have hfirst : a.blockRange.2 = b.blockRange.2 := Nat.le_antisymm hab (htips ▸ hbc)
  exact (hroots hfirst).trans (hroots' (hfirst.symm.trans htips))

/-- Responses accepted, in order, each with the subgrove it was accepted for. -/
abbrev Accepted := List (String × VerifiableRpcResponse)

/-- Those of a subgrove. -/
def ofSubgrove (subgroveId : String) (accepted : Accepted) : List VerifiableRpcResponse :=
  accepted.filterMap fun e => if e.1 = subgroveId then some e.2 else none

/-- For every subgrove, tips never go back, and one tip has one root. -/
def Continuous (accepted : Accepted) : Prop :=
  ∀ subgroveId, (ofSubgrove subgroveId accepted).Pairwise (·.Follows ·)

/-- The cache is what some responses left of an earlier one: for each subgrove
the last of them, or else the earlier entry. -/
def LastSeen (earlier cache : Cache) (accepted : Accepted) : Prop :=
  ∀ subgroveId, match (ofSubgrove subgroveId accepted).getLast? with
    | none => cache subgroveId = earlier subgroveId
    | some resp => ∃ now, cache subgroveId = some (resp.seen now)

theorem ofSubgrove_append (subgroveId : String) (accepted : Accepted) (asked : String)
    (resp : VerifiableRpcResponse) :
    ofSubgrove subgroveId (accepted ++ [(asked, resp)]) =
      ofSubgrove subgroveId accepted ++ if asked = subgroveId then [resp] else [] := by
  unfold ofSubgrove
  rw [List.filterMap_append]
  by_cases h : asked = subgroveId <;> simp [h]

theorem LastSeen.record {earlier cache : Cache} {accepted : Accepted}
    (h : LastSeen earlier cache accepted) (now : ℕ) (subgroveId : String)
    (resp : VerifiableRpcResponse) :
    LastSeen earlier (recordSeenRoot now cache subgroveId resp)
      (accepted ++ [(subgroveId, resp)]) := by
  intro other
  have hother := h other
  rw [ofSubgrove_append]
  unfold recordSeenRoot
  by_cases hsame : subgroveId = other
  · subst hsame
    rw [if_pos rfl, List.getLast?_concat, Function.update_self]
    exact ⟨now, rfl⟩
  · rw [if_neg hsame, List.append_nil, Function.update_of_ne (Ne.symm hsame)]
    exact hother

/-- A response that passes the check follows the last one of its subgrove. -/
theorem LastSeen.follows {earlier cache : Cache} {accepted : Accepted} {subgroveId : String}
    {resp : VerifiableRpcResponse} (h : LastSeen earlier cache accepted)
    (hcheck : checkContinuity cache subgroveId resp = .ok ()) :
    ∀ last ∈ (ofSubgrove subgroveId accepted).getLast?, last.Follows resp := by
  intro last hl
  have hlast := h subgroveId
  rw [Option.mem_def.mp hl] at hlast
  obtain ⟨now, hcache⟩ := hlast
  exact checkContinuity_eq_ok.mp hcheck _ hcache

/-- On a cache that was empty, a response passes the check exactly when it
follows the last one of its subgrove. -/
theorem LastSeen.checkContinuity_iff {cache : Cache} {accepted : Accepted} {subgroveId : String}
    {resp : VerifiableRpcResponse} (h : LastSeen (fun _ => none) cache accepted) :
    checkContinuity cache subgroveId resp = .ok () ↔
      ∀ last ∈ (ofSubgrove subgroveId accepted).getLast?, last.Follows resp := by
  refine ⟨h.follows, fun hfollows => checkContinuity_eq_ok.mpr fun prev hprev => ?_⟩
  have hlast := h subgroveId
  cases hseen : (ofSubgrove subgroveId accepted).getLast? with
  | none =>
    rw [hseen] at hlast
    have hnone : cache subgroveId = none := hlast
    rw [hnone] at hprev
    cases hprev
  | some last =>
    rw [hseen] at hlast
    obtain ⟨now, hcache⟩ := hlast
    obtain rfl := Option.some.inj (hcache.symm.trans hprev)
    exact hfollows last hseen

/-- In a chain of responses, what follows the last follows them all. -/
theorem pairwise_concat_iff {accepted : List VerifiableRpcResponse} {resp : VerifiableRpcResponse} :
    (accepted ++ [resp]).Pairwise (·.Follows ·) ↔
      accepted.Pairwise (·.Follows ·) ∧ ∀ last ∈ accepted.getLast?, last.Follows resp := by
  rw [List.pairwise_append]
  refine ⟨fun h => ?_, fun h => ?_⟩
  · obtain ⟨hpairs, -, hall⟩ := h
    exact ⟨hpairs, fun last hl =>
      hall last (List.mem_of_getLast? hl) resp (List.mem_singleton_self resp)⟩
  · obtain ⟨hpairs, hlast⟩ := h
    refine ⟨hpairs, List.pairwise_singleton _ _, fun a ha b hb => ?_⟩
    obtain rfl := List.mem_singleton.mp hb
    induction accepted using List.reverseRecOn with
    | nil => cases ha
    | append_singleton accepted last _ =>
      have hfollows : last.Follows b := hlast last List.getLast?_concat
      rcases List.mem_append.mp ha with ha | ha
      · exact ((List.pairwise_append.mp hpairs).2.2 a ha last (List.mem_singleton_self last)).trans
          hfollows
      · obtain rfl := List.mem_singleton.mp ha
        exact hfollows

/-- Recording a response keeps the sequence continuous exactly when it follows
the last of its subgrove. -/
theorem continuous_append_iff {accepted : Accepted} {subgroveId : String}
    {resp : VerifiableRpcResponse} (h : Continuous accepted) :
    Continuous (accepted ++ [(subgroveId, resp)]) ↔
      ∀ last ∈ (ofSubgrove subgroveId accepted).getLast?, last.Follows resp := by
  refine ⟨fun hafter => ?_, fun hlast other => ?_⟩
  · have hsub := hafter subgroveId
    rw [ofSubgrove_append, if_pos rfl, pairwise_concat_iff] at hsub
    exact hsub.2
  · rw [ofSubgrove_append]
    by_cases hsame : subgroveId = other
    · subst hsame
      rw [if_pos rfl, pairwise_concat_iff]
      exact ⟨h subgroveId, hlast⟩
    · rw [if_neg hsame, List.append_nil]
      exact h other

/-- Some responses, continuous, that left a cache of an earlier one. -/
structure Traced (earlier cache : Cache) (accepted : Accepted) : Prop where
  lastSeen : LastSeen earlier cache accepted
  continuous : Continuous accepted

theorem Traced.nil (cache : Cache) : Traced cache cache [] :=
  ⟨fun _ => rfl, fun _ => List.Pairwise.nil⟩

section Calls

variable (deps : Grove.Deps B256) (full : Bytes) (verifyFullProof : GkrProofData → Except String Unit)

/-! ### One query at a time -/

/-- A client's cache, and the responses it has accepted. -/
structure Client where
  cache : Cache
  accepted : Accepted

/-- The response a query accepts. -/
def accepts (q : Query) (cache : Cache) : Option VerifiableRpcResponse :=
  match q.fetched, (query deps full verifyFullProof q cache).1 with
  | .ok raw, .ok _ => some raw
  | _, _ => none

def Client.ask (client : Client) (q : Query) : Client where
  cache := (query deps full verifyFullProof q client.cache).2
  accepted := client.accepted ++
    ((accepts deps full verifyFullProof q client.cache).map fun raw => (q.subgroveId, raw)).toList

variable {deps full verifyFullProof}

/-- What an answer has passed, and what it leaves. -/
theorem query_eq_ok {q : Query} {cache : Cache} {a : VerifiedAnswer}
    (h : (query deps full verifyFullProof q cache).1 = .ok a) :
    ∃ raw verification, q.fetched = .ok raw ∧
      checkContinuity cache q.subgroveId raw = .ok () ∧
      verify deps full verifyFullProof q.mode raw q.subgroveId q.key = .ok verification ∧
      a = raw.verifiedAnswer verification ∧
      (query deps full verifyFullProof q cache).2 =
        recordSeenRoot q.now cache q.subgroveId raw := by
  unfold query at h ⊢
  dsimp only at h ⊢
  split at h
  case h_1 e he => cases h
  case h_2 raw verification hchecked =>
    obtain ⟨raw', hraw, hrest⟩ := Outcome.bind_eq_ok.mp hchecked
    obtain ⟨hcheck, hrest⟩ := Outcome.check_bind_eq_ok.mp hrest
    obtain ⟨verification', hverify, hpair⟩ := Outcome.bind_eq_ok.mp hrest
    obtain ⟨rfl, rfl⟩ := Prod.mk.inj (Except.ok.inj hpair)
    exact ⟨raw', verification', hraw, hcheck, hverify, (Except.ok.inj h).symm, rfl⟩

/-- A query that refuses leaves the cache. -/
theorem query_eq_error {q : Query} {cache : Cache} {e : WillowError}
    (h : (query deps full verifyFullProof q cache).1 = .error e) :
    (query deps full verifyFullProof q cache).2 = cache := by
  unfold query at h ⊢
  dsimp only at h ⊢
  split at h
  case h_1 e' he => rfl
  case h_2 raw verification hchecked => cases h

theorem verify_bound {mode : VerifyMode} {resp : VerifiableRpcResponse} {subgroveId : String}
    {key : Bytes} {verification : VerificationResult} (hmode : mode ≠ .disabled)
    (h : verify deps full verifyFullProof mode resp subgroveId key = .ok verification) :
    Bound deps resp subgroveId key := by
  cases mode with
  | disabled => exact absurd rfl hmode
  | groveDbOnly =>
    unfold verify at h
    exact verifyGrovedbProof_bound (Outcome.check_bind_eq_ok.mp h).1
  | strict =>
    unfold verify at h
    exact verifyGrovedbProof_bound (Outcome.check_bind_eq_ok.mp h).1

theorem verify_chained {resp : VerifiableRpcResponse} {subgroveId : String}
    {key : Bytes} {verification : VerificationResult}
    (h : verify deps full verifyFullProof .strict resp subgroveId key = .ok verification) :
    resp.gkrProofs ≠ [] ∧ Chained full verifyFullProof resp.stateRoot resp.gkrProofs := by
  unfold verify at h
  obtain ⟨-, hrest⟩ := Outcome.check_bind_eq_ok.mp h
  rw [Outcome.refuse_eq_ok] at hrest
  obtain ⟨hsome, hproofs⟩ := hrest
  exact ⟨hsome, verifyGkrProofs_chained (Outcome.check_bind_eq_ok.mp hproofs).1⟩

/-- One query keeps the accepted responses continuous. -/
theorem Traced.ask {earlier : Cache} {client : Client} {q : Query}
    (h : Traced earlier client.cache client.accepted) :
    Traced earlier (client.ask deps full verifyFullProof q).cache
      (client.ask deps full verifyFullProof q).accepted := by
  unfold Client.ask accepts
  cases hresult : (query deps full verifyFullProof q client.cache).1 with
  | error e =>
    have hcache := query_eq_error hresult
    rw [hcache]
    cases q.fetched <;> simpa using h
  | ok a =>
    obtain ⟨raw, -, hraw, hcheck, -, -, hcache⟩ := query_eq_ok hresult
    rw [hraw, hcache]
    exact ⟨h.lastSeen.record q.now q.subgroveId raw,
      (continuous_append_iff h.continuous).mpr (h.lastSeen.follows hcheck)⟩

/-- By the queries, from the last. -/
theorem Client.run_traced (cache : Cache) (queries : List Query) :
    Traced cache (Runs.run (Client.ask deps full verifyFullProof) ⟨cache, []⟩ queries).cache
      (Runs.run (Client.ask deps full verifyFullProof) ⟨cache, []⟩ queries).accepted := by
  induction queries using List.reverseRecOn with
  | nil => exact .nil cache
  | append_singleton queries q ih =>
    rw [Runs.run_append]
    exact ih.ask

/-- What an accepted query returns of its answer: the item and the root that
were checked, and which checks they passed. -/
structure Returned (q : Query) (raw : VerifiableRpcResponse) (a : VerifiedAnswer) : Prop where
  answer : a.answer = if raw.answerExists = true then some raw.answer else none
  stateRoot : a.stateRoot = raw.stateRoot
  blockRange : a.blockRange = raw.blockRange
  verification : a.verification =
    match q.mode with
    | .strict => .gkrAndGroveDb
    | .groveDbOnly => .groveDbOnly
    | .disabled => .skipped
  anchored : a.stateRootAnchored = false

theorem returned_of_verified {q : Query} {raw : VerifiableRpcResponse}
    {verification : VerificationResult}
    (h : verify deps full verifyFullProof q.mode raw q.subgroveId q.key = .ok verification) :
    Returned q raw (raw.verifiedAnswer verification) where
  answer := rfl
  stateRoot := rfl
  blockRange := rfl
  verification := by
    show verification = _
    unfold verify at h
    cases hmode : q.mode with
    | disabled =>
      rw [hmode] at h
      exact (Except.ok.inj h).symm
    | groveDbOnly =>
      rw [hmode] at h
      exact (Except.ok.inj (Outcome.check_bind_eq_ok.mp h).2).symm
    | strict =>
      rw [hmode] at h
      have hrest := (Outcome.refuse_eq_ok.mp (Outcome.check_bind_eq_ok.mp h).2).2
      exact (Except.ok.inj (Outcome.check_bind_eq_ok.mp hrest).2).symm
  anchored := rfl

end Calls

/-- **A query accepts only what passed its mode's checks, returns that, and
records only what it accepts.** -/
theorem query_accepts_only_checked (deps : Grove.Deps B256) (full : Bytes)
    (verifyFullProof : GkrProofData → Except String Unit) :
    (∀ q cache a, (query deps full verifyFullProof q cache).1 = .ok a → ∃ raw,
      q.fetched = .ok raw ∧ Returned q raw a ∧
      (q.mode ≠ .disabled → Bound deps raw q.subgroveId q.key) ∧
      (q.mode = .strict →
        raw.gkrProofs ≠ [] ∧ Chained full verifyFullProof raw.stateRoot raw.gkrProofs) ∧
      (query deps full verifyFullProof q cache).2 =
        Function.update cache q.subgroveId (some (raw.seen q.now))) ∧
    (∀ q cache e, (query deps full verifyFullProof q cache).1 = .error e →
      (query deps full verifyFullProof q cache).2 = cache) ∧
    (∀ cache queries,
      Continuous (Runs.run (Client.ask deps full verifyFullProof) ⟨cache, []⟩ queries).accepted) := by
  refine ⟨fun q cache a h => ?_, fun q cache e h => query_eq_error h, fun cache queries => ?_⟩
  · obtain ⟨raw, verification, hraw, -, hverify, rfl, hcache⟩ := query_eq_ok h
    refine ⟨raw, hraw, returned_of_verified hverify, fun hmode => verify_bound hmode hverify,
      fun hmode => ?_, hcache⟩
    rw [hmode] at hverify
    exact verify_chained hverify
  · exact (Client.run_traced cache queries).continuous

namespace Strict

open Grove (Node Op LayerProof GroveDBProofV0 subgroves)
open Grove.Sample (sg key value item tree segOps leafLayer leafBytes withLower)

def digest (b : UInt8) : B256 := ⟨List.replicate 32 b, List.length_replicate⟩

/-- `b"e"`, an entity of the subgrove `sg`. -/
def entity : Bytes := [101]

def entityLayer : LayerProof := .mk (segOps entity key 1) [(entity, leafLayer)]

def indexedLayer : LayerProof := .mk (segOps indexed entity 2) [(indexed, entityLayer)]

def sgLayer : LayerProof := .mk (segOps sg indexed 3) [(sg, indexedLayer)]

def rootLayer : LayerProof := .mk (segOps subgroves sg 4) [(subgroves, sgLayer)]

def layerBytes : Bytes :=
  withLower (segOps subgroves sg 4) subgroves (withLower (segOps sg indexed 3) sg
    (withLower (segOps indexed entity 2) indexed
      (withLower (segOps entity key 1) entity leafBytes)))

def proof : Bytes := [0] ++ (layerBytes ++ [1])

/-- The node that proves a subtree, by its hash. -/
def segNode (seg rootKey : Bytes) (hash : UInt8) : Node B256 :=
  .kvValueHash seg (tree rootKey) (digest hash)

/-- The one op of a layer, by its bytes. -/
def opOf (ops : Bytes) : Option (Op B256) :=
  if ops = leafLayer.merkProof then some (.push (.kv key item))
  else if ops = entityLayer.merkProof then some (.push (segNode entity key 1))
  else if ops = indexedLayer.merkProof then some (.push (segNode indexed entity 2))
  else if ops = sgLayer.merkProof then some (.push (segNode sg indexed 3))
  else if ops = rootLayer.merkProof then some (.push (segNode subgroves sg 4))
  else none

def deps : Grove.Deps B256 where
  decodeProof bytes :=
    if bytes = proof then .ok (⟨rootLayer, true⟩, proof.length) else .error "UnexpectedEnd"
  decodeElement := Grove.Sample.deps.decodeElement
  decodeOps ops :=
    match opOf ops with
    | some op => [.ok op]
    | none => [.error "unexpected op"]
  verifyQuery bytes p k :=
    if bytes = proof ∧ p = entityPath "sg" entity ∧ k = key then
      .ok (digest 5, [(entityPath "sg" entity, key, some (.item value none))])
    else .error "another proof or query"

theorem rootLayer_encodes : rootLayer.EncodesTo layerBytes :=
  Grove.Sample.encodesTo_withLower (Grove.Sample.encodesTo_withLower
    (Grove.Sample.encodesTo_withLower (Grove.Sample.encodesTo_withLower
      ⟨_, _, _, Grove.Counted.short (by decide), Grove.Varint.short (n := 0) (by omega), rfl, rfl⟩
      (by decide) (by decide)) (by decide) (by decide)) (by decide) (by decide)) (by decide)
    (by decide)

theorem decodeEnvelope_proof : Grove.decodeEnvelope deps proof = .ok ⟨rootLayer, true⟩ := by
  have hscan : Grove.scanEnvelope proof = .ok () :=
    Grove.scanEnvelope_encoding (.byte 0 (by decide)) rootLayer_encodes (by decide) (by decide)
      (.inr rfl) (by decide +kernel)
  simp [Grove.decodeEnvelope, hscan, deps, bind, Except.bind]

theorem decodeElement_item : Grove.decodeElement deps item = .ok (.item value none) :=
  Grove.decodeElement_eq_ok.mpr ⟨by decide, rfl⟩

theorem decodeElement_tree (rootKey : Bytes) (h : rootKey.length < 1000) :
    Grove.decodeElement deps (tree rootKey) = .ok (.other (tree rootKey)) :=
  Grove.decodeElement_eq_ok.mpr ⟨(Grove.decodeElement_eq_ok.mp
    (Grove.Sample.decodeElement_tree rootKey h)).1, rfl⟩

theorem checkAllLayers_proof :
    Grove.checkAllLayers deps (Grove.decodeElement deps) ⟨rootLayer, true⟩ = .ok () := by
  have hleaf : Grove.checkOps (Grove.decodeElement deps) [] (Grove.layerOps deps leafLayer) =
      .ok () := Grove.checkOps_push rfl decodeElement_item
  have hentity : Grove.checkOps (Grove.decodeElement deps) [] (Grove.layerOps deps entityLayer) =
      .ok () := Grove.checkOps_push rfl (decodeElement_tree key (by decide))
  have hindexed : Grove.checkOps (Grove.decodeElement deps) [] (Grove.layerOps deps indexedLayer) =
      .ok () := Grove.checkOps_push rfl (decodeElement_tree entity (by decide))
  have hsg : Grove.checkOps (Grove.decodeElement deps) [] (Grove.layerOps deps sgLayer) =
      .ok () := Grove.checkOps_push rfl (decodeElement_tree indexed (by decide))
  have hroot : Grove.checkOps (Grove.decodeElement deps) [] (Grove.layerOps deps rootLayer) =
      .ok () := Grove.checkOps_push rfl (decodeElement_tree sg (by decide))
  calc Grove.checkLayersFrom deps (Grove.decodeElement deps) [rootLayer]
      = Grove.checkLayersFrom deps (Grove.decodeElement deps) [sgLayer] :=
        Grove.checkLayersFrom_lower hroot
    _ = Grove.checkLayersFrom deps (Grove.decodeElement deps) [indexedLayer] :=
        Grove.checkLayersFrom_lower hsg
    _ = Grove.checkLayersFrom deps (Grove.decodeElement deps) [entityLayer] :=
        Grove.checkLayersFrom_lower hindexed
    _ = Grove.checkLayersFrom deps (Grove.decodeElement deps) [leafLayer] :=
        Grove.checkLayersFrom_lower hentity
    _ = .ok () := Grove.checkLayersFrom_leaf hleaf

theorem proven : Grove.verifyItemAtPath deps proof (entityPath "sg" entity) key =
    .ok (digest 5, value) :=
  Grove.verifyItemAtPath_eq_ok.mpr ⟨⟨rootLayer, true⟩, leafLayer, item, {
    nonempty := by simp [proof]
    decodes := decodeEnvelope_proof
    atPath := Grove.layerAtPath_eq_ok.mpr ⟨rfl, rfl, rfl⟩
    checked := checkAllLayers_proof
    carried := rfl
    unambiguous := fun h => absurd h (by decide)
    verified := ⟨none, by simp [deps]⟩
    isItem := ⟨none, decodeElement_item⟩ }⟩

theorem descended : Grove.descendedPath deps proof = .ok (entityPath "sg" entity) :=
  Grove.descendedPath_eq_ok.mpr ⟨_, decodeEnvelope_proof,
    .lower rfl (.lower rfl (.lower rfl (.lower rfl (.last rfl))))⟩

/-- How a GKR proof starts. -/
def full : Bytes := Utf8.encode "GKR"

/-- A proof of the blocks up to one, from one root to another. -/
def gkrProof (block : ℕ) (start output : UInt8) : GkrProofData where
  proof := full ++ [1]
  publicInputs := ⟨digest output, (block, block), digest 0, digest start⟩
  verificationKeyHash := digest 0

def answer : VerifiableRpcResponse where
  subgroveId := "sg"
  key := key
  answer := value
  answerExists := true
  checkpointId := digest 1
  stateRoot := digest 5
  blockRange := (8, 9)
  grovedbProof := proof
  gkrProofs := [gkrProof 8 3 4, gkrProof 9 4 5]

def asked : Query := ⟨"sg", key, .strict, .ok answer, 1700000000⟩

theorem bound : verifyGrovedbProof deps answer "sg" key = .ok () := by
  have hroot : (digest 5 : B256) = answer.stateRoot := rfl
  unfold verifyGrovedbProof
  simp only [Outcome.refuse_eq_ok, Outcome.bind_eq_ok, Prod.exists]
  exact ⟨by simp [answer, proof], by simp [answer], by simp [answer], _, descended, by decide,
    _, _, proven, by simp [answer], by simp [hroot], trivial⟩

theorem chained : verifyGkrProofs full (fun _ => .ok ()) answer.stateRoot answer.gkrProofs =
    .ok () := by
  decide

/-- A strict query of an entity's item, with proofs of two blocks. -/
theorem accepted : (query deps full (fun _ => .ok ()) asked fun _ => none).1 =
    .ok ⟨some value, digest 5, (8, 9), .gkrAndGroveDb, false⟩ := by
  have hverify : verify deps full (fun _ => .ok ()) .strict answer "sg" key =
      .ok .gkrAndGroveDb := by
    unfold verify
    rw [Outcome.check_bind_eq_ok, Outcome.refuse_eq_ok, Outcome.check_bind_eq_ok]
    exact ⟨bound, by simp [answer], chained, rfl⟩
  have hcheck : checkContinuity (fun _ => none) "sg" answer = .ok () := rfl
  unfold query asked
  simp only [hcheck, hverify, bind, Except.bind]
  rfl

end Strict

theorem query_accepts_only_checked_sample :
    (query Strict.deps Strict.full (fun _ => .ok ()) Strict.asked fun _ => none).1 =
      .ok ⟨some Grove.Sample.value, Strict.digest 5, (8, 9), .gkrAndGroveDb, false⟩ ∧
    Bound Strict.deps Strict.answer "sg" Grove.Sample.key ∧
    Chained Strict.full (fun _ => .ok ()) (Strict.digest 5) Strict.answer.gkrProofs := by
  obtain ⟨hanswered, -⟩ := query_accepts_only_checked Strict.deps Strict.full fun _ => .ok ()
  obtain ⟨raw, hraw, -, hbound, hchained, -⟩ := hanswered _ _ _ Strict.accepted
  obtain rfl := Except.ok.inj hraw
  obtain ⟨-, hchain⟩ := hchained rfl
  exact ⟨Strict.accepted, hbound (by simp [Strict.asked]), hchain⟩

/-! ### Queries that share a cache -/

/-- How far a query has got: its answer fetched, checked against the cache,
verified, or its result returned. -/
inductive Phase
  | fetched
  | checked (raw : VerifiableRpcResponse)
  | verified (raw : VerifiableRpcResponse) (verification : VerificationResult)
  | returned (result : Result VerifiedAnswer)

/-- The cache that clones of a client share, how far each query has got, and
the responses recorded. -/
structure Shared where
  cache : Cache
  phase : ℕ → Phase
  accepted : Accepted

/-- A new client's. -/
def Shared.new : Shared := ⟨fun _ => none, fun _ => .fetched, []⟩

section Shared

variable (deps : Grove.Deps B256) (full : Bytes) (verifyFullProof : GkrProofData → Except String Unit)
  (queries : ℕ → Query)

namespace Shared

def setPhase (s : Shared) (i : ℕ) (phase : Phase) : Shared :=
  { s with phase := Function.update s.phase i phase }

/-- Query `i` checks its answer, under one lock. -/
def check (s : Shared) (i : ℕ) : Shared :=
  match (do
      let raw ← (queries i).fetched
      checkContinuity s.cache (queries i).subgroveId raw
      Except.ok raw) with
  | .error e => s.setPhase i (.returned (.error e))
  | .ok raw => s.setPhase i (.checked raw)

/-- It verifies the answer, under none. -/
def verifyAnswer (s : Shared) (i : ℕ) (raw : VerifiableRpcResponse) : Shared :=
  match verify deps full verifyFullProof (queries i).mode raw (queries i).subgroveId
      (queries i).key with
  | .error e => s.setPhase i (.returned (.error e))
  | .ok verification => s.setPhase i (.verified raw verification)

/-- It records the answer, under another. -/
def record (s : Shared) (i : ℕ) (raw : VerifiableRpcResponse) (verification : VerificationResult) :
    Shared where
  cache := recordSeenRoot (queries i).now s.cache (queries i).subgroveId raw
  phase := Function.update s.phase i (.returned (.ok (raw.verifiedAnswer verification)))
  accepted := s.accepted ++ [((queries i).subgroveId, raw)]

/-- The next step of query `i`. -/
def step (s : Shared) (i : ℕ) : Shared :=
  match s.phase i with
  | .fetched => s.check queries i
  | .checked raw => s.verifyAnswer deps full verifyFullProof queries i raw
  | .verified raw verification => s.record queries i raw verification
  | .returned _ => s

end Shared

/-- The answers recorded since the cache was empty are continuous. -/
def Shared.Traced (s : Shared) : Prop :=
  VerifiableRpc.Traced (fun _ => none) s.cache s.accepted

/-- Query `i` records its answer, if it does now, while the answer would still
pass its check. -/
def Current (queries : ℕ → Query) (s : Shared) (i : ℕ) : Prop :=
  ∀ raw verification, s.phase i = .verified raw verification →
    checkContinuity s.cache (queries i).subgroveId raw = .ok ()

/-- A step records an answer, or leaves the cache and the answers recorded. -/
theorem step_cases (s : Shared) (i : ℕ) :
    (∃ raw verification, s.phase i = .verified raw verification ∧
      s.step deps full verifyFullProof queries i = s.record queries i raw verification) ∨
    ((∀ raw verification, s.phase i ≠ .verified raw verification) ∧
      (s.step deps full verifyFullProof queries i).cache = s.cache ∧
      (s.step deps full verifyFullProof queries i).accepted = s.accepted) := by
  unfold Shared.step
  cases hphase : s.phase i with
  | fetched =>
    refine .inr ⟨nofun, ?_⟩
    dsimp only
    unfold Shared.check
    split <;> exact ⟨rfl, rfl⟩
  | checked raw =>
    refine .inr ⟨nofun, ?_⟩
    dsimp only
    unfold Shared.verifyAnswer
    split <;> exact ⟨rfl, rfl⟩
  | verified raw verification => exact .inl ⟨raw, verification, rfl, rfl⟩
  | returned result => exact .inr ⟨nofun, rfl, rfl⟩

/-- One step keeps the responses continuous exactly when it records none that
would no longer pass. -/
theorem step_traced_iff (s : Shared) (i : ℕ) (h : s.Traced) :
    (s.step deps full verifyFullProof queries i).Traced ↔ Current queries s i := by
  unfold Shared.Traced
  rcases step_cases deps full verifyFullProof queries s i with hrecord | hkept
  · obtain ⟨raw, verification, hphase, hstep⟩ := hrecord
    rw [hstep]
    unfold Current
    rw [hphase]
    have hlast := h.lastSeen.record (queries i).now (queries i).subgroveId raw
    refine ⟨fun hafter raw' verification' heq => ?_, fun hcurrent => ⟨hlast, ?_⟩⟩
    · obtain ⟨rfl, -⟩ := Phase.verified.inj heq
      have hfollows := (continuous_append_iff h.continuous).mp hafter.continuous
      exact h.lastSeen.checkContinuity_iff.mpr hfollows
    · apply (continuous_append_iff h.continuous).mpr
      exact h.lastSeen.follows (hcurrent raw verification rfl)
  · obtain ⟨hphase, hcache, haccepted⟩ := hkept
    rw [hcache, haccepted]
    exact iff_of_true h fun raw verification heq => absurd heq (hphase raw verification)

/-- The cache is always what the responses recorded left. -/
theorem step_lastSeen (s : Shared) (i : ℕ) (h : LastSeen (fun _ => none) s.cache s.accepted) :
    LastSeen (fun _ => none) (s.step deps full verifyFullProof queries i).cache
      (s.step deps full verifyFullProof queries i).accepted := by
  rcases step_cases deps full verifyFullProof queries s i with hrecord | hkept
  · obtain ⟨raw, verification, -, hstep⟩ := hrecord
    rw [hstep]
    exact h.record (queries i).now (queries i).subgroveId raw
  · obtain ⟨-, hcache, haccepted⟩ := hkept
    rw [hcache, haccepted]
    exact h

theorem run_lastSeen (steps : List ℕ) :
    LastSeen (fun _ => none)
      (Runs.run (Shared.step deps full verifyFullProof queries) .new steps).cache
      (Runs.run (Shared.step deps full verifyFullProof queries) .new steps).accepted := by
  induction steps using List.reverseRecOn with
  | nil => exact fun _ => rfl
  | append_singleton steps i ih =>
    rw [Runs.run_append]
    exact step_lastSeen deps full verifyFullProof queries _ i ih

/-- A query none other's steps come between is `query`. -/
theorem alone_eq_query (s : Shared) (i : ℕ) (hphase : s.phase i = .fetched) :
    let after := Runs.run (Shared.step deps full verifyFullProof queries) s [i, i, i]
    let client := Client.ask deps full verifyFullProof ⟨s.cache, s.accepted⟩ (queries i)
    after.phase i = .returned (query deps full verifyFullProof (queries i) s.cache).1 ∧
      after.cache = client.cache ∧ after.accepted = client.accepted := by
  have hfirst : s.step deps full verifyFullProof queries i = s.check queries i := by
    unfold Shared.step
    rw [hphase]
  rw [Runs.run_cons, hfirst]
  unfold Client.ask accepts query Shared.check
  cases hraw : (queries i).fetched with
  | error e => simp [Shared.setPhase, Shared.step, bind, Except.bind]
  | ok raw =>
    cases hcheck : checkContinuity s.cache (queries i).subgroveId raw with
    | error e => simp [Shared.setPhase, Shared.step, hcheck, bind, Except.bind]
    | ok _ =>
      cases hverify : verify deps full verifyFullProof (queries i).mode raw (queries i).subgroveId
          (queries i).key with
      | error e =>
        simp [Shared.setPhase, Shared.step, Shared.verifyAnswer, hcheck, hverify, bind, Except.bind]
      | ok verification =>
        simp [Shared.setPhase, Shared.step, Shared.verifyAnswer, Shared.record, hcheck, hverify,
          bind, Except.bind]

/-- While no answer for its subgrove is recorded, an answer that has passed
its check still passes it. -/
theorem record_passes_unless_overtaken {done later : List ℕ} {subgroveId : String}
    (hnone : ofSubgrove subgroveId
        (Runs.run (Shared.step deps full verifyFullProof queries) .new (done ++ later)).accepted =
      ofSubgrove subgroveId
        (Runs.run (Shared.step deps full verifyFullProof queries) .new done).accepted)
    (resp : VerifiableRpcResponse) :
    checkContinuity
        (Runs.run (Shared.step deps full verifyFullProof queries) .new (done ++ later)).cache
        subgroveId resp = .ok () ↔
      checkContinuity (Runs.run (Shared.step deps full verifyFullProof queries) .new done).cache
        subgroveId resp = .ok () := by
  have hbefore := run_lastSeen deps full verifyFullProof queries done
  have hafter := run_lastSeen deps full verifyFullProof queries (done ++ later)
  rw [hafter.checkContinuity_iff, hbefore.checkContinuity_iff, hnone]

end Shared

/-- **When the responses recorded are continuous**, over every interleaving of
the queries' steps. -/
theorem continuity_iff (deps : Grove.Deps B256) (full : Bytes)
    (verifyFullProof : GkrProofData → Except String Unit) (queries : ℕ → Query)
    (steps : List ℕ) :
    (∀ done, done <+: steps →
      Continuous (Runs.run (Shared.step deps full verifyFullProof queries) .new done).accepted) ↔
    Runs.EachGood (Shared.step deps full verifyFullProof queries) (Current queries) .new steps := by
  have hnew : Shared.new.Traced := Traced.nil fun _ => none
  rw [← Runs.invariant_iff (step_traced_iff deps full verifyFullProof queries) hnew steps]
  refine forall₂_congr fun done _ => ⟨fun h => ?_, fun h => h.continuous⟩
  exact ⟨run_lastSeen deps full verifyFullProof queries done, h⟩

namespace Sample

def deps : Grove.Deps B256 where
  decodeProof _ := .error "UnexpectedEnd"
  decodeElement _ _ := .error "UnexpectedEnd"
  decodeOps _ := []
  verifyQuery _ _ _ := .error "empty proof"

def digest (b : UInt8) : B256 := ⟨List.replicate 32 b, List.length_replicate⟩

/-- An indexer's answer at a tip. -/
def answer (tip : ℕ) : VerifiableRpcResponse where
  subgroveId := "events"
  key := [7]
  answer := [1]
  answerExists := true
  checkpointId := digest 1
  stateRoot := digest 2
  blockRange := (1, tip)
  grovedbProof := []
  gkrProofs := []

/-- Two queries of a client that skips the proofs: the first to ask is answered
at block 500, the other at block 600. -/
def queries (i : ℕ) : Query where
  subgroveId := "events"
  key := [7]
  mode := .disabled
  fetched := .ok (answer (if i = 0 then 500 else 600))
  now := 0

/-- Both check, then the answer at block 600 is recorded, then the other. -/
def steps : List ℕ := [0, 1, 1, 1, 0, 0]

end Sample

/-- The tip goes back from 600 to 500. -/
theorem overtaken_record_regresses :
    ¬ Continuous (Runs.run (Shared.step Sample.deps [] (fun _ => .ok ()) Sample.queries) .new
      Sample.steps).accepted := by
  intro h
  have hpair : [Sample.answer 600, Sample.answer 500].Pairwise (·.Follows ·) := h "events"
  have htips : 600 ≤ 500 := (List.rel_of_pairwise_cons hpair List.mem_cons_self).1
  omega

end VerifiableRpc
end WillowSdk
