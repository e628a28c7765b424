/-
# Routed queries

`IndexingOperations::route` (src/indexing.rs), behind the GraphQL and SQL
queries with a source: the indexers of a subgrove are asked best first, one
that fails with a server error is evicted from the list the clones of a
client share, and the validator answers when they all fail, if it may.

Other queries use the list meanwhile (`Later`). A routed query is answered by
the first candidate that answers it, or the validator after each one failed,
and says so; it fails only after they all did. An indexer it evicted, whether
or not it was answered, is found again, by any query, only on a list fetched
since it began (`routed_query_is_exact`).

The two bodies sent serialize, so a body is its bytes.
-/
import WillowSdk.Indexers
import WillowSdk.JsonBudget
import WillowSdk.Lib.Text
import WillowSdk.Requests
import Mathlib.Logic.Relation

namespace WillowSdk
namespace Routing

open HttpBody (Response)
open Indexers (IndexerInfo Discovery Cache)
open Requests (Headers Url)

inductive QuerySource
  | validator
  | indexer
  | auto
deriving DecidableEq

inductive ServedBy
  | validator
  | indexer
deriving DecidableEq

structure RoutedQueryResult (T : Type) where
  result : T
  source : ServedBy
  indexerDid : Option String
  fallback : Bool
deriving DecidableEq

/-- What the clones of a client share, and what the clock reads. -/
structure World where
  cache : Cache
  now : ℕ

/-- What a query does to the world, or another one meanwhile. -/
inductive Step (w : World) : World → Prop
  | tick {now : ℕ} : w.now ≤ now → Step w { w with now := now }
  | fetched (data : List IndexerInfo) : Step w { w with cache := some ⟨data, w.now⟩ }
  | evicted (did : String) : Step w { w with cache := Indexers.evict w.cache did }
  | invalidated : Step w { w with cache := none }

def Later : World → World → Prop := Relation.ReflTransGen Step

/-- Where a query is posted. -/
inductive Target
  | validator (url : Url)
  | indexer (url : String)

/-- What a routed query uses of a client. -/
structure Client (T : Type) where
  discovery : Discovery
  /-- The answer of `GET /indexers`, and the world then. -/
  fetch : World → Result (List IndexerInfo) × World
  /-- `Url::join` onto the validator's URL. -/
  join : String → Except String Url
  /-- `Url::parse`. -/
  parse : String → Except String String
  /-- The headers of `sign_request_with_nonce` for a URL and body. -/
  signWithNonce : Url → Bytes → World → Result (Option Headers)
  /-- The headers of `sign_request` for a path. -/
  sign : String → World → Option Headers
  /-- The answer to a `POST`, and the world then. -/
  post : Target → Headers → Bytes → World → Result Response × World
  /-- `from_str::<T>`. -/
  direct : String → Option T
  /-- `from_str::<ApiResponse<T>>`, its data. -/
  wrapped : String → Except String (Option T)

/-- The world an answer comes in is later. -/
structure Client.Lawful {T : Type} (client : Client T) : Prop where
  fetch : ∀ w, Later w (client.fetch w).2
  post : ∀ target headers body w, Later w (client.post target headers body w).2

namespace Client

variable {T : Type} (client : Client T)

/-- The answer decoded, raw or in the API's envelope. -/
def readAnswer (resp : Result Response) : Result T := do
  let resp ← resp
  let text ← HttpBody.text resp HttpBody.large
  if resp.isSuccess = false then .error (.http resp.status text)
  else do
    JsonBudget.checkJson (Utf8.encode text) .underProof
    match client.direct text with
    | some result => .ok result
    | none =>
      let data ← (client.wrapped text).mapError .serialization
      Outcome.okOr data (.custom "empty data in response")

def callValidator (path : String) (body : Bytes) (w : World) : Result T × World :=
  match client.join path with
  | .error e => (.error (.config s!"Invalid URL: {e}"), w)
  | .ok url =>
    match client.signWithNonce url body w with
    | .error e => (.error e, w)
    | .ok headers =>
      let (resp, w) := client.post (.validator url) (headers.getD []) body w
      (client.readAnswer resp, w)

def callIndexer (info : IndexerInfo) (path : String) (body : Bytes) (w : World) :
    Result T × World :=
  let endpoint := String.ofList (Text.trimEndMatches info.effectiveQueryEndpoint.toList '/')
  let urlStr := s!"{endpoint}/{path}"
  match client.parse urlStr with
  | .error e => (.error (.config s!"Invalid indexer URL {urlStr}: {e}"), w)
  | .ok url =>
    let headers := client.sign s!"/{path}" w
    let (resp, w) := client.post (.indexer url) (headers.getD []) body w
    (client.readAnswer resp, w)

/-- `list`. -/
def list (w : World) : Result (List IndexerInfo) × World :=
  match client.discovery.indexerUrl with
  | some url => (.ok [Indexers.syntheticEntry url], w)
  | none =>
    match Indexers.cached client.discovery.cacheTtl w.now w.cache with
    | some data => (.ok data, w)
    | none =>
      let (answer, w) := client.fetch w
      match answer with
      | .error e => (.error e, w)
      | .ok data => (.ok data, { w with cache := some ⟨data, w.now⟩ })

/-- `for_subgrove`. -/
def forSubgrove (subgroveId : String) (w : World) : Result (List IndexerInfo) × World :=
  match client.discovery.indexerUrl with
  | some url => (.ok [Indexers.syntheticEntry url], w)
  | none =>
    let (listed, w) := client.list w
    (listed.map fun listed =>
      Foremost.sorted IndexerInfo.performanceScore (Indexers.pool subgroveId listed), w)

/-- A failure for which an indexer is evicted. -/
def serverError : WillowError → Bool
  | .http status _ => 500 ≤ status
  | _ => false

def evictFor (info : IndexerInfo) (e : WillowError) (w : World) : World :=
  if serverError e = true then { w with cache := Indexers.evict w.cache info.indexerDid } else w

/-- The candidates asked in order: those that failed, and the one that answered. -/
def tryEach (path : String) (body : Bytes) : List IndexerInfo → World →
    List (IndexerInfo × WillowError) × Option (IndexerInfo × T) × World
  | [], w => ([], none, w)
  | info :: rest, w =>
    let (answer, w) := client.callIndexer info path body w
    match answer with
    | .ok result => ([], some (info, result), w)
    | .error e =>
      let (failures, answered, w) := tryEach path body rest (evictFor info e w)
      ((info, e) :: failures, answered, w)

def failureText (failures : List (IndexerInfo × WillowError)) : String :=
  "; ".intercalate (failures.map fun f => s!"{f.1.indexerDid}: {f.2.text}")

/-- A query's result, with how it is served. -/
def served (source : ServedBy) (indexerDid : Option String) (fallback : Bool)
    (answer : Result T × World) : Result (RoutedQueryResult T) × World :=
  (answer.1.map fun result => ⟨result, source, indexerDid, fallback⟩, answer.2)

def route (pathPrefix subgroveId : String) (body : Bytes) (source : QuerySource) (w : World) :
    Result (RoutedQueryResult T) × World :=
  let path := s!"{pathPrefix}/{subgroveId}"
  match source with
  | .validator => served .validator none false (client.callValidator path body w)
  | .indexer =>
    let (candidates, w) := client.forSubgrove subgroveId w
    match candidates with
    | .error e => (.error e, w)
    | .ok [] => (.error (.custom s!"No indexer serves subgrove {subgroveId}"), w)
    | .ok candidates =>
      let (failures, answered, w) := client.tryEach path body candidates w
      match answered with
      | some (info, result) => (.ok ⟨result, .indexer, some info.indexerDid, false⟩, w)
      | none => (.error (.custom
          s!"No indexer could serve subgrove {subgroveId}: {failureText failures}"), w)
  | .auto =>
    let (candidates, w) := client.forSubgrove subgroveId w
    let candidates := candidates.toOption.getD []
    let hadIndexerCandidates := !candidates.isEmpty
    let (_, answered, w) := client.tryEach path body candidates w
    match answered with
    | some (info, result) => (.ok ⟨result, .indexer, some info.indexerDid, false⟩, w)
    | none => served .validator none hadIndexerCandidates (client.callValidator path body w)

/-- The candidates a query goes by; a lookup that fails leaves none. -/
def candidates (subgroveId : String) (source : QuerySource) (w : World) : List IndexerInfo :=
  if source = .validator then [] else (client.forSubgrove subgroveId w).1.toOption.getD []

end Client

/-! ### What is evicted -/

/-- A list that names an indexer was fetched at a time or later. -/
def GoneSince (did : String) (since : ℕ) (w : World) : Prop :=
  ∀ entry, w.cache = some entry → (∃ info ∈ entry.data, info.indexerDid = did) →
    since ≤ entry.fetchedAt

section Later

variable {w w' : World} {did : String} {since : ℕ}

theorem Step.now_le (h : Step w w') : w.now ≤ w'.now := by
  cases h with
  | tick hnow => exact hnow
  | fetched | evicted | invalidated => exact le_rfl

theorem Later.now_le (h : Later w w') : w.now ≤ w'.now := by
  induction h with
  | refl => exact le_rfl
  | tail _ hstep ih => exact ih.trans hstep.now_le

theorem mem_evict {cache : Cache} {entry : Indexers.CacheEntry} {did : String}
    (h : Indexers.evict cache did = some entry) :
    ∃ before, cache = some before ∧ before.fetchedAt = entry.fetchedAt ∧
      ∀ info ∈ entry.data, info ∈ before.data ∧ info.indexerDid ≠ did := by
  unfold Indexers.evict at h
  rw [Option.map_eq_some_iff] at h
  obtain ⟨before, hbefore, rfl⟩ := h
  refine ⟨before, hbefore, rfl, fun info hinfo => ?_⟩
  simpa using List.mem_filter.mp hinfo

theorem GoneSince.step (h : GoneSince did since w) (hsince : since ≤ w.now) (hstep : Step w w') :
    GoneSince did since w' := by
  intro entry hentry hlisted
  cases hstep with
  | tick => exact h entry hentry hlisted
  | fetched data =>
    obtain rfl := Option.some.inj hentry
    exact hsince
  | evicted other =>
    obtain ⟨before, hbefore, hfetched, hdata⟩ := mem_evict hentry
    obtain ⟨info, hinfo, hdid⟩ := hlisted
    rw [← hfetched]
    exact h before hbefore ⟨info, (hdata info hinfo).1, hdid⟩
  | invalidated => cases hentry

/-- An indexer is back only on a list fetched since. -/
theorem GoneSince.later (h : GoneSince did since w) (hsince : since ≤ w.now) (hlater : Later w w') :
    GoneSince did since w' := by
  induction hlater with
  | refl => exact h
  | tail hbefore hstep ih => exact ih.step (hsince.trans (Later.now_le hbefore)) hstep

end Later

/-! ### A query's calls -/

section Calls

variable {T : Type} {client : Client T} {path subgroveId : String} {body : Bytes} {w : World}

theorem callIndexer_later (hclient : client.Lawful) (info : IndexerInfo) :
    Later w (client.callIndexer info path body w).2 := by
  unfold Client.callIndexer
  dsimp only
  split
  · exact .refl
  · exact hclient.post _ _ _ _

theorem callValidator_later (hclient : client.Lawful) :
    Later w (client.callValidator path body w).2 := by
  unfold Client.callValidator
  split
  · exact .refl
  · split
    · exact .refl
    · exact hclient.post _ _ _ _

theorem list_later (hclient : client.Lawful) : Later w (client.list w).2 := by
  unfold Client.list
  split
  · exact .refl
  · split
    · exact .refl
    · have hfetch := hclient.fetch w
      generalize client.fetch w = fetched at hfetch
      obtain ⟨answer, after⟩ := fetched
      cases answer with
      | error e => exact hfetch
      | ok data => exact hfetch.tail (.fetched data)

theorem forSubgrove_later (hclient : client.Lawful) :
    Later w (client.forSubgrove subgroveId w).2 := by
  unfold Client.forSubgrove
  split
  · exact .refl
  · exact list_later hclient

theorem evictFor_later (info : IndexerInfo) (e : WillowError) :
    Later w (Client.evictFor info e w) := by
  unfold Client.evictFor
  split
  · exact .single (.evicted _)
  · exact .refl

theorem evictFor_goneSince {info : IndexerInfo} {e : WillowError}
    (he : Client.serverError e = true) (since : ℕ) :
    GoneSince info.indexerDid since (Client.evictFor info e w) := by
  intro entry hentry hlisted
  unfold Client.evictFor at hentry
  rw [if_pos he] at hentry
  obtain ⟨_, -, -, hdata⟩ := mem_evict hentry
  obtain ⟨info', hinfo, hdid⟩ := hlisted
  exact absurd hdid (hdata info' hinfo).2

/-- The candidates are the failures, in order, and from the one that answered on
those not asked; a server error has its indexer gone. -/
structure Tried (client : Client T) (path : String) (body : Bytes) (candidates : List IndexerInfo)
    (w : World) (failures : List (IndexerInfo × WillowError)) (answered : Option (IndexerInfo × T))
    (after : World) : Prop where
  later : Later w after
  failed : ∀ f ∈ failures, ∃ w₁, Later w w₁ ∧
    (client.callIndexer f.1 path body w₁).1 = .error f.2
  gone : ∀ f ∈ failures, Client.serverError f.2 = true →
    GoneSince f.1.indexerDid w.now after
  split : match answered with
    | some (info, result) => ∃ rest, candidates = failures.map Prod.fst ++ info :: rest ∧
        ∃ w₁, Later w w₁ ∧ (client.callIndexer info path body w₁).1 = .ok result
    | none => candidates = failures.map Prod.fst

/-- By the candidates. -/
theorem tryEach_tried (hclient : client.Lawful) (candidates : List IndexerInfo) (w : World) :
    Tried client path body candidates w (client.tryEach path body candidates w).1
      (client.tryEach path body candidates w).2.1 (client.tryEach path body candidates w).2.2 := by
  induction candidates generalizing w with
  | nil => exact ⟨.refl, by simp [Client.tryEach], by simp [Client.tryEach], rfl⟩
  | cons info rest ih =>
    have hcall : Later w (client.callIndexer info path body w).2 := callIndexer_later hclient info
    unfold Client.tryEach
    cases hanswer : client.callIndexer info path body w with
    | mk answer after =>
      rw [hanswer] at hcall
      have hfirst : (client.callIndexer info path body w).1 = answer := by rw [hanswer]
      cases answer with
      | ok result =>
        exact ⟨hcall, by simp, by simp, rest, rfl, w, .refl, hfirst⟩
      | error e =>
        have hevict : Later w (Client.evictFor info e after) := hcall.trans (evictFor_later info e)
        have hrest := ih (Client.evictFor info e after)
        dsimp only
        refine ⟨hevict.trans hrest.later, ?_, ?_, ?_⟩
        · refine List.forall_mem_cons.mpr ⟨⟨w, .refl, hfirst⟩, fun f hf => ?_⟩
          obtain ⟨w₁, hlater, hfailed⟩ := hrest.failed f hf
          exact ⟨w₁, hevict.trans hlater, hfailed⟩
        · refine List.forall_mem_cons.mpr ⟨fun he => ?_, fun f hf he => ?_⟩
          · have hgone : GoneSince info.indexerDid w.now (Client.evictFor info e after) :=
              evictFor_goneSince he _
            exact hgone.later hevict.now_le hrest.later
          · intro entry hentry hlisted
            exact hevict.now_le.trans (hrest.gone f hf he entry hentry hlisted)
        · have hsplit := hrest.split
          generalize (client.tryEach path body rest (Client.evictFor info e after)).2.1 = answered at hsplit ⊢
          cases answered with
          | none => exact congrArg (List.cons info) hsplit
          | some a =>
            obtain ⟨others, hothers, w₁, hlater, hok⟩ := hsplit
            exact ⟨others, congrArg (List.cons info) hothers, w₁, hevict.trans hlater, hok⟩

/-- The candidates come best score first. -/
theorem candidates_sorted (client : Client T) (subgroveId : String) (source : QuerySource) (w : World) :
    (client.candidates subgroveId source w).Pairwise
      fun a b => b.performanceScore ≤ a.performanceScore := by
  unfold Client.candidates Client.forSubgrove
  split
  · exact .nil
  · split
    · exact List.pairwise_singleton _ _
    · dsimp only
      cases (client.list w).1 with
      | error e => exact .nil
      | ok listed => exact Foremost.sorted_pairwise _ _

/-- The error of a query for which only indexers may answer, after these failed. -/
def refusal (subgroveId : String) (lookup : Result (List IndexerInfo))
    (failures : List (IndexerInfo × WillowError)) : WillowError :=
  match lookup, failures with
  | .error e, _ => e
  | .ok _, [] => .custom s!"No indexer serves subgrove {subgroveId}"
  | .ok _, failures => .custom
      s!"No indexer could serve subgrove {subgroveId}: {Client.failureText failures}"

/-- How a routed query went, by the candidates that failed and its result. -/
inductive Routed (client : Client T) (path subgroveId : String) (body : Bytes) (source : QuerySource)
    (candidates : List IndexerInfo) (w : World) :
    List (IndexerInfo × WillowError) → Result (RoutedQueryResult T) → Prop
  /-- The first candidate to answer is the query's answer. -/
  | indexer {failures : List (IndexerInfo × WillowError)} {info : IndexerInfo}
      {rest : List IndexerInfo} {answer : T} {w₁ : World} : source ≠ .validator →
      candidates = failures.map Prod.fst ++ info :: rest → Later w w₁ →
      (client.callIndexer info path body w₁).1 = .ok answer →
      Routed client path subgroveId body source candidates w failures
        (.ok ⟨answer, .indexer, some info.indexerDid, false⟩)
  /-- They all failed, and the validator's answer, or failure, is the query's. -/
  | validator {failures : List (IndexerInfo × WillowError)} {w₁ : World} : source ≠ .indexer →
      candidates = failures.map Prod.fst → Later w w₁ →
      Routed client path subgroveId body source candidates w failures
        ((client.callValidator path body w₁).1.map fun answer =>
          ⟨answer, .validator, none, !candidates.isEmpty⟩)
  /-- They all failed, and the validator may not answer. -/
  | refused {failures : List (IndexerInfo × WillowError)} : source = .indexer →
      candidates = failures.map Prod.fst →
      Routed client path subgroveId body source candidates w failures
        (.error (refusal subgroveId (client.forSubgrove subgroveId w).1 failures))

/-- What failed of a query did so since it began, and a server error has its
indexer gone from then on. -/
def Explained (client : Client T) (path : String) (body : Bytes) (w final : World)
    (failures : List (IndexerInfo × WillowError)) : Prop :=
  ∀ f ∈ failures,
    (∃ w₁, Later w w₁ ∧ (client.callIndexer f.1 path body w₁).1 = .error f.2) ∧
    (Client.serverError f.2 = true → ∀ w', Later final w' → GoneSince f.1.indexerDid w.now w')

/-- Candidates tried after a lookup, and what came after. -/
theorem Tried.explained {candidates : List IndexerInfo} {start after final : World}
    {failures : List (IndexerInfo × WillowError)} {answered : Option (IndexerInfo × T)}
    (hstart : Later w start)
    (h : Tried client path body candidates start failures answered after)
    (hfinal : Later after final) : Explained client path body w final failures := by
  intro f hf
  refine ⟨?_, fun he w' hw' => ?_⟩
  · obtain ⟨w₁, hlater, hcall⟩ := h.failed f hf
    exact ⟨w₁, hstart.trans hlater, hcall⟩
  · have hgone : GoneSince f.1.indexerDid w.now after := fun entry hentry hlisted =>
      hstart.now_le.trans (h.gone f hf he entry hentry hlisted)
    exact hgone.later (hstart.now_le.trans h.later.now_le) (hfinal.trans hw')

/-- The candidates are what the lookup found. -/
theorem candidates_of_ne {source : QuerySource} (h : source ≠ .validator) :
    client.candidates subgroveId source w =
      (client.forSubgrove subgroveId w).1.toOption.getD [] := if_neg h

theorem route_validator_explained (client : Client T) (pathPrefix subgroveId : String)
    (body : Bytes) (w : World) :
    ∃ failures, Routed client s!"{pathPrefix}/{subgroveId}" subgroveId body .validator
        (client.candidates subgroveId .validator w) w failures
        (client.route pathPrefix subgroveId body .validator w).1 ∧
      Explained client s!"{pathPrefix}/{subgroveId}" body w
        (client.route pathPrefix subgroveId body .validator w).2 failures := by
  have hnone : client.candidates subgroveId .validator w =
      ([] : List (IndexerInfo × WillowError)).map Prod.fst := if_pos rfl
  exact ⟨[], .validator (by simp) hnone .refl, List.forall_mem_nil _⟩

theorem route_indexer_explained (hclient : client.Lawful) (pathPrefix subgroveId : String)
    (body : Bytes) (w : World) :
    ∃ failures, Routed client s!"{pathPrefix}/{subgroveId}" subgroveId body .indexer
        (client.candidates subgroveId .indexer w) w failures
        (client.route pathPrefix subgroveId body .indexer w).1 ∧
      Explained client s!"{pathPrefix}/{subgroveId}" body w
        (client.route pathPrefix subgroveId body .indexer w).2 failures := by
  have hlookup : Later w (client.forSubgrove subgroveId w).2 := forSubgrove_later hclient
  have hrefused : ∀ failures, client.candidates subgroveId .indexer w = failures.map Prod.fst →
      Routed client s!"{pathPrefix}/{subgroveId}" subgroveId body .indexer
        (client.candidates subgroveId .indexer w) w failures
        (.error (refusal subgroveId (client.forSubgrove subgroveId w).1 failures)) :=
    fun failures hall => .refused rfl hall
  unfold Client.route
  rw [candidates_of_ne (by simp)] at hrefused ⊢
  generalize client.forSubgrove subgroveId w = looked at hlookup hrefused ⊢
  obtain ⟨answer, found⟩ := looked
  dsimp only at hlookup hrefused ⊢
  cases answer with
  | error e => exact ⟨[], hrefused [] rfl, List.forall_mem_nil _⟩
  | ok candidates =>
    cases candidates with
    | nil => exact ⟨[], hrefused [] rfl, List.forall_mem_nil _⟩
    | cons first rest =>
      have htried : Tried client s!"{pathPrefix}/{subgroveId}" body (first :: rest) found _ _ _ :=
        tryEach_tried hclient (first :: rest) found
      dsimp only
      generalize client.tryEach s!"{pathPrefix}/{subgroveId}" body (first :: rest) found = tried
        at htried ⊢
      obtain ⟨failures, answered, tried⟩ := tried
      dsimp only at htried
      have hexplained := htried.explained hlookup .refl
      have hsplit := htried.split
      cases answered with
      | none =>
        have herror := hrefused failures hsplit
        refine ⟨failures, ?_, hexplained⟩
        cases failures with
        | nil => cases hsplit
        | cons f failures => exact herror
      | some a =>
        obtain ⟨info, result⟩ := a
        obtain ⟨others, hothers, w₁, hlater, hcall⟩ := hsplit
        exact ⟨failures, .indexer (by simp) hothers (hlookup.trans hlater) hcall, hexplained⟩

theorem route_auto_explained (hclient : client.Lawful) (pathPrefix subgroveId : String)
    (body : Bytes) (w : World) :
    ∃ failures, Routed client s!"{pathPrefix}/{subgroveId}" subgroveId body .auto
        (client.candidates subgroveId .auto w) w failures
        (client.route pathPrefix subgroveId body .auto w).1 ∧
      Explained client s!"{pathPrefix}/{subgroveId}" body w
        (client.route pathPrefix subgroveId body .auto w).2 failures := by
  have hlookup : Later w (client.forSubgrove subgroveId w).2 := forSubgrove_later hclient
  unfold Client.route
  rw [candidates_of_ne (by simp)]
  generalize client.forSubgrove subgroveId w = looked at hlookup ⊢
  obtain ⟨answer, found⟩ := looked
  dsimp only at hlookup ⊢
  generalize answer.toOption.getD [] = candidates
  have htried : Tried client s!"{pathPrefix}/{subgroveId}" body candidates found _ _ _ :=
    tryEach_tried hclient candidates found
  generalize client.tryEach s!"{pathPrefix}/{subgroveId}" body candidates found = tried at htried ⊢
  obtain ⟨failures, answered, tried⟩ := tried
  dsimp only at htried
  have hsplit := htried.split
  cases answered with
  | none =>
    have hvalidated : Later tried (client.callValidator s!"{pathPrefix}/{subgroveId}" body tried).2 :=
      callValidator_later hclient
    exact ⟨failures, .validator (by simp) hsplit (hlookup.trans htried.later),
      htried.explained hlookup hvalidated⟩
  | some a =>
    obtain ⟨info, result⟩ := a
    obtain ⟨others, hothers, w₁, hlater, hcall⟩ := hsplit
    exact ⟨failures, .indexer (by simp) hothers (hlookup.trans hlater) hcall,
      htried.explained hlookup .refl⟩

end Calls

/-- **A routed query is exact.** While other queries use the shared list, one
is answered by its first candidate that answers, each before it having failed,
or by the validator after every candidate failed, and its result says which
and whether it fell back; it fails only after every candidate failed, and the
validator, if it may answer, did. The candidates come best score first. One
that failed with a server error, however the query ended, is found by no later
lookup of any query on a list fetched before this one began. -/
theorem routed_query_is_exact {T : Type} (client : Client T) (hclient : client.Lawful)
    (pathPrefix subgroveId : String) (body : Bytes) (source : QuerySource) (w : World) :
    (client.candidates subgroveId source w).Pairwise
      (fun a b => b.performanceScore ≤ a.performanceScore) ∧
    ∃ failures, Routed client s!"{pathPrefix}/{subgroveId}" subgroveId body source
        (client.candidates subgroveId source w) w failures
        (client.route pathPrefix subgroveId body source w).1 ∧
      ∀ f ∈ failures,
        (∃ w₁, Later w w₁ ∧
          (client.callIndexer f.1 s!"{pathPrefix}/{subgroveId}" body w₁).1 = .error f.2) ∧
        (Client.serverError f.2 = true →
          ∀ w', Later (client.route pathPrefix subgroveId body source w).2 w' →
            GoneSince f.1.indexerDid w.now w') := by
  refine ⟨candidates_sorted client subgroveId source w, ?_⟩
  cases source with
  | validator => exact route_validator_explained client pathPrefix subgroveId body w
  | indexer => exact route_indexer_explained hclient pathPrefix subgroveId body w
  | auto => exact route_auto_explained hclient pathPrefix subgroveId body w

/-! ### A query the second indexer answers -/

namespace Sample

def indexer (did : String) (score : ℚ) : IndexerInfo where
  indexerDid := did
  subgroves := ["sg"]
  endpoint := did
  queryEndpoint := none
  status := .active
  performanceScore := score

/-- The better of two indexers fails. -/
def client : Client String where
  discovery := ⟨none, Indexers.defaultCacheTtl⟩
  fetch w := (.ok [indexer "a" 90, indexer "b" 80], w)
  join _ := .error ""
  parse := .ok
  signWithNonce _ _ _ := .ok none
  sign _ _ := none
  post target _ _ w :=
    match target with
    | .indexer "b/graphql/sg" => (.ok ⟨200, "200 OK", none, []⟩, w)
    | _ => (.ok ⟨503, "503 Service Unavailable", none, []⟩, w)
  direct := some
  wrapped _ := .error ""

theorem lawful : client.Lawful where
  fetch _ := .refl
  post target _ _ w := by
    unfold client
    dsimp only
    split <;> exact .refl

def start : World := ⟨none, 0⟩

theorem routed : (client.route "graphql" "sg" [] .auto start).1 =
    .ok ⟨"", .indexer, some "b", false⟩ := by
  decide +kernel

theorem candidates_eq : client.candidates "sg" .auto start = [indexer "a" 90, indexer "b" 80] := by
  decide +kernel

/-- The first indexer's failures. -/
theorem call_first (w : World) : (client.callIndexer (indexer "a" 90) "graphql/sg" [] w).1 =
    .error (.http 503 "") := by
  have hendpoint : String.ofList
      (Text.trimEndMatches (indexer "a" 90).effectiveQueryEndpoint.toList '/') = "a" := by
    decide +kernel
  have hanswer : client.readAnswer (.ok ⟨503, "503 Service Unavailable", none, []⟩) =
      .error (.http 503 "") := by
    decide +kernel
  unfold Client.callIndexer
  simp only [hendpoint]
  exact hanswer

end Sample

/-- The other one answered, and the first is on no list fetched before. -/
theorem routed_query_is_exact_sample :
    (Sample.client.route "graphql" "sg" [] .auto Sample.start).1 =
        .ok ⟨"", .indexer, some "b", false⟩ ∧
      ∀ w', Later (Sample.client.route "graphql" "sg" [] .auto Sample.start).2 w' →
        GoneSince "a" 0 w' := by
  obtain ⟨-, failures, hrouted, hfailures⟩ :=
    routed_query_is_exact Sample.client Sample.lawful "graphql" "sg" [] .auto Sample.start
  refine ⟨Sample.routed, fun w' hw' => ?_⟩
  -- the answer is the second candidate's, so the first is among the failures
  have hfirst : ∃ f ∈ failures, f.1 = Sample.indexer "a" 90 := by
    have hcons : ∀ {more : List IndexerInfo},
        [Sample.indexer "a" 90, Sample.indexer "b" 80] = failures.map Prod.fst ++ more →
        failures ≠ [] → ∃ f ∈ failures, f.1 = Sample.indexer "a" 90 := by
      intro more hall hsome
      obtain ⟨f, others, rfl⟩ := List.exists_cons_of_ne_nil hsome
      exact ⟨f, List.mem_cons_self, (List.cons.inj hall).1.symm⟩
    rw [Sample.routed, Sample.candidates_eq] at hrouted
    generalize hresult : (Except.ok _ : Result (RoutedQueryResult String)) = result at hrouted
    cases hrouted with
    | indexer _ hall =>
      refine hcons hall ?_
      rintro rfl
      obtain ⟨rfl, -⟩ := List.cons.inj hall
      simp [Sample.indexer] at hresult
    | validator _ hall =>
      refine hcons (hall.trans (List.append_nil _).symm) ?_
      rintro rfl
      cases hall
    | refused hsource => cases hsource
  obtain ⟨f, hf, hdid⟩ := hfirst
  obtain ⟨⟨w₁, -, hcall⟩, hgone⟩ := hfailures f hf
  rw [hdid] at hcall hgone
  have herror : f.2 = .http 503 "" := Except.error.inj (hcall.symm.trans (Sample.call_first w₁))
  exact hgone (by rw [herror]; rfl) w' hw'

end Routing
end WillowSdk
