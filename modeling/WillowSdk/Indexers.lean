/-
# Indexer discovery

`WillowIndexers` (src/indexers.rs): the validator's list of indexers behind a
cache that expires, is shared by a client's clones, and can be told to forget
an indexer. The active indexers of a subgrove come best score first.

Scores are finite floats, so rationals; times are nanoseconds.
-/
import WillowSdk.Errors
import WillowSdk.Lib.Foremost
import WillowSdk.Lib.Outcome
import Mathlib.Data.Rat.Defs
import Mathlib.Algebra.Order.Ring.Unbundled.Rat

namespace WillowSdk
namespace Indexers

inductive IndexerStatus
  | active
  | inactive
  | slashed
deriving DecidableEq

/-- What discovery reads of an indexer. -/
structure IndexerInfo where
  indexerDid : String
  subgroves : List String
  endpoint : String
  queryEndpoint : Option String
  status : IndexerStatus
  performanceScore : ℚ
deriving DecidableEq

def IndexerInfo.effectiveQueryEndpoint (info : IndexerInfo) : String :=
  info.queryEndpoint.getD info.endpoint

/-- 30 s. -/
def defaultCacheTtl : ℕ := 30 * 10 ^ 9

structure CacheEntry where
  data : List IndexerInfo
  fetchedAt : ℕ

abbrev Cache := Option CacheEntry

/-- A discovery client's settings. -/
structure Discovery where
  indexerUrl : Option String
  cacheTtl : ℕ

/-- The one entry of an explicit URL. -/
def syntheticEntry (url : String) : IndexerInfo where
  indexerDid := "explicit-override"
  subgroves := []
  endpoint := url
  queryEndpoint := some url
  status := .active
  performanceScore := 100

def evict (cache : Cache) (indexerDid : String) : Cache :=
  cache.map fun entry => { entry with data := entry.data.filter (·.indexerDid ≠ indexerDid) }

/-- What the cache answers, unless it is empty or has expired. -/
def cached (ttl now : ℕ) (cache : Cache) : Option (List IndexerInfo) :=
  match cache with
  | some entry => if now - entry.fetchedAt < ttl then some entry.data else none
  | none => none

/-- `list`, and the cache it leaves. -/
def list (discovery : Discovery) (now : ℕ) (answer : Result (List IndexerInfo)) (cache : Cache) :
    Result (List IndexerInfo) × Cache :=
  match discovery.indexerUrl with
  | some url => (.ok [syntheticEntry url], cache)
  | none =>
    match cached discovery.cacheTtl now cache with
    | some data => (.ok data, cache)
    | none =>
      match answer with
      | .error e => (.error e, cache)
      | .ok data => (.ok data, some ⟨data, now⟩)

def IndexerInfo.serves (info : IndexerInfo) (subgroveId : String) : Bool :=
  info.status = .active ∧ subgroveId ∈ info.subgroves

/-- The active indexers of a subgrove. -/
def pool (subgroveId : String) (listed : List IndexerInfo) : List IndexerInfo :=
  listed.filter (·.serves subgroveId)

/-- `for_subgrove`, and the cache it leaves. -/
def forSubgrove (discovery : Discovery) (now : ℕ) (answer : Result (List IndexerInfo))
    (cache : Cache) (subgroveId : String) : Result (List IndexerInfo) × Cache :=
  match discovery.indexerUrl with
  | some url => (.ok [syntheticEntry url], cache)
  | none =>
    let (listed, cache) := list discovery now answer cache
    (listed.map fun listed =>
      Foremost.sorted IndexerInfo.performanceScore (pool subgroveId listed), cache)

/-- The indexers a lookup goes by: the cached ones, or the validator's. -/
def known (ttl now : ℕ) (answer : Result (List IndexerInfo)) (cache : Cache) :
    Result (List IndexerInfo) :=
  match cached ttl now cache with
  | some data => .ok data
  | none => answer

theorem forSubgrove_eq {discovery : Discovery} (hurl : discovery.indexerUrl = none) (now : ℕ)
    (answer : Result (List IndexerInfo)) (cache : Cache) (subgroveId : String) :
    (forSubgrove discovery now answer cache subgroveId).1 =
      (known discovery.cacheTtl now answer cache).map fun listed =>
        Foremost.sorted IndexerInfo.performanceScore (pool subgroveId listed) := by
  unfold forSubgrove list known
  rw [hurl]
  dsimp only
  cases cached discovery.cacheTtl now cache with
  | some data => rfl
  | none => cases answer <;> rfl

theorem mem_pool {subgroveId : String} {listed : List IndexerInfo} {info : IndexerInfo} :
    info ∈ pool subgroveId listed ↔
      info ∈ listed ∧ info.status = .active ∧ subgroveId ∈ info.subgroves := by
  unfold pool IndexerInfo.serves
  rw [List.mem_filter, decide_eq_true_iff]

end Indexers
end WillowSdk
