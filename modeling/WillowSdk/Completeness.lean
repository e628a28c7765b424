/-
# The completeness commitment

`canonical_event_set_hash` (src/completeness.rs): the hash over a block's
number and its matched logs that the chain commits to, and that a client
compares with the logs an indexer serves.

No two blocks and lists of logs are hashed as the same bytes, if every count
in them fits its 32 bits, as it does in all that is parsed from an answer
under its cap (`commitment_binds`). A log is read from its fixed start: each
count stands before what it counts, so the encoding of a log is
self-delimiting (`logBytes_delimited`).
-/
import WillowSdk.EthState
import WillowSdk.HttpBody
import WillowSdk.Lib.Delimited
import WillowSdk.Lib.Text
import Mathlib.Data.List.Flatten

namespace WillowSdk
namespace Completeness

open EthState (B256 Address U64)
open Delimited

/-- `b"WILLOW_CRYPTO_EVENTS_V1"` -/
def domainTag : Bytes := Utf8.encode "WILLOW_CRYPTO_EVENTS_V1"

/-- What the commitment binds of an Ethereum log. -/
structure Log where
  address : Address
  topics : List B256
  data : Bytes
deriving DecidableEq

/-- `(n as u32).to_be_bytes()`, which truncates. -/
def u32Bytes (n : ℕ) : Bytes := BigEndian.bytes 4 (n % 2 ^ 32)

/-- `(n as u64).to_be_bytes()`. -/
def u64Bytes (n : ℕ) : Bytes := BigEndian.bytes 8 (n % 2 ^ 64)

def logBytes (log : Log) : Bytes :=
  log.address.val ++ (u32Bytes log.topics.length ++ (log.topics.flatMap Subtype.val ++
    (u32Bytes log.data.length ++ log.data)))

/-- What is hashed. -/
def preimage (blockNumber : U64) (matchedLogs : List Log) : Bytes :=
  domainTag ++ (u64Bytes blockNumber.val ++ (u64Bytes matchedLogs.length ++
    matchedLogs.flatMap logBytes))

section Hash

variable (keccak : Bytes → B256)

def canonicalEventSetHash (blockNumber : U64) (matchedLogs : List Log) : B256 :=
  keccak (preimage blockNumber matchedLogs)

def verifyServedEvents (commitment : B256) (blockNumber : U64) (matchedLogs : List Log) : Bool :=
  canonicalEventSetHash keccak blockNumber matchedLogs = commitment

end Hash

/-! ### Parsing an answer -/

/-- A log as an indexer serves it. -/
structure ServedLog where
  address : String
  topics : List String
  data : String
deriving DecidableEq

/-- `hex::decode` of what follows `0x`, if it starts so. -/
def decodeHex (s : String) : Result Bytes :=
  let digits := (Text.stripPrefix s.toList "0x".toList).getD s.toList
  (Hex.decode (Utf8.encode (String.ofList digits))).mapError fun e =>
    .validation s!"Invalid hex: {e}"

def hexFixed (n : ℕ) (s field : String) : Result { bytes : Bytes // bytes.length = n } := do
  let bytes ← decodeHex s
  if h : bytes.length = n then .ok ⟨bytes, h⟩
  else .error (.validation s!"{field} is {bytes.length} bytes, expected {n}")

def ServedLog.intoLog (served : ServedLog) : Result Log := do
  let address ← hexFixed 20 served.address "log address"
  let topics ← served.topics.mapM fun t => hexFixed 32 t "log topic"
  let data ← decodeHex served.data
  .ok ⟨address, topics, data⟩

section Parse

-- `serde_json::from_slice` of a `MatchedLogsResponse`: its logs
variable (fromSlice : Bytes → Except String (List ServedLog)) (keccak : Bytes → B256)

def parseMatchedLogs (body : Bytes) : Result (List Log) := do
  let parsed ← (fromSlice body).mapError .serialization
  parsed.mapM ServedLog.intoLog

/-- `verify_block_completeness`, of the commitment the chain answers and the
logs an indexer serves. -/
def verifyBlockCompleteness (subgroveId : String) (blockNumber : U64)
    (eventsCommitment : Result (Option B256)) (response : Result HttpBody.Response) :
    Result Bool := do
  let commitment ← Outcome.okOr (← eventsCommitment)
    (.notFound s!"no on-chain events_commitment for {subgroveId} block {blockNumber.val}")
  let response ← response
  let bytes ← HttpBody.read response HttpBody.large
  if response.isSuccess = false then
    .error (.notFound s!"indexer returned {response.statusText} for {subgroveId} block {blockNumber.val} matched-logs")
  else do
    let logs ← parseMatchedLogs fromSlice bytes
    .ok (verifyServedEvents keccak commitment blockNumber logs)

/-- What JSON decodes to is no longer than the JSON: a text has a byte or more
for each of its own, a list one for each element. -/
def FitsBody : Prop :=
  ∀ body parsed, fromSlice body = .ok parsed → ∀ served ∈ parsed,
    served.topics.length ≤ body.length ∧ (Utf8.encode served.data).length ≤ body.length

end Parse

/-! ### The encoding of a log -/

/-- The counts of a log fit their 32 bits. -/
structure Log.Counted (log : Log) : Prop where
  topics_lt : log.topics.length < 2 ^ 32
  data_lt : log.data.length < 2 ^ 32

theorem fixed_delimited (n : ℕ) :
    SelfDelimiting (fun _ : { bytes : Bytes // bytes.length = n } => True) Subtype.val :=
  of_length (fun a _ => a.property) fun _ _ _ _ h => Subtype.ext h

theorem byte_delimited : SelfDelimiting (fun _ : UInt8 => True) fun b => [b] :=
  of_length (fun _ _ => rfl) fun _ _ _ _ h => List.singleton_inj.mp h

theorem u32Bytes_delimited : SelfDelimiting (· < 2 ^ 32) u32Bytes := by
  refine of_length (fun n _ => BigEndian.length_bytes 4 _) fun m n hm hn h => ?_
  unfold u32Bytes at h
  rw [Nat.mod_eq_of_lt hm, Nat.mod_eq_of_lt hn] at h
  rw [← BigEndian.value_bytes (k := 4) hm, h, BigEndian.value_bytes (k := 4) hn]

/-- A count of at most 32 bits, then what it counts. -/
theorem counted_delimited {α : Type} {enc : α → Bytes}
    (h : SelfDelimiting (fun _ : α => True) enc) :
    SelfDelimiting (fun xs : List α => xs.length < 2 ^ 32)
      fun xs => u32Bytes xs.length ++ xs.flatMap enc := by
  intro xs ys s t hxs hys heq
  exact u32Bytes_delimited.counted h xs ys s t ⟨hxs, fun _ _ => trivial⟩ ⟨hys, fun _ _ => trivial⟩ heq

theorem logBytes_eq (log : Log) :
    logBytes log = log.address.val ++ ((u32Bytes log.topics.length ++ log.topics.flatMap Subtype.val) ++
      (u32Bytes log.data.length ++ log.data.flatMap fun b => [b])) := by
  rw [logBytes, List.flatMap_singleton', List.append_assoc (u32Bytes log.topics.length)]

/-- **Where a log ends is read from its start.** -/
theorem logBytes_delimited : SelfDelimiting Log.Counted logBytes := by
  have hcounts := (counted_delimited (fixed_delimited 32)).append (counted_delimited byte_delimited)
    (Prod.fst : List B256 × Bytes → List B256) Prod.snd fun _ _ => Prod.ext
  have hlog := (fixed_delimited 20).append hcounts Log.address
    (fun log => (log.topics, log.data)) fun a b haddress hrest => by
      obtain ⟨htopics, hdata⟩ := Prod.mk.inj hrest
      cases a
      cases b
      simp_all
  intro a b s t ha hb heq
  rw [logBytes_eq, logBytes_eq] at heq
  exact hlog a b s t ⟨trivial, ha.topics_lt, ha.data_lt⟩ ⟨trivial, hb.topics_lt, hb.data_lt⟩ heq

theorem logBytes_ne_nil (log : Log) : logBytes log ≠ [] := by
  intro h
  have haddress : log.address.val = [] := (List.append_eq_nil_iff.mp h).1
  have hlen := log.address.property
  rw [haddress] at hlen
  exact absurd hlen (by decide)

/-- **No two event sets are hashed as the same bytes.** The count of logs
before them isn't needed: they are read to the end. -/
theorem preimage_inj {b₁ b₂ : U64} {l₁ l₂ : List Log} (h₁ : ∀ log ∈ l₁, log.Counted)
    (h₂ : ∀ log ∈ l₂, log.Counted) (heq : preimage b₁ l₁ = preimage b₂ l₂) :
    b₁ = b₂ ∧ l₁ = l₂ := by
  have hrest := List.append_cancel_left heq
  have hlen : ∀ n : ℕ, (u64Bytes n).length = 8 := fun n => BigEndian.length_bytes 8 _
  obtain ⟨hblock, hrest⟩ := List.append_inj hrest ((hlen _).trans (hlen _).symm)
  obtain ⟨-, hlogs⟩ := List.append_inj hrest ((hlen _).trans (hlen _).symm)
  refine ⟨Subtype.ext ?_, logBytes_delimited.flatMap_inj (fun log _ => logBytes_ne_nil log) h₁ h₂ hlogs⟩
  unfold u64Bytes at hblock
  rw [Nat.mod_eq_of_lt b₁.property, Nat.mod_eq_of_lt b₂.property] at hblock
  rw [← BigEndian.value_bytes (k := 8) b₁.property, hblock,
    BigEndian.value_bytes (k := 8) b₂.property]

/-! ### What is parsed -/

/-- A log as an honest indexer serves it. -/
def Log.served (log : Log) : ServedLog where
  address := "0x" ++ Hex.text log.address.val
  topics := log.topics.map fun t => "0x" ++ Hex.text t.val
  data := "0x" ++ Hex.text log.data

theorem decodeHex_text (bytes : Bytes) : decodeHex ("0x" ++ Hex.text bytes) = .ok bytes := by
  have hstrip : Text.stripPrefix ("0x" ++ Hex.text bytes).toList "0x".toList =
      some (Hex.text bytes).toList := by
    unfold Text.stripPrefix
    rw [String.toList_append, if_pos (List.isPrefixOf_iff_prefix.mpr (List.prefix_append _ _)),
      List.drop_left]
  unfold decodeHex
  simp only [hstrip, Option.getD_some, String.ofList_toList, Hex.decode_encode,
    Outcome.mapError_ok]

theorem hexFixed_text {n : ℕ} (bytes : { bytes : Bytes // bytes.length = n }) (field : String) :
    hexFixed n ("0x" ++ Hex.text bytes.val) field = .ok bytes :=
  Outcome.bind_eq_ok.mpr ⟨bytes.val, decodeHex_text bytes.val, dif_pos bytes.property⟩

/-- **A log comes back as it was served.** -/
theorem Log.intoLog_served (log : Log) : log.served.intoLog = .ok log := by
  have htopics : ∀ topics : List B256,
      (topics.map fun t => "0x" ++ Hex.text t.val).mapM (fun t => hexFixed 32 t "log topic") =
        .ok topics := by
    intro topics
    induction topics with
    | nil => rfl
    | cons t topics ih =>
      rw [List.map_cons, List.mapM_cons, hexFixed_text, ih]
      rfl
  refine Outcome.bind_eq_ok.mpr ⟨log.address, hexFixed_text _ _, ?_⟩
  refine Outcome.bind_eq_ok.mpr ⟨log.topics, htopics log.topics, ?_⟩
  exact Outcome.bind_eq_ok.mpr ⟨log.data, decodeHex_text log.data, rfl⟩

/-- What is served is parsed to what was served. -/
theorem parseMatchedLogs_served {fromSlice : Bytes → Except String (List ServedLog)} {body : Bytes}
    {logs : List Log} (h : fromSlice body = .ok (logs.map Log.served)) :
    parseMatchedLogs fromSlice body = .ok logs := by
  have hlogs : ∀ logs : List Log, (logs.map Log.served).mapM ServedLog.intoLog = .ok logs := by
    intro logs
    induction logs with
    | nil => rfl
    | cons log logs ih =>
      rw [List.map_cons, List.mapM_cons, log.intoLog_served, ih]
      rfl
  unfold parseMatchedLogs
  rw [h, Outcome.mapError_ok]
  exact hlogs logs

/-- Two characters for `0x`, and two for each byte. -/
theorem Log.length_served_data (log : Log) :
    (Utf8.encode log.served.data).length = 2 + 2 * log.data.length := by
  have hhex : (Utf8.encode (Hex.text log.data)).length = 2 * log.data.length := by
    rw [Hex.utf8_encode, Hex.length_encodeBytes]
  have happend : Utf8.encode ("0x" ++ Hex.text log.data) =
      Utf8.encode "0x" ++ Utf8.encode (Hex.text log.data) := by
    unfold Utf8.encode
    rw [String.toList_append, List.flatMap_append]
  rw [Log.served, happend, List.length_append, hhex]
  rfl

theorem decodeHex_length_le {s : String} {bytes : Bytes} (h : decodeHex s = .ok bytes) :
    bytes.length ≤ (Utf8.encode s).length := by
  unfold decodeHex at h
  rw [Outcome.mapError_eq_ok] at h
  refine (Hex.decode_length_le h).trans ?_
  have hsublist : ((Text.stripPrefix s.toList "0x".toList).getD s.toList).Sublist s.toList := by
    unfold Text.stripPrefix
    split
    · exact List.drop_sublist _ _
    · exact .refl _
  rw [Utf8.encode, Utf8.encode, String.toList_ofList]
  exact (hsublist.flatMap String.utf8EncodeChar).length_le

theorem intoLog_length_le {served : ServedLog} {log : Log} (h : served.intoLog = .ok log) :
    log.topics.length = served.topics.length ∧
      log.data.length ≤ (Utf8.encode served.data).length := by
  unfold ServedLog.intoLog at h
  obtain ⟨address, -, h⟩ := Outcome.bind_eq_ok.mp h
  obtain ⟨topics, htopics, h⟩ := Outcome.bind_eq_ok.mp h
  obtain ⟨data, hdata, h⟩ := Outcome.bind_eq_ok.mp h
  obtain rfl := Except.ok.inj h
  exact ⟨(Outcome.of_mapM_eq_ok htopics).1, decodeHex_length_le hdata⟩

/-- Every log parsed from a body under the cap has its counts. -/
theorem parsed_counted {fromSlice : Bytes → Except String (List ServedLog)}
    (hfits : FitsBody fromSlice) {body : Bytes} (hbody : body.length ≤ HttpBody.large)
    {logs : List Log} (h : parseMatchedLogs fromSlice body = .ok logs) :
    ∀ log ∈ logs, log.Counted := by
  unfold parseMatchedLogs at h
  obtain ⟨parsed, hparsed, hlogs⟩ := Outcome.bind_eq_ok.mp h
  rw [Outcome.mapError_eq_ok] at hparsed
  intro log hlog
  have hcap : HttpBody.large < 2 ^ 32 := by decide
  obtain ⟨served, hserved, hinto⟩ := (Outcome.of_mapM_eq_ok hlogs).2 log hlog
  obtain ⟨htopics, hdata⟩ := hfits body parsed hparsed served hserved
  obtain ⟨hlen, hle⟩ := intoLog_length_le hinto
  exact ⟨by omega, by omega⟩

/-- **The commitment binds its event set.** Blocks and logs that are hashed as
the same bytes are the same, if the logs have their counts; two that one
commitment verifies are a collision of the hash, or the same; and what is
parsed from an answer under its cap has its counts. -/
theorem commitment_binds (keccak : Bytes → B256) (fromSlice : Bytes → Except String (List ServedLog)) :
    (∀ b₁ b₂ l₁ l₂, (∀ log ∈ l₁, log.Counted) → (∀ log ∈ l₂, log.Counted) →
      preimage b₁ l₁ = preimage b₂ l₂ → b₁ = b₂ ∧ l₁ = l₂) ∧
    (∀ commitment b₁ b₂ l₁ l₂, (∀ log ∈ l₁, log.Counted) → (∀ log ∈ l₂, log.Counted) →
      verifyServedEvents keccak commitment b₁ l₁ = true →
      verifyServedEvents keccak commitment b₂ l₂ = true → (b₁, l₁) ≠ (b₂, l₂) →
      preimage b₁ l₁ ≠ preimage b₂ l₂ ∧ keccak (preimage b₁ l₁) = keccak (preimage b₂ l₂)) ∧
    (FitsBody fromSlice → ∀ body : Bytes, body.length ≤ HttpBody.large → ∀ logs,
      parseMatchedLogs fromSlice body = .ok logs → ∀ log ∈ logs, log.Counted) := by
  refine ⟨fun b₁ b₂ l₁ l₂ => preimage_inj, ?_, fun hfits body hbody logs => parsed_counted hfits hbody⟩
  intro commitment b₁ b₂ l₁ l₂ h₁ h₂ hverify₁ hverify₂ hne
  refine ⟨fun heq => hne ?_, ?_⟩
  · obtain ⟨hblock, hlogs⟩ := preimage_inj h₁ h₂ heq
    rw [hblock, hlogs]
  · have hhash₁ : keccak (preimage b₁ l₁) = commitment := of_decide_eq_true hverify₁
    have hhash₂ : keccak (preimage b₂ l₂) = commitment := of_decide_eq_true hverify₂
    rw [hhash₁, hhash₂]

/-! ### A block of two logs -/

namespace Sample

def first : Log where
  address := ⟨List.replicate 20 0x42, List.length_replicate⟩
  topics := [⟨List.replicate 32 0xDD, List.length_replicate⟩,
    ⟨List.replicate 32 0x11, List.length_replicate⟩]
  data := [1, 2, 3, 4]

def second : Log where
  address := ⟨List.replicate 20 0x43, List.length_replicate⟩
  topics := [⟨List.replicate 32 0xAA, List.length_replicate⟩]
  data := []

def block : U64 := ⟨7, by decide⟩

/-- The commitment of block 7: Keccak-256 of its preimage. -/
def commitment : B256 :=
  ⟨[0xE1, 0x54, 0x4A, 0xE9, 0x19, 0x45, 0x86, 0x63, 0xE8, 0xFC, 0xE1, 0x4B, 0xDC, 0xD0, 0x6D, 0xF6,
    0xA7, 0x77, 0x41, 0x0C, 0x06, 0x83, 0x02, 0xC0, 0x58, 0x4D, 0xFF, 0x15, 0x87, 0x52, 0x4D, 0xFD],
    rfl⟩

/-- Keccak-256 of the preimage without the second log. -/
def withoutSecond : B256 :=
  ⟨[0x74, 0x85, 0x03, 0x78, 0xB5, 0xFD, 0x00, 0x81, 0x26, 0x43, 0xD1, 0xE5, 0x26, 0x96, 0x44, 0x7A,
    0xB4, 0x6D, 0xCE, 0xC8, 0x45, 0x47, 0x25, 0xF4, 0x75, 0x52, 0x69, 0x42, 0x4A, 0xE4, 0xF0, 0x3F],
    rfl⟩

/-- Keccak-256 where these reads hash. -/
def keccak (bytes : Bytes) : B256 :=
  if bytes = preimage block [first, second] then commitment
  else if bytes = preimage block [first] then withoutSecond
  else EthState.zeroHash

/-- `"0x..."` -/
def hexJson (bytes : Bytes) : Bytes := [34, 48, 120] ++ Hex.encodeBytes bytes ++ [34]

/-- `{"address":..,"topics":[..],"data":..}` -/
def logJson (log : Log) : Bytes :=
  [123, 34, 97, 100, 100, 114, 101, 115, 115, 34, 58] ++ hexJson log.address.val ++
    [44, 34, 116, 111, 112, 105, 99, 115, 34, 58, 91] ++
    [44].intercalate (log.topics.map fun t => hexJson t.val) ++
    [93, 44, 34, 100, 97, 116, 97, 34, 58] ++ hexJson log.data ++ [125]

/-- `{"matched_logs":[..]}` -/
def answer (logs : List Log) : Bytes :=
  [123, 34, 109, 97, 116, 99, 104, 101, 100, 95, 108, 111, 103, 115, 34, 58, 91] ++
    [44].intercalate (logs.map logJson) ++ [93, 125]

def both : Bytes := answer [first, second]

def firstAlone : Bytes := answer [first]

def fromSlice (bytes : Bytes) : Except String (List ServedLog) :=
  if bytes = both then .ok ([first, second].map Log.served)
  else if bytes = firstAlone then .ok ([first].map Log.served)
  else .error "expected value at line 1 column 1"

theorem fromSlice_both : fromSlice both = .ok ([first, second].map Log.served) := if_pos rfl

theorem fromSlice_firstAlone : fromSlice firstAlone = .ok ([first].map Log.served) := by
  have hne : firstAlone ≠ both := by decide +kernel
  unfold fromSlice
  rw [if_neg hne, if_pos rfl]

/-- What is served of a log is no longer than a body that is. -/
theorem served_le {body : Bytes} {logs : List Log}
    (h : ∀ log ∈ logs, log.topics.length ≤ body.length ∧ 2 + 2 * log.data.length ≤ body.length) :
    ∀ served ∈ logs.map Log.served,
      served.topics.length ≤ body.length ∧ (Utf8.encode served.data).length ≤ body.length := by
  intro served hserved
  obtain ⟨log, hlog, rfl⟩ := List.mem_map.mp hserved
  obtain ⟨htopics, hdata⟩ := h log hlog
  refine ⟨by simpa [Log.served] using htopics, ?_⟩
  rwa [log.length_served_data]

theorem fitsBody : FitsBody fromSlice := by
  have hboth : ∀ log ∈ [first, second],
      log.topics.length ≤ both.length ∧ 2 + 2 * log.data.length ≤ both.length := by decide +kernel
  have hfirst : ∀ log ∈ [first],
      log.topics.length ≤ firstAlone.length ∧ 2 + 2 * log.data.length ≤ firstAlone.length := by
    decide +kernel
  intro bytes parsed h
  unfold fromSlice at h
  split at h
  · next heq =>
    rw [heq, ← Except.ok.inj h]
    exact served_le hboth
  · split at h
    · next heq =>
      rw [heq, ← Except.ok.inj h]
      exact served_le hfirst
    · cases h

theorem counted : ∀ log ∈ [first, second], log.Counted := by
  intro log hlog
  have hcounts : log.topics.length < 2 ^ 32 ∧ log.data.length < 2 ^ 32 := by
    revert log
    decide +kernel
  exact ⟨hcounts.1, hcounts.2⟩

theorem served_ne : [first, second] ≠ [first] := by simp

theorem keccak_both : keccak (preimage block [first, second]) = commitment := by
  unfold keccak
  exact if_pos rfl

theorem keccak_first : keccak (preimage block [first]) = withoutSecond := by
  have hne : preimage block [first] ≠ preimage block [first, second] := by decide +kernel
  unfold keccak
  rw [if_neg hne, if_pos rfl]

end Sample

theorem commitment_binds_sample :
    preimage Sample.block [Sample.first, Sample.second] ≠ preimage Sample.block [Sample.first] ∧
    ∀ log ∈ [Sample.first, Sample.second], log.Counted := by
  have hbinds := commitment_binds Sample.keccak Sample.fromSlice
  have hfirst : ∀ log ∈ [Sample.first], log.Counted := fun log hlog =>
    Sample.counted log (List.mem_cons.mpr (.inl (List.mem_singleton.mp hlog)))
  have hparsed := parseMatchedLogs_served Sample.fromSlice_both
  refine ⟨fun heq => ?_, ?_⟩
  · exact Sample.served_ne (hbinds.1 _ _ _ _ Sample.counted hfirst heq).2
  · exact hbinds.2.2 Sample.fitsBody Sample.both (by decide +kernel) _ hparsed

end Completeness
end WillowSdk
