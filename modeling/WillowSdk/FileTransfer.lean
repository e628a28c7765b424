/-
# A file comes back whole or not at all

What an upload sends of a file of 1 byte to 1 GiB passes the download's own
checks and is returned as it was, and whatever a storage node answers, a
download against the upload's manifest returns an error or the file, holding
at most as many bytes as it has (`download_whole_or_not`). Only SHA-256 of the
file and of what was downloaded must not collide.
-/
import WillowSdk.Files

namespace WillowSdk
namespace Files

open EthState (B256 zeroHash)

/-! ### The manifests accepted -/

/-- The chunks the chain allows hold a number of bytes that is a `u64`. -/
theorem mul_le_u64Max {count size : ℕ} (hcount : count ≤ maxChunkCount) (hsize : size < 2 ^ 32) :
    count * size ≤ u64Max :=
  calc count * size ≤ maxChunkCount * 2 ^ 32 := Nat.mul_le_mul hcount hsize.le
    _ ≤ u64Max := by decide

/-- Sizes are refused or not, with no overflow: both factors of a product are
bounded. -/
theorem whyRefused_answers (total count : ℕ) {size : ℕ} (hsize : size < 2 ^ 32) :
    ∃ why, whyRefused total count size = .ok why ∧
      (why = none ↔ 0 < size ∧ 0 < total ∧ total ≤ maxFileSize ∧ 0 < count ∧
        count ≤ maxChunkCount ∧ (count - 1) * size < total ∧ total ≤ count * size) := by
  unfold whyRefused
  by_cases hempty : total = 0 ∨ count = 0 ∨ size = 0
  · rw [if_pos hempty]
    exact ⟨_, rfl, iff_of_false (Option.some_ne_none _) fun h => by omega⟩
  · rw [if_neg hempty]
    by_cases htotal : total > maxFileSize
    · rw [if_pos htotal]
      exact ⟨_, rfl, iff_of_false (Option.some_ne_none _) fun h => by omega⟩
    · rw [if_neg htotal]
      by_cases hcount : count > maxChunkCount
      · rw [if_pos hcount]
        exact ⟨_, rfl, iff_of_false (Option.some_ne_none _) fun h => by omega⟩
      · rw [if_neg hcount]
        have hall : count * size ≤ u64Max := mul_le_u64Max (Nat.not_lt.mp hcount) hsize
        have hunder : (count - 1) * size ≤ u64Max :=
          (Nat.mul_le_mul_right size (Nat.sub_le count 1)).trans hall
        have hone : 1 ≤ count := by omega
        rw [Checked.mul_bind hall]
        by_cases hfit : total > count * size
        · rw [if_pos hfit]
          exact ⟨_, rfl, iff_of_false (Option.some_ne_none _) fun h => by omega⟩
        · rw [if_neg hfit, Checked.sub_bind hone, Checked.mul_bind hunder]
          by_cases hlow : total ≤ (count - 1) * size
          · rw [if_pos hlow]
            exact ⟨_, rfl, iff_of_false (Option.some_ne_none _) fun h => by omega⟩
          · rw [if_neg hlow]
            exact ⟨_, rfl, iff_of_true rfl (by omega)⟩

/-- **What isn't refused**: sizes of a file in as many chunks. -/
theorem whyRefused_eq_none_iff {total count size : ℕ} (hsize : size < 2 ^ 32) :
    whyRefused total count size = .ok none ↔
      0 < size ∧ 0 < total ∧ total ≤ maxFileSize ∧ 0 < count ∧ count ≤ maxChunkCount ∧
        (count - 1) * size < total ∧ total ≤ count * size := by
  obtain ⟨why, hwhy, hnone⟩ := whyRefused_answers total count hsize
  rw [hwhy, Except.ok.injEq, hnone]

theorem checkManifest_eq_ok {manifest : FileManifest} :
    checkManifest manifest = .ok () ↔
      whyRefused manifest.totalSize.toNat manifest.chunkCount.toNat manifest.chunkSize.toNat =
        .ok none := by
  unfold checkManifest
  rw [Outcome.bind_eq_ok]
  refine ⟨fun h => ?_, fun h => ⟨none, h, rfl⟩⟩
  obtain ⟨why, hwhy, h⟩ := h
  cases why with
  | none => exact hwhy
  | some why => cases h

section Uploaded

variable (sha256 : Bytes → B256) (req : UploadRequest)

theorem defaultChunkSize_pos : 0 < defaultChunkSize.toNat := by decide

/-- The manifest's sizes are the file's, and its chunks'. -/
theorem manifest_sizes (hmax : req.data.length ≤ maxFileSize) (ownerDid : String) :
    (req.manifest sha256 ownerDid).totalSize.toNat = req.data.length ∧
      (req.manifest sha256 ownerDid).chunkCount.toNat = req.chunks.length ∧
      req.chunks.length ≤ maxChunkCount := by
  have hfew : req.chunks.length ≤ maxChunkCount := by
    refine (Chunked.length_chunks_le_iff defaultChunkSize_pos).mpr (hmax.trans ?_)
    decide
  refine ⟨UInt64.toNat_ofNat_of_lt' (lt_of_le_of_lt hmax (by decide)), ?_, hfew⟩
  exact UInt32.toNat_ofNat_of_lt' (lt_of_le_of_lt hfew (by decide))

/-- The chain's limits hold for a file of 1 byte to 1 GiB. -/
theorem checkManifest_manifest (hpos : 1 ≤ req.data.length) (hmax : req.data.length ≤ maxFileSize)
    (ownerDid : String) : checkManifest (req.manifest sha256 ownerDid) = .ok () := by
  obtain ⟨htotal, hcount, hfew⟩ := manifest_sizes sha256 req hmax ownerDid
  have hsize := defaultChunkSize_pos
  have hdata : req.data ≠ [] := List.length_pos_iff.mp hpos
  have hall : req.data.length ≤ req.chunks.length * defaultChunkSize.toNat :=
    Chunked.length_le_chunks hsize req.data
  have hunder : (req.chunks.length - 1) * defaultChunkSize.toNat < req.data.length :=
    Chunked.chunks_lt_length hsize hdata
  have hsome : 0 < req.chunks.length := by
    rcases Nat.eq_zero_or_pos req.chunks.length with hnone | hsome
    · rw [hnone] at hall
      omega
    · exact hsome
  rw [checkManifest_eq_ok, whyRefused_eq_none_iff (UInt32.toNat_lt _), htotal, hcount]
  exact ⟨hsize, hpos, hmax, hsome, hfew, hunder, hall⟩

theorem chunk_length_le {chunk : Bytes} (h : chunk ∈ req.chunks) :
    chunk.length ≤ defaultChunkSize.toNat := by
  unfold UploadRequest.chunks chunkData at h
  exact Chunked.length_le_of_mem_chunks h

theorem chunkLimit_manifest (ownerDid : String) :
    (req.manifest sha256 ownerDid).chunkLimit = defaultChunkSize.toNat := by
  have hle : defaultChunkSize.toNat ≤ HttpBody.chunk := by decide
  exact min_eq_left hle

theorem flatten_chunks : req.chunks.flatten = req.data :=
  Chunked.flatten_chunks defaultChunkSize_pos req.data

end Uploaded

/-! ### What is held between chunks -/

section Held

variable {sha256 : Bytes → B256} {req : DownloadRequest} {manifest : FileManifest}
  {node : StorageNode}

theorem heldAfter_succ (n : ℕ) :
    heldAfter sha256 req manifest node (n + 1) =
      (heldAfter sha256 req manifest node n >>= fun held => held.add sha256 manifest n
        (node n (chunkUrl req.storageNodeEndpoint req.subgroveId req.fileKey n
          manifest.contentHash))) := by
  unfold heldAfter
  rw [List.range_succ, List.foldlM_append]
  simp only [List.foldlM_cons, List.foldlM_nil, bind_pure]

/-- **Never more than the manifest's total size is held.** -/
theorem held_le {n : ℕ} {held : Held} (h : heldAfter sha256 req manifest node n = .ok held) :
    held.fileData.length ≤ manifest.totalSize.toNat := by
  cases n with
  | zero =>
    obtain rfl := Except.ok.inj h
    exact Nat.zero_le _
  | succ n =>
    rw [heldAfter_succ, Outcome.bind_eq_ok] at h
    obtain ⟨before, -, h⟩ := h
    obtain ⟨chunk, -, h⟩ := Outcome.bind_eq_ok.mp h
    obtain ⟨hfits, h⟩ := Outcome.refuse_eq_ok.mp h
    obtain rfl := Except.ok.inj h
    rw [List.length_append]
    omega

/-- No chunk is read past the manifest's chunk size. -/
theorem readChunk_length_le {i : ℕ} {answer : Except String HttpBody.Response} {chunk : Bytes}
    (h : readChunk manifest i answer = .ok chunk) : chunk.length ≤ manifest.chunkLimit := by
  unfold readChunk at h
  obtain ⟨resp, -, h⟩ := Outcome.bind_eq_ok.mp h
  obtain ⟨-, h⟩ := Outcome.refuse_eq_ok.mp h
  exact HttpBody.read_length_le (Outcome.mapError_eq_ok.mp h)

/-- An answer that carries a chunk within the limit is read as it. -/
theorem readChunk_carries {i : ℕ} {resp : HttpBody.Response} {chunk : Bytes}
    (h : resp.Carries chunk) (hlimit : chunk.length ≤ manifest.chunkLimit) :
    readChunk manifest i (.ok resp) = .ok chunk := by
  have hsuccess : ¬ resp.isSuccess = false := by
    rw [h.success]
    decide
  refine Outcome.bind_eq_ok.mpr ⟨resp, rfl, ?_⟩
  rw [if_neg hsuccess, h.read hlimit]
  rfl

/-- The node answers each request with its chunk. -/
def Serves (req : DownloadRequest) (contentHash : String) (node : StorageNode)
    (chunks : List Bytes) : Prop :=
  ∀ i chunk, chunks[i]? = some chunk → ∃ resp,
    node i (chunkUrl req.storageNodeEndpoint req.subgroveId req.fileKey i contentHash) = .ok resp ∧
      resp.Carries chunk

/-- By the chunks: an honest node's make up the file's start. -/
theorem heldAfter_serves {chunks : List Bytes}
    (hnode : Serves req manifest.contentHash node chunks)
    (hlimit : ∀ chunk ∈ chunks, chunk.length ≤ manifest.chunkLimit)
    (htotal : chunks.flatten.length ≤ manifest.totalSize.toNat) {n : ℕ} (hn : n ≤ chunks.length) :
    heldAfter sha256 req manifest node n =
      .ok ⟨(chunks.take n).flatten, (chunks.take n).map sha256⟩ := by
  induction n with
  | zero => rfl
  | succ n ih =>
    have hchunk : chunks[n]? = some chunks[n] := List.getElem?_eq_getElem hn
    obtain ⟨resp, hresp, hcarries⟩ := hnode n chunks[n] hchunk
    have hread := readChunk_carries (i := n) hcarries (hlimit _ (List.getElem_mem hn))
    have htake : chunks.take (n + 1) = chunks.take n ++ [chunks[n]] := List.take_succ_eq_append_getElem hn
    have hfits : ((chunks.take n).flatten ++ chunks[n]).length ≤ manifest.totalSize.toNat := by
      have hprefix : (chunks.take (n + 1)).flatten <+: chunks.flatten :=
        ⟨(chunks.drop (n + 1)).flatten, by rw [← List.flatten_append, List.take_append_drop]⟩
      rw [htake, List.flatten_append, List.flatten_singleton] at hprefix
      exact hprefix.length_le.trans htotal
    rw [heldAfter_succ, ih (Nat.le_of_succ_le hn), hresp]
    refine Outcome.bind_eq_ok.mpr ⟨_, rfl, Outcome.bind_eq_ok.mpr ⟨chunks[n], hread, ?_⟩⟩
    rw [List.length_append] at hfits
    rw [if_neg (Nat.not_lt.mpr hfits), htake, List.flatten_append, List.flatten_singleton,
      List.map_append, List.map_singleton]

end Held

/-! ### Uploads and downloads -/

section Transfer

variable {sha256 : Bytes → B256} {manifest : FileManifest}

/-- A file that is verified has the manifest's hash. -/
theorem verifyFile_eq_ok {held : Held} {bytes : Bytes}
    (h : verifyFile sha256 manifest held = .ok bytes) :
    bytes = held.fileData ∧
      Hex.decode (Utf8.encode manifest.contentHash) = .ok (sha256 held.fileData).val := by
  unfold verifyFile at h
  obtain ⟨expectedRoot, -, h⟩ := Outcome.bind_eq_ok.mp h
  obtain ⟨-, h⟩ := Outcome.refuse_eq_ok.mp h
  obtain ⟨-, h⟩ := Outcome.refuse_eq_ok.mp h
  obtain ⟨expectedHash, hhash, h⟩ := Outcome.bind_eq_ok.mp h
  obtain ⟨hsame, h⟩ := Outcome.refuse_eq_ok.mp h
  rw [Outcome.mapError_eq_ok] at hhash
  rw [hhash, not_not.mp hsame]
  exact ⟨(Except.ok.inj h).symm, rfl⟩

/-- The chunks an upload sends are verified against its manifest. -/
theorem verifyFile_manifest (req : UploadRequest) (hmax : req.data.length ≤ maxFileSize)
    (ownerDid : String) :
    verifyFile sha256 (req.manifest sha256 ownerDid) ⟨req.chunks.flatten, req.chunks.map sha256⟩ =
      .ok req.data := by
  have hroot : ¬ (computeMerkleRoot sha256 (req.chunks.map sha256)).val ≠
      (req.chunkMerkleRoot sha256).val := not_not.mpr rfl
  have htotal : ¬ req.chunks.flatten.length ≠ (req.manifest sha256 ownerDid).totalSize.toNat := by
    rw [(manifest_sizes sha256 req hmax ownerDid).1, flatten_chunks]
    exact not_not.mpr rfl
  have hhash : ¬ (sha256 req.chunks.flatten).val ≠ (sha256 req.data).val := by
    rw [flatten_chunks]
    exact not_not.mpr rfl
  refine Outcome.bind_eq_ok.mpr ⟨(req.chunkMerkleRoot sha256).val, ?_, ?_⟩
  · rw [Outcome.mapError_eq_ok]
    exact Hex.decode_encode _
  · rw [if_neg hroot, if_neg htotal]
    refine Outcome.bind_eq_ok.mpr ⟨(sha256 req.data).val, ?_, ?_⟩
    · rw [Outcome.mapError_eq_ok]
      exact Hex.decode_encode _
    · rw [if_neg hhash, flatten_chunks]

/-- An upload that returns has sent every chunk and returns its manifest. -/
theorem postChunks_eq_ok {session : Session} {posts sent : List Post} {i : ℕ}
    (h : postChunks session i posts = (.ok (), sent)) : sent = posts := by
  induction posts generalizing i sent with
  | nil => exact (Prod.mk.inj h).2.symm
  | cons post posts ih =>
    rw [postChunks] at h
    split at h
    case h_1 => cases (Prod.mk.inj h).1
    case h_2 resp _ =>
      split at h
      · cases (Prod.mk.inj h).1
      · obtain ⟨hresult, hsent⟩ := Prod.mk.inj h
        have hrest : postChunks session (i + 1) posts =
            (.ok (), (postChunks session (i + 1) posts).2) := Prod.ext hresult rfl
        rw [← hsent]
        exact congrArg (post :: ·) (ih hrest)

theorem upload_eq_ok {session : Session} {req : UploadRequest} {manifest : FileManifest}
    (h : (upload sha256 session req).1 = .ok manifest) :
    (∃ ownerDid, manifest = req.manifest sha256 ownerDid) ∧
      (upload sha256 session req).2 = req.posts sha256 := by
  unfold upload at h ⊢
  split at h
  case h_1 => cases h
  case h_2 ownerDid hsubmit =>
    dsimp only at h ⊢
    cases hposted : (postChunks session 0 (req.posts sha256)).1 with
    | error e =>
      rw [hposted] at h
      cases h
    | ok _ =>
      rw [hposted] at h
      exact ⟨⟨ownerDid, (Except.ok.inj h).symm⟩, postChunks_eq_ok (Prod.ext hposted rfl)⟩

theorem download_checked {req : DownloadRequest} {node : StorageNode}
    (hcheck : checkManifest manifest = .ok ()) :
    download sha256 req (.ok manifest) node =
      Checked.lift (heldAfter sha256 req manifest node manifest.chunkCount.toNat >>=
        verifyFile sha256 manifest) := by
  show (checkManifest manifest >>= fun _ => _) = _
  rw [hcheck]
  rfl

/-- What is read against an upload's manifest is refused, or the file. -/
theorem read_or_refused {up : UploadRequest} {ownerDid : String} {x : Result Held}
    (hcollide : ∀ held, x = .ok held → sha256 held.fileData = sha256 up.data →
      held.fileData = up.data) :
    (∃ e, Checked.lift (x >>= verifyFile sha256 (up.manifest sha256 ownerDid)) =
        .error (.error e)) ∨
      Checked.lift (x >>= verifyFile sha256 (up.manifest sha256 ownerDid)) = .ok up.data := by
  cases hread : x >>= verifyFile sha256 (up.manifest sha256 ownerDid) with
  | error e => exact .inl ⟨e, rfl⟩
  | ok bytes =>
    obtain ⟨held, hheld, hverify⟩ := Outcome.bind_eq_ok.mp hread
    obtain ⟨rfl, hhash⟩ := verifyFile_eq_ok hverify
    have hdecoded : Hex.decode (Utf8.encode (Hex.text (sha256 up.data).val)) =
        .ok (sha256 held.fileData).val := hhash
    rw [Hex.decode_encode] at hdecoded
    have hsame : sha256 held.fileData = sha256 up.data :=
      Subtype.ext (Except.ok.inj hdecoded).symm
    rw [hcollide held hheld hsame]
    exact .inr rfl

theorem posts_chunks (req : UploadRequest) : (req.posts sha256).map Post.chunk = req.chunks := by
  unfold UploadRequest.posts
  rw [List.map_map]
  exact List.zipIdx_map_fst 0 req.chunks

end Transfer

/-- **A file comes back whole or not at all.** Of any file of 1 byte to 1 GiB,
whose upload sends its chunks in order: a node that answers with them gives it
back; whatever a node answers, a download is an error or the file, unless the
hash of what was read collides with the file's; and never more than the
manifest's total size is held, beside a chunk of at most its chunk size. -/
theorem download_whole_or_not (sha256 : Bytes → B256) (up : UploadRequest)
    (hpos : 1 ≤ up.data.length) (hmax : up.data.length ≤ maxFileSize) :
    (∀ session manifest, (upload sha256 session up).1 = .ok manifest →
      (∃ ownerDid, manifest = up.manifest sha256 ownerDid) ∧
        (upload sha256 session up).2.map Post.chunk = up.chunks) ∧
    (∀ ownerDid req node, Serves req (up.contentHash sha256) node up.chunks →
      checkManifest (up.manifest sha256 ownerDid) = .ok () ∧
        download sha256 req (.ok (up.manifest sha256 ownerDid)) node = .ok up.data) ∧
    (∀ ownerDid req node,
      (∀ held, heldAfter sha256 req (up.manifest sha256 ownerDid) node
          (up.manifest sha256 ownerDid).chunkCount.toNat = .ok held →
        sha256 held.fileData = sha256 up.data → held.fileData = up.data) →
      (∃ e, download sha256 req (.ok (up.manifest sha256 ownerDid)) node = .error (.error e)) ∨
        download sha256 req (.ok (up.manifest sha256 ownerDid)) node = .ok up.data) ∧
    (∀ ownerDid req node n held,
      heldAfter sha256 req (up.manifest sha256 ownerDid) node n = .ok held →
        held.fileData.length ≤ (up.manifest sha256 ownerDid).totalSize.toNat) ∧
    (∀ ownerDid i answer chunk, readChunk (up.manifest sha256 ownerDid) i answer = .ok chunk →
      chunk.length ≤ (up.manifest sha256 ownerDid).chunkSize.toNat) := by
  refine ⟨fun session manifest h => ?_, fun ownerDid req node hserves => ?_,
    fun ownerDid req node hcollide => ?_, fun ownerDid req node n held => held_le,
    fun ownerDid i answer chunk h => (readChunk_length_le h).trans (Nat.min_le_left _ _)⟩
  · obtain ⟨hmanifest, hsent⟩ := upload_eq_ok h
    exact ⟨hmanifest, by rw [hsent, posts_chunks]⟩
  · have hcheck := checkManifest_manifest sha256 up hpos hmax ownerDid
    obtain ⟨htotal, hcount, -⟩ := manifest_sizes sha256 up hmax ownerDid
    have hlimit : ∀ chunk ∈ up.chunks,
        chunk.length ≤ (up.manifest sha256 ownerDid).chunkLimit := by
      intro chunk hchunk
      rw [chunkLimit_manifest]
      exact chunk_length_le up hchunk
    have hall : up.chunks.flatten.length ≤ (up.manifest sha256 ownerDid).totalSize.toNat := by
      rw [htotal, flatten_chunks]
    have hheld : heldAfter sha256 req (up.manifest sha256 ownerDid) node up.chunks.length =
        .ok ⟨(up.chunks.take up.chunks.length).flatten, (up.chunks.take up.chunks.length).map sha256⟩ :=
      heldAfter_serves hserves hlimit hall le_rfl
    rw [List.take_length] at hheld
    rw [download_checked hcheck, hcount, hheld]
    refine ⟨hcheck, Checked.lift_eq_ok.mpr ?_⟩
    exact Outcome.bind_eq_ok.mpr ⟨_, rfl, verifyFile_manifest up hmax ownerDid⟩
  · rw [download_checked (checkManifest_manifest sha256 up hpos hmax ownerDid)]
    exact read_or_refused hcollide

namespace Sample

/-- A full chunk of the byte `h`. -/
def full : Bytes := List.replicate 262144 104

/-- Two full chunks and a byte. -/
def file : Bytes := List.replicate 524289 104

/-- SHA-256 of a full chunk. -/
def fullHash : B256 :=
  ⟨[0x2F, 0xF1, 0x4B, 0x9B, 0x4F, 0xF7, 0x78, 0xD4, 0xF9, 0xA5, 0x5D, 0xC3, 0xCC, 0x85, 0xA7, 0x53,
    0xCC, 0x31, 0x0F, 0xF2, 0x51, 0x45, 0x69, 0xDB, 0xF4, 0x76, 0x64, 0x48, 0x15, 0xDC, 0xA9, 0x48], rfl⟩

/-- SHA-256 of the last chunk. -/
def lastHash : B256 :=
  ⟨[0xAA, 0xA9, 0x40, 0x26, 0x64, 0xF1, 0xA4, 0x1F, 0x40, 0xEB, 0xBC, 0x52, 0xC9, 0x99, 0x3E, 0xB6,
    0x6A, 0xEB, 0x36, 0x66, 0x02, 0x95, 0x8F, 0xDF, 0xAA, 0x28, 0x3B, 0x71, 0xE6, 0x4D, 0xB1, 0x23], rfl⟩

/-- Of the first hash twice. -/
def fullPair : B256 :=
  ⟨[0x3D, 0x6D, 0x03, 0x82, 0xA1, 0xF2, 0x29, 0x66, 0xD7, 0xB4, 0x52, 0x0D, 0x6C, 0xDA, 0x9E, 0xC4,
    0xE9, 0x00, 0x11, 0x47, 0xD2, 0xE9, 0xD3, 0xB6, 0xBD, 0x6E, 0xED, 0xC3, 0x02, 0x68, 0xF5, 0xDF], rfl⟩

/-- Of the last hash twice. -/
def lastPair : B256 :=
  ⟨[0x2B, 0xAD, 0xD5, 0xFB, 0xE2, 0xCB, 0x39, 0x76, 0x14, 0x73, 0x65, 0x6B, 0xBF, 0x65, 0x1A, 0xB6,
    0x1A, 0xFC, 0x30, 0xF4, 0xED, 0x0A, 0xBC, 0x7E, 0xEF, 0xB1, 0x57, 0x88, 0x61, 0x45, 0xE9, 0x7D], rfl⟩

/-- Of these two. -/
def root : B256 :=
  ⟨[0xCC, 0x75, 0x9E, 0x56, 0x5E, 0xFB, 0x8B, 0x45, 0x29, 0xDC, 0x76, 0xF5, 0x31, 0x2A, 0x06, 0x0D,
    0xF8, 0xE1, 0xB6, 0x59, 0xCC, 0x35, 0x82, 0x14, 0x64, 0x65, 0xED, 0x57, 0x25, 0x5D, 0xCF, 0x65], rfl⟩

/-- Of the file. -/
def contentHash : B256 :=
  ⟨[0x90, 0x6F, 0xC9, 0xF7, 0xE5, 0x4E, 0x77, 0xBF, 0x32, 0x05, 0x88, 0x66, 0x50, 0xBC, 0x03, 0x57,
    0x5E, 0x1D, 0xF5, 0xCF, 0x97, 0xD1, 0xCB, 0x31, 0xC1, 0xF3, 0x31, 0xFC, 0xD1, 0x63, 0x5F, 0x6C], rfl⟩

def sha256 (bytes : Bytes) : B256 :=
  if bytes = full then fullHash
  else if bytes = [104] then lastHash
  else if bytes = fullHash.val ++ fullHash.val then fullPair
  else if bytes = lastHash.val ++ lastHash.val then lastPair
  else if bytes = fullPair.val ++ lastPair.val then root
  else if bytes = file then contentHash
  else zeroHash

def up : UploadRequest where
  subgroveId := "files"
  fileKey := "k"
  filename := "h.txt"
  data := file
  storageNodeEndpoint := "http://node"
  signingKey := some fun _ => []
  publicKeyId := some "did:willow:a#key-1"

def req : DownloadRequest := ⟨"files", "k", "http://node"⟩

/-- A request for a chunk is answered with it, the last one without a length. -/
def node : StorageNode := fun i _ =>
  if i < 2 then .ok ⟨200, "200 OK", some 262144, [.ok full]⟩
  else if i = 2 then .ok ⟨200, "200 OK", none, [.ok [], .ok [104]]⟩
  else .error "connection refused"

theorem length_file : up.data.length = 524289 := List.length_replicate

theorem up_chunks : up.chunks = [full, full, [104]] := by
  have hsize : defaultChunkSize.toNat = 262144 := rfl
  have hchunk : ∀ n, n ≠ 0 → Chunked.chunks 262144 (List.replicate n (104 : UInt8)) =
      List.replicate (min 262144 n) 104 ::
        Chunked.chunks 262144 (List.replicate (n - 262144) 104) := by
    intro n hn
    have hne : List.replicate n (104 : UInt8) ≠ [] := by
      rwa [Ne, List.replicate_eq_nil_iff]
    rw [Chunked.chunks_of_ne_nil (by omega) hne, List.take_replicate, List.drop_replicate]
  show Chunked.chunks defaultChunkSize.toNat (List.replicate 524289 104) = _
  rw [hsize, hchunk _ (by omega), hchunk _ (by omega), hchunk _ (by omega)]
  have hfull : min 262144 524289 = 262144 ∧ min 262144 262145 = 262144 := by decide
  have hlast : min 262144 1 = 1 := by decide
  simp only [Nat.reduceSub, List.replicate_zero, Chunked.chunks_nil, hfull.1, hfull.2, hlast]
  rfl

theorem serves : Serves req (up.contentHash sha256) node up.chunks := by
  have hfull : HttpBody.Response.Carries ⟨200, "200 OK", some 262144, [.ok full]⟩ full := by
    refine ⟨rfl, fun length hlength => ?_, [full], rfl, List.append_nil _⟩
    obtain rfl := Option.some.inj hlength
    exact List.length_replicate.symm
  rw [up_chunks]
  intro i chunk h
  match i, h with
  | 0, h | 1, h =>
    obtain rfl := Option.some.inj h
    exact ⟨_, rfl, hfull⟩
  | 2, h =>
    obtain rfl := Option.some.inj h
    exact ⟨_, rfl, rfl, nofun, [[], [104]], rfl, rfl⟩

end Sample

/-- A file of three chunks. -/
theorem download_whole_or_not_sample :
    Sample.up.chunks = [Sample.full, Sample.full, [104]] ∧
    download Sample.sha256 Sample.req (.ok (Sample.up.manifest Sample.sha256 "did:willow:a"))
      Sample.node = .ok Sample.file := by
  have hpos : 1 ≤ Sample.up.data.length := by
    rw [Sample.length_file]
    decide
  have hmax : Sample.up.data.length ≤ maxFileSize := by
    rw [Sample.length_file]
    decide
  exact ⟨Sample.up_chunks, ((download_whole_or_not Sample.sha256 Sample.up hpos hmax).2.1
    "did:willow:a" Sample.req Sample.node Sample.serves).2⟩

end Files
end WillowSdk
