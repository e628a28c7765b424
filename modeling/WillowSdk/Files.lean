/-
# File uploads and downloads

`FileOperations::upload` and `download` (src/files.rs). An upload splits a
file in chunks of 256 KiB, submits a manifest of its sizes and hashes, and
posts the chunks to a storage node once the manifest has executed. A download
reads the chunks a manifest names, each under the manifest's chunk size and
all of them under its total size, and checks what it read against the
manifest's Merkle root, size and content hash.

SHA-256 is a parameter, as are the caller's key, the consensus client and the
nodes.
-/
import WillowSdk.HttpBody
import WillowSdk.Machine
import WillowSdk.SignedMessages
import WillowSdk.EthState
import WillowSdk.Lib.Chunked

namespace WillowSdk
namespace Files

open EthState (B256 zeroHash)
open SignedMessages (StoreFileManifestTx)

/-- 256 KiB. -/
def defaultChunkSize : UInt32 := 262144

/-- `willow_types::storage`: 1 GiB. -/
def maxFileSize : ℕ := 2 ^ 30

def maxChunkCount : ℕ := 262144

structure FileManifest where
  fileKey : String
  filename : String
  contentType : String
  totalSize : UInt64
  contentHash : String
  chunkCount : UInt32
  chunkSize : UInt32
  chunkMerkleRoot : String
  ownerDid : String
  createdAt : UInt64
  updatedAt : UInt64
  encrypted : Bool
  storageNodes : List String
deriving DecidableEq

def fail (m : String) : WillowError := .proofVerificationFailed m

/-! ### What the chain refuses -/

/-- Why the chain refuses these sizes. -/
def whyRefused (total count size : ℕ) : Checked (Option String) :=
  if total = 0 ∨ count = 0 ∨ size = 0 then .ok (some "it holds no data")
  else if total > maxFileSize then
    .ok (some s!"{total} bytes, over the chain's maximum of {maxFileSize}")
  else if count > maxChunkCount then
    .ok (some s!"{count} chunks, over the chain's maximum of {maxChunkCount}")
  else do
    let unfit := some s!"{count} chunks of {size} bytes don't hold {total} bytes"
    let all ← Checked.mul count size
    if total > all then .ok unfit
    else do
      let before ← Checked.sub count 1
      let under ← Checked.mul before size
      .ok (if total ≤ under then unfit else none)

def checkManifest (manifest : FileManifest) : Checked Unit := do
  match ← whyRefused manifest.totalSize.toNat manifest.chunkCount.toNat manifest.chunkSize.toNat with
  | none => .ok ()
  | some why =>
    Checked.refuse (fail s!"the manifest of {manifest.fileKey} is one the chain refuses: {why}")

/-! ### Chunks and their Merkle root -/

def chunkData (data : Bytes) (chunkSize : UInt32) : List Bytes :=
  Chunked.chunks chunkSize.toNat data

/-- An odd level's last hash again. -/
def padOdd (current : List B256) : List B256 :=
  if current.length % 2 ≠ 0 then current ++ current.getLast?.toList else current

section Hashed

variable (sha256 : Bytes → B256)

/-- The hashes of a level's pairs. -/
def hashPairs : List B256 → List B256
  | a :: b :: rest => sha256 (a.val ++ b.val) :: hashPairs rest
  | _ => []

theorem length_hashPairs (current : List B256) :
    (hashPairs sha256 current).length = current.length / 2 := by
  induction current using List.twoStepInduction with
  | nil => simp [hashPairs]
  | singleton _ => simp [hashPairs]
  | cons_cons a b rest ih _ =>
    rw [hashPairs, List.length_cons, ih, List.length_cons, List.length_cons]
    omega

theorem length_padOdd_le (current : List B256) : (padOdd current).length ≤ current.length + 1 := by
  unfold padOdd
  split
  · rw [List.length_append]
    cases current.getLast? <;> simp
  · omega

/-- The levels above one, down to a single hash. -/
def mergeLevels (current : List B256) : List B256 :=
  if 1 < current.length then mergeLevels (hashPairs sha256 (padOdd current)) else current
termination_by current.length
decreasing_by
  have hpad := length_padOdd_le current
  rw [length_hashPairs]
  omega

def computeMerkleRoot (hashes : List B256) : B256 :=
  match hashes with
  | [] => zeroHash
  | [leaf] => (mergeLevels sha256 [leaf, leaf]).headD zeroHash
  | _ => (mergeLevels sha256 hashes).headD zeroHash

/-! ### Upload -/

/-- A file to upload, and where to. -/
structure UploadRequest where
  subgroveId : String
  fileKey : String
  filename : String
  data : Bytes
  storageNodeEndpoint : String
  signingKey : Option (String → Bytes)
  publicKeyId : Option String

structure TxOutcome where
  height : ℤ
  code : ℕ
  log : String

/-- A chunk posted to a storage node. -/
structure Post where
  url : String
  chunk : Bytes
deriving DecidableEq

/-- What an upload calls: the identity set, the consensus client if there is
one, and the storage node's answers. -/
structure Session where
  did : Option String
  hasConsensus : Bool
  submitWithNonce : String → (ℕ → Result StoreFileManifestTx) → Result String
  waitForTxOutcome : String → ℕ → Result (Option TxOutcome)
  post : Post → Except String HttpBody.Response

def notAuthenticated : WillowError := .authentication "Set identity before file operations"

def ensureAuthenticated (session : Session) : Result Unit :=
  if session.did.isNone then .error notAuthenticated else .ok ()

def requireSigning (operation : String) (signingKey : Option (String → Bytes))
    (publicKeyId : Option String) : Result ((String → Bytes) × String) :=
  match signingKey, publicKeyId with
  | some key, some id => if id ≠ "" then .ok (key, id) else .error refused
  | _, _ => .error refused
where
  refused : WillowError := .validation
    s!"{operation} needs a signing key and its public key ID: the node refuses an unsigned file transaction"

def requireConsensus (session : Session) (operation : String) : Result Unit :=
  if session.hasConsensus = true then .ok ()
  else .error (.config
    s!"{operation} submits a transaction and needs a consensus URL; set consensus_url(..) on the builder")

def guessContentType (filename : String) : String :=
  match String.ofList ((filename.toList.splitOn '.').getLast?.getD []) with
  | "png" => "image/png"
  | "jpg" | "jpeg" => "image/jpeg"
  | "gif" => "image/gif"
  | "pdf" => "application/pdf"
  | "json" => "application/json"
  | "txt" => "text/plain"
  | "html" => "text/html"
  | "css" => "text/css"
  | "js" => "application/javascript"
  | "wasm" => "application/wasm"
  | "zip" => "application/zip"
  | "mp4" => "video/mp4"
  | "mp3" => "audio/mpeg"
  | _ => "application/octet-stream"

/-- The chunks of a file. -/
def UploadRequest.chunks (req : UploadRequest) : List Bytes := chunkData req.data defaultChunkSize

/-- `chunks.len() as u32`. -/
def UploadRequest.chunkCount (req : UploadRequest) : UInt32 := .ofNat req.chunks.length

def UploadRequest.chunkMerkleRoot (req : UploadRequest) : B256 :=
  computeMerkleRoot sha256 (req.chunks.map sha256)

def UploadRequest.contentHash (req : UploadRequest) : String := Hex.text (sha256 req.data).val

/-- The manifest transaction, signed. -/
def UploadRequest.manifestTx (req : UploadRequest) (ownerDid : String) (sign : String → Bytes)
    (publicKeyId : String) (nonce : ℕ) : Result StoreFileManifestTx := do
  let tx : StoreFileManifestTx :=
    { subgroveId := req.subgroveId
      fileKey := req.fileKey
      filename := req.filename
      contentType := guessContentType req.filename
      totalSize := (UInt64.ofNat req.data.length).toNat
      contentHash := (sha256 req.data).val
      chunkCount := req.chunkCount.toNat
      chunkSize := defaultChunkSize.toNat
      chunkMerkleRoot := (req.chunkMerkleRoot sha256).val
      ownerDid := ownerDid
      encryption := none
      signature := []
      publicKeyId := publicKeyId
      nonce := nonce }
  let message ← SignedMessages.storeFileManifest tx
  .ok { tx with signature := sign message }

/-- The manifest returned. -/
def UploadRequest.manifest (req : UploadRequest) (ownerDid : String) : FileManifest where
  fileKey := req.fileKey
  filename := req.filename
  contentType := guessContentType req.filename
  totalSize := .ofNat req.data.length
  contentHash := req.contentHash sha256
  chunkCount := req.chunkCount
  chunkSize := defaultChunkSize
  chunkMerkleRoot := Hex.text (req.chunkMerkleRoot sha256).val
  ownerDid := ownerDid
  createdAt := 0
  updatedAt := 0
  encrypted := false
  storageNodes := [req.storageNodeEndpoint]

/-- The chunks to post, in order. -/
def UploadRequest.posts (req : UploadRequest) : List Post :=
  req.chunks.zipIdx.map fun (chunk, i) =>
    { url := s!"{req.storageNodeEndpoint}/upload/{req.subgroveId}/{req.fileKey}?chunk_index={i}&chunk_count={req.chunkCount}&content_hash={req.contentHash sha256}"
      chunk := chunk }

/-- Post chunks from the `i`th on: the result, and those sent. -/
def postChunks (session : Session) (i : ℕ) : List Post → Result Unit × List Post
  | [] => (.ok (), [])
  | post :: posts =>
    match session.post post with
    | .error e => (.error (.network s!"Chunk upload failed: {e}"), [post])
    | .ok resp =>
      if resp.isSuccess = false then
        let body := match HttpBody.text resp HttpBody.small with
          | .ok body => body
          | .error _ => ""
        (.error (.network s!"Chunk {i} upload failed: {body}"), [post])
      else
        let (result, sent) := postChunks session (i + 1) posts
        (result, post :: sent)

/-- Submit the manifest, and wait until it has executed. -/
def submitManifest (session : Session) (req : UploadRequest) : Result String := do
  ensureAuthenticated session
  let (sign, publicKeyId) ← requireSigning "upload" req.signingKey req.publicKeyId
  let ownerDid ← Outcome.okOr session.did notAuthenticated
  requireConsensus session "upload"
  let txHash ← session.submitWithNonce ownerDid (req.manifestTx sha256 ownerDid sign publicKeyId)
  match ← session.waitForTxOutcome txHash 15 with
  | none => .error (.custom
      s!"the manifest transaction {txHash} is not in a block yet; no chunk was uploaded (wait for it to land, then upload the chunks)")
  | some outcome =>
    if outcome.code ≠ 0 then
      .error (.custom
        s!"the manifest transaction {txHash} was refused in block {outcome.height}: {outcome.log} (code: {outcome.code})")
    else .ok ownerDid

/-- `upload`: its result, and the chunks sent. -/
def upload (session : Session) (req : UploadRequest) : Result FileManifest × List Post :=
  match submitManifest sha256 session req with
  | .error e => (.error e, [])
  | .ok ownerDid =>
    let (result, sent) := postChunks session 0 (req.posts sha256)
    (result.map fun _ => req.manifest sha256 ownerDid, sent)

/-! ### Download -/

/-- The most a chunk is read of. -/
def FileManifest.chunkLimit (manifest : FileManifest) : ℕ :=
  min manifest.chunkSize.toNat HttpBody.chunk

/-- The URL of a chunk. -/
def chunkUrl (storageNodeEndpoint subgroveId fileKey : String) (i : ℕ) (contentHash : String) :
    String :=
  s!"{storageNodeEndpoint}/chunk/{subgroveId}/{fileKey}/{i}?content_hash={contentHash}"

/-- The bytes of a chunk's answer. -/
def readChunk (manifest : FileManifest) (i : ℕ) (answer : Except String HttpBody.Response) :
    Result Bytes := do
  let resp ← answer.mapError fun e => .network s!"Chunk download failed: {e}"
  if resp.isSuccess = false then
    .error (.network s!"Chunk {i} download failed: HTTP {resp.statusText}")
  else
    (HttpBody.read resp manifest.chunkLimit).mapError fun e =>
      match e with
      | .responseTooLarge limit =>
        if manifest.chunkLimit = manifest.chunkSize.toNat then
          fail s!"chunk {i} is longer than the manifest's chunk size of {manifest.chunkSize} bytes"
        else .responseTooLarge limit
      | e => .network s!"Failed to read chunk {i}: {e.text}"

/-- What a download holds between chunks. -/
structure Held where
  fileData : Bytes
  chunkHashes : List B256
deriving DecidableEq

/-- Add the `i`th chunk. -/
def Held.add (manifest : FileManifest) (held : Held) (i : ℕ)
    (answer : Except String HttpBody.Response) : Result Held := do
  let chunk ← readChunk manifest i answer
  if held.fileData.length + chunk.length > manifest.totalSize.toNat then
    .error (fail
      s!"the chunks run past the manifest's total size of {manifest.totalSize} bytes at chunk {i}")
  else .ok ⟨held.fileData ++ chunk, held.chunkHashes ++ [sha256 chunk]⟩

/-- A storage node's answer to each request, by its URL. -/
abbrev StorageNode := ℕ → String → Except String HttpBody.Response

/-- A file to download, and where from. -/
structure DownloadRequest where
  subgroveId : String
  fileKey : String
  storageNodeEndpoint : String

/-- What is held after the first `n` chunks. -/
def heldAfter (req : DownloadRequest) (manifest : FileManifest) (node : StorageNode) (n : ℕ) :
    Result Held :=
  (List.range n).foldlM (fun held i =>
    held.add sha256 manifest i
      (node i (chunkUrl req.storageNodeEndpoint req.subgroveId req.fileKey i manifest.contentHash)))
    ⟨[], []⟩

/-- The file of all the chunks, if it is the manifest's. -/
def verifyFile (manifest : FileManifest) (held : Held) : Result Bytes := do
  let expectedRoot ← (Hex.decode (Utf8.encode manifest.chunkMerkleRoot)).mapError fun e =>
    fail s!"Invalid merkle root hex: {e}"
  if (computeMerkleRoot sha256 held.chunkHashes).val ≠ expectedRoot then
    .error (fail "Chunk Merkle root mismatch")
  else if held.fileData.length ≠ manifest.totalSize.toNat then
    .error (fail
      s!"the chunks hold {held.fileData.length} bytes, not the manifest's total size of {manifest.totalSize}")
  else do
    let expectedHash ← (Hex.decode (Utf8.encode manifest.contentHash)).mapError fun e =>
      fail s!"Invalid content hash hex: {e}"
    if (sha256 held.fileData).val ≠ expectedHash then .error (fail "Content hash mismatch")
    else .ok held.fileData

/-- `download`, of the manifest the API answers. -/
def download (req : DownloadRequest) (metadata : Result FileManifest) (node : StorageNode) :
    Checked Bytes := do
  let manifest ← Checked.lift metadata
  checkManifest manifest
  Checked.lift do
    let held ← heldAfter sha256 req manifest node manifest.chunkCount.toNat
    verifyFile sha256 manifest held

end Hashed

end Files
end WillowSdk
