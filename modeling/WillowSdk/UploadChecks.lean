/-
# Whether what an upload submits is accepted

`FileOperations::upload` (src/files.rs) submits a manifest of any file, where
`download` refuses one that breaks the chain's limits first. What it hands to
`submit_with_nonce` is a manifest `check_manifest` accepts exactly when the
file is of 1 byte to 1 GiB (`handed_manifests_accepted_iff`).
-/
import WillowSdk.FileTransfer

namespace WillowSdk
namespace Files

open EthState (B256 zeroHash)
open SignedMessages (StoreFileManifestTx field_eq_ok)

section Handed

variable (sha256 : Bytes → B256) (session : Session) (req : UploadRequest)

/-! ### What is handed over -/

/-- What `upload` hands to `submit_with_nonce`: whose nonce to take, and the
transaction under a nonce. -/
def handed : Result (String × (ℕ → Result StoreFileManifestTx)) := do
  ensureAuthenticated session
  let (sign, publicKeyId) ← requireSigning "upload" req.signingKey req.publicKeyId
  let ownerDid ← Outcome.okOr session.did notAuthenticated
  requireConsensus session "upload"
  .ok (ownerDid, req.manifestTx sha256 ownerDid sign publicKeyId)

/-- It is submitted, and nothing else. -/
theorem submitManifest_eq :
    submitManifest sha256 session req = (do
      let (ownerDid, make) ← handed sha256 session req
      let txHash ← session.submitWithNonce ownerDid make
      match ← session.waitForTxOutcome txHash 15 with
      | none => .error (.custom
          s!"the manifest transaction {txHash} is not in a block yet; no chunk was uploaded (wait for it to land, then upload the chunks)")
      | some outcome =>
        if outcome.code ≠ 0 then
          .error (.custom
            s!"the manifest transaction {txHash} was refused in block {outcome.height}: {outcome.log} (code: {outcome.code})")
        else .ok ownerDid) := by
  unfold submitManifest handed
  cases ensureAuthenticated session with
  | error e => rfl
  | ok _ =>
    cases requireSigning "upload" req.signingKey req.publicKeyId with
    | error e => rfl
    | ok signing =>
      cases Outcome.okOr session.did notAuthenticated with
      | error e => rfl
      | ok ownerDid =>
        cases requireConsensus session "upload" with
        | error e => rfl
        | ok _ => rfl

/-- An upload gets as far as a transaction: it has an identity, a key and its
ID and the consensus client, and no line break in what the message has. -/
structure GetsToSubmit : Prop where
  identity : ∃ ownerDid, session.did = some ownerDid ∧ '\n' ∉ ownerDid.toList
  key : req.signingKey ≠ none
  keyId : ∃ id, req.publicKeyId = some id ∧ id ≠ ""
  consensus : session.hasConsensus = true
  subgroveId : '\n' ∉ req.subgroveId.toList
  fileKey : '\n' ∉ req.fileKey.toList
  filename : '\n' ∉ req.filename.toList

/-- The manifest has a transaction's sizes. -/
structure FileManifest.HasSizes (manifest : FileManifest) (tx : StoreFileManifestTx) : Prop where
  totalSize : manifest.totalSize.toNat = tx.totalSize
  chunkCount : manifest.chunkCount.toNat = tx.chunkCount
  chunkSize : manifest.chunkSize.toNat = tx.chunkSize

variable {sha256 session req} {ownerDid publicKeyId : String} {sign : String → Bytes} {nonce : ℕ}
  {tx : StoreFileManifestTx} {make : ℕ → Result StoreFileManifestTx}

theorem clean_guessContentType (filename : String) : '\n' ∉ (guessContentType filename).toList := by
  unfold guessContentType
  split <;> decide

/-- The message is one of lines. -/
theorem exists_manifestTx :
    (∃ tx, req.manifestTx sha256 ownerDid sign publicKeyId nonce = .ok tx) ↔
      '\n' ∉ req.subgroveId.toList ∧ '\n' ∉ req.fileKey.toList ∧ '\n' ∉ ownerDid.toList ∧
        '\n' ∉ req.filename.toList := by
  have hclean := clean_guessContentType req.filename
  unfold UploadRequest.manifestTx SignedMessages.storeFileManifest
  simp only [Outcome.bind_eq_ok, field_eq_ok]
  refine ⟨fun h => ?_, fun h => ?_⟩
  · obtain ⟨_, _, ⟨_, ⟨hsubgrove, -⟩, _, ⟨hkey, -⟩, _, ⟨howner, -⟩, _, ⟨hfilename, -⟩, -⟩, -⟩ := h
    exact ⟨hsubgrove, hkey, howner, hfilename⟩
  · obtain ⟨hsubgrove, hkey, howner, hfilename⟩ := h
    exact ⟨_, _, ⟨_, ⟨hsubgrove, rfl⟩, _, ⟨hkey, rfl⟩, _, ⟨howner, rfl⟩, _, ⟨hfilename, rfl⟩, _,
      ⟨hclean, rfl⟩, rfl⟩, rfl⟩

/-- Its sizes are those of the manifest returned. -/
theorem manifest_hasSizes
    (h : req.manifestTx sha256 ownerDid sign publicKeyId nonce = .ok tx) :
    (req.manifest sha256 ownerDid).HasSizes tx := by
  unfold UploadRequest.manifestTx at h
  obtain ⟨message, -, h⟩ := Outcome.bind_eq_ok.mp h
  obtain rfl := Except.ok.inj h
  exact ⟨rfl, rfl, rfl⟩

theorem requireSigning_eq_ok {operation : String} {key : Option (String → Bytes)}
    {keyId : Option String} :
    requireSigning operation key keyId = .ok (sign, publicKeyId) ↔
      key = some sign ∧ keyId = some publicKeyId ∧ publicKeyId ≠ "" := by
  unfold requireSigning
  cases key with
  | none => simp
  | some k =>
    cases keyId with
    | none => simp
    | some id =>
      by_cases hid : id = ""
      · subst hid
        simp [eq_comm]
      · simp only [ne_eq, hid, not_false_eq_true, if_true, Except.ok.injEq, Prod.mk.injEq,
          Option.some.injEq]
        refine ⟨fun h => ?_, fun h => ⟨h.1, h.2.1⟩⟩
        obtain ⟨rfl, rfl⟩ := h
        exact ⟨rfl, rfl, hid⟩

theorem handed_eq_ok :
    handed sha256 session req = .ok (ownerDid, make) ↔
      session.did = some ownerDid ∧ session.hasConsensus = true ∧
        ∃ sign id, req.signingKey = some sign ∧ req.publicKeyId = some id ∧ id ≠ "" ∧
          req.manifestTx sha256 ownerDid sign id = make := by
  have hconsensus : requireConsensus session "upload" = .ok () ↔ session.hasConsensus = true := by
    unfold requireConsensus
    split
    case isTrue h => exact iff_of_true rfl h
    case isFalse h => exact iff_of_false nofun h
  unfold handed
  rw [Outcome.check_bind_eq_ok]
  simp only [Outcome.bind_eq_ok, Prod.exists, requireSigning_eq_ok, Outcome.okOr_eq_ok,
    Except.ok.injEq, Prod.mk.injEq]
  refine ⟨fun h => ?_, fun h => ?_⟩
  · obtain ⟨-, sign, id, ⟨hkey, hid, hne⟩, did, hdid, _, hcon, rfl, hmake⟩ := h
    exact ⟨hdid, hconsensus.mp hcon, sign, id, hkey, hid, hne, hmake⟩
  · obtain ⟨hdid, hcon, sign, id, hkey, hid, hne, hmake⟩ := h
    have hauth : ensureAuthenticated session = .ok () := by
      unfold ensureAuthenticated
      rw [hdid]
      rfl
    exact ⟨hauth, sign, id, ⟨hkey, hid, hne⟩, ownerDid, hdid, (), hconsensus.mpr hcon, rfl, hmake⟩

variable (sha256) in
/-- A transaction is handed over when the upload gets to submit one. -/
theorem getsToSubmit_iff :
    GetsToSubmit session req ↔ ∃ ownerDid make nonce tx,
      handed sha256 session req = .ok (ownerDid, make) ∧ make nonce = .ok tx := by
  refine ⟨fun h => ?_, fun h => ?_⟩
  · obtain ⟨ownerDid, hdid, howner⟩ := h.identity
    obtain ⟨id, hid, hne⟩ := h.keyId
    obtain ⟨sign, hkey⟩ := Option.ne_none_iff_exists'.mp h.key
    obtain ⟨tx, htx⟩ : ∃ tx, req.manifestTx sha256 ownerDid sign id 0 = .ok tx :=
      exists_manifestTx.mpr ⟨h.subgroveId, h.fileKey, howner, h.filename⟩
    exact ⟨ownerDid, _, 0, tx,
      handed_eq_ok.mpr ⟨hdid, h.consensus, sign, id, hkey, hid, hne, rfl⟩, htx⟩
  · obtain ⟨ownerDid, make, nonce, tx, hhanded, htx⟩ := h
    obtain ⟨hdid, hcon, sign, id, hkey, hid, hne, rfl⟩ := handed_eq_ok.mp hhanded
    obtain ⟨hsubgrove, hfile, howner, hfilename⟩ := exists_manifestTx.mp ⟨tx, htx⟩
    refine ⟨⟨ownerDid, hdid, howner⟩, ?_, ⟨id, hid, hne⟩, hcon, hsubgrove, hfile, hfilename⟩
    rw [hkey]
    exact Option.some_ne_none sign

/-! ### The sizes -/

/-- `data.len() as u64`. -/
def UploadRequest.totalSize (req : UploadRequest) : ℕ := (UInt64.ofNat req.data.length).toNat

/-- The limits, of the sizes an upload gives. -/
theorem checkManifest_hasSizes {manifest : FileManifest}
    (htx : req.manifestTx sha256 ownerDid sign publicKeyId nonce = .ok tx)
    (hsizes : manifest.HasSizes tx) :
    checkManifest manifest = .ok () ↔ 1 ≤ req.totalSize ∧ req.totalSize ≤ maxFileSize := by
  have hgiven := manifest_hasSizes htx
  have htotal : manifest.totalSize.toNat = req.totalSize := by
    rw [hsizes.totalSize, ← hgiven.totalSize]
    rfl
  have hcount : manifest.chunkCount.toNat = req.chunks.length % 2 ^ 32 := by
    rw [hsizes.chunkCount, ← hgiven.chunkCount]
    exact UInt32.toNat_ofNat'
  have hsize : manifest.chunkSize.toNat = 262144 := by
    rw [hsizes.chunkSize, ← hgiven.chunkSize]
    rfl
  have hlength : req.totalSize = req.data.length % 2 ^ 64 := UInt64.toNat_ofNat'
  rw [checkManifest_eq_ok, whyRefused_eq_none_iff (UInt32.toNat_lt _), htotal, hcount, hsize]
  refine ⟨fun h => ⟨h.2.1, h.2.2.1⟩, fun h => ?_⟩
  obtain ⟨hpos, hmax⟩ := h
  have hdata : req.data ≠ [] := by
    intro hnil
    rw [hlength, hnil] at hpos
    exact absurd hpos (by decide)
  have hall : req.data.length ≤ req.chunks.length * 262144 :=
    Chunked.length_le_chunks defaultChunkSize_pos req.data
  have hunder : (req.chunks.length - 1) * 262144 < req.data.length :=
    Chunked.chunks_lt_length defaultChunkSize_pos hdata
  -- a count of 2 ^ 32 chunks is a length of 2 ^ 50, so a whole number of `u64`s is one of `u32`s
  unfold maxFileSize maxChunkCount at *
  rw [hlength] at hpos hmax ⊢
  omega

end Handed

/-- **When what an upload hands over is accepted.** Every transaction an upload
hands to `submit_with_nonce`, which is all it submits, has sizes
`check_manifest` accepts exactly when, if the upload gets to submit one, the
file is of 1 byte to 1 GiB. -/
theorem handed_manifests_accepted_iff (sha256 : Bytes → B256) (session : Session)
    (req : UploadRequest) :
    (∀ ownerDid make nonce tx, handed sha256 session req = .ok (ownerDid, make) →
        make nonce = .ok tx → ∀ manifest : FileManifest, manifest.HasSizes tx →
          checkManifest manifest = .ok ()) ↔
      (GetsToSubmit session req → 1 ≤ req.totalSize ∧ req.totalSize ≤ maxFileSize) := by
  refine ⟨fun h hgets => ?_, fun h ownerDid make nonce tx hhanded htx manifest hsizes => ?_⟩
  · obtain ⟨ownerDid, make, nonce, tx, hhanded, htx⟩ :=
      (getsToSubmit_iff sha256).mp hgets
    obtain ⟨-, -, sign, id, -, -, -, rfl⟩ := handed_eq_ok.mp hhanded
    have hsizes := manifest_hasSizes htx
    exact (checkManifest_hasSizes htx hsizes).mp (h _ _ _ _ hhanded htx _ hsizes)
  · have hgets := (getsToSubmit_iff sha256).mpr ⟨ownerDid, make, nonce, tx, hhanded, htx⟩
    obtain ⟨-, -, sign, id, -, -, -, rfl⟩ := handed_eq_ok.mp hhanded
    exact (checkManifest_hasSizes htx hsizes).mpr (h hgets)

namespace Sample

/-- An empty file. -/
def emptyUp : UploadRequest := { up with data := [] }

/-- A client with an identity and a consensus client. -/
def session : Session where
  did := some "did:willow:a"
  hasConsensus := true
  submitWithNonce _ make := (make 7).map fun _ => "AB"
  waitForTxOutcome _ _ := .ok (some ⟨1, 5, "no data"⟩)
  post _ := .error "connection refused"

end Sample

/-- The manifest of an empty file is handed over, and one `check_manifest`
refuses. -/
theorem empty_manifest_handed :
    (∃ make tx, handed Sample.sha256 Sample.session Sample.emptyUp = .ok ("did:willow:a", make) ∧
      make 7 = .ok tx ∧ (Sample.emptyUp.manifest Sample.sha256 "did:willow:a").HasSizes tx ∧
      tx.totalSize = 0) ∧
    checkManifest (Sample.emptyUp.manifest Sample.sha256 "did:willow:a") =
      .error (.error (fail "the manifest of k is one the chain refuses: it holds no data")) := by
  obtain ⟨tx, htx⟩ : ∃ tx, Sample.emptyUp.manifestTx Sample.sha256 "did:willow:a" (fun _ => [])
      "did:willow:a#key-1" 7 = .ok tx :=
    exists_manifestTx.mpr ⟨by decide, by decide, by decide, by decide⟩
  have hsizes := manifest_hasSizes htx
  refine ⟨⟨_, tx, by rfl, htx, hsizes, ?_⟩, by rfl⟩
  rw [← hsizes.totalSize]
  rfl

end Files
end WillowSdk
