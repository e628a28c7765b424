/-
# The messages transactions are signed over

The builders of src/signed_messages.rs for data writes, file manifests and
key revokes. A message is lines joined by a line break, the kind first and
then a `Label: value` line per field, and a value with a line break is
refused; a revoke's is its fields joined by `:`.

So a message splits one way (`Joined.join_inj`), its first line names the
kind, and every line gives its field back: messages bind their transactions,
within and across kinds (`signed_messages_bind`).
-/
import WillowSdk.Errors
import WillowSdk.Lib.Hex
import WillowSdk.Lib.Joined
import WillowSdk.Lib.Outcome

namespace WillowSdk
namespace SignedMessages

structure StoreDataTx where
  subgroveId : String
  key : String
  data : Bytes
  ownerDid : String
  signature : Bytes
  publicKeyId : String
  nonce : ℕ

structure UpdateDataTx where
  subgroveId : String
  key : String
  data : Bytes
  ownerDid : String
  signature : Bytes
  publicKeyId : String
  nonce : ℕ

structure DeleteDataTx where
  subgroveId : String
  key : String
  ownerDid : String
  signature : Bytes
  publicKeyId : String
  nonce : ℕ

/-- How a file is encrypted: the epoch of the key and the XChaCha20 nonce. -/
structure FileEncryption where
  keyEpoch : ℕ
  nonce : Bytes

structure StoreFileManifestTx where
  subgroveId : String
  fileKey : String
  filename : String
  contentType : String
  totalSize : ℕ
  contentHash : Bytes
  chunkCount : ℕ
  chunkSize : ℕ
  chunkMerkleRoot : Bytes
  ownerDid : String
  encryption : Option FileEncryption
  signature : Bytes
  publicKeyId : String
  nonce : ℕ

structure DeleteFileManifestTx where
  subgroveId : String
  fileKey : String
  ownerDid : String
  signature : Bytes
  publicKeyId : String
  nonce : ℕ

structure RevokeSubgroveKeyTx where
  subgroveId : String
  revokeeDid : String
  senderDid : String
  signature : Bytes
  publicKeyId : String
  nonce : ℕ

/-! ### The builders -/

def line (label value : String) : String := s!"{label}: {value}"

/-- The line of a field, refusing a value with a line break. -/
def field (label value : String) : Result String :=
  if '\n' ∈ value.toList then
    .error (.validation s!"{label} holds a line break, which a signed field can't")
  else .ok (line label value)

/-- `[..].join("\n")`. -/
def joinLines (lines : List String) : String := Joined.join '\n' lines

section Builders

-- SHA-256, and willow_types' check that a DID is one
variable (sha256 : Bytes → Bytes) (validateDid : String → String → Except String Unit)

def dataWrite (kind subgroveId key ownerDid : String) (data : Bytes) (nonce : ℕ) :
    Result String := do
  let subgrove ← field "Subgrove" subgroveId
  let key ← field "Key" key
  let owner ← field "Owner" ownerDid
  .ok (joinLines [kind, subgrove, key, owner, s!"DataHash: {Hex.text (sha256 data)}",
    s!"Nonce: {nonce}"])

def storeData (tx : StoreDataTx) : Result String :=
  dataWrite sha256 "StoreData" tx.subgroveId tx.key tx.ownerDid tx.data tx.nonce

def updateData (tx : UpdateDataTx) : Result String :=
  dataWrite sha256 "UpdateData" tx.subgroveId tx.key tx.ownerDid tx.data tx.nonce

def deleteData (tx : DeleteDataTx) : Result String := do
  let subgrove ← field "Subgrove" tx.subgroveId
  let key ← field "Key" tx.key
  let owner ← field "Owner" tx.ownerDid
  .ok (joinLines ["DeleteData", subgrove, key, owner, s!"Nonce: {tx.nonce}"])

/-- `none`, or the key epoch and the nonce joined by `:`. -/
def encryptionText : Option FileEncryption → String
  | none => "none"
  | some e => s!"{e.keyEpoch}:{Hex.text e.nonce}"

def storeFileManifest (tx : StoreFileManifestTx) : Result String := do
  let subgrove ← field "Subgrove" tx.subgroveId
  let key ← field "Key" tx.fileKey
  let owner ← field "Owner" tx.ownerDid
  let filename ← field "Filename" tx.filename
  let contentType ← field "ContentType" tx.contentType
  .ok (joinLines ["StoreFileManifest", subgrove, key, owner, filename, contentType,
    s!"TotalSize: {tx.totalSize}", s!"ContentHash: {Hex.text tx.contentHash}",
    s!"ChunkCount: {tx.chunkCount}", s!"ChunkSize: {tx.chunkSize}",
    s!"ChunkMerkleRoot: {Hex.text tx.chunkMerkleRoot}",
    s!"Encryption: {encryptionText tx.encryption}", s!"Nonce: {tx.nonce}"])

def deleteFileManifest (tx : DeleteFileManifestTx) : Result String := do
  let subgrove ← field "Subgrove" tx.subgroveId
  let key ← field "Key" tx.fileKey
  let owner ← field "Owner" tx.ownerDid
  .ok (joinLines ["DeleteFileManifest", subgrove, key, owner, s!"Nonce: {tx.nonce}"])

def revokeSubgroveKey (tx : RevokeSubgroveKeyTx) : Result String := do
  if ':' ∈ tx.subgroveId.toList then
    .error (.validation "Subgrove holds ':', which a revoke's subgrove ID can't")
  else
    (validateDid tx.revokeeDid "revokee_did").mapError .validation
    (validateDid tx.senderDid "sender_did").mapError .validation
    .ok s!"RevokeSubgroveKey:{tx.subgroveId}:{tx.revokeeDid}:{tx.senderDid}:{tx.nonce}"

/-- A transaction of one of the six kinds. -/
inductive SignedTx
  | storeData (tx : StoreDataTx)
  | updateData (tx : UpdateDataTx)
  | deleteData (tx : DeleteDataTx)
  | storeFileManifest (tx : StoreFileManifestTx)
  | deleteFileManifest (tx : DeleteFileManifestTx)
  | revokeSubgroveKey (tx : RevokeSubgroveKeyTx)

namespace SignedTx

/-- The message it is signed over. -/
def message : SignedTx → Result String
  | .storeData tx => SignedMessages.storeData sha256 tx
  | .updateData tx => SignedMessages.updateData sha256 tx
  | .deleteData tx => SignedMessages.deleteData tx
  | .storeFileManifest tx => SignedMessages.storeFileManifest tx
  | .deleteFileManifest tx => SignedMessages.deleteFileManifest tx
  | .revokeSubgroveKey tx => SignedMessages.revokeSubgroveKey validateDid tx

/-- The transaction without what the message leaves out. -/
def unsigned : SignedTx → SignedTx
  | .storeData tx => .storeData { tx with signature := [], publicKeyId := "" }
  | .updateData tx => .updateData { tx with signature := [], publicKeyId := "" }
  | .deleteData tx => .deleteData { tx with signature := [], publicKeyId := "" }
  | .storeFileManifest tx => .storeFileManifest { tx with signature := [], publicKeyId := "" }
  | .deleteFileManifest tx => .deleteFileManifest { tx with signature := [], publicKeyId := "" }
  | .revokeSubgroveKey tx => .revokeSubgroveKey { tx with signature := [], publicKeyId := "" }

/-- The data a transaction carries. -/
def data : SignedTx → Option Bytes
  | .storeData tx => some tx.data
  | .updateData tx => some tx.data
  | _ => none

end SignedTx

end Builders

/-! ### Lines -/

@[simp] theorem field_eq_ok {label value l : String} :
    field label value = .ok l ↔ '\n' ∉ value.toList ∧ line label value = l := by
  simp [field]

/-- A line gives back its label and its value. -/
theorem line_inj {label label' value value' : String} (hl : ':' ∉ label.toList)
    (hl' : ':' ∉ label'.toList) (h : line label value = line label' value') :
    label = label' ∧ value = value' := by
  have hlists : label.toList ++ ':' :: ' ' :: value.toList =
      label'.toList ++ ':' :: ' ' :: value'.toList := by
    simpa [line, toString, String.toList_append] using congrArg String.toList h
  obtain ⟨hlabel, hvalue⟩ := Joined.cut_inj hl hl' hlists
  exact ⟨String.toList_inj.mp hlabel, String.toList_inj.mp (List.cons.inj hvalue).2⟩

theorem clean_line {label value : String} (hl : '\n' ∉ label.toList) (hv : '\n' ∉ value.toList) :
    '\n' ∉ (line label value).toList := by
  simp only [line, toString, String.toList_append, List.mem_append, not_or]
  exact ⟨⟨hl, by decide⟩, hv⟩

theorem clean_decimal (n : ℕ) : '\n' ∉ (toString n).toList := Joined.not_mem_decimal (by decide) n

theorem clean_hex (bytes : Bytes) : '\n' ∉ (Hex.text bytes).toList :=
  Hex.not_mem_text (by decide) bytes

theorem clean_encryption (e : Option FileEncryption) : '\n' ∉ (encryptionText e).toList := by
  cases e with
  | none => decide
  | some e =>
    simp only [encryptionText, toString, String.toList_append, List.mem_append, not_or]
    exact ⟨⟨clean_decimal _, by decide⟩, clean_hex _⟩

/-- The encryption line tells no encryption from any, and one from another. -/
theorem encryptionText_inj {a b : Option FileEncryption} (h : encryptionText a = encryptionText b) :
    a = b := by
  have hcolon : ∀ e : FileEncryption, ':' ∈ (encryptionText (some e)).toList := by
    intro e
    simp [encryptionText, toString]
  have hpieces : ∀ e : FileEncryption, encryptionText (some e) =
      Joined.join ':' [toString e.keyEpoch, Hex.text e.nonce] := by
    intro e
    apply String.toList_inj.mp
    rw [Joined.toList_join]
    simp [encryptionText, List.intercalate, toString]
  cases a with
  | none =>
    cases b with
    | none => rfl
    | some e => exact absurd (h ▸ hcolon e) (by decide)
  | some e =>
    cases b with
    | none => exact absurd (h ▸ hcolon e) (by decide)
    | some e' =>
      rw [hpieces, hpieces] at h
      have hclean : ∀ e : FileEncryption, ∀ p ∈ [toString e.keyEpoch, Hex.text e.nonce],
          ':' ∉ p.toList := by
        intro e p hp
        simp only [List.mem_cons, List.not_mem_nil, or_false] at hp
        rcases hp with rfl | rfl
        · exact Joined.not_mem_decimal (by decide) _
        · exact Hex.not_mem_text (by decide) _
      have heq := Joined.join_inj (hclean e) (hclean e') (by simp) (by simp) h
      obtain ⟨hepoch, hnonce⟩ : toString e.keyEpoch = toString e'.keyEpoch ∧
          Hex.text e.nonce = Hex.text e'.nonce := by simpa using heq
      obtain ⟨k, n⟩ := e
      obtain ⟨k', n'⟩ := e'
      have hk : k = k' := Joined.decimal_inj hepoch
      have hn : n = n' := Hex.text_injective hnonce
      rw [hk, hn]

/-! ### Messages as lines -/

section Binding

variable {sha256 : Bytes → Bytes} {validateDid : String → String → Except String Unit}

namespace SignedTx

def isRevoke : SignedTx → Bool
  | .revokeSubgroveKey _ => true
  | _ => false

/-- The first line of a message. -/
def kind : SignedTx → String
  | .storeData _ => "StoreData"
  | .updateData _ => "UpdateData"
  | .deleteData _ => "DeleteData"
  | .storeFileManifest _ => "StoreFileManifest"
  | .deleteFileManifest _ => "DeleteFileManifest"
  | .revokeSubgroveKey _ => "RevokeSubgroveKey"

/-- The labels and values of the lines after it. -/
def fields (sha256 : Bytes → Bytes) : SignedTx → List (String × String)
  | .storeData tx => [("Subgrove", tx.subgroveId), ("Key", tx.key), ("Owner", tx.ownerDid),
      ("DataHash", Hex.text (sha256 tx.data)), ("Nonce", toString tx.nonce)]
  | .updateData tx => [("Subgrove", tx.subgroveId), ("Key", tx.key), ("Owner", tx.ownerDid),
      ("DataHash", Hex.text (sha256 tx.data)), ("Nonce", toString tx.nonce)]
  | .deleteData tx => [("Subgrove", tx.subgroveId), ("Key", tx.key), ("Owner", tx.ownerDid),
      ("Nonce", toString tx.nonce)]
  | .storeFileManifest tx => [("Subgrove", tx.subgroveId), ("Key", tx.fileKey),
      ("Owner", tx.ownerDid), ("Filename", tx.filename), ("ContentType", tx.contentType),
      ("TotalSize", toString tx.totalSize), ("ContentHash", Hex.text tx.contentHash),
      ("ChunkCount", toString tx.chunkCount), ("ChunkSize", toString tx.chunkSize),
      ("ChunkMerkleRoot", Hex.text tx.chunkMerkleRoot),
      ("Encryption", encryptionText tx.encryption), ("Nonce", toString tx.nonce)]
  | .deleteFileManifest tx => [("Subgrove", tx.subgroveId), ("Key", tx.fileKey),
      ("Owner", tx.ownerDid), ("Nonce", toString tx.nonce)]
  | .revokeSubgroveKey _ => []

def lines (sha256 : Bytes → Bytes) (t : SignedTx) : List String :=
  t.kind :: (t.fields sha256).map fun f => line f.1 f.2

theorem kind_clean (t : SignedTx) : '\n' ∉ t.kind.toList := by
  cases t <;> simp only [kind] <;> decide

def labels : List String :=
  ["Subgrove", "Key", "Owner", "DataHash", "Filename", "ContentType", "TotalSize", "ContentHash",
    "ChunkCount", "ChunkSize", "ChunkMerkleRoot", "Encryption", "Nonce"]

theorem label_mem (t : SignedTx) : ∀ f ∈ t.fields sha256, f.1 ∈ labels := by
  cases t <;> simp [fields, labels]

theorem labels_clean : ∀ l ∈ labels, '\n' ∉ l.toList ∧ ':' ∉ l.toList := by
  decide

/-- The lines of a write, of a document's store or its update. -/
theorem dataWrite_eq_lines {kind subgroveId key ownerDid m : String} {data : Bytes} {nonce : ℕ}
    (h : dataWrite sha256 kind subgroveId key ownerDid data nonce = .ok m) :
    m = joinLines [kind, line "Subgrove" subgroveId, line "Key" key, line "Owner" ownerDid,
        line "DataHash" (Hex.text (sha256 data)), line "Nonce" (toString nonce)] ∧
      '\n' ∉ subgroveId.toList ∧ '\n' ∉ key.toList ∧ '\n' ∉ ownerDid.toList := by
  simp only [dataWrite, Outcome.bind_eq_ok, field_eq_ok, Except.ok.injEq] at h
  obtain ⟨_, ⟨hs, rfl⟩, _, ⟨hk, rfl⟩, _, ⟨ho, rfl⟩, rfl⟩ := h
  exact ⟨rfl, hs, hk, ho⟩

/-- A message that isn't a revoke's is its lines, and no value holds a line break. -/
theorem message_eq_lines {t : SignedTx} {m : String} (h : t.message sha256 validateDid = .ok m)
    (hrevoke : t.isRevoke = false) :
    m = joinLines (t.lines sha256) ∧ ∀ f ∈ t.fields sha256, '\n' ∉ f.2.toList := by
  cases t with
  | storeData tx | updateData tx =>
    obtain ⟨rfl, hs, hk, ho⟩ := dataWrite_eq_lines h
    refine ⟨rfl, ?_⟩
    simp only [fields, List.forall_mem_cons, clean_decimal, clean_hex]
    simp [hs, hk, ho]
  | deleteData tx =>
    simp only [message, SignedMessages.deleteData, Outcome.bind_eq_ok, field_eq_ok,
      Except.ok.injEq] at h
    obtain ⟨_, ⟨hs, rfl⟩, _, ⟨hk, rfl⟩, _, ⟨ho, rfl⟩, rfl⟩ := h
    refine ⟨rfl, ?_⟩
    simp only [fields, List.forall_mem_cons, clean_decimal]
    simp [hs, hk, ho]
  | storeFileManifest tx =>
    simp only [message, SignedMessages.storeFileManifest, Outcome.bind_eq_ok, field_eq_ok,
      Except.ok.injEq] at h
    obtain ⟨_, ⟨hs, rfl⟩, _, ⟨hk, rfl⟩, _, ⟨ho, rfl⟩, _, ⟨hf, rfl⟩, _, ⟨hc, rfl⟩, rfl⟩ := h
    refine ⟨rfl, ?_⟩
    simp only [fields, List.forall_mem_cons, clean_decimal, clean_hex, clean_encryption]
    simp [hs, hk, ho, hf, hc]
  | deleteFileManifest tx =>
    simp only [message, SignedMessages.deleteFileManifest, Outcome.bind_eq_ok, field_eq_ok,
      Except.ok.injEq] at h
    obtain ⟨_, ⟨hs, rfl⟩, _, ⟨hk, rfl⟩, _, ⟨ho, rfl⟩, rfl⟩ := h
    refine ⟨rfl, ?_⟩
    simp only [fields, List.forall_mem_cons, clean_decimal]
    simp [hs, hk, ho]
  | revokeSubgroveKey tx => cases hrevoke

theorem lines_clean {t : SignedTx} (h : ∀ f ∈ t.fields sha256, '\n' ∉ f.2.toList) :
    ∀ l ∈ t.lines sha256, '\n' ∉ l.toList := by
  intro l hl
  rcases List.mem_cons.mp hl with rfl | hl
  · exact kind_clean t
  · obtain ⟨f, hf, rfl⟩ := List.mem_map.mp hl
    obtain ⟨hlabel, -⟩ := labels_clean _ (label_mem t f hf)
    exact clean_line hlabel (h f hf)

/-- Equal lines have equal labels and values. -/
theorem fields_eq_of_lines {fs : List (String × String)} (hfs : ∀ f ∈ fs, f.1 ∈ labels) :
    ∀ {gs : List (String × String)}, (∀ g ∈ gs, g.1 ∈ labels) →
      (fs.map fun f => line f.1 f.2) = (gs.map fun g => line g.1 g.2) → fs = gs := by
  induction fs with
  | nil => intro gs _ h; simpa using h
  | cons f fs ih =>
    intro gs hgs h
    cases gs with
    | nil => simp at h
    | cons g gs =>
      obtain ⟨hline, hrest⟩ := List.cons.inj h
      obtain ⟨-, hfcolon⟩ := labels_clean _ (hfs f (.head _))
      obtain ⟨-, hgcolon⟩ := labels_clean _ (hgs g (.head _))
      obtain ⟨hlabel, hvalue⟩ := line_inj hfcolon hgcolon hline
      have hhead : f = g := Prod.ext hlabel hvalue
      have htail : fs = gs :=
        ih (fun f hf => hfs f (.tail _ hf)) (fun g hg => hgs g (.tail _ hg)) hrest
      rw [hhead, htail]

/-- The kind and the fields are the transaction, but for what isn't signed. -/
theorem unsigned_eq_of_fields {t₁ t₂ : SignedTx} (hkind : t₁.kind = t₂.kind)
    (hfields : t₁.fields sha256 = t₂.fields sha256) (hrevoke : t₁.isRevoke = false)
    (hsha : ∀ a b, t₁.data = some a → t₂.data = some b → sha256 a = sha256 b → a = b) :
    t₁.unsigned = t₂.unsigned := by
  cases t₁ <;> cases t₂ <;> first | exact absurd hkind (by simp only [kind]; decide) | skip
  case storeData.storeData a b | updateData.updateData a b =>
    simp only [fields, List.cons.injEq, Prod.mk.injEq, true_and, and_true] at hfields
    obtain ⟨hs, hk, ho, hd, hn⟩ := hfields
    have hdata : a.data = b.data := hsha _ _ rfl rfl (Hex.text_injective hd)
    have hnonce : a.nonce = b.nonce := Joined.decimal_inj hn
    simp only [unsigned, hs, hk, ho, hdata, hnonce]
  case deleteData.deleteData a b | deleteFileManifest.deleteFileManifest a b =>
    simp only [fields, List.cons.injEq, Prod.mk.injEq, true_and, and_true] at hfields
    obtain ⟨hs, hk, ho, hn⟩ := hfields
    have hnonce : a.nonce = b.nonce := Joined.decimal_inj hn
    simp only [unsigned, hs, hk, ho, hnonce]
  case storeFileManifest.storeFileManifest a b =>
    simp only [fields, List.cons.injEq, Prod.mk.injEq, true_and, and_true] at hfields
    obtain ⟨hs, hk, ho, hf, hc, hsize, hhash, hcount, hchunk, hroot, he, hn⟩ := hfields
    have hsize : a.totalSize = b.totalSize := Joined.decimal_inj hsize
    have hhash : a.contentHash = b.contentHash := Hex.text_injective hhash
    have hcount : a.chunkCount = b.chunkCount := Joined.decimal_inj hcount
    have hchunk : a.chunkSize = b.chunkSize := Joined.decimal_inj hchunk
    have hroot : a.chunkMerkleRoot = b.chunkMerkleRoot := Hex.text_injective hroot
    have hencryption : a.encryption = b.encryption := encryptionText_inj he
    have hnonce : a.nonce = b.nonce := Joined.decimal_inj hn
    simp only [unsigned, hs, hk, ho, hf, hc, hsize, hhash, hcount, hchunk, hroot, hencryption, hnonce]
  case revokeSubgroveKey.revokeSubgroveKey => cases hrevoke

end SignedTx

/-! ### Revokes -/

/-- `did:willow:`, then letters, digits, `-`, and `_`. -/
def WillowDid (did : String) : Prop :=
  ∃ name : String, did = "did:willow:" ++ name ∧
    ∀ c ∈ name.toList, c.isAlphanum = true ∨ c = '-' ∨ c = '_'

/-- The pieces of a revoke's message, when the DIDs are two names' ones. -/
def revokePieces (tx : RevokeSubgroveKeyTx) (revokee sender : String) : List String :=
  ["RevokeSubgroveKey", tx.subgroveId, "did", "willow", revokee, "did", "willow", sender,
    toString tx.nonce]

theorem revoke_message {tx : RevokeSubgroveKeyTx} {m : String}
    (h : revokeSubgroveKey validateDid tx = .ok m)
    (hdid : ∀ did name, validateDid did name = .ok () → WillowDid did) :
    ∃ revokee sender, tx.revokeeDid = "did:willow:" ++ revokee ∧
      tx.senderDid = "did:willow:" ++ sender ∧
      m = Joined.join ':' (revokePieces tx revokee sender) ∧
      ∀ p ∈ revokePieces tx revokee sender, ':' ∉ p.toList := by
  simp only [revokeSubgroveKey, Outcome.refuse_eq_ok, Outcome.check_bind_eq_ok,
    Outcome.mapError_eq_ok, Except.ok.injEq] at h
  obtain ⟨hsubgrove, hrevokee, hsender, rfl⟩ := h
  obtain ⟨revokee, hr, hrname⟩ := hdid _ _ hrevokee
  obtain ⟨sender, hs, hsname⟩ := hdid _ _ hsender
  refine ⟨revokee, sender, hr, hs, ?_, ?_⟩
  · apply String.toList_inj.mp
    rw [Joined.toList_join, hr, hs]
    simp [revokePieces, List.intercalate, toString]
  · have hname : ∀ {name : String}, (∀ c ∈ name.toList, c.isAlphanum = true ∨ c = '-' ∨ c = '_') →
        ':' ∉ name.toList := by
      intro name h hcolon
      exact absurd (h _ hcolon) (by decide)
    have hnonce : ':' ∉ (toString tx.nonce).toList := Joined.not_mem_decimal (by decide) _
    simp only [revokePieces, List.forall_mem_cons, List.not_mem_nil, false_implies, implies_true,
      and_true]
    exact ⟨by decide, hsubgrove, by decide, by decide, hname hrname, by decide, by decide,
      hname hsname, hnonce⟩

/-! ### Binding -/

namespace SignedTx

/-- Two revokes with one message agree in every field it holds. -/
theorem revoke_inj {a b : RevokeSubgroveKeyTx} {m : String}
    (ha : SignedMessages.revokeSubgroveKey validateDid a = .ok m)
    (hb : SignedMessages.revokeSubgroveKey validateDid b = .ok m)
    (hdid : ∀ did name, validateDid did name = .ok () → WillowDid did) :
    (revokeSubgroveKey a).unsigned = (revokeSubgroveKey b).unsigned := by
  obtain ⟨ra, sa, hra, hsa, hma, hca⟩ := revoke_message ha hdid
  obtain ⟨rb, sb, hrb, hsb, hmb, hcb⟩ := revoke_message hb hdid
  have hpieces := Joined.join_inj hca hcb (by simp [revokePieces]) (by simp [revokePieces])
    (hma.symm.trans hmb)
  simp only [revokePieces, List.cons.injEq, true_and, and_true] at hpieces
  obtain ⟨hs, hr, hsender, hn⟩ := hpieces
  have hnonce : a.nonce = b.nonce := Joined.decimal_inj hn
  have hrevokee : a.revokeeDid = b.revokeeDid := by rw [hra, hrb, hr]
  have hsender : a.senderDid = b.senderDid := by rw [hsa, hsb, hsender]
  simp only [unsigned, hs, hrevokee, hsender, hnonce]

theorem kind_head {t : SignedTx} (h : t.isRevoke = false) : t.kind.toList.head? ≠ some 'R' := by
  cases t <;> simp only [kind] <;> first | decide | cases h

/-- A message's first letter tells a revoke's from the rest. -/
theorem head_message {t : SignedTx} {m : String} (h : t.message sha256 validateDid = .ok m)
    (hdid : ∀ did name, validateDid did name = .ok () → WillowDid did) :
    m.toList.head? = some 'R' ↔ t.isRevoke = true := by
  cases hrevoke : t.isRevoke with
  | false =>
    obtain ⟨rfl, -⟩ := message_eq_lines h hrevoke
    have hne : t.kind.toList ≠ [] := by
      cases t <;> simp only [kind] <;> decide
    rw [joinLines, lines, Joined.head_join _ hne]
    simp [kind_head hrevoke]
  | true =>
    cases t <;> cases hrevoke
    obtain ⟨revokee, sender, -, -, rfl, -⟩ := revoke_message h hdid
    rw [revokePieces, Joined.head_join _ (by decide)]
    decide

end SignedTx

/-- **Signed messages bind their transactions.** One message is built for one
kind, and for one value of every field but the signature and its key. -/
theorem signed_messages_bind {t₁ t₂ : SignedTx} {m : String}
    (h₁ : t₁.message sha256 validateDid = .ok m) (h₂ : t₂.message sha256 validateDid = .ok m)
    (hsha : ∀ a b, t₁.data = some a → t₂.data = some b → sha256 a = sha256 b → a = b)
    (hdid : ∀ did name, validateDid did name = .ok () → WillowDid did) :
    t₁.unsigned = t₂.unsigned := by
  have hrevoke : t₁.isRevoke = true ↔ t₂.isRevoke = true :=
    (SignedTx.head_message h₁ hdid).symm.trans (SignedTx.head_message h₂ hdid)
  cases hr : t₁.isRevoke with
  | true =>
    have hr₂ := hrevoke.mp hr
    cases t₁ <;> cases hr
    cases t₂ <;> cases hr₂
    exact SignedTx.revoke_inj h₁ h₂ hdid
  | false =>
    have hr₂ : t₂.isRevoke = false := by simpa [hr] using hrevoke
    obtain ⟨hm₁, hv₁⟩ := SignedTx.message_eq_lines h₁ hr
    obtain ⟨hm₂, hv₂⟩ := SignedTx.message_eq_lines h₂ hr₂
    have hlines : t₁.lines sha256 = t₂.lines sha256 :=
      Joined.join_inj (SignedTx.lines_clean hv₁) (SignedTx.lines_clean hv₂) (by simp [SignedTx.lines])
        (by simp [SignedTx.lines]) (hm₁.symm.trans hm₂)
    obtain ⟨hkind, hrest⟩ := List.cons.inj hlines
    have hfields : t₁.fields sha256 = t₂.fields sha256 :=
      SignedTx.fields_eq_of_lines (SignedTx.label_mem t₁) (SignedTx.label_mem t₂) hrest
    exact SignedTx.unsigned_eq_of_fields hkind hfields hr hsha

end Binding

namespace Sample

def abc : Bytes := [0x61, 0x62, 0x63]

/-- SHA-256 of `abc`. -/
def abcDigest : Bytes :=
  [0xBA, 0x78, 0x16, 0xBF, 0x8F, 0x01, 0xCF, 0xEA, 0x41, 0x41, 0x40, 0xDE, 0x5D, 0xAE, 0x22, 0x23,
    0xB0, 0x03, 0x61, 0xA3, 0x96, 0x17, 0x7A, 0x9C, 0xB4, 0x10, 0xFF, 0x61, 0xF2, 0x00, 0x15, 0xAD]

def sha256 (bytes : Bytes) : Bytes := if bytes = abc then abcDigest else bytes

def validateDid (did label : String) : Except String Unit :=
  if "did:willow:".toList.isPrefixOf did.toList ∧
      (did.toList.drop 11).all (fun c => c.isAlphanum || c = '-' || c = '_') = true then .ok ()
  else .error label

theorem validateDid_willow (did name : String) (h : validateDid did name = .ok ()) :
    WillowDid did := by
  simp only [validateDid] at h
  split at h
  case isFalse => cases h
  case isTrue hdid =>
    obtain ⟨hpre, hname⟩ := hdid
    obtain ⟨rest, hrest⟩ := List.isPrefixOf_iff_prefix.mp hpre
    refine ⟨String.ofList rest, String.toList_inj.mp ?_, ?_⟩
    · simpa using hrest.symm
    · rw [← hrest] at hname
      simpa [or_assoc] using hname

def stored (signature : Bytes) : StoreDataTx :=
  { subgroveId := "notes", key := "a\u00e9: b", data := abc, ownerDid := "did:willow:ada",
    signature := signature, publicKeyId := "k", nonce := 7 }

def storedMessage : String :=
  "StoreData\nSubgrove: notes\nKey: a\u00e9: b\nOwner: did:willow:ada\nDataHash: " ++
    "ba7816bf8f01cfea414140de5dae2223b00361a396177a9cb410ff61f20015ad\nNonce: 7"

theorem stored_message (signature : Bytes) :
    storeData sha256 (stored signature) = .ok storedMessage :=
  (by decide +kernel : storeData sha256 (stored []) = .ok storedMessage)

end Sample

theorem signed_messages_bind_sample :
    (SignedTx.storeData (Sample.stored [1])).unsigned =
      (SignedTx.storeData (Sample.stored [2])).unsigned :=
  signed_messages_bind (Sample.stored_message [1]) (Sample.stored_message [2])
    (fun _ _ ha hb _ => Option.some.inj (ha.symm.trans hb)) Sample.validateDid_willow

end SignedMessages
end WillowSdk
