/-
# Rotating the signing key of a DID

`rotated_document` and the gate before a rotation is broadcast,
`assert_key_controls_document` (src/did_rotation.rs). Base58 and the quoting
of a string (`{:?}`) are given, as are the signature crates.

The gate returns the first authenticating id whose entry holds the key
(`assertKeyControlsDocument_eq_ok`), and reads that entry's bytes only. The
chain's ed25519 verifier dispatches on the entry's type, which the gate never
looks at: it passes an entry of another type with the held key's bytes. It
also reads the private key's text as it stands, where `parse_ed25519_seed`
trims it and takes a `0x` before it, so it refuses such a key's own rotation.
-/
import WillowSdk.Signing

namespace WillowSdk
namespace DidRotation

open Auth
open EthState (B256)

structure PublicKey where
  id : String
  keyType : String
  controller : String
  publicKeyBase58 : Option String
  publicKeyHex : Option String
deriving DecidableEq, Repr

structure ServiceEndpoint where
  id : String
  serviceType : String
  serviceEndpoint : String
deriving DecidableEq, Repr

/-- A DID document, with proofs of type `P`. -/
structure DidDocument (P : Type) where
  id : String
  publicKeys : List PublicKey
  authentication : List String
  service : List ServiceEndpoint
  created : ℕ
  updated : ℕ
  proof : Option P

/-- Key type the chain's ed25519 verifier dispatches on. -/
def ed25519VerificationKey2018 : String := "Ed25519VerificationKey2018"

/-- Message signed by the anti-brick probe. -/
def probeMessage : String := "willow-did-rotation-anti-brick-probe"

variable {P : Type}

/-- Derive the replacement document from the live on-chain one. -/
def rotatedDocument (current : DidDocument P) (newKeyId newPublicKeyHex : String) (updated : ℕ) :
    DidDocument P where
  id := current.id
  publicKeys := [{
    id := newKeyId
    keyType := ed25519VerificationKey2018
    controller := current.id
    publicKeyBase58 := none
    publicKeyHex := some newPublicKeyHex }]
  authentication := [newKeyId]
  service := current.service
  created := current.created
  updated := updated
  proof := none

/-- Decode a 32-byte ed25519 seed from hex, tolerating a `0x` prefix. -/
def parseEd25519Seed (privateKeyHex : String) : Result B256 := do
  let bare := Text.trim0x (Text.trim privateKeyHex.toList)
  let bytes ← (Hex.decode (Utf8.encode (String.ofList bare))).mapError fun e =>
    .validation s!"private key is not valid hex: {e}"
  if h : bytes.length = 32 then .ok ⟨bytes, h⟩
  else .error (.validation "ed25519 private key must be exactly 32 bytes")

section Gate

variable (crates : Signatures) (base58 : String → Option Bytes) (debug : String → String)

/-- Resolve a public key's ed25519 bytes as hex. -/
def ed25519PublicKeyHex (publicKey : PublicKey) : Option String :=
  match publicKey.publicKeyHex with
  | some hexValue => some (trimStart0x hexValue)
  | none => (publicKey.publicKeyBase58.bind base58).map Hex.text

/-- The key answers the probe. -/
def answers (probeSignature : String) (publicKey : PublicKey) : Bool :=
  match ed25519PublicKeyHex base58 publicKey with
  | none => false
  | some publicKeyHex =>
    (verifySignature crates probeMessage probeSignature publicKeyHex .ed25519).toOption.getD false

/-- The anti-brick gate: the id of the key that answered the probe. -/
def assertKeyControlsDocument (document : DidDocument P) (privateKeyHex : String) :
    Result String := do
  if document.authentication = [] then
    .error (.validation
      s!"refusing to rotate {document.id}: replacement document has an empty authentication set, which would permanently brick the DID")
  else
    let resolved ← document.authentication.mapM fun keyId =>
      Outcome.okOr (document.publicKeys.find? fun pk => pk.id = keyId) (.validation
        s!"refusing to rotate {document.id}: authentication lists {debug keyId}, which is not in public_keys, so no key could ever authenticate as this DID")
    let probeSignature ← signChallenge crates probeMessage privateKeyHex .ed25519
    match resolved.find? (answers crates base58 probeSignature) with
    | some publicKey => .ok publicKey.id
    | none => .error (.validation
        s!"refusing to rotate {document.id}: none of the replacement document's authentication keys verify a probe signed with the new private key — the key file and the document disagree, and broadcasting would permanently brick the DID")

end Gate

/-! ### What a document says of a key -/

/-- The entry an id names: the first of the id. -/
def DidDocument.entry (document : DidDocument P) (keyId : String) : Option PublicKey :=
  document.publicKeys.find? fun pk => pk.id = keyId

/-- The bytes of a key: its hex first, else its base58. -/
def PublicKey.bytes (base58 : String → Option Bytes) (publicKey : PublicKey) : Option Bytes :=
  match publicKey.publicKeyHex with
  | some hexValue => keyBytes hexValue
  | none => publicKey.publicKeyBase58.bind base58

/-- The entry the id names has the key's bytes. -/
def DidDocument.Holds (base58 : String → Option Bytes) (document : DidDocument P) (key : B256)
    (keyId : String) : Prop :=
  ∃ pk, document.entry keyId = some pk ∧ pk.bytes base58 = some key.val

/-- The id is the first authenticating one that holds the key. -/
def DidDocument.FirstHolder (base58 : String → Option Bytes) (document : DidDocument P)
    (key : B256) (keyId : String) : Prop :=
  ∃ before after, document.authentication = before ++ keyId :: after ∧
    document.Holds base58 key keyId ∧ ∀ a ∈ before, ¬document.Holds base58 key a

theorem entry_id {document : DidDocument P} {keyId : String} {pk : PublicKey}
    (h : document.entry keyId = some pk) : pk ∈ document.publicKeys ∧ pk.id = keyId :=
  ⟨List.mem_of_find?_eq_some h, by simpa using List.find?_some h⟩

/-! ### What the gate passes -/

section Passes

variable {crates : Signatures} {base58 : String → Option Bytes} {debug : String → String}

theorem bytes_eq (pk : PublicKey) :
    pk.bytes base58 = (ed25519PublicKeyHex base58 pk).bind keyBytes := by
  unfold PublicKey.bytes ed25519PublicKeyHex
  cases pk.publicKeyHex with
  | some hexValue => rw [Option.bind_some, keyBytes_trimStart0x]
  | none =>
    cases pk.publicKeyBase58.bind base58 with
    | none => rfl
    | some bytes => rw [Option.map_some, Option.bind_some, keyBytes_text]

theorem verifies_iff_bytes (hlawful : crates.Lawful) (seed : B256) (message : String)
    (pk : PublicKey) :
    (∃ publicKeyHex, ed25519PublicKeyHex base58 pk = some publicKeyHex ∧
      verifySignature crates message (Hex.text (crates.sign seed (Utf8.encode message)).val)
        publicKeyHex .ed25519 = .ok true) ↔
      pk.bytes base58 = some (crates.verifyingKey seed).val := by
  rw [bytes_eq, Option.bind_eq_some_iff]
  refine exists_congr fun publicKeyHex => and_congr_right fun _ => ?_
  exact verifySignature_own_iff hlawful seed publicKeyHex

theorem answers_iff (hlawful : crates.Lawful) (seed : B256) (pk : PublicKey) :
    answers crates base58 (Hex.text (crates.sign seed (Utf8.encode probeMessage)).val) pk = true ↔
      pk.bytes base58 = some (crates.verifyingKey seed).val := by
  rw [← verifies_iff_bytes hlawful seed probeMessage pk]
  unfold answers
  cases ed25519PublicKeyHex base58 pk with
  | none => simp
  | some publicKeyHex => simp only [Outcome.unwrapOr_false, Option.some.injEq, exists_eq_left']

/-- The gate, taken apart. -/
theorem assertKeyControlsDocument_steps {document : DidDocument P} {privateKeyHex id : String} :
    assertKeyControlsDocument crates base58 debug document privateKeyHex = .ok id ↔
      document.authentication ≠ [] ∧ ∃ resolved : List PublicKey,
        document.authentication.map document.entry =
          resolved.map some ∧ ∃ seed, seedOf privateKeyHex = some seed ∧ ∃ pk,
          resolved.find? (answers crates base58
            (Hex.text (crates.sign seed (Utf8.encode probeMessage)).val)) = some pk ∧ pk.id = id := by
  unfold assertKeyControlsDocument
  by_cases hempty : document.authentication = []
  · rw [if_pos hempty]
    refine iff_of_false (fun h => ?_) fun h => h.1 hempty
    cases h
  · rw [if_neg hempty]
    simp only [Outcome.bind_eq_ok, Outcome.mapM_okOr_eq_ok]
    refine Iff.trans ?_ (and_iff_right hempty).symm
    refine exists_congr fun resolved => and_congr_right fun _ => ?_
    refine ⟨fun h => ?_, fun h => ?_⟩
    · obtain ⟨signature, hsign, h⟩ := h
      obtain ⟨seed, hseed, rfl⟩ := signChallenge_eq_ok.mp hsign
      refine ⟨seed, hseed, ?_⟩
      split at h
      case h_1 pk hfind => exact ⟨pk, hfind, Except.ok.inj h⟩
      case h_2 => cases h
    · obtain ⟨seed, hseed, pk, hfind, hid⟩ := h
      refine ⟨_, signChallenge_eq_ok.mpr ⟨seed, hseed, rfl⟩, ?_⟩
      rw [hfind]
      exact congrArg Except.ok hid

/-- The first resolved key that answers is the first authenticating id's that
holds the key. -/
theorem find?_answers_iff (hlawful : crates.Lawful) {document : DidDocument P} {seed : B256}
    {resolved : List PublicKey}
    (hresolved : document.authentication.map document.entry = resolved.map some) (id : String) :
    (∃ pk, resolved.find? (answers crates base58
        (Hex.text (crates.sign seed (Utf8.encode probeMessage)).val)) = some pk ∧ pk.id = id) ↔
      document.FirstHolder base58 (crates.verifyingKey seed) id := by
  refine ⟨fun ⟨pk, hfind, hid⟩ => ?_, fun ⟨before, after, hauth, ⟨pk, hentry, hbytes⟩, hbefore⟩ => ?_⟩
  · obtain ⟨before, keyId, after, hauth, hentry, hanswers, hbefore⟩ :=
      (Outcome.find?_found_iff hresolved).mp hfind
    obtain rfl : keyId = id := (entry_id hentry).2.symm.trans hid
    refine ⟨before, after, hauth, ⟨pk, hentry, (answers_iff hlawful seed pk).mp hanswers⟩, ?_⟩
    rintro a ha ⟨other, hother, hbytes⟩
    have hno := hbefore a ha other hother
    rw [(answers_iff hlawful seed other).mpr hbytes] at hno
    cases hno
  · refine ⟨pk, (Outcome.find?_found_iff hresolved).mpr ⟨before, id, after, hauth, hentry,
      (answers_iff hlawful seed pk).mpr hbytes, fun a ha other hother => ?_⟩, (entry_id hentry).2⟩
    rw [Bool.eq_false_iff]
    exact fun hanswers =>
      hbefore a ha ⟨other, hother, (answers_iff hlawful seed other).mp hanswers⟩

/-- Every authenticating id names an entry. -/
def DidDocument.Resolves (document : DidDocument P) : Prop :=
  ∀ keyId ∈ document.authentication, ∃ pk, document.entry keyId = some pk

/-- **What the gate passes**: the first authenticating id that holds the key,
once every id names an entry. -/
theorem assertKeyControlsDocument_eq_ok (hlawful : crates.Lawful) {document : DidDocument P}
    {privateKeyHex id : String} :
    assertKeyControlsDocument crates base58 debug document privateKeyHex = .ok id ↔
      document.Resolves ∧ ∃ seed, seedOf privateKeyHex = some seed ∧
        document.FirstHolder base58 (crates.verifyingKey seed) id := by
  rw [assertKeyControlsDocument_steps, DidDocument.Resolves, Outcome.all_found_iff]
  refine ⟨fun ⟨_, resolved, hresolved, seed, hseed, hfind⟩ => ?_,
    fun ⟨⟨resolved, hresolved⟩, seed, hseed, hfirst⟩ => ?_⟩
  · exact ⟨⟨resolved, hresolved⟩, seed, hseed, (find?_answers_iff hlawful hresolved id).mp hfind⟩
  · refine ⟨?_, resolved, hresolved, seed, hseed, (find?_answers_iff hlawful hresolved id).mpr hfirst⟩
    obtain ⟨before, after, hauth, -⟩ := hfirst
    rw [hauth]
    simp

/-! ### What the private key's text is read as -/

/-- Digits after some marks are all that is parsed of a text. -/
theorem parseEd25519Seed_of_trimmed {privateKeyHex bare : String} {seed : B256}
    (hspace : ∀ c ∈ privateKeyHex.toList, Text.isWhitespace c = false)
    (hbare : Text.trim0x privateKeyHex.toList = bare.toList) (hseed : seedOf bare = some seed) :
    parseEd25519Seed privateKeyHex = .ok seed := by
  unfold parseEd25519Seed
  dsimp only
  rw [Text.trim_of_not_mem hspace, hbare, String.ofList_toList,
    decodeHex_eq_ok.mp (seedOf_eq_some.mp hseed), Outcome.mapError_ok]
  exact dif_pos seed.property

theorem isDigit_of_seedOf {privateKeyHex : String} {seed : B256}
    (h : seedOf privateKeyHex = some seed) : ∀ c ∈ privateKeyHex.toList, Hex.IsDigit c :=
  Hex.isDigit_of_decode (decodeHex_eq_ok.mp (seedOf_eq_some.mp h))

theorem not_whitespace_of_isDigit {c : Char} (h : Hex.IsDigit c) : Text.isWhitespace c = false := by
  unfold Hex.IsDigit at h
  unfold Text.isWhitespace
  simp
  omega

/-- A seed that is read as it stands is parsed. -/
theorem parseEd25519Seed_of_seedOf {privateKeyHex : String} {seed : B256}
    (h : seedOf privateKeyHex = some seed) : parseEd25519Seed privateKeyHex = .ok seed := by
  have hdigits := isDigit_of_seedOf h
  refine parseEd25519Seed_of_trimmed (fun c hc => not_whitespace_of_isDigit (hdigits c hc)) ?_ h
  exact Text.trim0x_of_not_mem (not_mem_of_digits hdigits)

/-- So is one after a mark, which is not read as it stands. -/
theorem parseEd25519Seed_marked {privateKeyHex : String} {seed : B256}
    (h : seedOf privateKeyHex = some seed) : parseEd25519Seed ("0x" ++ privateKeyHex) = .ok seed := by
  have hdigits := isDigit_of_seedOf h
  have hmarked : ("0x" ++ privateKeyHex).toList = '0' :: 'x' :: privateKeyHex.toList := by simp
  refine parseEd25519Seed_of_trimmed ?_ ?_ h
  · rw [hmarked]
    refine List.forall_mem_cons.mpr ⟨rfl, List.forall_mem_cons.mpr ⟨rfl, fun c hc => ?_⟩⟩
    exact not_whitespace_of_isDigit (hdigits c hc)
  · rw [hmarked, Text.trim0x]
    exact Text.trim0x_of_not_mem (not_mem_of_digits hdigits)

theorem seedOf_marked (privateKeyHex : String) : seedOf ("0x" ++ privateKeyHex) = none := by
  rw [Option.eq_none_iff_forall_ne_some]
  intro seed h
  exact not_mem_of_digits (isDigit_of_seedOf h) (by simp)

/-- A rotation to the held key passes when its text is read as it stands. -/
theorem rotatedDocument_passes (hlawful : crates.Lawful) {privateKeyHex : String} {seed : B256}
    (hseed : seedOf privateKeyHex = some seed) (current : DidDocument P) (newKeyId : String)
    (updated : ℕ) :
    assertKeyControlsDocument crates base58 debug
      (rotatedDocument current newKeyId (Hex.text (crates.verifyingKey seed).val) updated)
      privateKeyHex = .ok newKeyId := by
  have hentry : (rotatedDocument current newKeyId (Hex.text (crates.verifyingKey seed).val)
      updated).entry newKeyId = some ⟨newKeyId, ed25519VerificationKey2018, current.id, none,
        some (Hex.text (crates.verifyingKey seed).val)⟩ := by
    simp [DidDocument.entry, rotatedDocument]
  refine (assertKeyControlsDocument_eq_ok hlawful).mpr ⟨?_, seed, hseed, [], [], rfl, ?_, nofun⟩
  · exact List.forall_mem_singleton.mpr ⟨_, hentry⟩
  · exact ⟨_, hentry, keyBytes_text _⟩

end Passes

/-! ### What the gate should do -/

section Right

variable (crates : Signatures) (base58 : String → Option Bytes) (debug : String → String)
  (document : DidDocument P) (privateKeyHex : String)

/-- The held key signs as the document's DID under `id`: the chain's verifier
takes the entry's type, and its bytes verify what the key signs. -/
structure Controls (id : String) : Prop where
  nonempty : document.authentication ≠ []
  resolves : ∀ keyId ∈ document.authentication, ∃ pk ∈ document.publicKeys, pk.id = keyId
  listed : id ∈ document.authentication
  signs : ∃ pk seed, document.entry id = some pk ∧
    pk.keyType = ed25519VerificationKey2018 ∧
    parseEd25519Seed privateKeyHex = .ok seed ∧
    pk.bytes base58 = some (crates.verifyingKey seed).val ∧
    ∀ message, ∃ signature publicKeyHex,
      signChallenge crates message privateKeyHex .ed25519 = .ok signature ∧
      ed25519PublicKeyHex base58 pk = some publicKeyHex ∧
      verifySignature crates message signature publicKeyHex .ed25519 = .ok true

/-- What the gate passes is controlled. -/
def GateSound : Prop :=
  ∀ id, assertKeyControlsDocument crates base58 debug document privateKeyHex = .ok id →
    Controls crates base58 document privateKeyHex id

/-- A rotation to the key, if its text is one, passes. -/
def LetsThrough (P : Type) : Prop :=
  ∀ seed, parseEd25519Seed privateKeyHex = .ok seed →
    ∀ (current : DidDocument P) (newKeyId : String) (updated : ℕ),
      assertKeyControlsDocument crates base58 debug
        (rotatedDocument current newKeyId (Hex.text (crates.verifyingKey seed).val) updated)
        privateKeyHex = .ok newKeyId

/-- The first authenticating id that holds the key names an entry of the type
the chain's ed25519 verifier dispatches on. -/
def FirstHolderTyped : Prop :=
  document.Resolves → ∀ seed, seedOf privateKeyHex = some seed →
    ∀ id, document.FirstHolder base58 (crates.verifyingKey seed) id →
      ∀ pk, document.entry id = some pk → pk.keyType = ed25519VerificationKey2018

/-- The text parsed as a key is 32 bytes of hex as it stands. -/
def ReadAsItStands : Prop :=
  ∀ seed, parseEd25519Seed privateKeyHex = .ok seed → ∃ seed', seedOf privateKeyHex = some seed'

variable {crates base58 debug document privateKeyHex}

/-- All but the type is checked. -/
theorem controls_of_passed (hlawful : crates.Lawful) {id : String}
    (h : assertKeyControlsDocument crates base58 debug document privateKeyHex = .ok id)
    (htype : ∀ pk, document.entry id = some pk → pk.keyType = ed25519VerificationKey2018) :
    Controls crates base58 document privateKeyHex id := by
  obtain ⟨hresolves, seed, hseed, before, after, hauth, ⟨pk, hentry, hbytes⟩, -⟩ :=
    (assertKeyControlsDocument_eq_ok hlawful).mp h
  refine ⟨?_, fun keyId hmem => ?_, ?_, pk, seed, hentry, htype pk hentry,
    parseEd25519Seed_of_seedOf hseed, hbytes, fun message => ?_⟩
  · rw [hauth]
    simp
  · obtain ⟨other, hother⟩ := hresolves keyId hmem
    exact ⟨other, entry_id hother⟩
  · rw [hauth]
    simp
  · obtain ⟨publicKeyHex, hhex, hverify⟩ :=
      (verifies_iff_bytes hlawful seed message pk).mpr hbytes
    exact ⟨_, publicKeyHex, signChallenge_eq_ok.mpr ⟨seed, hseed, rfl⟩, hhex, hverify⟩

theorem gateSound_iff (hlawful : crates.Lawful) :
    GateSound crates base58 debug document privateKeyHex ↔
      FirstHolderTyped crates base58 document privateKeyHex := by
  refine ⟨fun hsound hresolves seed hseed id hfirst pk hentry => ?_, fun htyped id hpassed => ?_⟩
  · have hpassed : assertKeyControlsDocument crates base58 debug document privateKeyHex = .ok id :=
      (assertKeyControlsDocument_eq_ok hlawful).mpr ⟨hresolves, seed, hseed, hfirst⟩
    obtain ⟨pk', _, hentry', htype, -⟩ := (hsound id hpassed).signs
    obtain rfl := Option.some.inj (hentry.symm.trans hentry')
    exact htype
  · refine controls_of_passed hlawful hpassed ?_
    obtain ⟨hresolves, seed, hseed, hfirst⟩ := (assertKeyControlsDocument_eq_ok hlawful).mp hpassed
    exact htyped hresolves seed hseed id hfirst

theorem letsThrough_iff (hlawful : crates.Lawful) :
    LetsThrough crates base58 debug privateKeyHex P ↔ ReadAsItStands privateKeyHex := by
  refine ⟨fun h seed hparsed => ?_, fun h seed hparsed current newKeyId updated => ?_⟩
  · have hpassed := h seed hparsed ⟨"", [], [], [], 0, 0, none⟩ "" 0
    obtain ⟨-, seed', hseed', -⟩ := (assertKeyControlsDocument_eq_ok hlawful).mp hpassed
    exact ⟨seed', hseed'⟩
  · obtain ⟨seed', hseed'⟩ := h seed hparsed
    obtain rfl := Except.ok.inj (hparsed.symm.trans (parseEd25519Seed_of_seedOf hseed'))
    exact rotatedDocument_passes hlawful hseed' current newKeyId updated

end Right

/-- **The anti-brick gate**: what it passes is controlled exactly when the
first holder of the key has the verifier's type, and a rotation to a key
passes exactly when the key's text is read as it stands. -/
theorem gate_is_right_iff (crates : Signatures) (base58 : String → Option Bytes)
    (debug : String → String) (hlawful : crates.Lawful) (document : DidDocument P)
    (privateKeyHex : String) :
    (GateSound crates base58 debug document privateKeyHex ↔
      FirstHolderTyped crates base58 document privateKeyHex) ∧
    (LetsThrough crates base58 debug privateKeyHex P ↔ ReadAsItStands privateKeyHex) :=
  ⟨gateSound_iff hlawful, letsThrough_iff hlawful⟩

/-! ### A rotation and a document of another type -/

namespace Sample

def seed : B256 :=
  ⟨[0x4C, 0xCD, 0x08, 0x9B, 0x28, 0xFF, 0x96, 0xDA, 0x9D, 0xB6, 0xC3, 0x46, 0xEC, 0x11, 0x4E, 0x0F,
    0x5B, 0x8A, 0x31, 0x9F, 0x35, 0xAB, 0xA6, 0x24, 0xDA, 0x8C, 0xF6, 0xED, 0x4F, 0xB8, 0xA6, 0xFB],
    rfl⟩

/-- The seed's public key. -/
def key : B256 :=
  ⟨[0x3D, 0x40, 0x17, 0xC3, 0xE8, 0x43, 0x89, 0x5A, 0x92, 0xB7, 0x0A, 0xA7, 0x4D, 0x1B, 0x7E, 0xBC,
    0x9C, 0x98, 0x2C, 0xCF, 0x2E, 0xC4, 0x96, 0x8C, 0xC0, 0xCD, 0x55, 0xF1, 0x2A, 0xF4, 0x66, 0x0C],
    rfl⟩

/-- The seed's signature of the probe. -/
def probeSignature : B512 :=
  ⟨[0x67, 0x27, 0xAD, 0xB0, 0x7A, 0x96, 0x11, 0x8E, 0xBF, 0xA8, 0x6F, 0x44, 0x87, 0x53, 0xFE, 0x82,
    0xB1, 0x35, 0x68, 0xC4, 0xB0, 0xA1, 0x60, 0x41, 0x39, 0xE4, 0x03, 0xE4, 0x33, 0xB0, 0xD2, 0x6D,
    0x51, 0x78, 0xAE, 0xF5, 0x53, 0x3A, 0xF3, 0xBF, 0x21, 0x07, 0x43, 0x17, 0xB2, 0x86, 0x3E, 0x1A,
    0x47, 0x61, 0x1D, 0x6F, 0x27, 0x00, 0x8D, 0xCE, 0x69, 0xD4, 0xDD, 0x8E, 0x0A, 0xCA, 0xCE, 0x08],
    rfl⟩

def verifyingKey (s : B256) : B256 := if s = seed then key else s

/-- Ed25519's signature of the probe by the seed; elsewhere a signature
names its key. -/
def sign (s : B256) (message : Bytes) : B512 :=
  if s = seed ∧ message = Utf8.encode probeMessage then probeSignature
  else ⟨(verifyingKey s).val ++ List.replicate 32 0, by simp [(verifyingKey s).property]⟩

def verify (k : B256) (message : Bytes) (signature : B512) : Bool :=
  if message = Utf8.encode probeMessage ∧ signature = probeSignature then k = key
  else signature.val.take 32 = k.val

def crates : Signatures where
  verifyingKey := verifyingKey
  sign := sign
  fromBytes k := some (verify k)
  keccak256 _ := key
  secretKey _ := .error "malformed or out-of-range secret key"
  publicKey _ := .error "malformed public key"
  fromCompact _ := .error "malformed signature"
  fromDer _ := .error "malformed signature"
  verifyEcdsa _ _ _ := false

theorem verify_sign (k s : B256) (message : Bytes) :
    verify k message (sign s message) = true ↔ k = verifyingKey s := by
  unfold verify sign
  by_cases hprobe : s = seed ∧ message = Utf8.encode probeMessage
  · obtain ⟨rfl, rfl⟩ := hprobe
    simp [verifyingKey]
  · have hother : ∀ h, (⟨(verifyingKey s).val ++ List.replicate 32 0, h⟩ : B512) ≠ probeSignature := by
      intro h heq
      have hdrop := congrArg (fun b : B512 => b.val.drop 32) heq
      have hlen := (verifyingKey s).property
      simp only [List.drop_append, hlen, Nat.sub_self, List.drop_zero] at hdrop
      rw [List.drop_of_length_le hlen.le] at hdrop
      exact absurd hdrop (by decide)
    rw [if_neg hprobe, if_neg fun h => hother _ h.2]
    simp [(verifyingKey s).property, Subtype.ext_iff, eq_comm]

theorem lawful : crates.Lawful where
  own s := ⟨verify (verifyingKey s), rfl, fun message => (verify_sign _ s message).mpr rfl⟩
  only s k v message hfrom hverify := by
    obtain rfl := Option.some.inj hfrom
    exact (verify_sign k s message).mp hverify

def privateKeyHex : String := Hex.text seed.val

theorem seedOf_privateKeyHex : seedOf privateKeyHex = some seed :=
  seedOf_eq_some.mpr (decodeHex_text seed.val)

def current : DidDocument Unit where
  id := "did:willow:validator1"
  publicKeys := []
  authentication := []
  service := [⟨"did:willow:validator1#api", "WillowApi", "http://localhost:3031"⟩]
  created := 1700000000
  updated := 1700000000
  proof := none

/-- The rotation to the seed's key. -/
def rotated : DidDocument Unit :=
  rotatedDocument current "did:willow:validator1#key-1" (Hex.text key.val) 1800000000

/-- The same key in an entry of another type. -/
def otherType : PublicKey where
  id := "did:willow:validator1#key-1"
  keyType := "EcdsaSecp256k1VerificationKey2019"
  controller := "did:willow:validator1"
  publicKeyBase58 := none
  publicKeyHex := some (Hex.text key.val)

def retyped : DidDocument Unit := { rotated with publicKeys := [otherType] }

end Sample

theorem gate_is_right_iff_sample :
    GateSound Sample.crates (fun _ => none) String.quote Sample.rotated Sample.privateKeyHex ∧
    LetsThrough Sample.crates (fun _ => none) String.quote Sample.privateKeyHex Unit := by
  obtain ⟨hsound, hlets⟩ := gate_is_right_iff Sample.crates (fun _ => none) String.quote
    Sample.lawful Sample.rotated Sample.privateKeyHex
  refine ⟨hsound.mpr fun _ _ _ id _ pk hentry => ?_, hlets.mpr fun _ _ => ?_⟩
  · obtain rfl := List.mem_singleton.mp (entry_id hentry).1
    rfl
  · exact ⟨Sample.seed, Sample.seedOf_privateKeyHex⟩

/-- The gate passes the held key in an entry that the chain's ed25519
verifier does not take, and refuses the rotation to a key after `0x`. -/
theorem gate_passes_another_type :
    (assertKeyControlsDocument Sample.crates (fun _ => none) String.quote Sample.retyped
        Sample.privateKeyHex = .ok "did:willow:validator1#key-1" ∧
      ¬GateSound Sample.crates (fun _ => none) String.quote Sample.retyped Sample.privateKeyHex) ∧
    parseEd25519Seed ("0x" ++ Sample.privateKeyHex) = .ok Sample.seed ∧
      ¬LetsThrough Sample.crates (fun _ => none) String.quote ("0x" ++ Sample.privateKeyHex) Unit := by
  have hentry : Sample.retyped.entry "did:willow:validator1#key-1" = some Sample.otherType := by
    simp [DidDocument.entry, Sample.retyped, Sample.otherType]
  have hpassed : assertKeyControlsDocument Sample.crates (fun _ => none) String.quote Sample.retyped
      Sample.privateKeyHex = .ok "did:willow:validator1#key-1" := by
    refine (assertKeyControlsDocument_eq_ok Sample.lawful).mpr
      ⟨?_, Sample.seed, Sample.seedOf_privateKeyHex, [], [], rfl, ?_, nofun⟩
    · exact List.forall_mem_singleton.mpr ⟨_, hentry⟩
    · exact ⟨_, hentry, keyBytes_text _⟩
  have hparsed := parseEd25519Seed_marked Sample.seedOf_privateKeyHex
  refine ⟨⟨hpassed, fun hsound => ?_⟩, hparsed, fun hlets => ?_⟩
  · obtain ⟨pk, _, hentry', htype, -⟩ := (hsound _ hpassed).signs
    obtain rfl := Option.some.inj (hentry.symm.trans hentry')
    exact absurd htype (by decide)
  · obtain ⟨seed, hseed⟩ := (letsThrough_iff Sample.lawful).mp hlets _ hparsed
    rw [seedOf_marked] at hseed
    cases hseed

end DidRotation
end WillowSdk
