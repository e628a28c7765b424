/-
# The rotation tool

`examples/rotate_did.rs` rotates a DID's key from the command line, and the
key files of src/did_rotation.rs it keeps new keys in. A run of the tool
settles the new key on disk, reads the live document, derives the
replacement, passes the gate, takes a nonce and stops there unless it is to
broadcast; then it submits, polls and re-reads.

Any number of runs share the disk and the chain. `World` has both, with the
phase each run is in; an `Action` is a run's next exchange with the disk or a
server (whatever that answers), the end of its process at any moment, or the
chain's commit of a broadcast transaction, in any order. A replacement is
broadcast only after the gate has passed it for a key that a file holds, and
no file is written twice, so a DID whose document some key file controls is
controlled by a key file ever after (`never_bricked`).

A failure is the tool's error, its contexts before it.
-/
import WillowSdk.DidRotation
import WillowSdk.Files
import WillowSdk.Lib.Runs

namespace WillowSdk
namespace RotateDid

open Auth DidRotation
open EthState (B256)
open Files (TxOutcome)

abbrev Failure := List String

def bail {α : Type} (text : String) : Except Failure α := .error [text]

/-- `anyhow::Context`. -/
def context {α : Type} (text : String) (x : Except Failure α) : Except Failure α :=
  x.mapError (text :: ·)

/-- A call of the SDK's, its error as shown. -/
def shown {α : Type} (x : Result α) : Except Failure α := x.mapError fun e => [e.text]

/-! ### Key files -/

/-- The text of each file, by its path. -/
abbrev Files := String → Option String

/-- What the key files' functions return short of a value. -/
inductive KeyFileError
  | willow (e : WillowError)
  | io (message : String)

def KeyFileError.text : KeyFileError → String
  | .willow e => e.text
  | .io m => s!"IO error: {m}"

/-- How the disk takes a new file: it may not open, be written in part, or
not be synced. -/
inductive Disk
  | refuses (why : String)
  | tears (written why : String)
  | loses (why : String)
  | writes

/-- Write a private key to a path, refusing to touch a file that already
exists. -/
def writeNewKeyFile (disk : Disk) (path privateKeyHex : String) (files : Files) :
    Except KeyFileError Unit × Files :=
  match files path with
  | some _ => (.error (.willow (.validation
      s!"refusing to overwrite existing key file {path} — move it aside or pick another --new-key-out path")), files)
  | none =>
    match disk with
    | .refuses why => (.error (.io why), files)
    | .tears written why => (.error (.io why), Function.update files path (some written))
    | .loses why => (.error (.io why), Function.update files path (some privateKeyHex))
    | .writes => (.ok (), Function.update files path (some privateKeyHex))

/-- `str::trim`. -/
def trimmed (text : String) : String := String.ofList (Text.trim text.toList)

/-- Read a hex private key previously written by `writeNewKeyFile`. -/
def readKeyFile (path : String) (files : Files) : Except KeyFileError String := do
  let contents ← Outcome.okOr (files path) (.io "No such file or directory (os error 2)")
  let _ ← (parseEd25519Seed (trimmed contents)).mapError .willow
  .ok (trimmed contents)

/-! ### The steps of a run -/

structure Args where
  api : String
  did : String
  currentKeyHex : Option String
  currentKeyFile : Option String
  currentKeyId : String
  newKeyId : Option String
  newKeyOut : Option String
  newKeyHex : Option String
  newKeyIn : Option String
  broadcast : Bool
  dryRun : Bool
  confirmAttempts : ℕ

def Args.newId (args : Args) : String := args.newKeyId.getD args.currentKeyId

def Args.apiBase (args : Args) : String := String.ofList (Text.trimEndMatches args.api.toList '/')

def loadCurrentKey (args : Args) (files : Files) : Except Failure String :=
  match args.currentKeyHex, args.currentKeyFile with
  | some hexValue, none => .ok (trimmed hexValue)
  | none, some path =>
    context s!"read current key {path}" ((readKeyFile path files).mapError fun e => [e.text])
  | _, _ => bail "pass exactly one of --current-key-hex or --current-key-file"

/-- The key to write: the one supplied, or a fresh one of the random seed. -/
def newKeyText (args : Args) (seed : B256) : Except Failure String :=
  match args.newKeyHex with
  | some supplied => do
    let _ ← context "--new-key-hex" (shown (parseEd25519Seed (trimmed supplied)))
    .ok (trimmed supplied)
  | none => .ok (Hex.text seed.val)

/-- Generate or accept the new key and write it out, or reuse one a previous
dry run already wrote: the key and the file that holds it. -/
def resolveNewKey (args : Args) (disk : Disk) (seed : B256) (files : Files) :
    Except Failure (String × String) × Files :=
  match args.newKeyOut, args.newKeyIn with
  | some path, none =>
    match newKeyText args seed with
    | .error e => (.error e, files)
    | .ok privateKeyHex =>
      match writeNewKeyFile disk path privateKeyHex files with
      | (.error e, files) => (.error [s!"write new key to {path}", e.text], files)
      | (.ok _, files) => (.ok (privateKeyHex, path), files)
  | none, some path =>
    match readKeyFile path files with
    | .error e => (.error [s!"read new key from {path}", e.text], files)
    | .ok privateKeyHex => (.ok (privateKeyHex, path), files)
  | _, _ => (bail "pass exactly one of --new-key-out or --new-key-in", files)

/-- An `UpdateDid` transaction. -/
structure UpdateDidTx (P : Type) where
  didDocument : DidDocument P
  signature : Bytes
  publicKeyId : String
  nonce : ℕ

section Steps

variable {P : Type} (crates : Signatures) (base58 : String → Option Bytes) (debug : String → String)
  (toJson : DidDocument P → Except String String)

/-- A list of strings as `{:?}` shows it. -/
def debugList (texts : List String) : String :=
  "[" ++ ", ".intercalate (texts.map debug) ++ "]"

/-- Fail before the network sees anything if the current document cannot
authorize this rotation. -/
def checkCurrentDocument (current : DidDocument P) (args : Args) : Except Failure Unit :=
  if current.id ≠ args.did then
    bail s!"chain returned a document for {debug current.id} when asked for {debug args.did}"
  else if args.currentKeyId ∉ current.authentication then
    bail s!"{args.currentKeyId} is not in the on-chain authentication set {debugList debug current.authentication} — it cannot authorize this update"
  else .ok ()

/-- Prove the document about to be broadcast is signable by the key on
disk. -/
def runAntiBrickGate (newDoc : DidDocument P) (newKeyId newPrivateKeyHex : String) :
    Except Failure Unit := do
  let _ ← (assertKeyControlsDocument crates base58 debug newDoc newPrivateKeyHex).mapError fun e =>
    [s!"ANTI-BRICK GATE FAILED — nothing was submitted. {e.text}"]
  if newDoc.authentication ≠ [newKeyId] then
    bail s!"ANTI-BRICK GATE FAILED — nothing was submitted. Replacement authentication set is {debugList debug newDoc.authentication}, expected exactly [{debug newKeyId}]"
  else .ok ()

/-- The first of the retired keys that is still on chain. -/
def retiredOnChain (previous : DidDocument P) (newPublicKeyHex : String) (liveKeys : List String) :
    Option String :=
  (previous.publicKeys.filterMap (ed25519PublicKeyHex base58)).find? fun oldKey =>
    oldKey ≠ newPublicKeyHex ∧ oldKey ∈ liveKeys

/-- Confirm chain state, not the tx receipt: the new key is live and the old
one is gone. -/
def confirmRotation (live : DidDocument P) (newKeyId newPublicKeyHex : String)
    (previous : DidDocument P) : Except Failure Unit :=
  let liveKeys := live.publicKeys.filterMap (ed25519PublicKeyHex base58)
  if live.authentication ≠ [newKeyId] then
    bail s!"post-rotation check FAILED: on-chain authentication set is {debugList debug live.authentication}, expected [{debug newKeyId}]"
  else if liveKeys ≠ [newPublicKeyHex] then
    bail s!"post-rotation check FAILED: on-chain public keys are {debugList debug liveKeys}, expected [{debug newPublicKeyHex}]"
  else
    match retiredOnChain base58 previous newPublicKeyHex liveKeys with
    | some oldKey => bail s!"post-rotation check FAILED: retired key {oldKey} is still on chain"
    | none => .ok ()

/-- The exact bytes an `UpdateDid` signature covers. -/
def updateDidSigningMessage (newDocument : DidDocument P) (nonce : ℕ) : Result String := do
  let newDocJson ← (toJson newDocument).mapError .serialization
  .ok s!"UpdateDid\n{newDocJson}\n{nonce}"

/-- `update_did_transaction` (src/consensus.rs). -/
def updateDidTransaction (newDidDocument : DidDocument P)
    (currentPrivateKeyHex currentPublicKeyId : String) (algorithm : SignatureAlgorithm)
    (nonce : ℕ) : Result (UpdateDidTx P) := do
  let message ← updateDidSigningMessage toJson newDidDocument nonce
  let signatureHex ← signChallenge crates message currentPrivateKeyHex algorithm
  let signature ← decodeHex signatureHex
  .ok ⟨newDidDocument, signature, currentPublicKeyId, nonce⟩

/-- What a run has settled once its new key is on disk. -/
structure Settled where
  args : Args
  currentKeyHex : String
  newPrivateKeyHex : String
  newSeed : B256
  parsed : parseEd25519Seed newPrivateKeyHex = .ok newSeed

def Settled.newPublicKeyHex (run : Settled) : String :=
  Hex.text (crates.verifyingKey run.newSeed).val

/-- How a run that didn't fail ends. -/
inductive Ending
  | dryRun
  | confirmed

/-- Where a run of the tool stands. -/
inductive Phase (P : Type)
  | idle
  | settled (run : Settled)
  | planned (run : Settled) (previous newDoc : DidDocument P)
  | numbered (run : Settled) (previous newDoc : DidDocument P) (nonce : ℕ)
  | submitted (run : Settled) (previous : DidDocument P) (txHash : String)
  | included (run : Settled) (previous : DidDocument P)
  | ended (outcome : Except Failure Ending)

/-- The run's start, up to its first exchange with a server. -/
def begin (args : Args) (disk : Disk) (seed : B256) (files : Files) : Phase P × Files :=
  match loadCurrentKey args files with
  | .error e => (.ended (.error e), files)
  | .ok currentKeyHex =>
    match resolveNewKey args disk seed files with
    | (.error e, files) => (.ended (.error e), files)
    | (.ok (newPrivateKeyHex, _), files) =>
      match hparsed : parseEd25519Seed newPrivateKeyHex with
      | .error e => (.ended (.error ["new private key", e.text]), files)
      | .ok newSeed => (.settled ⟨args, currentKeyHex, newPrivateKeyHex, newSeed, hparsed⟩, files)

/-- The live document and its replacement, past the gate. -/
def plan (run : Settled) (answer : Result (DidDocument P)) (now : ℕ) :
    Except Failure (DidDocument P × DidDocument P) := do
  let currentDoc ← context s!"read the current DID document for {run.args.did}" (shown answer)
  checkCurrentDocument debug currentDoc run.args
  let newDoc := rotatedDocument currentDoc run.args.newId (run.newPublicKeyHex crates) now
  runAntiBrickGate crates base58 debug newDoc run.args.newId run.newPrivateKeyHex
  .ok (currentDoc, newDoc)

def Phase.readDocument (answer : Result (DidDocument P)) (now : ℕ) : Phase P → Phase P
  | .settled run =>
    match plan crates base58 debug run answer now with
    | .error e => .ended (.error e)
    | .ok (previous, newDoc) => .planned run previous newDoc
  | phase => phase

/-- The nonce is taken and the message shown; a dry run ends here. -/
def Phase.takeNonce (answer : Result ℕ) : Phase P → Phase P
  | .planned run previous newDoc =>
    match context "resolve the next nonce" (shown answer) with
    | .error e => .ended (.error e)
    | .ok nonce =>
      match shown (updateDidSigningMessage toJson newDoc nonce) with
      | .error e => .ended (.error e)
      | .ok _ =>
        if run.args.dryRun = true ∨ run.args.broadcast = false then .ended (.ok .dryRun)
        else .numbered run previous newDoc nonce
  | phase => phase

/-- The transaction is broadcast, if it can be built, and reaches the node or
not; the answer may be lost. -/
def Phase.submit (delivered : Bool) (answer : Result String) :
    Phase P → Phase P × List (UpdateDidTx P)
  | .numbered run previous newDoc nonce =>
    match updateDidTransaction crates toJson newDoc run.currentKeyHex run.args.currentKeyId .ed25519
        nonce with
    | .error e => (.ended (.error ["UpdateDid tx submission failed", e.text]), [])
    | .ok tx =>
      (match answer with
        | .error e => .ended (.error ["UpdateDid tx submission failed", e.text])
        | .ok txHash => .submitted run previous txHash,
        if delivered = true then [tx] else [])
  | phase => (phase, [])

def Phase.poll (answer : Result (Option TxOutcome)) : Phase P → Phase P
  | .submitted run previous txHash =>
    match context "poll for tx inclusion" (shown answer) with
    | .error e => .ended (.error e)
    | .ok none => .ended (bail
        s!"tx {txHash} was accepted into the mempool but was not in a block after {run.args.confirmAttempts} polls — the rotation may still land; re-read {run.args.apiBase}/did/{run.args.did} before doing anything else")
    | .ok (some outcome) =>
      if outcome.code ≠ 0 then .ended (bail
        s!"UpdateDid failed on chain (code {outcome.code}): {outcome.log}. The DID was NOT rotated; the current key still works.")
      else .included run previous
  | phase => phase

def Phase.confirm (answer : Result (DidDocument P)) : Phase P → Phase P
  | .included run previous =>
    .ended (do
      let liveDoc ← context "re-read the DID document after rotation" (shown answer)
      confirmRotation base58 debug liveDoc run.args.newId (run.newPublicKeyHex crates) previous
      .ok .confirmed)
  | phase => phase

end Steps

/-! ### Runs of the tool beside each other -/

/-- The disk, the chain's document of each DID, the transactions that reached
the node, and each run. `held` records every document the chain has had. -/
structure World (P : Type) where
  files : Files
  chain : String → Option (DidDocument P)
  held : List (DidDocument P)
  broadcasts : List (UpdateDidTx P)
  runs : ℕ → Phase P

/-- What happens next: a run begins, exchanges with a server, or is killed;
or the chain commits a broadcast transaction. -/
inductive Action (P : Type)
  | begin (pid : ℕ) (args : Args) (disk : Disk) (seed : B256)
  | readDocument (pid : ℕ) (answer : Result (DidDocument P)) (now : ℕ)
  | takeNonce (pid : ℕ) (answer : Result ℕ)
  | submit (pid : ℕ) (delivered : Bool) (answer : Result String)
  | poll (pid : ℕ) (answer : Result (Option TxOutcome))
  | confirm (pid : ℕ) (answer : Result (DidDocument P))
  | kill (pid : ℕ)
  | commit (place : ℕ)

section Worlds

variable {P : Type}

/-- A run moves on. -/
def World.moved (w : World P) (pid : ℕ) (phase : Phase P) : World P :=
  { w with runs := Function.update w.runs pid phase }

def World.committed (w : World P) (doc : DidDocument P) : World P :=
  { w with chain := Function.update w.chain doc.id (some doc), held := w.held ++ [doc] }

variable (crates : Signatures) (base58 : String → Option Bytes) (debug : String → String)
  (toJson : DidDocument P → Except String String)

def World.step (w : World P) : Action P → World P
  | .begin pid args disk seed =>
    match w.runs pid with
    | .idle =>
      let begun := begin args disk seed w.files
      { w.moved pid begun.1 with files := begun.2 }
    | _ => w
  | .readDocument pid answer now =>
    w.moved pid ((w.runs pid).readDocument crates base58 debug answer now)
  | .takeNonce pid answer => w.moved pid ((w.runs pid).takeNonce toJson answer)
  | .submit pid delivered answer =>
    let submitted := (w.runs pid).submit crates toJson delivered answer
    { w.moved pid submitted.1 with broadcasts := w.broadcasts ++ submitted.2 }
  | .poll pid answer => w.moved pid ((w.runs pid).poll answer)
  | .confirm pid answer => w.moved pid ((w.runs pid).confirm crates base58 debug answer)
  | .kill pid => w.moved pid (.ended (bail "killed"))
  | .commit place =>
    match w.broadcasts[place]? with
    | some tx => w.committed tx.didDocument
    | none => w

/-- A world before any run. -/
structure World.Quiet (w : World P) : Prop where
  runs : ∀ pid, w.runs pid = .idle
  broadcasts : w.broadcasts = []

end Worlds

/-! ### What the disk keeps -/

/-- Every file is still there, as it was. -/
def Extends (files files' : Files) : Prop :=
  ∀ path text, files path = some text → files' path = some text

theorem Extends.refl (files : Files) : Extends files files := fun _ _ h => h

theorem Extends.trans {a b c : Files} (hab : Extends a b) (hbc : Extends b c) : Extends a c :=
  fun path text h => hbc path text (hab path text h)

theorem extends_update {files : Files} {path : String} (habsent : files path = none)
    (text : String) :
    Extends files (Function.update files path (some text)) := by
  intro other found h
  have hne : other ≠ path := by
    rintro rfl
    rw [habsent] at h
    cases h
  rw [Function.update_of_ne hne]
  exact h

/-- No file is written twice. -/
theorem writeNewKeyFile_extends (disk : Disk) (path privateKeyHex : String) (files : Files) :
    Extends files (writeNewKeyFile disk path privateKeyHex files).2 := by
  unfold writeNewKeyFile
  cases habsent : files path with
  | some text => exact .refl files
  | none =>
    cases disk with
    | refuses why => exact .refl files
    | tears written why => exact extends_update habsent written
    | loses why => exact extends_update habsent privateKeyHex
    | writes => exact extends_update habsent privateKeyHex

theorem writeNewKeyFile_ok {disk : Disk} {path key : String} {files files' : Files}
    (h : writeNewKeyFile disk path key files = (.ok (), files')) :
    Function.update files path (some key) = files' := by
  unfold writeNewKeyFile at h
  split at h
  case h_1 => cases (Prod.mk.inj h).1
  case h_2 =>
    cases disk with
    | refuses why | tears written why | loses why => cases (Prod.mk.inj h).1
    | writes => exact (Prod.mk.inj h).2

theorem readKeyFile_eq_ok {path key : String} {files : Files} :
    readKeyFile path files = .ok key ↔ ∃ text seed, files path = some text ∧ trimmed text = key ∧
      parseEd25519Seed key = .ok seed := by
  unfold readKeyFile
  simp only [Outcome.bind_eq_ok, Outcome.okOr_eq_ok, Outcome.mapError_eq_ok, Except.ok.injEq]
  refine ⟨fun h => ?_, fun h => ?_⟩
  · obtain ⟨text, hfile, seed, hseed, rfl⟩ := h
    exact ⟨text, seed, hfile, rfl, hseed⟩
  · obtain ⟨text, seed, hfile, rfl, hseed⟩ := h
    exact ⟨text, hfile, seed, hseed, rfl⟩

theorem readKeyFile_extends {path key : String} {files files' : Files} (hext : Extends files files')
    (h : readKeyFile path files = .ok key) : readKeyFile path files' = .ok key := by
  obtain ⟨text, seed, hfile, htrim, hseed⟩ := readKeyFile_eq_ok.mp h
  exact readKeyFile_eq_ok.mpr ⟨text, seed, hext path text hfile, htrim, hseed⟩

/-- A key that was just settled is read back from its file. -/
theorem readKeyFile_written {path key : String} {seed : B256} (files : Files)
    (htrim : trimmed key = key) (hseed : parseEd25519Seed key = .ok seed) :
    readKeyFile path (Function.update files path (some key)) = .ok key :=
  readKeyFile_eq_ok.mpr ⟨key, seed, Function.update_self .., htrim, hseed⟩

theorem trimmed_trimmed (text : String) : trimmed (trimmed text) = trimmed text := by
  unfold trimmed
  rw [String.toList_ofList, Text.trim_trim]

theorem trimmed_text (bytes : Bytes) : trimmed (Hex.text bytes) = Hex.text bytes := by
  have hdigits := Hex.isDigit_of_decode (Hex.decode_encode bytes)
  unfold trimmed
  rw [Text.trim_of_not_mem fun c hc => not_whitespace_of_isDigit (hdigits c hc),
    String.ofList_toList]

theorem seedOf_text (seed : B256) : seedOf (Hex.text seed.val) = some seed :=
  seedOf_eq_some.mpr (decodeHex_text seed.val)

theorem newKeyText_eq_ok {args : Args} {seed : B256} {key : String}
    (h : newKeyText args seed = .ok key) :
    trimmed key = key ∧ ∃ seed, parseEd25519Seed key = .ok seed := by
  unfold newKeyText at h
  cases hsupplied : args.newKeyHex with
  | none =>
    rw [hsupplied] at h
    obtain rfl := Except.ok.inj h
    exact ⟨trimmed_text _, seed, parseEd25519Seed_of_seedOf (seedOf_text seed)⟩
  | some supplied =>
    rw [hsupplied] at h
    obtain ⟨parsed, hparsed, h⟩ := Outcome.bind_eq_ok.mp h
    obtain rfl := Except.ok.inj h
    rw [context, shown, Outcome.mapError_eq_ok, Outcome.mapError_eq_ok] at hparsed
    exact ⟨trimmed_trimmed supplied, parsed, hparsed⟩

/-- **A settled key is in its file**, and no file was touched for it. -/
theorem resolveNewKey_settles {args : Args} {disk : Disk} {seed : B256} {files files' : Files}
    {result : Except Failure (String × String)}
    (h : resolveNewKey args disk seed files = (result, files')) :
    Extends files files' ∧
      ∀ key path, result = .ok (key, path) → readKeyFile path files' = .ok key := by
  unfold resolveNewKey at h
  split at h
  case h_1 path _ _ =>
    split at h
    case h_1 =>
      obtain ⟨rfl, rfl⟩ := Prod.mk.inj h
      exact ⟨.refl files, nofun⟩
    case h_2 key hkey =>
      have hext := writeNewKeyFile_extends disk path key files
      split at h
      case h_1 hwrite =>
        obtain ⟨rfl, rfl⟩ := Prod.mk.inj h
        rw [hwrite] at hext
        exact ⟨hext, nofun⟩
      case h_2 hwrite =>
        obtain ⟨rfl, rfl⟩ := Prod.mk.inj h
        rw [hwrite] at hext
        refine ⟨hext, fun key' path' hresult => ?_⟩
        obtain ⟨rfl, rfl⟩ := Prod.mk.inj (Except.ok.inj hresult)
        obtain ⟨htrim, parsed, hparsed⟩ := newKeyText_eq_ok hkey
        rw [← writeNewKeyFile_ok hwrite]
        exact readKeyFile_written files htrim hparsed
  case h_2 path _ _ =>
    split at h
    case h_1 =>
      obtain ⟨rfl, rfl⟩ := Prod.mk.inj h
      exact ⟨.refl files, nofun⟩
    case h_2 key hkey =>
      obtain ⟨rfl, rfl⟩ := Prod.mk.inj h
      refine ⟨.refl files, fun key' path' hresult => ?_⟩
      obtain ⟨rfl, rfl⟩ := Prod.mk.inj (Except.ok.inj hresult)
      exact hkey
  case h_3 =>
    obtain ⟨rfl, rfl⟩ := Prod.mk.inj h
    exact ⟨.refl files, nofun⟩

/-! ### What a step can do -/

section Steps

variable {P : Type} {crates : Signatures} {base58 : String → Option Bytes}
  {debug : String → String} {toJson : DidDocument P → Except String String}

theorem checkCurrentDocument_eq_ok {current : DidDocument P} {args : Args} :
    checkCurrentDocument debug current args = .ok () ↔
      current.id = args.did ∧ args.currentKeyId ∈ current.authentication := by
  unfold checkCurrentDocument bail
  simp only [Outcome.refuse_eq_ok, ne_eq, not_not, and_true]

theorem runAntiBrickGate_eq_ok {newDoc : DidDocument P} {newKeyId key : String}
    (hauth : newDoc.authentication = [newKeyId]) :
    runAntiBrickGate crates base58 debug newDoc newKeyId key = .ok () ↔
      ∃ id, assertKeyControlsDocument crates base58 debug newDoc key = .ok id := by
  unfold runAntiBrickGate
  simp only [Outcome.bind_eq_ok, Outcome.mapError_eq_ok, if_neg (not_not.mpr hauth), and_true]

theorem plan_eq_ok {run : Settled} {answer : Result (DidDocument P)} {now : ℕ}
    {previous newDoc : DidDocument P} :
    plan crates base58 debug run answer now = .ok (previous, newDoc) ↔
      answer = .ok previous ∧ previous.id = run.args.did ∧
        run.args.currentKeyId ∈ previous.authentication ∧
        newDoc = rotatedDocument previous run.args.newId (run.newPublicKeyHex crates) now ∧
        ∃ id, assertKeyControlsDocument crates base58 debug newDoc run.newPrivateKeyHex = .ok id := by
  unfold plan context shown
  refine ⟨fun h => ?_, fun h => ?_⟩
  · obtain ⟨doc, hanswer, h⟩ := Outcome.bind_eq_ok.mp h
    obtain ⟨_, hcheck, h⟩ := Outcome.bind_eq_ok.mp h
    obtain ⟨_, hgate, h⟩ := Outcome.bind_eq_ok.mp h
    obtain ⟨rfl, rfl⟩ := Prod.mk.inj (Except.ok.inj h)
    rw [Outcome.mapError_eq_ok, Outcome.mapError_eq_ok] at hanswer
    obtain ⟨hid, hlisted⟩ := checkCurrentDocument_eq_ok.mp hcheck
    exact ⟨hanswer, hid, hlisted, rfl, (runAntiBrickGate_eq_ok rfl).mp hgate⟩
  · obtain ⟨rfl, hid, hlisted, rfl, hgate⟩ := h
    refine Outcome.bind_eq_ok.mpr ⟨previous, rfl, ?_⟩
    refine Outcome.bind_eq_ok.mpr ⟨(), checkCurrentDocument_eq_ok.mpr ⟨hid, hlisted⟩, ?_⟩
    exact Outcome.bind_eq_ok.mpr ⟨(), (runAntiBrickGate_eq_ok rfl).mpr hgate, rfl⟩

/-- What is sent is what the run planned. -/
theorem updateDidTransaction_document {newDoc : DidDocument P} {key keyId : String}
    {algorithm : SignatureAlgorithm} {nonce : ℕ} {tx : UpdateDidTx P}
    (h : updateDidTransaction crates toJson newDoc key keyId algorithm nonce = .ok tx) :
    tx.didDocument = newDoc := by
  unfold updateDidTransaction at h
  obtain ⟨message, -, h⟩ := Outcome.bind_eq_ok.mp h
  obtain ⟨signatureHex, -, h⟩ := Outcome.bind_eq_ok.mp h
  obtain ⟨signature, -, h⟩ := Outcome.bind_eq_ok.mp h
  obtain rfl := Except.ok.inj h
  rfl

-- what is to hold of every replacement that is planned
variable (D : Files → DidDocument P → Prop)

/-- As long as no file goes, it still holds. -/
def Stays : Prop := ∀ files files' doc, Extends files files' → D files doc → D files' doc

/-- What a run holds: its new key is in a file, and `D` holds of its
replacement. -/
def Phase.Kept (files : Files) : Phase P → Prop
  | .settled run => ∃ path, readKeyFile path files = .ok run.newPrivateKeyHex
  | .planned _ _ newDoc | .numbered _ _ newDoc _ => D files newDoc
  | .idle | .submitted .. | .included .. | .ended _ => True

variable {D}

theorem Phase.Kept.extends (hD : Stays D) {files files' : Files} {phase : Phase P}
    (hext : Extends files files') (h : phase.Kept D files) : phase.Kept D files' := by
  cases phase with
  | settled run =>
    obtain ⟨path, hread⟩ := h
    exact ⟨path, readKeyFile_extends hext hread⟩
  | planned run previous newDoc | numbered run previous newDoc nonce => exact hD _ _ _ hext h
  | idle | submitted | included | ended => trivial

theorem begin_kept (args : Args) (disk : Disk) (seed : B256) (files : Files) :
    Extends files (begin (P := P) args disk seed files).2 ∧
      (begin (P := P) args disk seed files).1.Kept D
        (begin (P := P) args disk seed files).2 := by
  unfold begin
  split
  case h_1 => exact ⟨.refl files, trivial⟩
  case h_2 =>
    split
    case h_1 hresolve => exact ⟨(resolveNewKey_settles hresolve).1, trivial⟩
    case h_2 key path _ hresolve =>
      obtain ⟨hext, hread⟩ := resolveNewKey_settles hresolve
      split
      case h_1 => exact ⟨hext, trivial⟩
      case h_2 => exact ⟨hext, path, hread key path rfl⟩

theorem readDocument_kept {files : Files} {phase : Phase P} (h : phase.Kept D files)
    {answer : Result (DidDocument P)} {now : ℕ}
    (hplan : ∀ run path previous newDoc, readKeyFile path files = .ok run.newPrivateKeyHex →
      plan crates base58 debug run answer now = .ok (previous, newDoc) → D files newDoc) :
    (phase.readDocument crates base58 debug answer now).Kept D files := by
  cases phase with
  | settled run =>
    unfold Phase.readDocument
    dsimp only
    split
    case h_1 => trivial
    case h_2 previous newDoc hplanned =>
      obtain ⟨path, hread⟩ := h
      exact hplan run path previous newDoc hread hplanned
  | idle | planned | numbered | submitted | included | ended => exact h

theorem takeNonce_kept {files : Files} {phase : Phase P} (h : phase.Kept D files)
    (answer : Result ℕ) : (phase.takeNonce toJson answer).Kept D files := by
  cases phase with
  | planned run previous newDoc =>
    unfold Phase.takeNonce
    dsimp only
    split
    case h_1 => trivial
    case h_2 =>
      split
      case h_1 => trivial
      case h_2 =>
        split_ifs
        · trivial
        · exact h
  | idle | settled | numbered | submitted | included | ended => exact h

theorem submit_kept {files : Files} {phase : Phase P} (h : phase.Kept D files)
    (delivered : Bool) (answer : Result String) :
    (phase.submit crates toJson delivered answer).1.Kept D files ∧
      ∀ tx ∈ (phase.submit crates toJson delivered answer).2, D files tx.didDocument := by
  cases phase with
  | numbered run previous newDoc nonce =>
    unfold Phase.submit
    dsimp only
    split
    case h_1 => exact ⟨trivial, nofun⟩
    case h_2 tx htx =>
      refine ⟨by cases answer <;> trivial, fun sent hsent => ?_⟩
      split_ifs at hsent with hdelivered
      · obtain rfl := List.mem_singleton.mp hsent
        rw [updateDidTransaction_document htx]
        exact h
      · cases hsent
  | idle | settled | planned | submitted | included | ended => exact ⟨h, nofun⟩

theorem poll_kept {files : Files} {phase : Phase P} (h : phase.Kept D files)
    (answer : Result (Option TxOutcome)) : (phase.poll answer).Kept D files := by
  cases phase with
  | submitted run previous txHash =>
    unfold Phase.poll
    dsimp only
    split
    case h_1 | h_2 => trivial
    case h_3 => split_ifs <;> trivial
  | idle | settled | planned | numbered | included | ended => exact h

theorem confirm_kept {files : Files} {phase : Phase P} (h : phase.Kept D files)
    (answer : Result (DidDocument P)) : (phase.confirm crates base58 debug answer).Kept D files := by
  cases phase with
  | included run previous => trivial
  | idle | settled | planned | numbered | submitted | ended => exact h

variable (D) in
/-- `D` holds of all that may yet be committed. -/
structure Backed (w : World P) : Prop where
  broadcasts : ∀ tx ∈ w.broadcasts, D w.files tx.didDocument
  runs : ∀ pid, (w.runs pid).Kept D w.files

variable {w : World P}

theorem World.Quiet.backed (h : w.Quiet) : Backed D w where
  broadcasts := by
    rw [h.broadcasts]
    nofun
  runs pid := by
    rw [h.runs pid]
    trivial

theorem moved_runs (pid : ℕ) (phase : Phase P) :
    (w.moved pid phase).runs = Function.update w.runs pid phase := rfl

theorem Backed.moved (h : Backed D w) (pid : ℕ) {phase : Phase P} (hphase : phase.Kept D w.files) :
    Backed D (w.moved pid phase) where
  broadcasts := h.broadcasts
  runs other := by
    by_cases hother : other = pid
    · rw [hother, moved_runs, Function.update_self]
      exact hphase
    · rw [moved_runs, Function.update_of_ne hother]
      exact h.runs other

theorem Backed.onDisk (hD : Stays D) (h : Backed D w) {files : Files}
    (hext : Extends w.files files) : Backed D { w with files := files } where
  broadcasts tx htx := hD _ _ _ hext (h.broadcasts tx htx)
  runs pid := (h.runs pid).extends hD hext

theorem Backed.sent (h : Backed D w) {txs : List (UpdateDidTx P)}
    (htxs : ∀ tx ∈ txs, D w.files tx.didDocument) :
    Backed D { w with broadcasts := w.broadcasts ++ txs } where
  broadcasts tx htx := by
    rcases List.mem_append.mp htx with hbefore | hnew
    · exact h.broadcasts tx hbefore
    · exact htxs tx hnew
  runs := h.runs

/-- The chain as it was, or with the commit of a document that `D` holds of. -/
inductive Commits (D : Files → DidDocument P → Prop) (w w' : World P) : Prop
  | none (chain : w'.chain = w.chain) (held : w'.held = w.held)
  | one (doc : DidDocument P) (hdoc : D w.files doc)
      (chain : w'.chain = Function.update w.chain doc.id (some doc)) (held : w'.held = w.held ++ [doc])

/-- **What a step does.** Files stay, what may be committed is still backed if
a replacement planned now is, and at most one backed document is committed. -/
theorem Backed.step (hD : Stays D) (toJson : DidDocument P → Except String String)
    (h : Backed D w) (action : Action P)
    (hplan : ∀ pid answer now, action = .readDocument pid answer now →
      ∀ run path previous newDoc, readKeyFile path w.files = .ok run.newPrivateKeyHex →
        plan crates base58 debug run answer now = .ok (previous, newDoc) → D w.files newDoc) :
    Extends w.files (w.step crates base58 debug toJson action).files ∧
      Backed D (w.step crates base58 debug toJson action) ∧
      Commits D w (w.step crates base58 debug toJson action) := by
  cases action with
  | «begin» pid args disk seed =>
    simp only [World.step]
    split
    case h_1 =>
      obtain ⟨hext, hphase⟩ := begin_kept args disk seed w.files
      exact ⟨hext, (h.onDisk hD hext).moved pid hphase, .none rfl rfl⟩
    case h_2 => exact ⟨.refl _, h, .none rfl rfl⟩
  | readDocument pid answer now =>
    have hphase := readDocument_kept (h.runs pid) (hplan pid answer now rfl)
    exact ⟨.refl _, h.moved pid hphase, .none rfl rfl⟩
  | takeNonce pid answer =>
    exact ⟨.refl _, h.moved pid (takeNonce_kept (h.runs pid) answer), .none rfl rfl⟩
  | submit pid delivered answer =>
    obtain ⟨hphase, hsent⟩ := submit_kept (h.runs pid) delivered answer
    exact ⟨.refl _, (h.moved pid hphase).sent hsent, .none rfl rfl⟩
  | poll pid answer => exact ⟨.refl _, h.moved pid (poll_kept (h.runs pid) answer), .none rfl rfl⟩
  | confirm pid answer =>
    exact ⟨.refl _, h.moved pid (confirm_kept (h.runs pid) answer), .none rfl rfl⟩
  | kill pid => exact ⟨.refl _, h.moved pid trivial, .none rfl rfl⟩
  | commit place =>
    simp only [World.step]
    split
    case h_1 tx htx =>
      have hdoc := h.broadcasts tx (List.mem_of_getElem? htx)
      exact ⟨.refl _, ⟨h.broadcasts, h.runs⟩, .one tx.didDocument hdoc rfl rfl⟩
    case h_2 => exact ⟨.refl _, h, .none rfl rfl⟩

end Steps

/-! ### No run bricks a DID -/

section Safety

variable {P : Type} {crates : Signatures} {base58 : String → Option Bytes}
  {debug : String → String} {toJson : DidDocument P → Except String String}

variable (crates base58) in
/-- A key file's key signs as the document's DID. -/
def Controlled (files : Files) (doc : DidDocument P) : Prop :=
  ∃ path key id, readKeyFile path files = .ok key ∧ Controls crates base58 doc key id

theorem Controlled.extends {files files' : Files} {doc : DidDocument P} (hext : Extends files files')
    (h : Controlled crates base58 files doc) : Controlled crates base58 files' doc := by
  obtain ⟨path, key, id, hread, hcontrols⟩ := h
  exact ⟨path, key, id, readKeyFile_extends hext hread, hcontrols⟩

theorem controlled_stays : Stays (Controlled (P := P) crates base58) :=
  fun _ _ _ hext h => h.extends hext

/-- Of a replacement, what the gate passes is controlled: its one entry has
the verifier's type. -/
theorem rotatedDocument_controls (hlawful : crates.Lawful) {current : DidDocument P}
    {newKeyId newPublicKeyHex key id : String} {updated : ℕ}
    (h : assertKeyControlsDocument crates base58 debug
      (rotatedDocument current newKeyId newPublicKeyHex updated) key = .ok id) :
    Controls crates base58 (rotatedDocument current newKeyId newPublicKeyHex updated) key id := by
  refine controls_of_passed hlawful h fun pk hentry => ?_
  obtain ⟨hmem, -⟩ := entry_id hentry
  rw [rotatedDocument, List.mem_singleton] at hmem
  rw [hmem]

/-- What a run plans is controlled by its new key. -/
theorem plan_controlled (hlawful : crates.Lawful) {run : Settled} {answer : Result (DidDocument P)}
    {now : ℕ} {previous newDoc : DidDocument P} {path : String} {files : Files}
    (hread : readKeyFile path files = .ok run.newPrivateKeyHex)
    (h : plan crates base58 debug run answer now = .ok (previous, newDoc)) :
    Controlled crates base58 files newDoc := by
  obtain ⟨-, -, -, rfl, id, hgate⟩ := plan_eq_ok.mp h
  exact ⟨path, run.newPrivateKeyHex, id, hread, rotatedDocument_controls hlawful hgate⟩

variable (crates base58) in
/-- The files of the start are kept, and the DID's document is controlled by
one of the files, as is all that may yet be committed. -/
structure NotBricked (start : Files) (did : String) (w : World P) : Prop where
  kept : Extends start w.files
  backed : Backed (Controlled crates base58) w
  controlled : ∃ doc, w.chain did = some doc ∧ Controlled crates base58 w.files doc

theorem NotBricked.step (hlawful : crates.Lawful) {start : Files} {did : String} (w : World P)
    (action : Action P) (h : NotBricked crates base58 start did w) :
    NotBricked crates base58 start did (w.step crates base58 debug toJson action) := by
  obtain ⟨hext, hbacked, hcommits⟩ := h.backed.step controlled_stays toJson action
    fun pid answer now _ run path previous newDoc hread hplan =>
      plan_controlled hlawful hread hplan
  refine ⟨h.kept.trans hext, hbacked, ?_⟩
  obtain ⟨held, hheld, hcontrolled⟩ := h.controlled
  cases hcommits with
  | none chain =>
    rw [chain]
    exact ⟨held, hheld, hcontrolled.extends hext⟩
  | one doc hdoc chain =>
    rw [chain]
    by_cases hdid : did = doc.id
    · exact ⟨doc, by rw [hdid, Function.update_self], hdoc.extends hext⟩
    · exact ⟨held, by rw [Function.update_of_ne hdid, hheld], hcontrolled.extends hext⟩

/-- **The tool never bricks a DID.** From a document that the key in a file
controls, whatever any number of runs do beside each other, whatever disks
and servers answer, wherever a run is killed and whichever of the broadcast
transactions the chain commits, the key in some file controls the DID's
document, and the files there were are as they were. -/
theorem never_bricked (debug : String → String) (toJson : DidDocument P → Except String String)
    (hlawful : crates.Lawful) {w : World P} (hquiet : w.Quiet) {did : String} {doc : DidDocument P}
    (hchain : w.chain did = some doc) (hcontrolled : Controlled crates base58 w.files doc)
    (actions : List (Action P)) :
    Extends w.files (Runs.run (World.step crates base58 debug toJson) w actions).files ∧
      ∃ doc, (Runs.run (World.step crates base58 debug toJson) w actions).chain did = some doc ∧
        Controlled crates base58
          (Runs.run (World.step crates base58 debug toJson) w actions).files doc := by
  have hstart : NotBricked crates base58 w.files did w :=
    ⟨.refl _, hquiet.backed, doc, hchain, hcontrolled⟩
  have hend : NotBricked crates base58 w.files did
      (Runs.run (World.step crates base58 debug toJson) w actions) :=
    Runs.run_keeps (NotBricked.step hlawful) hstart actions
  exact ⟨hend.kept, hend.controlled⟩

/-! ### What a rotation carries across -/

/-- A rotation of a document of the DID among these. -/
def RotatedFrom (docs : List (DidDocument P)) (did : String) (doc : DidDocument P) : Prop :=
  ∃ source ∈ docs, source.id = did ∧ ∃ newKeyId newPublicKeyHex updated,
    doc = rotatedDocument source newKeyId newPublicKeyHex updated

/-- A rotation of a rotation is one. -/
theorem RotatedFrom.rotated {docs : List (DidDocument P)} {did : String} {doc : DidDocument P}
    (h : RotatedFrom docs did doc) (newKeyId newPublicKeyHex : String) (updated : ℕ) :
    RotatedFrom docs did (rotatedDocument doc newKeyId newPublicKeyHex updated) := by
  obtain ⟨source, hmem, hid, _, _, _, rfl⟩ := h
  exact ⟨source, hmem, hid, newKeyId, newPublicKeyHex, updated, rfl⟩

/-- The id, the services and the creation are the rotated document's. -/
theorem RotatedFrom.keeps {docs : List (DidDocument P)} {did : String} {doc : DidDocument P}
    (h : RotatedFrom docs did doc) : ∃ source ∈ docs, source.id = did ∧ doc.id = did ∧
      doc.service = source.service ∧ doc.created = source.created := by
  obtain ⟨source, hmem, hid, _, _, _, rfl⟩ := h
  exact ⟨source, hmem, hid, hid, rfl, rfl⟩

/-- What the APIs answer for a document is one the chain has held. -/
def Action.Honest (w : World P) : Action P → Prop
  | .readDocument _ answer _ => ∀ doc, answer = .ok doc → doc ∈ w.held
  | _ => True

/-- Of a DID, the chain has held the documents of the start and rotations of
them, only rotations may be committed, and its document is the one of the
start or a rotation. -/
structure Carries (docs : List (DidDocument P)) (doc₀ : DidDocument P) (w : World P) : Prop where
  backed : Backed (fun _ doc => doc.id = doc₀.id → RotatedFrom docs doc₀.id doc) w
  held : ∀ doc ∈ w.held, doc.id = doc₀.id → doc ∈ docs ∨ RotatedFrom docs doc₀.id doc
  chain : ∃ doc, w.chain doc₀.id = some doc ∧ (doc = doc₀ ∨ RotatedFrom docs doc₀.id doc)

theorem Carries.step {docs : List (DidDocument P)} {doc₀ : DidDocument P} (w : World P)
    (action : Action P) (h : Carries docs doc₀ w) (hhonest : action.Honest w) :
    Carries docs doc₀ (w.step crates base58 debug toJson action) := by
  have hplan : ∀ pid answer now, action = .readDocument pid answer now →
      ∀ run path previous newDoc, readKeyFile path w.files = .ok run.newPrivateKeyHex →
        plan crates base58 debug run answer now = .ok (previous, newDoc) →
        newDoc.id = doc₀.id → RotatedFrom docs doc₀.id newDoc := by
    rintro pid answer now rfl run path previous newDoc - hplanned hid
    obtain ⟨hanswer, -, -, rfl, -⟩ := plan_eq_ok.mp hplanned
    rcases h.held previous (hhonest previous hanswer) hid with hstart | hrotated
    · exact ⟨previous, hstart, hid, _, _, _, rfl⟩
    · exact hrotated.rotated _ _ _
  obtain ⟨-, hbacked, hcommits⟩ := h.backed.step (fun _ _ _ _ h => h) toJson action hplan
  obtain ⟨current, hcurrent, hcarried⟩ := h.chain
  cases hcommits with
  | none chain held =>
    refine ⟨hbacked, ?_, current, ?_, hcarried⟩
    · rw [held]
      exact h.held
    · rw [chain, hcurrent]
  | one doc hdoc chain held =>
    refine ⟨hbacked, fun other hother hid => ?_, ?_⟩
    · rw [held, List.mem_append, List.mem_singleton] at hother
      rcases hother with hbefore | rfl
      · exact h.held other hbefore hid
      · exact .inr (hdoc hid)
    · rw [chain]
      by_cases hdid : doc₀.id = doc.id
      · exact ⟨doc, by rw [hdid, Function.update_self], .inr (hdoc hdid.symm)⟩
      · exact ⟨current, by rw [Function.update_of_ne hdid, hcurrent], hcarried⟩

/-- **A rotation carries a document across.** While the APIs answer with
documents the chain has held, however stale, runs beside each other leave the
DID with the document it had, or with a single rotation of one the chain had
held of it by then: its services and creation as they were, and one ed25519
key. What all the documents held by then agree on is never lost. -/
theorem rotations_carry (crates : Signatures) (base58 : String → Option Bytes)
    (debug : String → String) (toJson : DidDocument P → Except String String)
    {w : World P} (hquiet : w.Quiet) {doc₀ : DidDocument P} (hchain : w.chain doc₀.id = some doc₀)
    {actions : List (Action P)}
    (hhonest : Runs.EachGood (World.step crates base58 debug toJson) Action.Honest w actions) :
    ∃ doc, (Runs.run (World.step crates base58 debug toJson) w actions).chain doc₀.id = some doc ∧
      (doc = doc₀ ∨ RotatedFrom w.held doc₀.id doc) ∧ doc.id = doc₀.id ∧
      ((∀ source ∈ w.held, source.id = doc₀.id → source.service = doc₀.service) →
        doc.service = doc₀.service) ∧
      ((∀ source ∈ w.held, source.id = doc₀.id → source.created = doc₀.created) →
        doc.created = doc₀.created) := by
  have hstart : Carries w.held doc₀ w :=
    ⟨hquiet.backed, fun _ hmem _ => .inl hmem, doc₀, hchain, .inl rfl⟩
  obtain ⟨doc, hdoc, hcarried⟩ :=
    (Runs.invariant (fun w action h hgood => h.step w action hgood) hstart hhonest).chain
  refine ⟨doc, hdoc, hcarried, ?_⟩
  rcases hcarried with rfl | hrotated
  · exact ⟨rfl, fun _ => rfl, fun _ => rfl⟩
  · obtain ⟨source, hmem, hsource, hid, hservice, hcreated⟩ := hrotated.keeps
    exact ⟨hid, fun hagree => hservice.trans (hagree source hmem hsource),
      fun hagree => hcreated.trans (hagree source hmem hsource)⟩

/-! ### What a confirmed rotation means -/

theorem retiredOnChain_none {previous : DidDocument P} {newPublicKeyHex : String} :
    retiredOnChain base58 previous newPublicKeyHex [newPublicKeyHex] = none := by
  unfold retiredOnChain
  refine List.find?_eq_none.mpr fun oldKey _ h => ?_
  obtain ⟨hne, hmem⟩ := of_decide_eq_true h
  exact hne (List.mem_singleton.mp hmem)

/-- The last check finds no retired key: the one before it leaves none. -/
theorem confirmRotation_eq_ok {live previous : DidDocument P} {newKeyId newPublicKeyHex : String} :
    confirmRotation base58 debug live newKeyId newPublicKeyHex previous = .ok () ↔
      live.authentication = [newKeyId] ∧
        live.publicKeys.filterMap (ed25519PublicKeyHex base58) = [newPublicKeyHex] := by
  unfold confirmRotation bail
  simp only [Outcome.refuse_eq_ok, ne_eq, not_not]
  refine and_congr_right fun _ => ⟨fun h => h.1, fun h => ⟨h, ?_⟩⟩
  rw [h, retiredOnChain_none]

/-- A key that signs for a document with one key is that key. -/
theorem controls_only {live : DidDocument P} {newKey : B256} {key id : String}
    (honly : live.publicKeys.filterMap (ed25519PublicKeyHex base58) = [Hex.text newKey.val])
    (h : Controls crates base58 live key id) :
    ∃ seed, parseEd25519Seed key = .ok seed ∧ crates.verifyingKey seed = newKey := by
  obtain ⟨pk, seed, hentry, -, hseed, hbytes, -⟩ := h.signs
  obtain ⟨hmem, -⟩ := entry_id hentry
  rw [bytes_eq, Option.bind_eq_some_iff] at hbytes
  obtain ⟨publicKeyHex, hhex, hbytes⟩ := hbytes
  have hlisted : publicKeyHex ∈ live.publicKeys.filterMap (ed25519PublicKeyHex base58) :=
    List.mem_filterMap.mpr ⟨pk, hmem, hhex⟩
  rw [honly, List.mem_singleton] at hlisted
  rw [hlisted, keyBytes_text] at hbytes
  exact ⟨seed, hseed, Subtype.ext (Option.some.inj hbytes).symm⟩

/-! ### A rotation that nothing disturbs -/

/-- The steps of a run that every server serves, and whose transaction the
chain commits. -/
def undisturbed (pid : ℕ) (args : Args) (seed : B256) (current newDoc : DidDocument P)
    (now nonce place : ℕ) (txHash : String) (outcome : TxOutcome) : List (Action P) :=
  [.begin pid args .writes seed, .readDocument pid (.ok current) now, .takeNonce pid (.ok nonce),
    .submit pid true (.ok txHash), .commit place, .poll pid (.ok (some outcome)),
    .confirm pid (.ok newDoc)]

/-- What it takes: a current key that signs and is listed, a new file, and a
new key that is read as it stands. -/
structure Ready (w : World P) (args : Args) (seed newSeed : B256) (current : DidDocument P)
    (currentKeyHex newKeyHex newPath : String) : Prop where
  current_key : loadCurrentKey args w.files = .ok currentKeyHex
  signs : ∃ currentSeed, seedOf currentKeyHex = some currentSeed
  new_path : args.newKeyOut = some newPath ∧ args.newKeyIn = none
  absent : w.files newPath = none
  new_key : newKeyText args seed = .ok newKeyHex
  new_seed : seedOf newKeyHex = some newSeed
  named : current.id = args.did
  listed : args.currentKeyId ∈ current.authentication
  broadcasts : args.broadcast = true ∧ args.dryRun = false

section Undisturbed

variable {w : World P} {pid : ℕ} {args : Args} {seed newSeed : B256} {current : DidDocument P}
  {currentKeyHex newKeyHex newPath : String}

theorem begin_ready (h : Ready w args seed newSeed current currentKeyHex newKeyHex newPath) :
    begin (P := P) args .writes seed w.files =
      (.settled ⟨args, currentKeyHex, newKeyHex, newSeed, parseEd25519Seed_of_seedOf h.new_seed⟩,
        Function.update w.files newPath (some newKeyHex)) := by
  have hresolve : resolveNewKey args .writes seed w.files =
      (.ok (newKeyHex, newPath), Function.update w.files newPath (some newKeyHex)) := by
    unfold resolveNewKey writeNewKeyFile
    rw [h.new_path.1, h.new_path.2, h.new_key]
    simp only [h.absent]
  unfold begin
  rw [h.current_key, hresolve]
  dsimp only
  split
  case h_1 hparsed => cases hparsed.symm.trans (parseEd25519Seed_of_seedOf h.new_seed)
  case h_2 parsed hparsed =>
    obtain rfl := Except.ok.inj (hparsed.symm.trans (parseEd25519Seed_of_seedOf h.new_seed))
    rfl

theorem plan_ready (hlawful : crates.Lawful) (base58 : String → Option Bytes)
    (debug : String → String) (run : Settled) (hseed : seedOf run.newPrivateKeyHex = some run.newSeed)
    (hnamed : current.id = run.args.did) (hlisted : run.args.currentKeyId ∈ current.authentication)
    (now : ℕ) :
    plan crates base58 debug run (.ok current) now =
      .ok (current, rotatedDocument current run.args.newId (run.newPublicKeyHex crates) now) :=
  plan_eq_ok.mpr ⟨rfl, hnamed, hlisted, rfl, run.args.newId,
    rotatedDocument_passes hlawful hseed current run.args.newId now⟩

theorem updateDidTransaction_ready (crates : Signatures)
    {toJson : DidDocument P → Except String String} {newDoc : DidDocument P}
    (hjson : ∃ json, toJson newDoc = .ok json) {key : String} (hkey : ∃ seed, seedOf key = some seed)
    (keyId : String) (nonce : ℕ) :
    (∃ message, updateDidSigningMessage toJson newDoc nonce = .ok message) ∧
      ∃ tx, updateDidTransaction crates toJson newDoc key keyId .ed25519 nonce = .ok tx := by
  obtain ⟨json, hjson⟩ := hjson
  obtain ⟨seed, hseed⟩ := hkey
  let message := s!"UpdateDid\n{json}\n{nonce}"
  have hmessage : updateDidSigningMessage toJson newDoc nonce = .ok message :=
    Outcome.bind_eq_ok.mpr ⟨json, by rw [hjson, Outcome.mapError_ok], rfl⟩
  have hsign : signChallenge crates message key .ed25519 =
      .ok (Hex.text (crates.sign seed (Utf8.encode message)).val) :=
    signChallenge_eq_ok.mpr ⟨seed, hseed, rfl⟩
  refine ⟨⟨message, hmessage⟩,
    ⟨newDoc, (crates.sign seed (Utf8.encode message)).val, keyId, nonce⟩, ?_⟩
  refine Outcome.bind_eq_ok.mpr ⟨message, hmessage, ?_⟩
  refine Outcome.bind_eq_ok.mpr ⟨_, hsign, ?_⟩
  exact Outcome.bind_eq_ok.mpr ⟨_, decodeHex_text _, rfl⟩

/-! Each step of the run. -/

variable {run : Settled} {previous newDoc : DidDocument P} {now nonce : ℕ} {txHash : String}
  {tx : UpdateDidTx P}

theorem readDocument_planned {answer : Result (DidDocument P)}
    (h : plan crates base58 debug run answer now = .ok (previous, newDoc)) :
    Phase.readDocument crates base58 debug answer now (.settled run) =
      .planned run previous newDoc := by
  simp only [Phase.readDocument, h]

theorem takeNonce_numbered {message : String}
    (hmessage : updateDidSigningMessage toJson newDoc nonce = .ok message)
    (hsend : run.args.broadcast = true ∧ run.args.dryRun = false) :
    Phase.takeNonce toJson (.ok nonce) (.planned run previous newDoc) =
      .numbered run previous newDoc nonce := by
  have hdry : ¬(run.args.dryRun = true ∨ run.args.broadcast = false) := by
    rw [hsend.1, hsend.2]
    simp
  simp only [Phase.takeNonce, context, shown, Outcome.mapError_ok, hmessage, if_neg hdry]

theorem submit_submitted
    (h : updateDidTransaction crates toJson newDoc run.currentKeyHex run.args.currentKeyId .ed25519
      nonce = .ok tx) :
    Phase.submit crates toJson true (.ok txHash) (.numbered run previous newDoc nonce) =
      (.submitted run previous txHash, [tx]) := by
  simp only [Phase.submit, h, if_true]

theorem poll_included (height : ℤ) (log : String) :
    Phase.poll (.ok (some ⟨height, 0, log⟩)) (.submitted run previous txHash) =
      .included run previous := by
  simp only [Phase.poll, context, shown, Outcome.mapError_ok, ne_eq, not_true_eq_false, if_false]

theorem confirm_confirmed {live : DidDocument P} (hauth : live.authentication = [run.args.newId])
    (hkeys : live.publicKeys.filterMap (ed25519PublicKeyHex base58) = [run.newPublicKeyHex crates]) :
    Phase.confirm crates base58 debug (.ok live) (.included run previous) =
      .ended (.ok .confirmed) := by
  have hcheck : confirmRotation base58 debug live run.args.newId (run.newPublicKeyHex crates)
      previous = .ok () := confirmRotation_eq_ok.mpr ⟨hauth, hkeys⟩
  simp only [Phase.confirm, context, shown, Outcome.mapError_ok]
  exact congrArg Phase.ended (Outcome.bind_eq_ok.mpr ⟨live, rfl,
    Outcome.bind_eq_ok.mpr ⟨(), hcheck, rfl⟩⟩)

@[simp] theorem moved_self (pid : ℕ) (phase : Phase P) : (w.moved pid phase).runs pid = phase :=
  Function.update_self ..

@[simp] theorem moved_moved (pid : ℕ) (phase phase' : Phase P) :
    (w.moved pid phase).moved pid phase' = w.moved pid phase' := by
  simp only [World.moved, Function.update_idem]

/-- The world a run leaves that is served all the way. -/
theorem run_undisturbed (hidle : w.runs pid = .idle) {files : Files}
    (hbegin : begin (P := P) args .writes seed w.files = (.settled run, files))
    (hplan : plan crates base58 debug run (.ok current) now = .ok (current, newDoc))
    {message : String} (hmessage : updateDidSigningMessage toJson newDoc nonce = .ok message)
    (hsend : run.args.broadcast = true ∧ run.args.dryRun = false)
    (htx : updateDidTransaction crates toJson newDoc run.currentKeyHex run.args.currentKeyId .ed25519
      nonce = .ok tx)
    (hauth : newDoc.authentication = [run.args.newId])
    (hkeys : newDoc.publicKeys.filterMap (ed25519PublicKeyHex base58) =
      [run.newPublicKeyHex crates]) (txHash : String) (height : ℤ) (log : String) :
    Runs.run (World.step crates base58 debug toJson) w
        (undisturbed pid args seed current newDoc now nonce w.broadcasts.length txHash
          ⟨height, 0, log⟩) =
      World.moved { w.committed newDoc with files := files, broadcasts := w.broadcasts ++ [tx] } pid
        (.ended (.ok .confirmed)) := by
  let w₁ : World P := { w with files := files }
  let w₂ : World P := { w₁ with broadcasts := w.broadcasts ++ [tx] }
  have hsent : (w.broadcasts ++ [tx])[w.broadcasts.length]? = some tx := by simp
  have hdoc : tx.didDocument = newDoc := updateDidTransaction_document htx
  have h₁ : w.step crates base58 debug toJson (.begin pid args .writes seed) =
      w₁.moved pid (.settled run) := by
    simp only [World.step, hidle, hbegin]
    rfl
  have h₂ : (w₁.moved pid (.settled run)).step crates base58 debug toJson
      (.readDocument pid (.ok current) now) = w₁.moved pid (.planned run current newDoc) := by
    rw [World.step, moved_self, moved_moved, readDocument_planned hplan]
  have h₃ : (w₁.moved pid (.planned run current newDoc)).step crates base58 debug toJson
      (.takeNonce pid (.ok nonce)) = w₁.moved pid (.numbered run current newDoc nonce) := by
    rw [World.step, moved_self, moved_moved, takeNonce_numbered hmessage hsend]
  have h₄ : (w₁.moved pid (.numbered run current newDoc nonce)).step crates base58 debug toJson
      (.submit pid true (.ok txHash)) = w₂.moved pid (.submitted run current txHash) := by
    rw [World.step, moved_self, moved_moved, submit_submitted htx]
    rfl
  have h₅ : (w₂.moved pid (.submitted run current txHash)).step crates base58 debug toJson
      (.commit w.broadcasts.length) =
        (w₂.committed newDoc).moved pid (.submitted run current txHash) := by
    have hfound : (w₂.moved pid (.submitted run current txHash)).broadcasts[w.broadcasts.length]? =
        some tx := hsent
    simp only [World.step, hfound, hdoc]
    rfl
  have h₆ : ((w₂.committed newDoc).moved pid (.submitted run current txHash)).step crates base58 debug
      toJson (.poll pid (.ok (some ⟨height, 0, log⟩))) =
        (w₂.committed newDoc).moved pid (.included run current) := by
    rw [World.step, moved_self, moved_moved, poll_included]
  have h₇ : ((w₂.committed newDoc).moved pid (.included run current)).step crates base58 debug toJson
      (.confirm pid (.ok newDoc)) = (w₂.committed newDoc).moved pid (.ended (.ok .confirmed)) := by
    rw [World.step, moved_self, moved_moved, confirm_confirmed hauth hkeys]
  simp only [undisturbed, Runs.run_cons, Runs.run_nil]
  rw [h₁, h₂, h₃, h₄, h₅, h₆, h₇]
  rfl

/-- **An undisturbed rotation is confirmed**, beside any other runs: the DID's
document is the rotation, the new key's file controls it, and no other key
does. -/
theorem undisturbed_rotation_confirms (hlawful : crates.Lawful) (base58 : String → Option Bytes)
    (debug : String → String) (toJson : DidDocument P → Except String String)
    (hidle : w.runs pid = .idle)
    (h : Ready w args seed newSeed current currentKeyHex newKeyHex newPath) (now nonce : ℕ)
    (hjson : ∃ json, toJson (rotatedDocument current args.newId
      (Hex.text (crates.verifyingKey newSeed).val) now) = .ok json)
    (txHash log : String) (height : ℤ) :
    ∃ newDoc, newDoc = rotatedDocument current args.newId
        (Hex.text (crates.verifyingKey newSeed).val) now ∧
      ∃ after, after = Runs.run (World.step crates base58 debug toJson) w
          (undisturbed pid args seed current newDoc now nonce w.broadcasts.length txHash
            ⟨height, 0, log⟩) ∧
        after.runs pid = .ended (.ok .confirmed) ∧ after.chain args.did = some newDoc ∧
        readKeyFile newPath after.files = .ok newKeyHex ∧
        Controls crates base58 newDoc newKeyHex args.newId ∧
        ∀ key id, Controls crates base58 newDoc key id →
          ∃ seed, parseEd25519Seed key = .ok seed ∧
            crates.verifyingKey seed = crates.verifyingKey newSeed := by
  have hparsed := parseEd25519Seed_of_seedOf h.new_seed
  let run : Settled := ⟨args, currentKeyHex, newKeyHex, newSeed, hparsed⟩
  let newDoc := rotatedDocument current args.newId (run.newPublicKeyHex crates) now
  have hkeys : newDoc.publicKeys.filterMap (ed25519PublicKeyHex base58) =
      [run.newPublicKeyHex crates] := by
    simp only [newDoc, rotatedDocument, ed25519PublicKeyHex, Settled.newPublicKeyHex, trimStart0x_text,
      List.filterMap_cons, List.filterMap_nil]
  have hplan : plan crates base58 debug run (.ok current) now = .ok (current, newDoc) :=
    plan_ready hlawful base58 debug run h.new_seed h.named h.listed now
  obtain ⟨⟨message, hmessage⟩, tx, htx⟩ :=
    updateDidTransaction_ready crates hjson h.signs args.currentKeyId nonce
  have hrun := run_undisturbed hidle (begin_ready h) hplan hmessage h.broadcasts htx rfl hkeys txHash
    height log
  have hpassed : assertKeyControlsDocument crates base58 debug newDoc newKeyHex = .ok args.newId :=
    rotatedDocument_passes hlawful h.new_seed current args.newId now
  refine ⟨newDoc, rfl, _, hrun.symm, moved_self _ _, ?_, ?_, ?_, fun key id => controls_only hkeys⟩
  · show Function.update w.chain newDoc.id (some newDoc) args.did = some newDoc
    have hid : newDoc.id = args.did := h.named
    rw [hid, Function.update_self]
  · exact readKeyFile_written w.files (newKeyText_eq_ok h.new_key).1 hparsed
  · exact rotatedDocument_controls hlawful hpassed

end Undisturbed

end Safety

/-! ### A DID's key is rotated -/

namespace Sample

open DidRotation.Sample (crates seed lawful)

def keyId : String := "did:willow:a#key-1"

def current : DidDocument String :=
  rotatedDocument ⟨"did:willow:a", [], [], [], 1700000000, 1700000000, none⟩ keyId
    (Hex.text (crates.verifyingKey seed).val) 1700000000

/-- The seed of the new key. -/
def newSeed : B256 := ⟨List.replicate 32 7, List.length_replicate⟩

def world : World String where
  files path := if path = "a.key" then some (Hex.text seed.val) else none
  chain did := if did = "did:willow:a" then some current else none
  held := [current]
  broadcasts := []
  runs _ := .idle

def args : Args where
  api := "http://localhost:3031"
  did := "did:willow:a"
  currentKeyHex := none
  currentKeyFile := some "a.key"
  currentKeyId := keyId
  newKeyId := none
  newKeyOut := some "a.new.key"
  newKeyHex := none
  newKeyIn := none
  broadcast := true
  dryRun := false
  confirmAttempts := 30

def quote (text : String) : String := "\"" ++ text ++ "\""

def keyJson (pk : PublicKey) : String :=
  "\x7b\"id\":" ++ quote pk.id ++ ",\"type\":" ++ quote pk.keyType ++ ",\"controller\":" ++
    quote pk.controller ++ ",\"public_key_base58\":" ++ (pk.publicKeyBase58.map quote).getD "null" ++
    ",\"public_key_hex\":" ++ (pk.publicKeyHex.map quote).getD "null" ++ "\x7d"

/-- The JSON of a document with no services. -/
def toJson (doc : DidDocument String) : Except String String :=
  if doc.service = [] then
    .ok ("\x7b\"id\":" ++ quote doc.id ++ ",\"public_keys\":[" ++
      ",".intercalate (doc.publicKeys.map keyJson) ++ "],\"authentication\":[" ++
      ",".intercalate (doc.authentication.map quote) ++ "],\"service\":[],\"created\":" ++
      toString doc.created ++ ",\"updated\":" ++ toString doc.updated ++ ",\"proof\":" ++
      doc.proof.getD "null" ++ "\x7d")
  else .error "a service"

theorem toJson_eq (doc : DidDocument String) (h : doc.service = []) :
    ∃ json, toJson doc = .ok json :=
  ⟨_, if_pos h⟩

def newDoc : DidDocument String :=
  rotatedDocument current keyId (Hex.text (crates.verifyingKey newSeed).val) 1800000000

/-- The document with a service added. -/
def served : DidDocument String :=
  { current with
    service := [⟨"did:willow:a#api", "WillowApi", "http://localhost:3031"⟩]
    updated := 1750000000 }

def updated : World String :=
  { world with
    chain did := if did = "did:willow:a" then some served else none
    held := [current, served] }

/-- A run that is served all the way. -/
def rotation : List (Action String) :=
  undisturbed 0 args newSeed current newDoc 1800000000 7 0 "ABCD" ⟨5, 0, ""⟩

theorem quiet : world.Quiet := ⟨fun _ => rfl, rfl⟩

theorem readKeyFile_current : readKeyFile "a.key" world.files = .ok (Hex.text seed.val) :=
  readKeyFile_eq_ok.mpr ⟨Hex.text seed.val, seed, rfl, trimmed_text seed.val,
    parseEd25519Seed_of_seedOf (seedOf_text seed)⟩

theorem controlled : Controlled crates (fun _ => none) world.files current := by
  have hpassed : assertKeyControlsDocument crates (fun _ => none) quote current (Hex.text seed.val) =
      .ok keyId := rotatedDocument_passes lawful (seedOf_text seed) _ _ _
  exact ⟨"a.key", Hex.text seed.val, keyId, readKeyFile_current,
    rotatedDocument_controls lawful hpassed⟩

theorem ready : Ready world args newSeed newSeed current (Hex.text seed.val) (Hex.text newSeed.val)
    "a.new.key" where
  current_key := by
    have hread := readKeyFile_current
    simp only [loadCurrentKey, args, hread, context, Outcome.mapError_ok]
  signs := ⟨seed, seedOf_text seed⟩
  new_path := ⟨rfl, rfl⟩
  absent := rfl
  new_key := rfl
  new_seed := seedOf_text newSeed
  named := rfl
  listed := List.mem_singleton.mpr rfl
  broadcasts := ⟨rfl, rfl⟩

end Sample

theorem never_bricked_sample : ∃ doc,
    (Runs.run (World.step Sample.crates (fun _ => none) Sample.quote Sample.toJson) Sample.world
      Sample.rotation).chain "did:willow:a" = some doc ∧
    Controlled Sample.crates (fun _ => none)
      (Runs.run (World.step Sample.crates (fun _ => none) Sample.quote Sample.toJson) Sample.world
        Sample.rotation).files doc :=
  (never_bricked Sample.quote Sample.toJson Sample.lawful Sample.quiet rfl Sample.controlled
    Sample.rotation).2

/-- The API answers with the document as it was before a service was added. -/
theorem rotations_carry_sample : ∃ doc,
    (Runs.run (World.step Sample.crates (fun _ => none) Sample.quote Sample.toJson) Sample.updated
      Sample.rotation).chain "did:willow:a" = some doc ∧
    (doc = Sample.served ∨ RotatedFrom [Sample.current, Sample.served] "did:willow:a" doc) ∧
    doc.created = 1700000000 := by
  have hchain : Sample.updated.chain Sample.served.id = some Sample.served := rfl
  have hhonest : Runs.EachGood
      (World.step Sample.crates (fun _ => none) Sample.quote Sample.toJson) Action.Honest
      Sample.updated Sample.rotation := by
    unfold Sample.rotation undisturbed
    simp only [Runs.EachGood, Action.Honest, true_and, and_true, Except.ok.injEq]
    rintro doc rfl
    exact List.mem_cons_self
  have hid : Sample.served.id = "did:willow:a" := rfl
  have hheld : Sample.updated.held = [Sample.current, Sample.served] := rfl
  obtain ⟨doc, hdoc, hcarried, -, -, hcreated⟩ := rotations_carry Sample.crates (fun _ => none)
    Sample.quote Sample.toJson ⟨fun _ => rfl, rfl⟩ hchain hhonest
  rw [hid] at hdoc hcarried
  rw [hheld] at hcarried hcreated
  refine ⟨doc, hdoc, hcarried, hcreated fun source hsource _ => ?_⟩
  simp only [List.mem_cons, List.not_mem_nil, or_false] at hsource
  rcases hsource with rfl | rfl <;> rfl

theorem undisturbed_rotation_confirms_sample :
    ∃ newDoc after, after = Runs.run
        (World.step Sample.crates (fun _ => none) Sample.quote Sample.toJson) Sample.world
        (undisturbed 0 Sample.args Sample.newSeed Sample.current newDoc 1800000000 7 0 "ABCD"
          ⟨5, 0, ""⟩) ∧
      after.runs 0 = .ended (.ok .confirmed) ∧ after.chain "did:willow:a" = some newDoc := by
  have hidle : Sample.world.runs 0 = .idle := rfl
  have hjson := Sample.toJson_eq Sample.newDoc rfl
  obtain ⟨newDoc, -, after, hafter, hended, hchain, -⟩ := undisturbed_rotation_confirms Sample.lawful
    (fun _ => none) Sample.quote Sample.toJson hidle Sample.ready 1800000000 7 hjson "ABCD" "" 5
  exact ⟨newDoc, after, hafter, hended, hchain⟩

end RotateDid
end WillowSdk
