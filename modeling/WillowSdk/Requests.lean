/-
# Signed requests

What `make_request` (src/client.rs) puts on the wire, and how it signs it
(src/auth.rs). A read the API can gate by a DID's read rights is signed with
a one-time nonce over everything that is sent; every other request in the
older form, over its method, path and time. The url and http crates are
given (`Http`), as are SHA-256 and the signature crates.

A received request is checked over the message rebuilt from it
(`receivedMessage`), less the path of the base URL, which a proxy that is
mounted under it has taken off. Every request that is sent under an identity
is signed so (`requests_verify_as_received`), with a nonce exactly where the
route gates its data. What else the API checks (the time, and that a nonce is
new) is not in the SDK.

A clock before 1970 is left out.
-/
import WillowSdk.DidRotation
import WillowSdk.HttpBody
import WillowSdk.Lib.Joined
import WillowSdk.Lib.Outcome
import WillowSdk.Signing

namespace WillowSdk
namespace Requests

open Auth

/-- The errors of a request, those of the url and http crates beside the SDK's. -/
inductive Failed
  | willow (e : WillowError)
  | url (message : String)
  | permissionDenied (message : String)
  | transport (message : String)
deriving DecidableEq

/-- A URL as the url crate parses it: an absolute path, and no line break. -/
structure Url where
  path : String
  query : Option String
  rooted : path.toList.head? = some '/'
  path_clean : '?' ∉ path.toList ∧ '\n' ∉ path.toList
  query_clean : ∀ q ∈ query, '\n' ∉ q.toList

/-- What the request line carries. -/
def Url.target (url : Url) : String :=
  match url.query with
  | some query => url.path ++ "?" ++ query
  | none => url.path

/-- The url and http crates: `Url::join` onto the base URL, and whether a
method and a header's value parse. -/
structure Http where
  basePath : String
  join : String → Except String Url
  methodOk : String → Bool
  valueOk : String → Bool

/-- What is relied on of the http crate: a method is a token, and a header's
value holds no line break. -/
structure Http.Lawful (http : Http) : Prop where
  method : ∀ {method}, http.methodOk method = true →
    ∀ c ∈ method.toList, c ≠ '\n' ∧ c ≠ ':' ∧ c ≠ '{'
  value : ∀ {value}, http.valueOk value = true → '\n' ∉ value.toList

/-- `path.split('?').next()`. -/
def beforeQuery (path : String) : String := String.ofList (path.toList.takeWhile (· ≠ '?'))

/-- `trim_start_matches('/')`. -/
def trimSlashes (path : String) : String := String.ofList (path.toList.dropWhile (· = '/'))

/-- A path's segments, its query left out. -/
def segments (path : String) : List String :=
  ((trimSlashes (beforeQuery path)).toList.splitOn '/').map String.ofList

/-- The cap on the answer to a proof's request. -/
def proofLimit : ℕ := (2 <<< 20) + (64 <<< 10)

/-- The cap on the answer to an API request for `path`. -/
def answerLimit (path : String) : ℕ :=
  match segments path with
  | "proof" :: _ => proofLimit
  | "query" :: _ | "historical" :: _ | "sql" :: _ | "graphql" :: _ | "a2a" :: _ => HttpBody.large
  | ["subgroves"] | ["subgroves", "indexed"] | ["indexers"] | ["validators"] => HttpBody.large
  | ["key-grants", _] | ["did", _, "permissions"] => HttpBody.large
  | _ => HttpBody.small

/-- Whether a request is a read of subgrove data, the reads the API can gate
by a DID's read rights. -/
def carriesReadRights (method target : String) : Bool :=
  match method, segments target with
  | "GET", [route, _, _] => route = "data" || route = "proof"
  | "POST", [route, _] => route = "query" || route = "sql" || route = "graphql"
  | "POST", [route] => route = "a2a"
  | _, _ => false

/-! ### Signing -/

/-- Identity for per-request signing. -/
structure ClientIdentity where
  did : String
  privateKeyHex : String
  publicKeyId : String
  algorithm : SignatureAlgorithm

abbrev Headers := List (String × String)

abbrev B128 := { bytes : Bytes // bytes.length = 16 }

section Sign

variable (crates : Signatures) (sha256 : Bytes → Bytes)

/-- The message a nonce-signed request signs. -/
def signedRequestMessage (did publicKeyId method pathAndQuery timestamp nonce : String)
    (body : Bytes) : String :=
  s!"willow-request-v2\n{did}\n{publicKeyId}\n{method}\n{pathAndQuery}\n{timestamp}\n{nonce}\n{Hex.text (sha256 body)}"

/-- The message the older signature form signs. -/
def legacyRequestMessage (method path timestamp : String) : String :=
  s!"{method}:{beforeQuery path}:{timestamp}"

/-- A fresh nonce for a nonce-signed request. -/
def newRequestNonce (random : B128) : String := Hex.text random.val

/-- Signs a request message and encodes the signature as the server decodes
`X-Signature`. -/
def signRequestMessage (message privateKeyHex : String) (algorithm : SignatureAlgorithm) :
    Result String := do
  let signature ← signChallenge crates message privateKeyHex algorithm
  .ok (match algorithm with
    | .secp256k1 => s!"0x{signature}"
    | .ed25519 => signature)

/-- `sign_request_with_nonce_at`. -/
def signRequestWithNonceAt (identity : ClientIdentity) (method pathAndQuery : String) (body : Bytes)
    (timestamp nonce : String) : Result Headers := do
  let message := signedRequestMessage sha256 identity.did identity.publicKeyId method pathAndQuery
    timestamp nonce body
  let signature ← signRequestMessage crates message identity.privateKeyHex identity.algorithm
  .ok [("X-DID", identity.did), ("X-Public-Key-ID", identity.publicKeyId),
    ("X-Signature", signature), ("X-Timestamp", timestamp), ("X-Nonce", nonce)]

/-- The path and query the API receives for `url`: what the request line
carries, less any path the API base URL adds. -/
def apiTarget (basePath : String) (url : Url) : String :=
  let target := url.target.toList
  let base := Text.trimEndMatches basePath.toList '/'
  if base ≠ [] ∧ (base ++ ['/']).isPrefixOf target = true then
    String.ofList (target.drop base.length)
  else String.ofList target

/-- `WillowClient::sign_request_with_nonce`, when an identity is set. -/
def signRequestWithNonce (identity : Option ClientIdentity) (method target : String) (body : Bytes)
    (now : ℕ) (random : B128) : Result (Option Headers) :=
  match identity with
  | none => .ok none
  | some identity =>
    (signRequestWithNonceAt crates sha256 identity method target body (toString now)
      (newRequestNonce random)).map some

/-- `WillowClient::sign_request`: an identity that cannot sign is as none. -/
def signRequest (identity : Option ClientIdentity) (method path : String) (now : ℕ) :
    Option Headers := do
  let identity ← identity
  let message := legacyRequestMessage method path (toString now)
  let signature ← (signRequestMessage crates message identity.privateKeyHex
    identity.algorithm).toOption
  some [("X-DID", identity.did), ("X-Public-Key-ID", identity.publicKeyId),
    ("X-Signature", signature), ("X-Timestamp", toString now)]

/-- A request as it is sent. -/
structure Wire where
  method : String
  target : String
  headers : Headers
  body : Option Bytes

/-- The headers a request is signed with. -/
def requestHeaders (identity : Option ClientIdentity) (method target : String) (body : Option Bytes)
    (now : ℕ) (random : B128) : Result (Option Headers) :=
  if carriesReadRights method target = true then
    signRequestWithNonce crates sha256 identity method target (body.getD []) now random
  else .ok (signRequest crates identity method target now)

def contentType : String × String := ("content-type", "application/json")

/-- The body's bytes, as it serializes. -/
def bodyBytes : Option (Except String Bytes) → Except Failed (Option Bytes)
  | some (.ok bytes) => .ok (some bytes)
  | some (.error e) => .error (.willow (.serialization e))
  | none => .ok none

/-- The request `make_request` sends. -/
def prepare (http : Http) (identity : Option ClientIdentity) (method path : String)
    (body : Option (Except String Bytes)) (authenticated : Bool) (now : ℕ) (random : B128) :
    Except Failed Wire := do
  let url ← (http.join (trimSlashes path)).mapError Failed.url
  if http.methodOk method = false then
    .error (.willow (.config s!"Invalid HTTP method: {method}"))
  else
    let bytes ← bodyBytes body
    let target := apiTarget http.basePath url
    let headers ← (requestHeaders crates sha256 identity method target bytes now random).mapError
      Failed.willow
    if headers = none ∧ authenticated = true then .error (.willow .notAuthenticated)
    else
      let signed := headers.getD []
      -- a value that is no header's fails the builder, and nothing is sent
      if signed.all (fun h => http.valueOk h.2) = false then .error (.transport "builder error")
      else
        .ok ⟨method, url.target, signed ++ (if bytes.isSome then [contentType] else []), bytes⟩

end Sign

/-! ### The answer -/

/-- What `make_request` makes of an answer's text: `decode` is its type's
decoding, `apiErrorOf` the API's envelope of an error. -/
def readAnswer {T : Type} (decode : String → Result T) (apiErrorOf : String → Option (Option String))
    (status : ℕ) (text : String) : Except Failed T :=
  if 200 ≤ status ∧ status < 300 then (decode text).mapError .willow
  else
    match apiErrorOf text with
    | none => .error (.willow (.http status text))
    | some none => .error (.willow (.http status "Unknown error"))
    | some (some errorMsg) =>
      if status = 404 then .error (.willow (.notFound errorMsg))
      else if status = 401 then .error (.willow (.authentication errorMsg))
      else if status = 403 then .error (.permissionDenied errorMsg)
      else .error (.willow (.http status errorMsg))

/-- A single request: what was sent, if anything was, and what it came to. -/
structure Exchange (T : Type) where
  sent : Option Wire
  result : Except Failed T

/-- Make a single request, over what the transport answers it. -/
def makeRequest {T : Type} (crates : Signatures) (sha256 : Bytes → Bytes) (http : Http)
    (transport : Wire → Except String HttpBody.Response) (decode : String → Result T)
    (apiErrorOf : String → Option (Option String)) (identity : Option ClientIdentity)
    (method path : String) (body : Option (Except String Bytes)) (authenticated : Bool) (now : ℕ)
    (random : B128) : Exchange T :=
  match prepare crates sha256 http identity method path body authenticated now random with
  | .error e => ⟨none, .error e⟩
  | .ok wire =>
    ⟨some wire, do
      let response ← (transport wire).mapError Failed.transport
      let text ← (HttpBody.text response (answerLimit path)).mapError Failed.willow
      readAnswer decode apiErrorOf response.status text⟩

/-! ### A request as it is received -/

def Wire.header (wire : Wire) (name : String) : Option String :=
  (wire.headers.find? fun h => h.1 = name).map Prod.snd

/-- A header's value, or no text: the tests' `received_header`. -/
def Wire.headerText (wire : Wire) (name : String) : String := (wire.header name).getD ""

section Received

variable (crates : Signatures) (sha256 : Bytes → Bytes)

/-- The message a received request was to be signed over, rebuilt from it as
the tests do (`assert_nonce_signed`, and for the older form
`message_from_headers`). -/
def receivedMessage (wire : Wire) : String :=
  match wire.header "X-Nonce" with
  | some nonce =>
    signedRequestMessage sha256 (wire.headerText "X-DID") (wire.headerText "X-Public-Key-ID")
      wire.method wire.target (wire.headerText "X-Timestamp") nonce (wire.body.getD [])
  | none => legacyRequestMessage wire.method wire.target (wire.headerText "X-Timestamp")

/-- Its signature is accepted for that message. -/
def Verifies (publicKeyHex : String) (algorithm : SignatureAlgorithm) (wire : Wire) : Prop :=
  verifySignature crates (receivedMessage sha256 wire) (wire.headerText "X-Signature") publicKeyHex
    algorithm = .ok true

/-- A signature's text as the server decodes it: a secp256k1 one is marked as
hex. -/
def signatureText (algorithm : SignatureAlgorithm) (signature : Bytes) : String :=
  match algorithm with
  | .secp256k1 => "0x" ++ Hex.text signature
  | .ed25519 => Hex.text signature

/-- What a request carries that an identity sent at a time: its names, a
signature that verifies, and a nonce of its own where its route is a read
that the API can gate. -/
structure SignedBy (identity : ClientIdentity) (publicKeyHex : String) (now : ℕ) (random : B128)
    (wire : Wire) : Prop where
  did : wire.header "X-DID" = some identity.did
  publicKeyId : wire.header "X-Public-Key-ID" = some identity.publicKeyId
  timestamp : wire.header "X-Timestamp" = some (toString now)
  signature : ∃ bytes, wire.header "X-Signature" = some (signatureText identity.algorithm bytes)
  nonce : wire.header "X-Nonce" =
    if carriesReadRights wire.method wire.target = true then some (newRequestNonce random) else none
  verifies : Verifies crates sha256 publicKeyHex identity.algorithm wire

end Received

/-! ### What is sent is what was signed -/

/-- The target the API receives is the one that is signed: the base URL's
path is taken off by a proxy that is mounted under it. -/
theorem apiTarget_mounted {basePath received : String} {url : Url}
    (hsent : url.target.toList = Text.trimEndMatches basePath.toList '/' ++ received.toList)
    (hroot : received.toList.head? = some '/') : apiTarget basePath url = received := by
  unfold apiTarget
  dsimp only
  obtain ⟨rest, hrest⟩ := List.head?_eq_some_iff.mp hroot
  rw [hsent]
  by_cases hbase : Text.trimEndMatches basePath.toList '/' = []
  · rw [if_neg (fun h => h.1 hbase), hbase, List.nil_append, String.ofList_toList]
  · have hprefix : (Text.trimEndMatches basePath.toList '/' ++ ['/']).isPrefixOf
        (Text.trimEndMatches basePath.toList '/' ++ received.toList) = true := by
      rw [List.isPrefixOf_iff_prefix, hrest]
      exact ⟨rest, by simp⟩
    rw [if_pos ⟨hbase, hprefix⟩, List.drop_left, String.ofList_toList]

theorem Url.target_clean (url : Url) : '\n' ∉ url.target.toList := by
  obtain ⟨path, query, -, ⟨-, hpath⟩, hquery⟩ := url
  unfold Url.target
  cases query with
  | none => exact hpath
  | some query =>
    simp only [String.toList_append, List.mem_append, not_or]
    exact ⟨⟨hpath, by decide⟩, hquery query rfl⟩

theorem apiTarget_clean (basePath : String) (url : Url) :
    '\n' ∉ (apiTarget basePath url).toList := by
  have hclean := url.target_clean
  unfold apiTarget
  dsimp only
  split
  · rw [String.toList_ofList]
    exact fun h => hclean (List.mem_of_mem_drop h)
  · rw [String.toList_ofList]
    exact hclean

theorem trimStart0x_mark (text : String) : trimStart0x ("0x" ++ text) = trimStart0x text := by
  unfold trimStart0x
  rw [String.toList_append]
  rfl

section Sent

variable {crates : Signatures} {sha256 : Bytes → Bytes} {identity : ClientIdentity}
  {publicKeyHex : String}

/-- The key text is of the identity's own key: it verifies what it signs. -/
def OwnKey (crates : Signatures) (identity : ClientIdentity) (publicKeyHex : String) : Prop :=
  ∀ message, ∃ signature,
    signChallenge crates message identity.privateKeyHex identity.algorithm = .ok signature ∧
      verifySignature crates message signature publicKeyHex identity.algorithm = .ok true

/-- An ed25519 seed's own key is. -/
theorem ownKey_of_seed (hlawful : crates.Lawful) {seed : EthState.B256}
    (halgorithm : identity.algorithm = .ed25519) (hseed : seedOf identity.privateKeyHex = some seed)
    (hkey : keyBytes publicKeyHex = some (crates.verifyingKey seed).val) :
    OwnKey crates identity publicKeyHex := by
  intro message
  rw [halgorithm]
  exact ⟨_, signChallenge_eq_ok.mpr ⟨seed, hseed, rfl⟩,
    (verifySignature_own_iff hlawful seed publicKeyHex).mpr hkey⟩

theorem signChallenge_hex {message privateKeyHex signature : String}
    {algorithm : SignatureAlgorithm}
    (h : signChallenge crates message privateKeyHex algorithm = .ok signature) :
    ∃ bytes, signature = Hex.text bytes := by
  obtain ⟨privateKeyBytes, -, h⟩ := Outcome.bind_eq_ok.mp h
  cases algorithm with
  | ed25519 =>
    dsimp only at h
    split at h
    · exact ⟨_, (Except.ok.inj h).symm⟩
    · cases h
  | secp256k1 =>
    obtain ⟨sign, -, h⟩ := Outcome.bind_eq_ok.mp h
    exact ⟨_, (Except.ok.inj h).symm⟩

/-- The mark on a secp256k1 signature is trimmed again. -/
theorem signRequestMessage_verifies (hown : OwnKey crates identity publicKeyHex) (message : String) :
    ∃ bytes,
      signRequestMessage crates message identity.privateKeyHex identity.algorithm =
          .ok (signatureText identity.algorithm bytes) ∧
        verifySignature crates message (signatureText identity.algorithm bytes) publicKeyHex
          identity.algorithm = .ok true := by
  obtain ⟨signature, hsign, hverify⟩ := hown message
  obtain ⟨bytes, rfl⟩ := signChallenge_hex hsign
  refine ⟨bytes, ?_⟩
  unfold signRequestMessage
  rw [hsign]
  cases halgorithm : identity.algorithm with
  | ed25519 =>
    rw [halgorithm] at hverify
    exact ⟨rfl, hverify⟩
  | secp256k1 =>
    rw [halgorithm] at hverify
    refine ⟨rfl, ?_⟩
    rw [← hverify]
    unfold verifySignature signatureText
    rw [trimStart0x_mark]

variable {http : Http} {method path received : String} {body : Option (Except String Bytes)}
  {authenticated : Bool} {now : ℕ} {random : B128} {wire : Wire}

/-- A request that is sent: where, the headers it was signed with, and that
they are there where it is to be authenticated. -/
theorem prepare_eq_ok {identity : Option ClientIdentity} :
    prepare crates sha256 http identity method path body authenticated now random = .ok wire ↔
    ∃ url bytes headers, http.join (trimSlashes path) = .ok url ∧ http.methodOk method = true ∧
      bodyBytes body = .ok bytes ∧
      requestHeaders crates sha256 identity method (apiTarget http.basePath url) bytes now random =
        .ok headers ∧
      ¬(headers = none ∧ authenticated = true) ∧ (∀ h ∈ headers.getD [], http.valueOk h.2 = true) ∧
      wire = ⟨method, url.target,
        headers.getD [] ++ (if bytes.isSome then [contentType] else []), bytes⟩ := by
  unfold prepare
  simp only [Outcome.bind_eq_ok, Outcome.refuse_eq_ok, Outcome.mapError_eq_ok, Bool.not_eq_false,
    List.all_eq_true, Except.ok.injEq]
  refine ⟨fun h => ?_, fun h => ?_⟩
  · obtain ⟨url, hurl, hmethod, bytes, hbytes, headers, hheaders, hauthenticated, hvalues, rfl⟩ := h
    exact ⟨url, bytes, headers, hurl, hmethod, hbytes, hheaders, hauthenticated, hvalues, rfl⟩
  · obtain ⟨url, bytes, headers, hurl, hmethod, hbytes, hheaders, hauthenticated, hvalues, rfl⟩ := h
    exact ⟨url, hurl, hmethod, bytes, hbytes, headers, hheaders, hauthenticated, hvalues, rfl⟩

/-- The headers of a signature. -/
def signedHeaders (identity : ClientIdentity) (signature timestamp : String) (nonce : Option String) :
    Headers :=
  [("X-DID", identity.did), ("X-Public-Key-ID", identity.publicKeyId), ("X-Signature", signature),
    ("X-Timestamp", timestamp)] ++ (nonce.map fun n => ("X-Nonce", n)).toList

/-- They are read back, whatever the body adds. -/
theorem header_signedHeaders {method target signature timestamp : String} {nonce : Option String}
    {bytes : Option Bytes} {w : Wire}
    (hw : w = ⟨method, target, signedHeaders identity signature timestamp nonce ++
      (if bytes.isSome then [contentType] else []), bytes⟩) :
    w.header "X-DID" = some identity.did ∧
      w.header "X-Public-Key-ID" = some identity.publicKeyId ∧
      w.header "X-Signature" = some signature ∧ w.header "X-Timestamp" = some timestamp ∧
      w.header "X-Nonce" = nonce := by
  subst hw
  unfold Wire.header signedHeaders contentType
  cases nonce <;> cases bytes <;> simp

/-- The message an identity signs, with a nonce or in the older form. -/
def ClientIdentity.message (sha256 : Bytes → Bytes) (identity : ClientIdentity)
    (method target timestamp : String) (body : Bytes) : Option String → String
  | some nonce => signedRequestMessage sha256 identity.did identity.publicKeyId method target
      timestamp nonce body
  | none => legacyRequestMessage method target timestamp

/-- The signature a request is sent with. -/
theorem requestHeaders_eq_ok (hown : OwnKey crates identity publicKeyHex) {target : String}
    {bytes : Option Bytes} {headers : Option Headers}
    (h : requestHeaders crates sha256 (some identity) method target bytes now random = .ok headers) :
    ∃ nonce signature,
      nonce = (if carriesReadRights method target = true then some (newRequestNonce random)
        else none) ∧
      headers = some (signedHeaders identity (signatureText identity.algorithm signature)
        (toString now) nonce) ∧
      verifySignature crates
        (identity.message sha256 method target (toString now) (bytes.getD []) nonce)
        (signatureText identity.algorithm signature) publicKeyHex identity.algorithm = .ok true := by
  unfold requestHeaders at h
  by_cases hrights : carriesReadRights method target = true
  · rw [if_pos hrights] at h
    obtain ⟨signature, hsign, hverify⟩ := signRequestMessage_verifies hown
      (signedRequestMessage sha256 identity.did identity.publicKeyId method target (toString now)
        (newRequestNonce random) (bytes.getD []))
    simp only [signRequestWithNonce, signRequestWithNonceAt, hsign] at h
    exact ⟨some (newRequestNonce random), signature, (if_pos hrights).symm, (Except.ok.inj h).symm,
      hverify⟩
  · rw [if_neg hrights] at h
    obtain ⟨signature, hsign, hverify⟩ := signRequestMessage_verifies hown
      (legacyRequestMessage method target (toString now))
    simp only [signRequest, hsign, Except.toOption, Option.bind_eq_bind, Option.bind_some] at h
    exact ⟨none, signature, (if_neg hrights).symm, (Except.ok.inj h).symm, hverify⟩

/-- What is sent is what was prepared. -/
theorem makeRequest_sent {T : Type} {transport : Wire → Except String HttpBody.Response}
    {decode : String → Result T} {apiErrorOf : String → Option (Option String)}
    {identity : Option ClientIdentity} :
    (makeRequest crates sha256 http transport decode apiErrorOf identity method path body
      authenticated now random).sent = some wire ↔
    prepare crates sha256 http identity method path body authenticated now random = .ok wire := by
  unfold makeRequest
  cases prepare crates sha256 http identity method path body authenticated now random with
  | error e => simp
  | ok wire' => simp

/-- **What is sent under an identity verifies as it is received**, through a
proxy mounted under the base URL's path or without one: by its own headers,
over the method, the target and the body received. -/
theorem requests_verify_as_received {T : Type} (hown : OwnKey crates identity publicKeyHex)
    {transport : Wire → Except String HttpBody.Response} {decode : String → Result T}
    {apiErrorOf : String → Option (Option String)}
    (h : (makeRequest crates sha256 http transport decode apiErrorOf (some identity) method path body
      authenticated now random).sent = some wire)
    (hsent : wire.target.toList =
      Text.trimEndMatches http.basePath.toList '/' ++ received.toList)
    (hroot : received.toList.head? = some '/') :
    wire.method = method ∧ bodyBytes body = .ok wire.body ∧
      SignedBy crates sha256 identity publicKeyHex now random { wire with target := received } := by
  obtain ⟨url, bytes, headers, -, -, hbytes, hheaders, -, -, rfl⟩ :=
    prepare_eq_ok.mp (makeRequest_sent.mp h)
  rw [apiTarget_mounted hsent hroot] at hheaders
  obtain ⟨nonce, signature, hnonce, rfl, hverify⟩ := requestHeaders_eq_ok hown hheaders
  obtain ⟨hdid, hkeyId, hsignature, htimestamp, hnonces⟩ := header_signedHeaders
    (w := ⟨method, received, signedHeaders identity (signatureText identity.algorithm signature)
      (toString now) nonce ++ (if bytes.isSome then [contentType] else []), bytes⟩) rfl
  refine ⟨rfl, hbytes, hdid, hkeyId, htimestamp, ⟨signature, hsignature⟩, hnonces.trans hnonce, ?_⟩
  unfold Verifies receivedMessage Wire.headerText
  dsimp only [Option.getD_some]
  rw [hnonces, hdid, hkeyId, hsignature, htimestamp]
  simp only [Option.getD_some]
  rw [← hverify]
  cases nonce <;> rfl

end Sent

/-! ### A read of a document through a proxy -/

namespace Sample

open DidRotation.Sample (crates seed lawful)

def url : Url := ⟨"/willow/data/sg/k", some "x=1", by decide, by decide, by simp⟩

/-- A client whose base URL is `https://proxy.example/willow/`. -/
def http : Http where
  basePath := "/willow/"
  join _ := .ok url
  methodOk method := method = "GET" || method = "POST"
  valueOk value := value.toList.all fun c => c ≠ '\n'

def identity : ClientIdentity where
  did := "did:willow:a"
  privateKeyHex := Hex.text seed.val
  publicKeyId := "did:willow:a#key-1"
  algorithm := .ed25519

def publicKeyHex : String := Hex.text (crates.verifyingKey seed).val

def random : B128 := ⟨List.replicate 16 7, List.length_replicate⟩

theorem own : OwnKey crates identity publicKeyHex :=
  ownKey_of_seed lawful rfl (seedOf_eq_some.mpr (decodeHex_text seed.val)) (keyBytes_text _)

/-- SHA-256, of no bytes. -/
def sha256 (bytes : Bytes) : Bytes :=
  if bytes = [] then
    [0xE3, 0xB0, 0xC4, 0x42, 0x98, 0xFC, 0x1C, 0x14, 0x9A, 0xFB, 0xF4, 0xC8, 0x99, 0x6F, 0xB9, 0x24,
      0x27, 0xAE, 0x41, 0xE4, 0x64, 0x9B, 0x93, 0x4C, 0xA4, 0x95, 0x99, 0x1B, 0x78, 0x52, 0xB8, 0x55]
  else bytes

/-- The answer is lost. -/
def transport (_ : Wire) : Except String HttpBody.Response := .error "timed out"

/-- The reading of a document under the base URL. -/
def exchange : Exchange String :=
  makeRequest crates sha256 http transport .ok (fun _ => none) (some identity) "GET" "data/sg/k?x=1" none
    true 1700000000 random

theorem sent : ∃ wire, exchange.sent = some wire ∧ wire.target = url.target := by
  have hrights : carriesReadRights "GET" (apiTarget http.basePath url) = true := by decide
  have hsign : ∀ message, signRequestMessage crates message identity.privateKeyHex
      identity.algorithm = .ok (Hex.text (crates.sign seed (Utf8.encode message)).val) := by
    intro message
    have hseed := seedOf_eq_some.mpr (decodeHex_text seed.val)
    have hsigned : signChallenge crates message identity.privateKeyHex .ed25519 = .ok _ :=
      signChallenge_eq_ok.mpr ⟨seed, hseed, rfl⟩
    have halgorithm : identity.algorithm = .ed25519 := rfl
    unfold signRequestMessage
    rw [halgorithm, hsigned]
    rfl
  have hheaders : ∃ bytes, requestHeaders crates sha256 (some identity) "GET"
      (apiTarget http.basePath url) none 1700000000 random =
        .ok (some (signedHeaders identity (Hex.text bytes) (toString 1700000000)
          (some (newRequestNonce random)))) := by
    unfold requestHeaders
    rw [if_pos hrights]
    simp only [signRequestWithNonce, signRequestWithNonceAt, Option.getD_none, hsign]
    exact ⟨_, rfl⟩
  obtain ⟨bytes, hheaders⟩ := hheaders
  refine ⟨_, makeRequest_sent.mpr (prepare_eq_ok.mpr
    ⟨url, none, _, rfl, by decide, rfl, hheaders, by simp, ?_, rfl⟩), rfl⟩
  have hvalue : ∀ text : String, '\n' ∉ text.toList → http.valueOk text = true := by
    intro text h
    refine List.all_eq_true.mpr fun c hc => decide_eq_true ?_
    rintro rfl
    exact h hc
  simp only [Option.getD_some, signedHeaders, Option.map_some, Option.toList_some, List.cons_append,
    List.nil_append, List.forall_mem_cons]
  exact ⟨hvalue _ (by decide), hvalue _ (by decide), hvalue _ (Hex.not_mem_text (by decide) _),
    hvalue _ (Joined.not_mem_decimal (by decide) _), hvalue _ (Hex.not_mem_text (by decide) _),
    nofun⟩

end Sample

theorem requests_verify_as_received_sample : ∃ wire, Sample.exchange.sent = some wire ∧
    SignedBy DidRotation.Sample.crates Sample.sha256 Sample.identity Sample.publicKeyHex 1700000000
      Sample.random { wire with target := "/data/sg/k?x=1" } := by
  obtain ⟨wire, hwire, htarget⟩ := Sample.sent
  refine ⟨wire, hwire, ?_⟩
  have hsent : wire.target.toList =
      Text.trimEndMatches Sample.http.basePath.toList '/' ++ "/data/sg/k?x=1".toList := by
    rw [htarget]
    decide
  exact (requests_verify_as_received Sample.own hwire hsent rfl).2.2

end Requests
end WillowSdk
