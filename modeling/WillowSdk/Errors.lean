/-
# The SDK's errors

`WillowError` (src/errors.rs), the variants the modelled code returns. Every
fallible function of the SDK returns a `Result`. `Checked` is the result of a
function that does machine arithmetic: a step that would overflow or
underflow is a `panic`, not an error the caller sees.
-/
import Mathlib.Algebra.Ring.Nat

namespace WillowSdk

/-- A byte string. -/
abbrev Bytes := List UInt8

/-- A signed transaction as it was sent: the signer's DID, the nonce its
signature covers, and the exact bytes broadcast. -/
structure SignedSubmission where
  did : String
  nonce : ℕ
  txBytes : Bytes
  txHash : String
deriving DecidableEq, Repr

/-- Main error type for Willow SDK. -/
inductive WillowError
  | network (message : String)
  | http (status : ℕ) (message : String)
  | authentication (message : String)
  | notAuthenticated
  | validation (message : String)
  | notFound (message : String)
  | serialization (message : String)
  | crypto (message : String)
  | proofVerificationFailed (message : String)
  | lightClient (message : String)
  | config (message : String)
  | unsupported (message : String)
  | nonceWindowFull (message : String)
  | proofHeightOutOfRange (message : String)
  | submissionUnknown (message : String) (submission : SignedSubmission)
  | responseTooLarge (limit : ℕ)
  | responseTooComplex (limit : ℕ)
  | notAdmitted (message : String)
  | custom (message : String)
deriving DecidableEq, Repr

/-- The text an error is shown as. -/
def WillowError.text : WillowError → String
  | .network m => s!"Network error: {m}"
  | .http status m => s!"HTTP error (status {status}): {m}"
  | .authentication m => s!"Authentication error: {m}"
  | .notAuthenticated => "Not authenticated. Please call set_identity() first"
  | .validation m => s!"Validation error: {m}"
  | .notFound m => s!"Resource not found: {m}"
  | .serialization m => s!"Serialization error: {m}"
  | .crypto m => s!"Cryptographic error: {m}"
  | .proofVerificationFailed m => s!"Proof verification failed: {m}"
  | .lightClient m => s!"Light client error: {m}"
  | .config m => s!"Configuration error: {m}"
  | .unsupported m => s!"Unsupported: {m}"
  | .nonceWindowFull m => s!"Nonce window full: {m}"
  | .proofHeightOutOfRange m => s!"Proof height out of range: {m}"
  | .submissionUnknown m submission =>
    s!"Transaction outcome unknown (nonce {submission.nonce} of {submission.did}): {m}"
  | .responseTooLarge limit =>
    s!"the answer is over the SDK's limit of {limit} bytes for its route"
  | .responseTooComplex limit =>
    s!"the answer holds more JSON values than the SDK decodes ({limit})"
  | .notAdmitted m => s!"Transaction not admitted: {m}"
  | .custom m => m

abbrev Result (α : Type) := Except WillowError α

/-- How a computation on machine integers ends short of a value. -/
inductive Exit
  | error (e : WillowError)
  | panic
deriving DecidableEq, Repr

abbrev Checked (α : Type) := Except Exit α

end WillowSdk
