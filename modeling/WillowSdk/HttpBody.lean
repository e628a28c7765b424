/-
# Answers read under a cap

`http_body::read` (src/http_body.rs): a body is read a piece at a time and
refused once it passes the cap of its route, before any of it is decoded, so
a body that is read is within the cap (`read_length_le`).

What the SDK calls of serde_json on it is `Json`: a JSON value is any type `V`
with these functions. Indexing a value by a name it lacks gives null, of which
every accessor is `none`, so a chain of indexes is a chain of `get`s.
-/
import WillowSdk.Lib.Outcome
import WillowSdk.Lib.Utf8
import WillowSdk.Errors

namespace WillowSdk

structure Json (V : Type) where
  /-- `Value::get` by a name. -/
  get : V → String → Option V
  /-- `Value::as_str`. -/
  asStr : V → Option String
  /-- `Value::as_u64`. -/
  asU64 : V → Option ℕ
  /-- `serde_json::from_slice`. -/
  fromSlice : Bytes → Option V
  /-- `json!({ "hex": text })`. -/
  hexObject : String → V

/-- The value at a chain of names. -/
def Json.path {V : Type} (json : Json V) (v : V) (names : List String) : Option V :=
  names.foldlM json.get v

namespace HttpBody

def small : ℕ := 4 <<< 20

def chunk : ℕ := 2 <<< 20

def large : ℕ := 64 <<< 20

/-- An answer: its status and how it is shown, the length it declares, and its
body as it arrives, each piece or the transport's error. -/
structure Response where
  status : ℕ
  statusText : String
  contentLength : Option ℕ
  pieces : List (Result Bytes)

def Response.isSuccess (resp : Response) : Bool := 200 ≤ resp.status && resp.status < 300

/-- The rest of a body, some of which is read. -/
def readPieces (limit : ℕ) (body : Bytes) : List (Result Bytes) → Result Bytes
  | [] => .ok body
  | piece :: pieces => do
    let piece ← piece
    if limit - body.length < piece.length then .error (.responseTooLarge limit)
    else readPieces limit (body ++ piece) pieces

def read (resp : Response) (limit : ℕ) : Result Bytes :=
  if resp.contentLength.any (limit < ·) = true then .error (.responseTooLarge limit)
  else readPieces limit [] resp.pieces

/-- A body as text. -/
def text (resp : Response) (limit : ℕ) : Result String := do
  let body ← read resp limit
  .ok (Utf8.lossy body)

/-- By the pieces: what is read stays within the cap. -/
theorem readPieces_length_le {limit : ℕ} {pieces : List (Result Bytes)} {read body : Bytes}
    (hread : read.length ≤ limit) (h : readPieces limit read pieces = .ok body) :
    body.length ≤ limit := by
  induction pieces generalizing read with
  | nil =>
    obtain rfl := Except.ok.inj h
    exact hread
  | cons piece pieces ih =>
    rw [readPieces, Outcome.bind_eq_ok] at h
    obtain ⟨piece, -, h⟩ := h
    obtain ⟨hfits, h⟩ := Outcome.refuse_eq_ok.mp h
    refine ih ?_ h
    rw [List.length_append]
    omega

theorem read_length_le {resp : Response} {limit : ℕ} {body : Bytes}
    (h : read resp limit = .ok body) : body.length ≤ limit := by
  have hnone : ([] : Bytes).length ≤ limit := Nat.zero_le limit
  exact readPieces_length_le hnone (Outcome.refuse_eq_ok.mp h).2

/-- An answer that has a body, whole: in any pieces, under the length it
declares if it declares one. -/
structure Response.Carries (resp : Response) (body : Bytes) : Prop where
  success : resp.isSuccess = true
  declared : ∀ length, resp.contentLength = some length → length = body.length
  pieces : ∃ parts : List Bytes, resp.pieces = parts.map .ok ∧ parts.flatten = body

/-- By the pieces. -/
theorem readPieces_parts {limit : ℕ} {parts : List Bytes} {read : Bytes}
    (h : read.length + parts.flatten.length ≤ limit) :
    readPieces limit read (parts.map .ok) = .ok (read ++ parts.flatten) := by
  induction parts generalizing read with
  | nil => rw [List.map_nil, readPieces, List.flatten_nil, List.append_nil]
  | cons part parts ih =>
    rw [List.flatten_cons, List.length_append] at h
    rw [List.map_cons, readPieces, Outcome.bind_eq_ok]
    refine ⟨part, rfl, ?_⟩
    have hfits : ¬ limit - read.length < part.length := by omega
    have hrest : (read ++ part).length + parts.flatten.length ≤ limit := by
      rw [List.length_append]
      omega
    rw [if_neg hfits, ih hrest, List.flatten_cons, List.append_assoc]

/-- A body within the cap is read. -/
theorem Response.Carries.read {resp : Response} {body : Bytes} (h : resp.Carries body) {limit : ℕ}
    (hlimit : body.length ≤ limit) : HttpBody.read resp limit = .ok body := by
  have hdeclared : ¬ resp.contentLength.any (limit < ·) = true := by
    cases hlength : resp.contentLength with
    | none => simp
    | some length =>
      rw [h.declared length hlength]
      simpa using hlimit
  obtain ⟨parts, hparts, rfl⟩ := h.pieces
  rw [HttpBody.read, if_neg hdeclared, hparts]
  exact readPieces_parts (by simpa using hlimit)

end HttpBody
end WillowSdk
