/-
# Whether a transaction is in a block

`wait_for_tx_outcome` and `wait_for_transaction` (src/consensus.rs) ask an
endpoint for a transaction until an answer says that it is in a block. The
first takes an answer with a height for one that does, the second one with a
result, null or not. They agree exactly where some answer has a height if one
has a result (`pollers_agree_iff`).
-/
import WillowSdk.Files
import WillowSdk.JsonBudget
import WillowSdk.Lib.Text

namespace WillowSdk
namespace Consensus
namespace TxPolls

open Files (TxOutcome)
open HttpBody (Response)
open JsonBudget (checkJson)

/-! ### Answers -/

/-- The cap of CometBFT's `tx`. -/
def txCap : ℕ := 12 <<< 20

/-- JSON values, with what the pollers call of them besides. -/
structure TxJson (V : Type) extends Json V where
  /-- `Value::as_i64`. -/
  asI64 : V → Option ℤ
  /-- `serde_json::from_str`. -/
  fromStr : String → Option V

/-- What is decoded from bytes is text, and the same is decoded from the text. -/
def TxJson.ReadsText {V : Type} (json : TxJson V) : Prop :=
  ∀ body v, json.fromSlice body = some v →
    ∃ text, Utf8.encode text = body ∧ json.fromStr text = some v

/-- An answer, or the transport's failure. -/
abbrev Answer := Except String Response

section Read

variable {V : Type} (json : TxJson V)

/-- `http_body::json` of an answer. -/
def decoded (answer : Answer) : Option V := do
  let resp ← answer.toOption
  let body ← (HttpBody.read resp txCap).toOption
  (checkJson body .full).toOption
  json.fromSlice body

/-- `http_body::text` of an answer, then `decode_checked`. -/
def decodedText (answer : Answer) : Option V := do
  let resp ← answer.toOption
  let text ← (HttpBody.text resp txCap).toOption
  (checkJson (Utf8.encode text) .full).toOption
  json.fromStr text

/-- The height a JSON value tells, as a text or a number. -/
def heightOf (v : V) : Option ℤ :=
  ((json.asStr v).bind fun h => Text.parseI64 h.toList).or (json.asI64 v)

/-- Pull an outcome out of a `tx` response. -/
def parseTxOutcome (body : V) : Option TxOutcome := do
  let height ← (json.path body ["result", "height"]).bind (heightOf json)
  let code := ((json.path body ["result", "tx_result", "code"]).bind json.asU64).getD 0
  some
    { height := height
      code := code % 2 ^ 32
      log := ((json.path body ["result", "tx_result", "log"]).bind json.asStr).getD "" }

/-! ### The pollers -/

/-- A hex hash in base64. -/
def txHashToBase64 (base64 : Bytes → String) (txHash : String) : Result String := do
  let bare := (Text.stripPrefix txHash.toList "0x".toList).getD txHash.toList
  let bytes ← (Hex.decode (Utf8.encode (String.ofList bare))).mapError fun e =>
    .custom s!"Invalid tx hash hex: {e}"
  .ok (base64 bytes)

/-- What is taken of the first answer of which something is, of `count` from an
attempt on. -/
def firstTaken {α : Type} (take : Answer → Option α) (answers : ℕ → Answer) :
    (attempt count : ℕ) → Option α
  | _, 0 => none
  | attempt, count + 1 =>
    match take (answers attempt) with
    | some a => some a
    | none => firstTaken take answers (attempt + 1) count

def takeOutcome (answer : Answer) : Option TxOutcome :=
  (decoded json answer).bind (parseTxOutcome json)

def takeResult (answer : Answer) : Option Unit := do
  let body ← decodedText json answer
  let _ ← json.get body "result"
  some ()

section Poll

-- the answer to each attempt's request, which has the hash in base64
variable (base64 : Bytes → String) (send : (hash : String) → (attempt : ℕ) → Answer)
  (txHash : String) (maxAttempts : ℕ)

/-- Poll until the transaction is in a block. -/
def waitForTxOutcome : Result (Option TxOutcome) := do
  let hash ← txHashToBase64 base64 txHash
  .ok (firstTaken (takeOutcome json) (send hash) 0 maxAttempts)

/-- Wait for the transaction to be included in a block. -/
def waitForTransaction : Result Bool := do
  let hash ← txHashToBase64 base64 txHash
  .ok (firstTaken (takeResult json) (send hash) 0 maxAttempts).isSome

end Poll

/-! ### What is taken -/

/-- An answer of a block: JSON with a height under its result. -/
def InBlock (answer : Answer) : Prop :=
  ∃ body height, decoded json answer = some body ∧
    json.path body ["result", "height"] = some height ∧
      ((∃ text n, json.asStr height = some text ∧ Text.parseI64 text.toList = some n) ∨
        ∃ n, json.asI64 height = some n)

/-- JSON with a result, null or not. -/
def HasResult (answer : Answer) : Prop :=
  ∃ body result, decodedText json answer = some body ∧ json.get body "result" = some result

variable {json}

/-- Something is taken when there is an answer of which it is. -/
theorem firstTaken_isSome {α : Type} {take : Answer → Option α} {answers : ℕ → Answer}
    {attempt count : ℕ} :
    (firstTaken take answers attempt count).isSome ↔
      ∃ i < count, (take (answers (attempt + i))).isSome := by
  induction count generalizing attempt with
  | zero => exact iff_of_false (by simp [firstTaken]) (by simp)
  | succ count ih =>
    unfold firstTaken
    cases htake : take (answers attempt) with
    | some a => exact iff_of_true rfl ⟨0, Nat.succ_pos count, by simp [htake]⟩
    | none =>
      show (firstTaken take answers (attempt + 1) count).isSome ↔ _
      rw [ih]
      refine ⟨fun h => ?_, fun h => ?_⟩
      · obtain ⟨i, hi, hsome⟩ := h
        exact ⟨i + 1, Nat.succ_lt_succ hi, by rwa [← Nat.add_assoc, Nat.add_right_comm]⟩
      · obtain ⟨i, hi, hsome⟩ := h
        cases i with
        | zero =>
          rw [Nat.add_zero, htake] at hsome
          cases hsome
        | succ i =>
          refine ⟨i, Nat.lt_of_succ_lt_succ hi, ?_⟩
          rwa [Nat.add_right_comm, Nat.add_assoc]

theorem heightOf_isSome {v : V} :
    (heightOf json v).isSome ↔
      (∃ text n, json.asStr v = some text ∧ Text.parseI64 text.toList = some n) ∨
        ∃ n, json.asI64 v = some n := by
  unfold heightOf
  rw [Option.isSome_or, Bool.or_eq_true, Option.isSome_iff_exists, Option.isSome_iff_exists]
  simp only [Option.bind_eq_some_iff]
  refine or_congr_left ⟨fun h => ?_, fun h => ?_⟩
  · obtain ⟨n, text, htext, hn⟩ := h
    exact ⟨text, n, htext, hn⟩
  · obtain ⟨text, n, htext, hn⟩ := h
    exact ⟨n, text, htext, hn⟩

/-- An outcome is taken of an answer of a block. -/
theorem takeOutcome_isSome {answer : Answer} :
    (takeOutcome json answer).isSome ↔ InBlock json answer := by
  unfold takeOutcome parseTxOutcome InBlock
  simp only [← heightOf_isSome, Option.isSome_iff_exists, Option.bind_eq_some_iff,
    Option.bind_eq_bind, Option.some.injEq]
  refine ⟨fun h => ?_, fun h => ?_⟩
  · obtain ⟨_, body, hbody, n, ⟨height, hheight, hn⟩, -⟩ := h
    exact ⟨body, height, hbody, hheight, n, hn⟩
  · obtain ⟨body, height, hbody, hheight, n, hn⟩ := h
    exact ⟨_, body, hbody, n, ⟨height, hheight, hn⟩, rfl⟩

theorem takeResult_isSome {answer : Answer} :
    (takeResult json answer).isSome ↔ HasResult json answer := by
  unfold takeResult HasResult
  simp only [Option.isSome_iff_exists, Option.bind_eq_some_iff, Option.bind_eq_bind]
  refine ⟨fun h => ?_, fun h => ?_⟩
  · obtain ⟨_, body, hbody, result, hresult, -⟩ := h
    exact ⟨body, result, hbody, hresult⟩
  · obtain ⟨body, result, hbody, hresult⟩ := h
    exact ⟨(), body, hbody, result, hresult, trivial⟩

theorem someResult_iff {answers : ℕ → Answer} {maxAttempts : ℕ} :
    (firstTaken (takeResult json) answers 0 maxAttempts).isSome = true ↔
      ∃ attempt < maxAttempts, HasResult json (answers attempt) := by
  rw [firstTaken_isSome]
  simp only [Nat.zero_add, takeResult_isSome]

theorem someOutcome_iff {answers : ℕ → Answer} {maxAttempts : ℕ} :
    (firstTaken (takeOutcome json) answers 0 maxAttempts).isSome = true ↔
      ∃ attempt < maxAttempts, InBlock json (answers attempt) := by
  rw [firstTaken_isSome]
  simp only [Nat.zero_add, takeOutcome_isSome]

/-- What is decoded of an answer is decoded of its text. -/
theorem decodedText_of_decoded (hjson : json.ReadsText) {answer : Answer} {body : V}
    (h : decoded json answer = some body) : decodedText json answer = some body := by
  unfold decoded at h
  simp only [Option.bind_eq_some_iff, Option.bind_eq_bind] at h
  obtain ⟨resp, hresp, bytes, hread, _, hcheck, hslice⟩ := h
  obtain ⟨text, rfl, hstr⟩ := hjson bytes body hslice
  have htext : (HttpBody.text resp txCap).toOption = some text := by
    unfold HttpBody.text
    cases hok : HttpBody.read resp txCap with
    | error e =>
      rw [hok] at hread
      cases hread
    | ok read =>
      rw [hok] at hread
      obtain rfl : read = Utf8.encode text := Option.some.inj hread
      exact congrArg some (Utf8.lossy_encode text)
  unfold decodedText
  simp only [Option.bind_eq_some_iff, Option.bind_eq_bind]
  exact ⟨resp, hresp, text, htext, _, hcheck, hstr⟩

/-- An answer of a block has a result. -/
theorem InBlock.hasResult (hjson : json.ReadsText) {answer : Answer} (h : InBlock json answer) :
    HasResult json answer := by
  obtain ⟨body, height, hbody, hpath, -⟩ := h
  have hpath' : (json.get body "result").bind (fun result =>
      (json.get result "height").bind fun v => some v) = some height := hpath
  obtain ⟨result, hresult, -⟩ := Option.bind_eq_some_iff.mp hpath'
  exact ⟨body, result, decodedText_of_decoded hjson hbody, hresult⟩

end Read

section Agree

variable {V : Type} (json : TxJson V) (base64 : Bytes → String)
  (send : (hash : String) → (attempt : ℕ) → Answer) (txHash : String) (maxAttempts : ℕ)

/-- The pollers report the same transactions as in a block, and fail for the same. -/
structure PollersAgree : Prop where
  included : waitForTransaction json base64 send txHash maxAttempts = .ok true ↔
    ∃ outcome, waitForTxOutcome json base64 send txHash maxAttempts = .ok (some outcome)
  failed : (∃ e, waitForTransaction json base64 send txHash maxAttempts = .error e) ↔
    ∃ e, waitForTxOutcome json base64 send txHash maxAttempts = .error e
  /-- A transaction that no answer has in a block is not reported. -/
  pending : ∀ hash, txHashToBase64 base64 txHash = .ok hash →
    (∀ attempt < maxAttempts, ¬ InBlock json (send hash attempt)) →
      waitForTransaction json base64 send txHash maxAttempts = .ok false ∧
        waitForTxOutcome json base64 send txHash maxAttempts = .ok none

variable {json base64 send txHash maxAttempts} {hash : String}

/-- Both fail before the first request, for a hash that can't be read. -/
theorem both_fail {e : WillowError} (h : txHashToBase64 base64 txHash = .error e) :
    waitForTransaction json base64 send txHash maxAttempts = .error e ∧
      waitForTxOutcome json base64 send txHash maxAttempts = .error e := by
  unfold waitForTransaction waitForTxOutcome
  rw [h]
  exact ⟨rfl, rfl⟩

theorem waitForTransaction_eq (h : txHashToBase64 base64 txHash = .ok hash) :
    waitForTransaction json base64 send txHash maxAttempts =
      .ok (firstTaken (takeResult json) (send hash) 0 maxAttempts).isSome := by
  unfold waitForTransaction
  rw [h]
  rfl

theorem waitForTxOutcome_eq (h : txHashToBase64 base64 txHash = .ok hash) :
    waitForTxOutcome json base64 send txHash maxAttempts =
      .ok (firstTaken (takeOutcome json) (send hash) 0 maxAttempts) := by
  unfold waitForTxOutcome
  rw [h]
  rfl

variable (json base64 send txHash maxAttempts)

/-- **When the two pollers agree.** Whatever the endpoint answers, they do
exactly where some answer has a height if one has a result. -/
theorem pollers_agree_iff (hjson : json.ReadsText) :
    PollersAgree json base64 send txHash maxAttempts ↔
      ∀ hash, txHashToBase64 base64 txHash = .ok hash →
        (∃ attempt < maxAttempts, HasResult json (send hash attempt)) →
          ∃ attempt < maxAttempts, InBlock json (send hash attempt) := by
  refine ⟨fun h hash hhash hresult => ?_, fun h => ?_⟩
  · have hincluded : waitForTransaction json base64 send txHash maxAttempts = .ok true := by
      rw [waitForTransaction_eq hhash, someResult_iff.mpr hresult]
    obtain ⟨outcome, houtcome⟩ := h.included.mp hincluded
    rw [waitForTxOutcome_eq hhash, Except.ok.injEq] at houtcome
    exact someOutcome_iff.mp (by rw [houtcome, Option.isSome_some])
  · cases hhash : txHashToBase64 base64 txHash with
    | error e =>
      obtain ⟨hresult, houtcome⟩ := both_fail hhash
      refine ⟨?_, iff_of_true ⟨e, hresult⟩ ⟨e, houtcome⟩, fun hash hok => ?_⟩
      · rw [hresult, houtcome]
        exact iff_of_false nofun nofun
      · rw [hhash] at hok
        cases hok
    | ok hash =>
      have hsame : (firstTaken (takeResult json) (send hash) 0 maxAttempts).isSome =
          (firstTaken (takeOutcome json) (send hash) 0 maxAttempts).isSome := by
        rw [Bool.eq_iff_iff, someResult_iff, someOutcome_iff]
        refine ⟨h hash hhash, fun hblock => ?_⟩
        obtain ⟨attempt, hlt, hin⟩ := hblock
        exact ⟨attempt, hlt, hin.hasResult hjson⟩
      refine ⟨?_, ?_, fun hash' hok hnone => ?_⟩
      · rw [waitForTransaction_eq hhash, waitForTxOutcome_eq hhash, hsame, Except.ok.injEq,
          Option.isSome_iff_exists]
        simp only [Except.ok.injEq]
      · rw [waitForTransaction_eq hhash, waitForTxOutcome_eq hhash]
        exact iff_of_false nofun nofun
      · obtain rfl := Except.ok.inj (hhash.symm.trans hok)
        have hnothing : firstTaken (takeOutcome json) (send hash) 0 maxAttempts = none := by
          rw [← Option.not_isSome_iff_eq_none, someOutcome_iff]
          intro hblock
          obtain ⟨attempt, hlt, hin⟩ := hblock
          exact hnone attempt hlt hin
        rw [waitForTransaction_eq hhash, waitForTxOutcome_eq hhash, hsame, hnothing]
        exact ⟨rfl, rfl⟩

end Agree

namespace Sample

/-- JSON, as far as the answers below go. -/
inductive Value
  | null
  | number (n : ℕ)
  | text (s : String)
  | object (members : List (String × Value))

def Value.get : Value → String → Option Value
  | .object members, name => (members.find? fun e => e.1 = name).map Prod.snd
  | _, _ => none

/-- A transaction that is not in a block. -/
def pendingText : String := "\x7b\"jsonrpc\":\"2.0\",\"id\":1,\"result\":null\x7d"

def pendingBody : Value :=
  .object [("jsonrpc", .text "2.0"), ("id", .number 1), ("result", .null)]

/-- One that is in block 7. -/
def landedText : String :=
  "\x7b\"jsonrpc\":\"2.0\",\"id\":1,\"result\":\x7b\"height\":\"7\"\x7d\x7d"

def landedBody : Value :=
  .object [("jsonrpc", .text "2.0"), ("id", .number 1),
    ("result", .object [("height", .text "7")])]

def json : TxJson Value where
  get := Value.get
  asStr
    | .text s => some s
    | _ => none
  asU64
    | .number n => some n
    | _ => none
  asI64
    | .number n => some n
    | _ => none
  fromStr text :=
    if text = pendingText then some pendingBody
    else if text = landedText then some landedBody
    else none
  fromSlice body :=
    if body = Utf8.encode pendingText then some pendingBody
    else if body = Utf8.encode landedText then some landedBody
    else none
  hexObject text := .object [("hex", .text text)]

theorem readsText : json.ReadsText := by
  intro body v h
  have hslice : (if body = Utf8.encode pendingText then some pendingBody
    else if body = Utf8.encode landedText then some landedBody else none) = some v := h
  split_ifs at hslice with hpending hlanded
  · exact ⟨pendingText, hpending.symm, hslice⟩
  · refine ⟨landedText, hlanded.symm, ?_⟩
    show (if landedText = pendingText then some pendingBody
      else if landedText = landedText then some landedBody else none) = some v
    rw [if_neg (by decide), if_pos rfl]
    exact hslice

/-- An answer of a text. -/
def answer (text : String) : Answer := .ok ⟨200, "200 OK", none, [.ok (Utf8.encode text)]⟩

theorem carries (text : String) :
    Response.Carries ⟨200, "200 OK", none, [.ok (Utf8.encode text)]⟩ (Utf8.encode text) where
  success := rfl
  declared := nofun
  pieces := ⟨[Utf8.encode text], rfl, by rw [List.flatten_singleton]⟩

theorem decoded_answer {text : String} (h : (Utf8.encode text).length ≤ 100) :
    decoded json (answer text) = json.fromSlice (Utf8.encode text) := by
  have hcap : (Utf8.encode text).length ≤ txCap := h.trans (by decide)
  have hshort : JsonBudget.containerCost * (Utf8.encode text).length ≤ JsonBudget.maxValues :=
    (Nat.mul_le_mul_left _ h).trans (by decide)
  unfold decoded answer
  simp only [Except.toOption, Option.bind_eq_bind, Option.bind_some, (carries text).read hcap,
    JsonBudget.checkJson_of_short hshort]

end Sample

theorem pollers_agree_iff_sample :
    PollersAgree Sample.json (fun _ => "qw==") (fun _ _ => Sample.answer Sample.landedText) "AB" 1 := by
  refine (pollers_agree_iff Sample.json _ _ _ _ Sample.readsText).mpr fun hash _ _ => ?_
  have hdecoded : decoded Sample.json (Sample.answer Sample.landedText) = some Sample.landedBody :=
    Sample.decoded_answer (by decide)
  exact ⟨0, Nat.one_pos, Sample.landedBody, .text "7", hdecoded, rfl, .inl ⟨"7", 7, rfl, by decide⟩⟩

/-- A null result, which a transaction that is not in a block yet has, is one that
lands to the second poller only. -/
theorem null_result_reported :
    waitForTransaction Sample.json (fun _ => "qw==") (fun _ _ => Sample.answer Sample.pendingText)
        "AB" 1 = .ok true ∧
      waitForTxOutcome Sample.json (fun _ => "qw==") (fun _ _ => Sample.answer Sample.pendingText)
        "AB" 1 = .ok none := by
  have hhash : txHashToBase64 (fun _ => "qw==") "AB" = .ok "qw==" := by rfl
  have hdecoded : decoded Sample.json (Sample.answer Sample.pendingText) =
      some Sample.pendingBody := Sample.decoded_answer (by decide)
  refine ⟨?_, ?_⟩
  · have hresult : HasResult Sample.json (Sample.answer Sample.pendingText) :=
      ⟨Sample.pendingBody, .null, decodedText_of_decoded Sample.readsText hdecoded, rfl⟩
    rw [waitForTransaction_eq hhash, someResult_iff.mpr ⟨0, Nat.one_pos, hresult⟩]
  · have htaken : takeOutcome Sample.json (Sample.answer Sample.pendingText) = none := by
      unfold takeOutcome
      rw [hdecoded]
      rfl
    rw [waitForTxOutcome_eq hhash]
    unfold firstTaken
    rw [htaken]
    rfl

end TxPolls
end Consensus
end WillowSdk
