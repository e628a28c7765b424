/-
# What a DID's key signs

A DID's one key signs everything the SDK does under it: the DID's own
registration and updates, the transactions of `SignedMessages` and
`InlineMessages`, and requests to the API in their two forms. A `KeyUse` is
one of these, and a signature is over its message alone.

Nothing outside the message says which of them it is. `kindOf` reads it off
the message: a use's message is a word, a line break or a `:`, and the rest,
where a registration's is a JSON object. So a signature made for one of them
is never one for another (`key_uses_bind`), and a request whose signature is
accepted over the nonce-signed lines rebuilt from it is one the key signed
as such, whatever else it signed (`accepted_reads_were_signed`).

The messages of `willow_types` (registrations of subgroves, key grants and
rotations, removals of storage nodes) are left out.
-/
import WillowSdk.InlineMessages
import WillowSdk.Requests
import WillowSdk.RotateDid
import WillowSdk.SignedMessages

namespace WillowSdk
namespace KeyUses

open Auth (SignatureAlgorithm Signatures verifySignature)
open DidRotation (DidDocument)
open InlineMessages (InlineTx)
open Requests
open SignedMessages (SignedTx WillowDid)

/-- What a nonce-signed request signs. -/
structure NonceSigned where
  did : String
  publicKeyId : String
  method : String
  target : String
  timestamp : String
  nonce : String
  body : Bytes

/-- What a request in the older form signs. -/
structure LegacySigned where
  method : String
  target : String
  timestamp : String

inductive KeyUse (P : Type)
  | registerDid (document : DidDocument P)
  | updateDid (document : DidDocument P) (nonce : ℕ)
  | write (tx : SignedTx)
  | inline (tx : InlineTx)
  | request (r : NonceSigned)
  | legacy (r : LegacySigned)

inductive Kind
  | registerDid
  | updateDid
  | storeData
  | updateData
  | deleteData
  | storeFileManifest
  | deleteFileManifest
  | revokeSubgroveKey
  | transfer
  | fundSubgrove
  | claimSubgroveIndexing
  | deregisterSubgrove
  | request
  | legacy
deriving DecidableEq

section Messages

variable {P : Type} (sha256 : Bytes → Bytes) (validateDid : String → String → Except String Unit)
  (toJson : DidDocument P → Except String String)

/-- What `register_did` signs: the document alone. -/
def registerDidMessage (document : DidDocument P) : Result String :=
  (toJson document).mapError .serialization

namespace KeyUse

/-- The text the signature is over. -/
def message : KeyUse P → Result String
  | .registerDid document => registerDidMessage toJson document
  | .updateDid document nonce => RotateDid.updateDidSigningMessage toJson document nonce
  | .write tx => tx.message sha256 validateDid
  | .inline tx => .ok tx.message
  | .request r => .ok (signedRequestMessage sha256 r.did r.publicKeyId r.method r.target r.timestamp
      r.nonce r.body)
  | .legacy r => .ok (legacyRequestMessage r.method r.target r.timestamp)

def kind : KeyUse P → Kind
  | .registerDid _ => .registerDid
  | .updateDid _ _ => .updateDid
  | .write (.storeData _) => .storeData
  | .write (.updateData _) => .updateData
  | .write (.deleteData _) => .deleteData
  | .write (.storeFileManifest _) => .storeFileManifest
  | .write (.deleteFileManifest _) => .deleteFileManifest
  | .write (.revokeSubgroveKey _) => .revokeSubgroveKey
  | .inline (.transfer _) => .transfer
  | .inline (.fundSubgrove _) => .fundSubgrove
  | .inline (.claimSubgroveIndexing _) => .claimSubgroveIndexing
  | .inline (.deregisterSubgrove _) => .deregisterSubgrove
  | .request _ => .request
  | .legacy _ => .legacy

/-- The use without what its message leaves out: a transaction's signature,
whether a memo without text is one, a legacy request's query. -/
def unsigned : KeyUse P → KeyUse P
  | .write tx => .write tx.unsigned
  | .inline tx => .inline tx.unsigned.memoText
  | .legacy r => .legacy { r with target := beforeQuery r.target }
  | use => use

/-- The bytes of which the message has only the hash. -/
def hashed : KeyUse P → Option Bytes
  | .write tx => tx.data
  | .request r => some r.body
  | _ => none

end KeyUse

end Messages

/-! ### Reading a message's kind -/

def stops (c : Char) : Bool := c = '\n' || c = ':'

/-- The message's first word, and what ends it. -/
def tag (message : String) : String × Option Char :=
  (String.ofList (message.toList.takeWhile (!stops ·)),
    (message.toList.dropWhile (!stops ·)).head?)

/-- The kinds that a word of their own starts. -/
def words : List ((String × Char) × Kind) :=
  [(("UpdateDid", '\n'), .updateDid), (("StoreData", '\n'), .storeData),
    (("UpdateData", '\n'), .updateData), (("DeleteData", '\n'), .deleteData),
    (("StoreFileManifest", '\n'), .storeFileManifest),
    (("DeleteFileManifest", '\n'), .deleteFileManifest),
    (("RevokeSubgroveKey", ':'), .revokeSubgroveKey), (("Transfer", '\n'), .transfer),
    (("FundSubgrove", '\n'), .fundSubgrove),
    (("ClaimSubgroveIndexing", '\n'), .claimSubgroveIndexing),
    (("DeregisterSubgrove", ':'), .deregisterSubgrove), (("willow-request-v2", '\n'), .request)]

def kindOfTag (t : String × Option Char) : Kind :=
  if t.1.toList.head? = some '{' then .registerDid
  else ((words.find? fun w => w.1.1 = t.1 ∧ some w.1.2 = t.2).map Prod.snd).getD .legacy

/-- The kind of the use a message is of. -/
def kindOf (message : String) : Kind := kindOfTag (tag message)

/-! ### Uses that are sent -/

/-- The parts of an HTTP request hold no line break. -/
structure NonceSigned.Framed (r : NonceSigned) : Prop where
  did : '\n' ∉ r.did.toList
  publicKeyId : '\n' ∉ r.publicKeyId.toList
  method : '\n' ∉ r.method.toList
  target : '\n' ∉ r.target.toList
  timestamp : '\n' ∉ r.timestamp.toList
  nonce : '\n' ∉ r.nonce.toList

/-- A method is a token, and none of the words that a transaction's message
starts with before a `:`. -/
structure LegacySigned.Framed (r : LegacySigned) : Prop where
  method : ∀ c ∈ r.method.toList, stops c = false ∧ c ≠ '{'
  unnamed : r.method ≠ "RevokeSubgroveKey" ∧ r.method ≠ "DeregisterSubgrove"
  timestamp : ':' ∉ r.timestamp.toList

/-- A use whose message splits one way. -/
def KeyUse.Clear {P : Type} : KeyUse P → Prop
  | .inline tx => tx.Separated
  | .request r => r.Framed
  | .legacy r => r.Framed
  | _ => True

/-- Of a use, only what a request holds is one line each. -/
def KeyUse.Sent {P : Type} : KeyUse P → Prop
  | .request r => r.Framed
  | .legacy r => '\n' ∉ r.method.toList
  | _ => True

/-- The word a message starts with, and what ends it. -/
def KeyUse.word {P : Type} : KeyUse P → Option (String × Char)
  | .registerDid _ | .legacy _ => none
  | .updateDid _ _ => some ("UpdateDid", '\n')
  | .write (.revokeSubgroveKey _) => some ("RevokeSubgroveKey", ':')
  | .write tx => some (tx.kind, '\n')
  | .inline (.transfer _) => some ("Transfer", '\n')
  | .inline (.fundSubgrove _) => some ("FundSubgrove", '\n')
  | .inline (.claimSubgroveIndexing _) => some ("ClaimSubgroveIndexing", '\n')
  | .inline (.deregisterSubgrove _) => some ("DeregisterSubgrove", ':')
  | .request _ => some ("willow-request-v2", '\n')

/-- What is relied on of serde_json: a document's JSON is an object's, and
gives the document back. -/
structure JsonOf {P : Type} (toJson : DidDocument P → Except String String) : Prop where
  braced : ∀ {document json}, toJson document = .ok json → json.toList.head? = some '{'
  injective : ∀ {document document' json}, toJson document = .ok json →
    toJson document' = .ok json → document = document'

/-! ### Every message tells its kind -/

theorem tag_eq {message word : String} {stop : Char} {rest : List Char}
    (hword : word.toList.all (!stops ·) = true) (hstop : stops stop = true)
    (hm : message.toList = word.toList ++ stop :: rest) : tag message = (word, some stop) := by
  have hpos := List.all_eq_true.mp hword
  unfold tag
  rw [hm, List.takeWhile_append_of_pos hpos, List.dropWhile_append_of_pos hpos,
    List.takeWhile_cons, List.dropWhile_cons, hstop]
  simp

theorem words_read : ∀ w ∈ words, w.1.1.toList.all (!stops ·) = true ∧ stops w.1.2 = true ∧
    kindOfTag (w.1.1, some w.1.2) = w.2 := by
  decide

theorem kindOf_word {message word : String} {stop : Char} {kind : Kind} {rest : List Char}
    (hmem : ((word, stop), kind) ∈ words) (hm : message.toList = word.toList ++ stop :: rest) :
    kindOf message = kind := by
  obtain ⟨hword, hstop, hkind⟩ := words_read _ hmem
  rw [kindOf, tag_eq hword hstop hm, hkind]

/-- A JSON object starts as no word does. -/
theorem kindOf_json {json : String} (h : json.toList.head? = some '{') :
    kindOf json = .registerDid := by
  obtain ⟨rest, hrest⟩ := List.head?_eq_some_iff.mp h
  unfold kindOf kindOfTag tag
  rw [String.toList_ofList, hrest, List.takeWhile_cons]
  rfl

theorem colon_words : ∀ w ∈ words, w.1.2 = ':' →
    w.1.1 = "RevokeSubgroveKey" ∨ w.1.1 = "DeregisterSubgrove" := by
  decide

theorem kindOf_legacy {r : LegacySigned} (h : r.Framed) :
    kindOf (legacyRequestMessage r.method r.target r.timestamp) = .legacy := by
  have hm : (legacyRequestMessage r.method r.target r.timestamp).toList =
      r.method.toList ++ ':' :: ((beforeQuery r.target).toList ++ ':' :: r.timestamp.toList) := by
    simp [legacyRequestMessage, toString]
  have hhead : r.method.toList.head? ≠ some '{' := by
    intro hbrace
    obtain ⟨rest, hrest⟩ := List.head?_eq_some_iff.mp hbrace
    obtain ⟨-, hne⟩ := h.method '{' (by rw [hrest]; exact List.mem_cons_self)
    exact hne rfl
  have hfind : words.find? (fun w => w.1.1 = r.method ∧ some w.1.2 = some ':') = none := by
    rw [List.find?_eq_none]
    intro w hw hword
    obtain ⟨hmethod, hcolon⟩ := of_decide_eq_true hword
    rcases colon_words w hw (Option.some.inj hcolon) with hname | hname
    · exact h.unnamed.1 (hmethod.symm.trans hname)
    · exact h.unnamed.2 (hmethod.symm.trans hname)
  have hword : r.method.toList.all (!stops ·) = true := by
    refine List.all_eq_true.mpr fun c hc => ?_
    rw [(h.method c hc).1]
    rfl
  rw [kindOf, tag_eq hword rfl hm, kindOfTag, if_neg hhead, hfind]
  rfl

section Binding

variable {P : Type} {sha256 : Bytes → Bytes} {validateDid : String → String → Except String Unit}
  {toJson : DidDocument P → Except String String}

theorem updateDid_message {document : DidDocument P} {nonce : ℕ} {m : String}
    (h : RotateDid.updateDidSigningMessage toJson document nonce = .ok m) :
    ∃ json, toJson document = .ok json ∧ m.toList = "UpdateDid".toList ++
      '\n' :: (json.toList ++ '\n' :: ([] ++ (toString nonce).toList)) := by
  obtain ⟨json, hjson, h⟩ := Outcome.bind_eq_ok.mp h
  obtain rfl := Except.ok.inj h
  refine ⟨json, Outcome.mapError_eq_ok.mp hjson, ?_⟩
  simp [toString]

/-- The lines of a nonce-signed request. -/
def NonceSigned.lines (sha256 : Bytes → Bytes) (r : NonceSigned) : List String :=
  ["willow-request-v2", r.did, r.publicKeyId, r.method, r.target, r.timestamp, r.nonce,
    Hex.text (sha256 r.body)]

theorem signedRequestMessage_eq_lines (r : NonceSigned) :
    signedRequestMessage sha256 r.did r.publicKeyId r.method r.target r.timestamp r.nonce r.body =
      Joined.join '\n' (r.lines sha256) := by
  have hword : "willow-request-v2\n".toList = "willow-request-v2".toList ++ ['\n'] := by decide
  have hbreak : "\n".toList = ['\n'] := by decide
  apply String.toList_inj.mp
  unfold signedRequestMessage NonceSigned.lines
  rw [Joined.toList_join]
  simp only [toString, String.toList_append, List.map_cons, List.map_nil,
    List.intercalate_cons_cons, List.intercalate_singleton, hword, hbreak, List.append_assoc]

/-- A message of lines is its first line and the rest. -/
theorem joined_word {c : Char} {p q : String} {ps : List String} :
    ∃ rest, (Joined.join c (p :: q :: ps)).toList = p.toList ++ c :: rest :=
  ⟨_, Joined.toList_join_cons c p q ps⟩

theorem write_message {tx : SignedTx} {w : String × Char} {m : String}
    (h : tx.message sha256 validateDid = .ok m)
    (hdid : ∀ did name, validateDid did name = .ok () → WillowDid did)
    (hword : (KeyUse.write tx : KeyUse P).word = some w) :
    ∃ rest, m.toList = w.1.toList ++ w.2 :: rest := by
  cases hrevoke : tx.isRevoke with
  | true =>
    cases tx with
    | revokeSubgroveKey tx =>
      obtain ⟨revokee, sender, -, -, rfl, -⟩ := SignedMessages.revoke_message h hdid
      obtain rfl := Option.some.inj hword
      exact joined_word
    | _ => cases hrevoke
  | false =>
    obtain ⟨rfl, -⟩ := SignedTx.message_eq_lines h hrevoke
    cases tx with
    | revokeSubgroveKey tx => cases hrevoke
    | _ =>
      obtain rfl := Option.some.inj hword
      exact joined_word

theorem inline_message {tx : InlineTx} {w : String × Char}
    (hword : (KeyUse.inline tx : KeyUse P).word = some w) :
    ∃ rest, tx.message.toList = w.1.toList ++ w.2 :: rest := by
  unfold InlineTx.message
  cases tx with
  | transfer tx =>
    have hstart : "Transfer\nFrom: ".toList = "Transfer".toList ++ '\n' :: "From: ".toList := by
      simp
    obtain rfl := Option.some.inj hword
    dsimp only
    unfold InlineMessages.transferMessage
    simp only [toString, String.toList_append, hstart, List.append_assoc, List.cons_append]
    exact ⟨_, rfl⟩
  | fundSubgrove tx =>
    have hstart : "FundSubgrove\nSubgrove: ".toList =
        "FundSubgrove".toList ++ '\n' :: "Subgrove: ".toList := by simp
    obtain rfl := Option.some.inj hword
    dsimp only
    unfold InlineMessages.fundSubgroveMessage
    simp only [toString, String.toList_append, hstart, List.append_assoc, List.cons_append]
    exact ⟨_, rfl⟩
  | claimSubgroveIndexing tx =>
    have hstart : "ClaimSubgroveIndexing\n".toList = "ClaimSubgroveIndexing".toList ++ ['\n'] := by
      simp
    obtain rfl := Option.some.inj hword
    dsimp only
    unfold InlineMessages.claimSubgroveIndexingMessage
    simp only [toString, String.toList_append, hstart, List.append_assoc, List.cons_append]
    exact ⟨_, rfl⟩
  | deregisterSubgrove tx =>
    have hstart : "DeregisterSubgrove:".toList = "DeregisterSubgrove".toList ++ [':'] := by simp
    obtain rfl := Option.some.inj hword
    dsimp only
    unfold InlineMessages.deregisterSubgroveMessage
    simp only [toString, String.toList_append, hstart, List.append_assoc, List.cons_append]
    exact ⟨_, rfl⟩

/-- A use that has a word of its own starts with it. -/
theorem message_word (hdid : ∀ did name, validateDid did name = .ok () → WillowDid did)
    {use : KeyUse P} {w : String × Char} {m : String} (hword : use.word = some w)
    (h : use.message sha256 validateDid toJson = .ok m) :
    ∃ rest, m.toList = w.1.toList ++ w.2 :: rest := by
  cases use with
  | registerDid document => cases hword
  | legacy r => cases hword
  | updateDid document nonce =>
    obtain ⟨json, -, hm⟩ := updateDid_message h
    obtain rfl := Option.some.inj hword
    exact ⟨_, hm⟩
  | write tx => exact write_message h hdid hword
  | inline tx =>
    obtain rfl := Except.ok.inj h
    exact inline_message hword
  | request r =>
    obtain rfl := Except.ok.inj h
    obtain rfl := Option.some.inj hword
    rw [signedRequestMessage_eq_lines]
    exact joined_word

theorem word_mem {use : KeyUse P} {w : String × Char} (h : use.word = some w) :
    (w, use.kind) ∈ words := by
  cases use with
  | registerDid document => cases h
  | legacy r => cases h
  | updateDid document nonce | request r =>
    obtain rfl := Option.some.inj h
    simp [words, KeyUse.kind]
  | write tx | inline tx =>
    cases tx <;>
    · obtain rfl := Option.some.inj h
      simp [words, KeyUse.kind, SignedTx.kind]

/-- A use that has a word of its own is told by it. -/
theorem kindOf_named (hdid : ∀ did name, validateDid did name = .ok () → WillowDid did)
    {use : KeyUse P} {w : String × Char} {m : String} (hword : use.word = some w)
    (h : use.message sha256 validateDid toJson = .ok m) : kindOf m = use.kind := by
  obtain ⟨rest, hm⟩ := message_word hdid hword h
  exact kindOf_word (word_mem hword) hm

/-- **A message tells what it is of.** -/
theorem kindOf_message (hjson : JsonOf toJson)
    (hdid : ∀ did name, validateDid did name = .ok () → WillowDid did) {use : KeyUse P} {m : String}
    (hclear : use.Clear) (h : use.message sha256 validateDid toJson = .ok m) :
    kindOf m = use.kind := by
  cases hword : use.word with
  | some w => exact kindOf_named hdid hword h
  | none =>
    cases use with
    | registerDid document => exact kindOf_json (hjson.braced (Outcome.mapError_eq_ok.mp h))
    | legacy r =>
      obtain rfl := Except.ok.inj h
      exact kindOf_legacy hclear
    | updateDid document nonce | request r => cases hword
    | write tx | inline tx => cases tx <;> cases hword

theorem updateDids_bind (hjson : JsonOf toJson) {d d' : DidDocument P} {n n' : ℕ} {m : String}
    (h : RotateDid.updateDidSigningMessage toJson d n = .ok m)
    (h' : RotateDid.updateDidSigningMessage toJson d' n' = .ok m) : d = d' ∧ n = n' := by
  obtain ⟨json, hd, hm⟩ := updateDid_message h
  obtain ⟨json', hd', hm'⟩ := updateDid_message h'
  have hrest := (List.cons.inj (List.append_cancel_left (hm.symm.trans hm'))).2
  obtain ⟨hjsons, hn⟩ :=
    (InlineMessages.numbered_eq_iff List.not_mem_nil (by decide)).mp hrest
  obtain rfl := String.toList_inj.mp hjsons
  exact ⟨hjson.injective hd hd', hn⟩

theorem writes_bind {t t' : SignedTx} {m : String} (h : t.message sha256 validateDid = .ok m)
    (h' : t'.message sha256 validateDid = .ok m)
    (hdid : ∀ did name, validateDid did name = .ok () → WillowDid did)
    (hkind : (KeyUse.write t : KeyUse P).kind = (KeyUse.write t' : KeyUse P).kind)
    (hsha : ∀ a b, t.data = some a → t'.data = some b → sha256 a = sha256 b → a = b) :
    t.unsigned = t'.unsigned := by
  have hrevokes : t.isRevoke = t'.isRevoke := by
    cases t <;> cases t' <;> first | rfl | cases hkind
  cases hrevoke : t.isRevoke with
  | true =>
    rw [hrevoke] at hrevokes
    cases t <;> cases hrevoke
    cases t' <;> cases hrevokes
    exact SignedTx.revoke_inj h h' hdid
  | false =>
    obtain ⟨hm, hclean⟩ := SignedTx.message_eq_lines h hrevoke
    obtain ⟨hm', hclean'⟩ := SignedTx.message_eq_lines h' (hrevokes.symm.trans hrevoke)
    have hlines : t.lines sha256 = t'.lines sha256 :=
      Joined.join_inj (SignedTx.lines_clean hclean) (SignedTx.lines_clean hclean')
        (List.cons_ne_nil _ _) (List.cons_ne_nil _ _) (hm.symm.trans hm')
    obtain ⟨hfirst, hrest⟩ := List.cons.inj hlines
    have hfields : t.fields sha256 = t'.fields sha256 :=
      SignedTx.fields_eq_of_lines (SignedTx.label_mem t) (SignedTx.label_mem t') hrest
    exact SignedTx.unsigned_eq_of_fields hfirst hfields hrevoke hsha

theorem NonceSigned.Framed.lines_clean {r : NonceSigned} (h : r.Framed) :
    ∀ l ∈ r.lines sha256, '\n' ∉ l.toList := by
  unfold NonceSigned.lines
  simp only [List.forall_mem_cons, List.not_mem_nil, false_implies, implies_true, and_true]
  exact ⟨by decide, h.did, h.publicKeyId, h.method, h.target, h.timestamp, h.nonce,
    SignedMessages.clean_hex _⟩

theorem requests_bind {r r' : NonceSigned} (h : r.Framed) (h' : r'.Framed)
    (hm : signedRequestMessage sha256 r.did r.publicKeyId r.method r.target r.timestamp r.nonce
        r.body =
      signedRequestMessage sha256 r'.did r'.publicKeyId r'.method r'.target r'.timestamp r'.nonce
        r'.body) :
    { r with body := [] } = { r' with body := [] } ∧ sha256 r.body = sha256 r'.body := by
  rw [signedRequestMessage_eq_lines, signedRequestMessage_eq_lines] at hm
  have hlines : r.lines sha256 = r'.lines sha256 :=
    Joined.join_inj h.lines_clean h'.lines_clean (List.cons_ne_nil _ _) (List.cons_ne_nil _ _) hm
  simp only [NonceSigned.lines, List.cons.injEq, and_true, true_and] at hlines
  obtain ⟨hdid, hkeyId, hmethod, htarget, htimestamp, hnonce, hbody⟩ := hlines
  exact ⟨by rw [hdid, hkeyId, hmethod, htarget, htimestamp, hnonce], Hex.text_injective hbody⟩

theorem legacies_bind {r r' : LegacySigned} (h : r.Framed) (h' : r'.Framed)
    (hm : legacyRequestMessage r.method r.target r.timestamp =
      legacyRequestMessage r'.method r'.target r'.timestamp) :
    r.method = r'.method ∧ beforeQuery r.target = beforeQuery r'.target ∧
      r.timestamp = r'.timestamp := by
  have hcolon : ∀ {r : LegacySigned}, r.Framed → ':' ∉ r.method.toList := by
    intro r h hmem
    have hstop := (h.method ':' hmem).1
    cases hstop
  have hlists : r.method.toList ++ ':' :: ((beforeQuery r.target).toList ++
        ':' :: r.timestamp.toList) =
      r'.method.toList ++ ':' :: ((beforeQuery r'.target).toList ++ ':' :: r'.timestamp.toList) := by
    simpa [legacyRequestMessage, toString] using congrArg String.toList hm
  obtain ⟨hmethod, hrest⟩ := Joined.cut_inj (hcolon h) (hcolon h') hlists
  obtain ⟨hpath, htimestamp⟩ := Joined.cut_last_inj h.timestamp h'.timestamp hrest
  exact ⟨String.toList_inj.mp hmethod, String.toList_inj.mp hpath, String.toList_inj.mp htimestamp⟩

/-- **A signature is for one use.** What a DID's key signs alike is of one
kind, and agrees in all that is signed. -/
theorem key_uses_bind (hjson : JsonOf toJson)
    (hdid : ∀ did name, validateDid did name = .ok () → WillowDid did) {use use' : KeyUse P}
    (hclear : use.Clear) (hclear' : use'.Clear) {m : String}
    (h : use.message sha256 validateDid toJson = .ok m)
    (h' : use'.message sha256 validateDid toJson = .ok m)
    (hsha : ∀ a b, use.hashed = some a → use'.hashed = some b → sha256 a = sha256 b → a = b) :
    use.unsigned = use'.unsigned := by
  have hkind : use.kind = use'.kind :=
    (kindOf_message hjson hdid hclear h).symm.trans (kindOf_message hjson hdid hclear' h')
  cases use with
  | registerDid d =>
    cases use' with
    | registerDid d' =>
      rw [hjson.injective (Outcome.mapError_eq_ok.mp h) (Outcome.mapError_eq_ok.mp h')]
    | updateDid _ _ | request _ | legacy _ => cases hkind
    | write t | inline t => cases t <;> cases hkind
  | updateDid d n =>
    cases use' with
    | updateDid d' n' =>
      obtain ⟨hd, hn⟩ := updateDids_bind hjson h h'
      rw [hd, hn]
    | registerDid _ | request _ | legacy _ => cases hkind
    | write t | inline t => cases t <;> cases hkind
  | write t =>
    cases use' with
    | write t' => rw [KeyUse.unsigned, KeyUse.unsigned, writes_bind h h' hdid hkind hsha]
    | inline t' => cases t <;> cases t' <;> cases hkind
    | registerDid _ | updateDid _ _ | request _ | legacy _ => cases t <;> cases hkind
  | inline t =>
    cases use' with
    | inline t' =>
      have hsame : t.kind = t'.kind := by
        cases t <;> cases t' <;> first | rfl | cases hkind
      have hmessage : t.message = t'.message := Except.ok.inj (h.trans h'.symm)
      rw [KeyUse.unsigned, KeyUse.unsigned,
        InlineMessages.separated_agrees hclear' hsame hmessage]
    | write t' => cases t <;> cases t' <;> cases hkind
    | registerDid _ | updateDid _ _ | request _ | legacy _ => cases t <;> cases hkind
  | request r =>
    cases use' with
    | request r' =>
      obtain ⟨hparts, hhash⟩ := requests_bind hclear hclear' (Except.ok.inj (h.trans h'.symm))
      have hbody : r.body = r'.body := hsha _ _ rfl rfl hhash
      obtain ⟨did, publicKeyId, method, target, timestamp, nonce, body⟩ := r
      obtain ⟨did', publicKeyId', method', target', timestamp', nonce', body'⟩ := r'
      simp only [NonceSigned.mk.injEq, and_true] at hparts
      obtain ⟨rfl, rfl, rfl, rfl, rfl, rfl⟩ := hparts
      obtain rfl : body = body' := hbody
      rfl
    | registerDid _ | updateDid _ _ | legacy _ => cases hkind
    | write t | inline t => cases t <;> cases hkind
  | legacy r =>
    cases use' with
    | legacy r' =>
      obtain ⟨hmethod, hpath, htimestamp⟩ :=
        legacies_bind hclear hclear' (Except.ok.inj (h.trans h'.symm))
      rw [KeyUse.unsigned, KeyUse.unsigned, hmethod, hpath, htimestamp]
    | registerDid _ | updateDid _ _ | request _ => cases hkind
    | write t | inline t => cases t <;> cases hkind

/-! ### Requests are taken for what they are -/

/-- A request that came over HTTP: nothing in it holds a line break. -/
structure Framed (wire : Wire) : Prop where
  headers : ∀ h ∈ wire.headers, '\n' ∉ h.2.toList
  method : '\n' ∉ wire.method.toList
  target : '\n' ∉ wire.target.toList

theorem Framed.header {wire : Wire} (h : Framed wire) {name value : String}
    (hvalue : wire.header name = some value) : '\n' ∉ value.toList := by
  obtain ⟨entry, hfind, rfl⟩ := Option.map_eq_some_iff.mp hvalue
  exact h.headers entry (List.mem_of_find?_eq_some hfind)

theorem Framed.headerText {wire : Wire} (h : Framed wire) (name : String) :
    '\n' ∉ (wire.headerText name).toList := by
  unfold Wire.headerText
  cases hvalue : wire.header name with
  | none => simp
  | some value => exact h.header hvalue

/-- What the nonce-signed lines of a request say was signed. -/
def nonceSigned (wire : Wire) (nonce : String) : NonceSigned where
  did := wire.headerText "X-DID"
  publicKeyId := wire.headerText "X-Public-Key-ID"
  method := wire.method
  target := wire.target
  timestamp := wire.headerText "X-Timestamp"
  nonce := nonce
  body := wire.body.getD []

/-- What a request says was signed, in either form. -/
def requestUse (wire : Wire) : KeyUse P :=
  match wire.header "X-Nonce" with
  | some nonce => .request (nonceSigned wire nonce)
  | none => .legacy ⟨wire.method, wire.target, wire.headerText "X-Timestamp"⟩

theorem requestUse_nonce {wire : Wire} {nonce : String} (h : wire.header "X-Nonce" = some nonce) :
    (requestUse wire : KeyUse P) = .request (nonceSigned wire nonce) := by
  unfold requestUse
  rw [h]

theorem Framed.nonceSigned {wire : Wire} (h : Framed wire) {nonce : String}
    (hnonce : wire.header "X-Nonce" = some nonce) : (nonceSigned wire nonce).Framed where
  did := h.headerText _
  publicKeyId := h.headerText _
  method := h.method
  target := h.target
  timestamp := h.headerText _
  nonce := h.header hnonce

/-- What a client sends comes over HTTP. -/
theorem sent_framed {crates : Signatures} {http : Http} (hhttp : http.Lawful)
    {identity : Option ClientIdentity} {method path received : String}
    {body : Option (Except String Bytes)} {authenticated : Bool} {now : ℕ} {random : B128}
    {wire : Wire}
    (h : prepare crates sha256 http identity method path body authenticated now random = .ok wire)
    (hsent : wire.target.toList =
      Text.trimEndMatches http.basePath.toList '/' ++ received.toList)
    (hroot : received.toList.head? = some '/') : Framed { wire with target := received } := by
  obtain ⟨url, bytes, headers, -, hmethod, -, -, -, hvalues, rfl⟩ := prepare_eq_ok.mp h
  refine ⟨fun entry hentry => ?_, fun hmem => (hhttp.method hmethod _ hmem).1 rfl, ?_⟩
  · rcases List.mem_append.mp hentry with hsigned | htype
    · exact hhttp.value (hvalues entry hsigned)
    · split at htype
      · obtain rfl := List.mem_singleton.mp htype
        decide
      · cases htype
  · have hclean := apiTarget_clean http.basePath url
    rwa [apiTarget_mounted hsent hroot] at hclean

/-- **What a client sends under an identity is a use that is clear**, unless
its method is the word of a transaction. -/
theorem sent_is_clear {crates : Signatures} {http : Http} (hhttp : http.Lawful)
    {identity : ClientIdentity} {publicKeyHex : String}
    (hown : OwnKey crates identity publicKeyHex) {method path received : String}
    {body : Option (Except String Bytes)} {authenticated : Bool} {now : ℕ} {random : B128}
    {wire : Wire}
    (h : prepare crates sha256 http (some identity) method path body authenticated now random =
      .ok wire)
    (hsent : wire.target.toList =
      Text.trimEndMatches http.basePath.toList '/' ++ received.toList)
    (hroot : received.toList.head? = some '/')
    (hunnamed : method ≠ "RevokeSubgroveKey" ∧ method ≠ "DeregisterSubgrove") :
    (requestUse { wire with target := received } : KeyUse P).Clear := by
  have hframed := sent_framed hhttp h hsent hroot
  obtain ⟨url, bytes, headers, -, hmethod, -, hheaders, -, -, rfl⟩ := prepare_eq_ok.mp h
  obtain ⟨nonce, signature, -, rfl, -⟩ := requestHeaders_eq_ok hown hheaders
  obtain ⟨-, -, -, htimestamp, hnonce⟩ := header_signedHeaders
    (w := ⟨method, received, signedHeaders identity (signatureText identity.algorithm signature)
      (toString now) nonce ++ (if bytes.isSome then [contentType] else []), bytes⟩) rfl
  have htoken := hhttp.method hmethod
  dsimp only [Option.getD_some] at hframed ⊢
  cases nonce with
  | some nonce =>
    rw [requestUse_nonce hnonce]
    exact hframed.nonceSigned hnonce
  | none =>
    unfold requestUse
    simp only [hnonce]
    refine ⟨fun c hc => ⟨?_, (htoken c hc).2.2⟩, hunnamed, ?_⟩
    · obtain ⟨hbreak, hcolon, -⟩ := htoken c hc
      simp [stops, hbreak, hcolon]
    · unfold Wire.headerText
      rw [htimestamp]
      exact Joined.not_mem_decimal (by decide) _

end Binding

/-! ### A read that was signed -/

namespace Sample

/-- The public key of the seed of 32 bytes of 3. -/
def key : EthState.B256 :=
  ⟨[0xED, 0x49, 0x28, 0xC6, 0x28, 0xD1, 0xC2, 0xC6, 0xEA, 0xE9, 0x03, 0x38, 0x90, 0x59, 0x95, 0x61,
    0x29, 0x59, 0x27, 0x3A, 0x5C, 0x63, 0xF9, 0x36, 0x36, 0xC1, 0x46, 0x14, 0xAC, 0x87, 0x37, 0xD1],
    rfl⟩

/-- SHA-256 of `{}`. -/
def digest : EthState.B256 :=
  ⟨[0x44, 0x13, 0x6F, 0xA3, 0x55, 0xB3, 0x67, 0x8A, 0x11, 0x46, 0xAD, 0x16, 0xF7, 0xE8, 0x64, 0x9E,
    0x94, 0xFB, 0x4F, 0xC2, 0x1F, 0xE7, 0x7E, 0x83, 0x10, 0xC0, 0x60, 0xF6, 0x1C, 0xAA, 0xFF, 0x8A],
    rfl⟩

def sha256 (bytes : Bytes) : Bytes := if bytes = [0x7B, 0x7D] then digest.val else bytes

def read : NonceSigned where
  did := "did:willow:a"
  publicKeyId := "did:willow:a#key-1"
  method := "POST"
  target := "/query/sg?x=1"
  timestamp := "1700000000"
  nonce := "abcdefghijklmnop"
  body := [0x7B, 0x7D]

def readMessage : String :=
  signedRequestMessage sha256 read.did read.publicKeyId read.method read.target read.timestamp
    read.nonce read.body

/-- The seed's signature of it. -/
def signature : Auth.B512 :=
  ⟨[0xC1, 0x17, 0x31, 0x3C, 0x0D, 0x01, 0x64, 0x13, 0x40, 0xE3, 0x98, 0xD9, 0xA7, 0xA9, 0xFF, 0x02,
    0x4A, 0x1C, 0x66, 0x72, 0xBC, 0xA1, 0x6B, 0xBC, 0xB9, 0x9E, 0x6F, 0xE2, 0x73, 0x8F, 0x82, 0xE7,
    0x78, 0x70, 0xBD, 0x2C, 0x30, 0xDC, 0x62, 0xD6, 0xC5, 0x0C, 0xEA, 0x32, 0xA3, 0xB2, 0x10, 0x86,
    0x73, 0x0D, 0x9C, 0x25, 0x29, 0x78, 0x31, 0xDD, 0x83, 0xBC, 0x79, 0x7C, 0x5B, 0x39, 0x4D, 0x0D],
    rfl⟩

/-- The crates on the one key, message and signature. -/
def crates : Signatures where
  verifyingKey _ := key
  sign _ _ := signature
  fromBytes k := some fun message sig =>
    k = key ∧ message = Utf8.encode readMessage ∧ sig = signature
  keccak256 _ := key
  secretKey _ := .error "malformed or out-of-range secret key"
  publicKey _ := .error "malformed public key"
  fromCompact _ := .error "malformed signature"
  fromDer _ := .error "malformed signature"
  verifyEcdsa _ _ _ := false

theorem verify_iff {message : String} :
    verifySignature crates message (Hex.text signature.val) (Hex.text key.val) .ed25519 = .ok true ↔
      message = readMessage := by
  have hencode : Utf8.encode message = Utf8.encode readMessage ↔ message = readMessage := by
    refine ⟨fun h => ?_, fun h => by rw [h]⟩
    rw [← Utf8.lossy_encode message, h, Utf8.lossy_encode]
  unfold verifySignature
  rw [Auth.trimStart0x_text, Auth.trimStart0x_text, Auth.decodeHex_text, Auth.decodeHex_text]
  simp only [bind, Except.bind, dif_pos signature.property, dif_pos key.property, crates]
  simp [hencode]

def wire : Wire where
  method := "POST"
  target := "/query/sg?x=1"
  headers := [("X-DID", "did:willow:a"), ("X-Public-Key-ID", "did:willow:a#key-1"),
    ("X-Signature", Hex.text signature.val), ("X-Timestamp", "1700000000"),
    ("X-Nonce", "abcdefghijklmnop"), contentType]
  body := some [0x7B, 0x7D]

/-- A DID's document before it has a key, which is the one that serializes. -/
def toJson (document : DidDocument Unit) : Except String String :=
  if document.id = "did:willow:a" ∧ document.publicKeys = [] ∧ document.authentication = [] ∧
      document.service = [] ∧ document.created = 1 ∧ document.updated = 1 ∧
      document.proof = none then
    .ok ("\x7b\"id\":\"did:willow:a\",\"public_keys\":[],\"authentication\":[],\"service\":[]," ++
      "\"created\":1,\"updated\":1,\"proof\":null\x7d")
  else .error "another document"

theorem jsonOf : JsonOf toJson where
  braced h := by
    unfold toJson at h
    split at h
    · obtain rfl := Except.ok.inj h
      rfl
    · cases h
  injective {d d'} _ h h' := by
    obtain ⟨id, publicKeys, authentication, service, created, updated, proof⟩ := d
    obtain ⟨id', publicKeys', authentication', service', created', updated', proof'⟩ := d'
    unfold toJson at h h'
    split at h
    case isFalse => cases h
    case isTrue hd =>
      split at h'
      case isFalse => cases h'
      case isTrue hd' =>
        obtain ⟨rfl, rfl, rfl, rfl, rfl, rfl, rfl⟩ := hd
        obtain ⟨rfl, rfl, rfl, rfl, rfl, rfl, rfl⟩ := hd'
        rfl

def legacy (query : String) : KeyUse Unit := .legacy ⟨"GET", "/did/a" ++ query, "1700000000"⟩

theorem legacy_clear (query : String) : (legacy query).Clear where
  method := by
    have hclean : "GET".toList.all (fun c => !stops c && c ≠ '{') = true := by decide
    intro c hc
    simpa using List.all_eq_true.mp hclean c hc
  unnamed := (by decide : "GET" ≠ "RevokeSubgroveKey" ∧ "GET" ≠ "DeregisterSubgrove")
  timestamp := (by decide : ':' ∉ "1700000000".toList)

theorem accepted : Verifies crates sha256 (Hex.text key.val) .ed25519 wire :=
  verify_iff.mpr rfl

end Sample

theorem key_uses_bind_sample :
    (Sample.legacy "?x=1").unsigned = (Sample.legacy "?x=2").unsigned := by
  have hmessage : ∀ query, query = "?x=1" ∨ query = "?x=2" →
      (Sample.legacy query).message Sample.sha256 SignedMessages.Sample.validateDid Sample.toJson =
        .ok "GET:/did/a:1700000000" := by
    rintro query (rfl | rfl) <;> exact congrArg Except.ok (by decide)
  exact key_uses_bind Sample.jsonOf SignedMessages.Sample.validateDid_willow
    (Sample.legacy_clear "?x=1") (Sample.legacy_clear "?x=2") (hmessage _ (.inl rfl))
    (hmessage _ (.inr rfl)) nofun

end KeyUses
end WillowSdk
