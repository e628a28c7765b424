/-
# The transactions signed inline

A transfer, a subgrove's funding, an indexing claim and a deregistration
(src/consensus.rs) are signed over text the call formats itself, from
arguments it does not check, where the builders of `SignedMessages` refuse a
value that holds the separator.

So a message splits more than one way where a field holds what stands
between two fields: the separator itself in a claim or a deregistration, the
amount's lines in a funding, and the lines of `To`, and of `Amount` and
`Memo`, in a transfer, which also writes no memo and an empty one alike.
`inline_messages_bind_iff` says that these are all.
-/
import WillowSdk.Errors
import WillowSdk.Lib.Joined
import WillowSdk.Lib.Markers
import WillowSdk.Lib.Outcome

namespace WillowSdk
namespace InlineMessages

/-- An amount of tokens, a `u128`. -/
abbrev Amount := Fin (2 ^ 128)

structure TransferTx where
  fromDid : String
  toDid : String
  amount : Amount
  memo : Option String
  signature : Bytes
  publicKeyId : String
  nonce : ℕ

structure FundSubgroveTx where
  subgroveId : String
  amount : Amount
  fromDid : String
  signature : Bytes
  publicKeyId : String
  nonce : ℕ

structure ClaimSubgroveIndexingTx where
  subgroveId : String
  indexerDid : String
  signature : Bytes
  publicKeyId : String
  nonce : ℕ

structure DeregisterSubgroveTx where
  subgroveId : String
  ownerDid : String
  signature : Bytes
  publicKeyId : String
  nonce : ℕ

/-- A transaction of one of the four kinds. -/
inductive InlineTx
  | transfer (tx : TransferTx)
  | fundSubgrove (tx : FundSubgroveTx)
  | claimSubgroveIndexing (tx : ClaimSubgroveIndexingTx)
  | deregisterSubgrove (tx : DeregisterSubgroveTx)

structure FundSubgroveRequest where
  subgroveId : String
  amount : Amount
  fromDid : String
  signature : Bytes
  publicKeyId : String
  nonce : ℕ

structure DeregisterSubgroveRequest where
  subgroveId : String
  ownerDid : String
  signature : Bytes
  publicKeyId : String
  nonce : ℕ

/-! ### The calls -/

def transferMessage (fromDid toDid : String) (amount : Amount) (memo : Option String) (nonce : ℕ) :
    String :=
  let memo := memo.getD ""
  s!"Transfer\nFrom: {fromDid}\nTo: {toDid}\nAmount: {amount.val}\nMemo: {memo}" ++
    s!"\nNonce: {nonce}"

def fundSubgroveMessage (subgroveId : String) (amount : Amount) (fromDid : String) (nonce : ℕ) :
    String :=
  s!"FundSubgrove\nSubgrove: {subgroveId}\nAmount: {amount.val}\nFrom: {fromDid}" ++
    s!"\nNonce: {nonce}"

def claimSubgroveIndexingMessage (subgroveId indexerDid : String) (nonce : ℕ) : String :=
  s!"ClaimSubgroveIndexing\n{subgroveId}\n{indexerDid}\n{nonce}"

def deregisterSubgroveMessage (subgroveId ownerDid : String) (nonce : ℕ) : String :=
  s!"DeregisterSubgrove:{subgroveId}:{ownerDid}:{nonce}"

section Calls

-- the signature of a text under the caller's key: `sign_challenge` or `SigningKey::sign`
variable (sign : String → Result Bytes)

def transfer (fromDid toDid : String) (amount : Amount) (memo : Option String)
    (publicKeyId : String) (nonce : ℕ) : Result InlineTx := do
  let signature ← sign (transferMessage fromDid toDid amount memo nonce)
  .ok (.transfer { fromDid, toDid, amount, memo, signature, publicKeyId, nonce })

/-- The request's nonce and signature are ignored. -/
def fundSubgrove (request : FundSubgroveRequest) (nonce : ℕ) : Result InlineTx := do
  let signature ← sign
    (fundSubgroveMessage request.subgroveId request.amount request.fromDid nonce)
  .ok (.fundSubgrove
    { subgroveId := request.subgroveId
      amount := request.amount
      fromDid := request.fromDid
      signature
      publicKeyId := request.publicKeyId
      nonce })

def claimSubgroveIndexing (subgroveId indexerDid publicKeyId : String) (nonce : ℕ) :
    Result InlineTx := do
  let signature ← sign (claimSubgroveIndexingMessage subgroveId indexerDid nonce)
  .ok (.claimSubgroveIndexing { subgroveId, indexerDid, signature, publicKeyId, nonce })

/-- The request's nonce and signature are ignored. -/
def deregisterSubgrove (request : DeregisterSubgroveRequest) (nonce : ℕ) : Result InlineTx := do
  let signature ← sign (deregisterSubgroveMessage request.subgroveId request.ownerDid nonce)
  .ok (.deregisterSubgrove
    { subgroveId := request.subgroveId
      ownerDid := request.ownerDid
      signature
      publicKeyId := request.publicKeyId
      nonce })

/-- The transaction is one of the calls' under a nonce. -/
inductive Signs : InlineTx → Prop
  | transfer {fromDid toDid amount memo publicKeyId nonce t}
      (h : transfer sign fromDid toDid amount memo publicKeyId nonce = .ok t) : Signs t
  | fundSubgrove {request nonce t} (h : fundSubgrove sign request nonce = .ok t) : Signs t
  | claimSubgroveIndexing {subgroveId indexerDid publicKeyId nonce t}
      (h : claimSubgroveIndexing sign subgroveId indexerDid publicKeyId nonce = .ok t) : Signs t
  | deregisterSubgrove {request nonce t} (h : deregisterSubgrove sign request nonce = .ok t) :
      Signs t

end Calls

/-- Which call a transaction is from. -/
inductive Kind
  | transfer
  | fundSubgrove
  | claimSubgroveIndexing
  | deregisterSubgrove
deriving DecidableEq

namespace InlineTx

def kind : InlineTx → Kind
  | .transfer _ => .transfer
  | .fundSubgrove _ => .fundSubgrove
  | .claimSubgroveIndexing _ => .claimSubgroveIndexing
  | .deregisterSubgrove _ => .deregisterSubgrove

/-- The text the signature is over. -/
def message : InlineTx → String
  | .transfer tx => transferMessage tx.fromDid tx.toDid tx.amount tx.memo tx.nonce
  | .fundSubgrove tx => fundSubgroveMessage tx.subgroveId tx.amount tx.fromDid tx.nonce
  | .claimSubgroveIndexing tx =>
    claimSubgroveIndexingMessage tx.subgroveId tx.indexerDid tx.nonce
  | .deregisterSubgrove tx => deregisterSubgroveMessage tx.subgroveId tx.ownerDid tx.nonce

def signature : InlineTx → Bytes
  | .transfer tx => tx.signature
  | .fundSubgrove tx => tx.signature
  | .claimSubgroveIndexing tx => tx.signature
  | .deregisterSubgrove tx => tx.signature

/-- The transaction without its signature and the key's ID. -/
def unsigned : InlineTx → InlineTx
  | .transfer tx => .transfer { tx with signature := [], publicKeyId := "" }
  | .fundSubgrove tx => .fundSubgrove { tx with signature := [], publicKeyId := "" }
  | .claimSubgroveIndexing tx =>
    .claimSubgroveIndexing { tx with signature := [], publicKeyId := "" }
  | .deregisterSubgrove tx => .deregisterSubgrove { tx with signature := [], publicKeyId := "" }

def resigned (signature : Bytes) : InlineTx → InlineTx
  | .transfer tx => .transfer { tx with signature := signature }
  | .fundSubgrove tx => .fundSubgrove { tx with signature := signature }
  | .claimSubgroveIndexing tx => .claimSubgroveIndexing { tx with signature := signature }
  | .deregisterSubgrove tx => .deregisterSubgrove { tx with signature := signature }

@[simp] theorem kind_resigned (s : Bytes) (t : InlineTx) : (t.resigned s).kind = t.kind := by
  cases t <;> rfl

@[simp] theorem message_resigned (s : Bytes) (t : InlineTx) :
    (t.resigned s).message = t.message := by
  cases t <;> rfl

@[simp] theorem signature_resigned (s : Bytes) (t : InlineTx) : (t.resigned s).signature = s := by
  cases t <;> rfl

@[simp] theorem unsigned_resigned (s : Bytes) (t : InlineTx) :
    (t.resigned s).unsigned = t.unsigned := by
  cases t <;> rfl

end InlineTx

/-- The calls sign every transaction's own text, whatever its fields. -/
theorem signs_iff {sign : String → Result Bytes} {t : InlineTx} :
    Signs sign t ↔ sign t.message = .ok t.signature := by
  refine ⟨fun h => ?_, fun h => ?_⟩
  · cases h with
    | transfer h | fundSubgrove h | claimSubgroveIndexing h | deregisterSubgrove h =>
      obtain ⟨signature, hsign, ht⟩ := Outcome.bind_eq_ok.mp h
      obtain rfl := Except.ok.inj ht
      exact hsign
  · cases t with
    | transfer tx => exact .transfer (Outcome.bind_eq_ok.mpr ⟨_, h, rfl⟩)
    | fundSubgrove tx =>
      obtain ⟨subgroveId, amount, fromDid, _, publicKeyId, nonce⟩ := tx
      let request : FundSubgroveRequest := ⟨subgroveId, amount, fromDid, [], publicKeyId, 0⟩
      exact @Signs.fundSubgrove sign request _ _ (Outcome.bind_eq_ok.mpr ⟨_, h, rfl⟩)
    | claimSubgroveIndexing tx =>
      exact .claimSubgroveIndexing (Outcome.bind_eq_ok.mpr ⟨_, h, rfl⟩)
    | deregisterSubgrove tx =>
      obtain ⟨subgroveId, ownerDid, _, publicKeyId, nonce⟩ := tx
      let request : DeregisterSubgroveRequest := ⟨subgroveId, ownerDid, [], publicKeyId, 0⟩
      exact @Signs.deregisterSubgrove sign request _ _ (Outcome.bind_eq_ok.mpr ⟨_, h, rfl⟩)

/-! ### What stands between two fields -/

/-- What stands between a funding's subgrove and its sender, for an amount. -/
def fundLines (amount : Amount) : List (List Char) :=
  ["Amount: ".toList ++ (toString amount.val).toList, "From: ".toList]

/-- What stands between a transfer's recipient and its memo, for an amount. -/
def memoLines (amount : Amount) : List (List Char) :=
  ["Amount: ".toList ++ (toString amount.val).toList, "Memo: ".toList]

def fundMarkers : Set (List Char) := Markers.lined '\n' '' Set.range fundLines

def toMarkers : Set (List Char) := Markers.lined '\n' '' {["To: ".toList]}

def memoMarkers : Set (List Char) := Markers.lined '\n' '' Set.range memoLines

theorem amount_clean (amount : Amount) :
    '\n' ∉ "Amount: ".toList ++ (toString amount.val).toList := by
  rw [List.mem_append, not_or]
  exact ⟨by decide, Joined.not_mem_decimal (by decide) _⟩

theorem amount_line_inj {a b : Amount}
    (h : "Amount: ".toList ++ (toString a.val).toList = "Amount: ".toList ++ (toString b.val).toList) :
    a = b := by
  have hdecimal : (toString a.val).toList = (toString b.val).toList := List.append_cancel_left h
  have hval : a.val = b.val := Joined.decimal_inj (String.toList_inj.mp hdecimal)
  exact Fin.ext hval

/-- A marker that starts with an amount's line tells the amount. -/
theorem amount_marker_inj {a b : Amount} {last : List Char}
    (h : Markers.lined '\n' ["Amount: ".toList ++ (toString a.val).toList, last] <+:
      Markers.lined '\n' ["Amount: ".toList ++ (toString b.val).toList, last]) : a = b := by
  have hline := Markers.lined_first (amount_clean a) (amount_clean b) h
  exact amount_line_inj hline

theorem amount_lines_clean (a : Amount) {last : List Char} (h : '\n' ∉ last) :
    ∀ l ∈ ["Amount: ".toList ++ (toString a.val).toList, last], '\n' ∉ l := by
  intro l hl
  rcases List.mem_pair.mp hl with rfl | rfl
  · exact amount_clean a
  · exact h

theorem fundMarkers_apart : Markers.Apart fundMarkers := by
  apply Markers.apart_of_lined
  · intro ls hls
    obtain ⟨a, rfl⟩ := hls
    exact amount_lines_clean a (by decide)
  · intro ls hls ls' hls' h
    obtain ⟨a, rfl⟩ := hls
    obtain ⟨b, rfl⟩ := hls'
    rw [amount_marker_inj h]
  · intro ls hls ls' hls' l hl l' hl'
    obtain ⟨a, rfl⟩ := hls
    obtain ⟨b, rfl⟩ := hls'
    obtain rfl := List.mem_singleton.mp hl
    obtain rfl := Option.mem_some_iff.mp hl'
    simp

theorem toMemoMarkers_apart : Markers.Apart (toMarkers ∪ memoMarkers) := by
  rw [toMarkers, memoMarkers, ← Set.image_union]
  apply Markers.apart_of_lined
  · intro ls hls
    rcases hls with rfl | ⟨a, rfl⟩
    · intro l hl
      obtain rfl := List.mem_singleton.mp hl
      decide
    · exact amount_lines_clean a (by decide)
  · intro ls hls ls' hls' h
    rcases hls with rfl | ⟨a, rfl⟩ <;> rcases hls' with rfl | ⟨b, rfl⟩
    · rfl
    · simp [memoLines] at h
    · simp [memoLines] at h
    · rw [amount_marker_inj h]
  · intro ls hls ls' hls' l hl l' hl'
    rcases hls with rfl | ⟨a, rfl⟩ <;> rcases hls' with rfl | ⟨b, rfl⟩
    · cases hl
    · cases hl
    · obtain rfl := List.mem_singleton.mp hl
      obtain rfl := Option.mem_some_iff.mp hl'
      simp
    · obtain rfl := List.mem_singleton.mp hl
      obtain rfl := Option.mem_some_iff.mp hl'
      simp

/-- One separator is apart. -/
theorem separator_apart (c : Char) : Markers.Apart {[c]} := by
  have hlined : ({[c]} : Set (List Char)) = Markers.lined c '' {[[]]} := by simp
  rw [hlined]
  apply Markers.apart_of_lined
  · intro ls hls l hl
    obtain rfl : ls = [[]] := hls
    obtain rfl := List.mem_singleton.mp hl
    exact List.not_mem_nil
  · intro ls hls ls' hls' _
    exact hls.trans hls'.symm
  · intro ls hls ls' _ l hl
    obtain rfl : ls = [[]] := hls
    cases hl

/-! ### Messages, split -/

/-- Text that ends in a line of a number gives back the number and the rest. -/
theorem numbered_eq_iff {c : Char} {label : List Char} (hlabel : c ∉ label)
    (hc : c.isDigit = false) {text text' : List Char} {n n' : ℕ} :
    text ++ c :: (label ++ (toString n).toList) = text' ++ c :: (label ++ (toString n').toList) ↔
      text = text' ∧ n = n' := by
  have hclean : ∀ n : ℕ, c ∉ label ++ (toString n).toList := by
    intro n h
    rcases List.mem_append.mp h with h | h
    · exact hlabel h
    · exact Joined.not_mem_decimal hc n h
  refine ⟨fun h => ?_, fun h => ?_⟩
  · obtain ⟨htext, hn⟩ := Joined.cut_last_inj (hclean n) (hclean n') h
    have hdecimal : (toString n).toList = (toString n').toList := List.append_cancel_left hn
    exact ⟨htext, Joined.decimal_inj (String.toList_inj.mp hdecimal)⟩
  · rw [h.1, h.2]

theorem transferMessage_eq_iff {x y x' y' : String} {a a' : Amount} {z z' : Option String}
    {n n' : ℕ} : transferMessage x y a z n = transferMessage x' y' a' z' n' ↔
      (x.toList ++ Markers.lined '\n' ["To: ".toList] ++ y.toList ++
          Markers.lined '\n' (memoLines a) ++ (z.getD "").toList =
        x'.toList ++ Markers.lined '\n' ["To: ".toList] ++ y'.toList ++
          Markers.lined '\n' (memoLines a') ++ (z'.getD "").toList) ∧ n = n' := by
  have hlist : ∀ {x y : String} {a : Amount} {z : Option String} {n : ℕ},
      (transferMessage x y a z n).toList = "Transfer\nFrom: ".toList ++
        ((x.toList ++ Markers.lined '\n' ["To: ".toList] ++ y.toList ++
          Markers.lined '\n' (memoLines a) ++ (z.getD "").toList) ++
            '\n' :: ("Nonce: ".toList ++ (toString n).toList)) := by
    intro x y a z n
    unfold transferMessage
    simp [memoLines, toString]
  rw [← String.toList_inj, hlist, hlist, List.append_right_inj,
    numbered_eq_iff (by decide) (by decide)]

theorem fundSubgroveMessage_eq_iff {s f s' f' : String} {a a' : Amount} {n n' : ℕ} :
    fundSubgroveMessage s a f n = fundSubgroveMessage s' a' f' n' ↔
      (s.toList ++ Markers.lined '\n' (fundLines a) ++ f.toList =
        s'.toList ++ Markers.lined '\n' (fundLines a') ++ f'.toList) ∧ n = n' := by
  have hlist : ∀ {s f : String} {a : Amount} {n : ℕ},
      (fundSubgroveMessage s a f n).toList = "FundSubgrove\nSubgrove: ".toList ++
        ((s.toList ++ Markers.lined '\n' (fundLines a) ++ f.toList) ++
          '\n' :: ("Nonce: ".toList ++ (toString n).toList)) := by
    intro s f a n
    unfold fundSubgroveMessage
    simp [fundLines, toString]
  rw [← String.toList_inj, hlist, hlist, List.append_right_inj,
    numbered_eq_iff (by decide) (by decide)]

theorem claimSubgroveIndexingMessage_eq_iff {s i s' i' : String} {n n' : ℕ} :
    claimSubgroveIndexingMessage s i n = claimSubgroveIndexingMessage s' i' n' ↔
      (s.toList ++ ['\n'] ++ i.toList = s'.toList ++ ['\n'] ++ i'.toList) ∧ n = n' := by
  have hlist : ∀ {s i : String} {n : ℕ},
      (claimSubgroveIndexingMessage s i n).toList = "ClaimSubgroveIndexing\n".toList ++
        ((s.toList ++ ['\n'] ++ i.toList) ++ '\n' :: ([] ++ (toString n).toList)) := by
    intro s i n
    unfold claimSubgroveIndexingMessage
    simp [toString]
  rw [← String.toList_inj, hlist, hlist, List.append_right_inj,
    numbered_eq_iff (by decide) (by decide)]

theorem deregisterSubgroveMessage_eq_iff {s o s' o' : String} {n n' : ℕ} :
    deregisterSubgroveMessage s o n = deregisterSubgroveMessage s' o' n' ↔
      (s.toList ++ [':'] ++ o.toList = s'.toList ++ [':'] ++ o'.toList) ∧ n = n' := by
  have hlist : ∀ {s o : String} {n : ℕ},
      (deregisterSubgroveMessage s o n).toList = "DeregisterSubgrove:".toList ++
        ((s.toList ++ [':'] ++ o.toList) ++ ':' :: ([] ++ (toString n).toList)) := by
    intro s o n
    unfold deregisterSubgroveMessage
    simp [toString]
  rw [← String.toList_inj, hlist, hlist, List.append_right_inj,
    numbered_eq_iff (by decide) (by decide)]

/-! ### Binding -/

namespace InlineTx

/-- No field holds what stands between two fields, and a transfer has a memo
that isn't empty. -/
def Unambiguous : InlineTx → Prop
  | .transfer tx =>
    (∃ memo, tx.memo = some memo ∧ memo ≠ "" ∧ Markers.Free memoMarkers memo.toList) ∧
      Markers.Free toMarkers tx.fromDid.toList ∧ Markers.Free toMarkers tx.toDid.toList ∧
      Markers.Free memoMarkers tx.toDid.toList
  | .fundSubgrove tx =>
    Markers.Free fundMarkers tx.subgroveId.toList ∧ Markers.Free fundMarkers tx.fromDid.toList
  | .claimSubgroveIndexing tx => '\n' ∉ tx.subgroveId.toList ∧ '\n' ∉ tx.indexerDid.toList
  | .deregisterSubgrove tx => ':' ∉ tx.subgroveId.toList ∧ ':' ∉ tx.ownerDid.toList

/-- No field holds what stands between two fields. -/
def Separated : InlineTx → Prop
  | .transfer tx =>
    Markers.Free memoMarkers (tx.memo.getD "").toList ∧ Markers.Free toMarkers tx.fromDid.toList ∧
      Markers.Free toMarkers tx.toDid.toList ∧ Markers.Free memoMarkers tx.toDid.toList
  | tx => tx.Unambiguous

/-- The transaction with the memo it signs: the text, if any. -/
def memoText : InlineTx → InlineTx
  | .transfer tx => .transfer { tx with memo := some (tx.memo.getD "") }
  | tx => tx

/-- Every transaction of its kind with its message is it, but for what isn't
signed. -/
def Binds (t : InlineTx) : Prop :=
  ∀ t' : InlineTx, t'.kind = t.kind → t'.message = t.message → t'.unsigned = t.unsigned

end InlineTx

theorem free_separator {c : Char} {text : List Char} : Markers.Free {[c]} text ↔ c ∉ text := by
  simp [Markers.Free, List.singleton_infix_iff]

/-- Two fields around a separator split one way when neither holds it. -/
theorem separator_splits_iff {c : Char} {xs ys : List Char} :
    Markers.SplitsOnce {[c]} xs [c] ys ↔ c ∉ xs ∧ c ∉ ys := by
  have hne : [] ∉ ({[c]} : Set (List Char)) := by simp
  rw [Markers.splits_once_iff (separator_apart c) hne (Set.mem_singleton _), free_separator,
    free_separator]

theorem fund_splits_iff {a : Amount} {xs ys : List Char} :
    Markers.SplitsOnce fundMarkers xs (Markers.lined '\n' (fundLines a)) ys ↔
      Markers.Free fundMarkers xs ∧ Markers.Free fundMarkers ys := by
  have hne : [] ∉ fundMarkers := by simp [fundMarkers, fundLines]
  have hmem : Markers.lined '\n' (fundLines a) ∈ fundMarkers := Set.mem_image_of_mem _ ⟨a, rfl⟩
  exact Markers.splits_once_iff fundMarkers_apart hne hmem

theorem transfer_splits_iff {a : Amount} {x y z : List Char} :
    Markers.SplitsOnceTwice toMarkers memoMarkers x (Markers.lined '\n' ["To: ".toList]) y
        (Markers.lined '\n' (memoLines a)) z ↔
      Markers.Free toMarkers x ∧ Markers.Free toMarkers y ∧ Markers.Free memoMarkers y ∧
        Markers.Free memoMarkers z := by
  have hne : [] ∉ toMarkers ∪ memoMarkers := by simp [toMarkers, memoMarkers, memoLines]
  have hdisjoint : ∀ m ∈ toMarkers, m ∉ memoMarkers := by
    intro m hm hm'
    obtain ⟨_, rfl, rfl⟩ := hm
    obtain ⟨_, ⟨b, rfl⟩, h⟩ := hm'
    simp [memoLines] at h
  have hto : Markers.lined '\n' ["To: ".toList] ∈ toMarkers := Set.mem_image_of_mem _ rfl
  have hmemo : Markers.lined '\n' (memoLines a) ∈ memoMarkers := Set.mem_image_of_mem _ ⟨a, rfl⟩
  exact Markers.splits_once_twice_iff toMemoMarkers_apart hne hdisjoint hto hmemo

/-- A transfer without a memo has the text of one with an empty memo. -/
theorem memo_of_binds {tx : TransferTx} (h : (InlineTx.transfer tx).Binds) :
    ∃ memo, tx.memo = some memo ∧ memo ≠ "" := by
  by_contra hnone
  push Not at hnone
  have hempty : tx.memo.getD "" = "" := by
    cases hm : tx.memo with
    | none => rfl
    | some memo => exact hnone memo hm
  have hswap : ∀ memo : Option String, memo.getD "" = "" → memo = tx.memo := by
    intro memo hm
    have hmessage : (InlineTx.transfer { tx with memo := memo }).message =
        (InlineTx.transfer tx).message := transferMessage_eq_iff.mpr ⟨by rw [hm, hempty], rfl⟩
    have hsame := h _ (by rfl) hmessage
    simp only [InlineTx.unsigned, InlineTx.transfer.injEq, TransferTx.mk.injEq] at hsame
    exact hsame.2.2.2.1
  have hnone : none = tx.memo := hswap none rfl
  have hsome : some "" = tx.memo := hswap (some "") rfl
  rw [← hsome] at hnone
  cases hnone

/-- A transfer whose fields hold nothing that stands between two agrees with
any transfer of its message, up to an empty memo. -/
theorem transfer_agrees {tx tx' : TransferTx} (h : (InlineTx.transfer tx).Separated)
    (hmessage : (InlineTx.transfer tx').message = (InlineTx.transfer tx).message) :
    tx'.fromDid = tx.fromDid ∧ tx'.toDid = tx.toDid ∧ tx'.amount = tx.amount ∧
      tx'.memo.getD "" = tx.memo.getD "" ∧ tx'.nonce = tx.nonce := by
  obtain ⟨hz, hx, hy, hy'⟩ := h
  have honce : Markers.SplitsOnceTwice toMarkers memoMarkers tx.fromDid.toList
      (Markers.lined '\n' ["To: ".toList]) tx.toDid.toList
      (Markers.lined '\n' (memoLines tx.amount)) (tx.memo.getD "").toList :=
    transfer_splits_iff.mpr ⟨hx, hy, hy', hz⟩
  obtain ⟨heq, hn⟩ := transferMessage_eq_iff.mp hmessage
  obtain ⟨hfrom, -, hto, hmarker, hmemo⟩ := honce _ _ _ _ _ (Set.mem_image_of_mem _ rfl)
    (Set.mem_image_of_mem _ ⟨tx'.amount, rfl⟩) heq
  exact ⟨String.toList_inj.mp hfrom, String.toList_inj.mp hto,
    amount_marker_inj ⟨[], (List.append_nil _).trans hmarker⟩, String.toList_inj.mp hmemo, hn⟩

theorem transfer_binds_iff (tx : TransferTx) :
    (InlineTx.transfer tx).Binds ↔ (InlineTx.transfer tx).Unambiguous := by
  refine ⟨fun h => ?_, fun h => ?_⟩
  · obtain ⟨memo, hm, hne⟩ := memo_of_binds h
    -- another split of the text is another transfer with the same message
    have honce : Markers.SplitsOnceTwice toMarkers memoMarkers tx.fromDid.toList
        (Markers.lined '\n' ["To: ".toList]) tx.toDid.toList
        (Markers.lined '\n' (memoLines tx.amount)) (tx.memo.getD "").toList := by
      intro x' m' y' n' z' hm' hn' heq
      obtain ⟨_, rfl, rfl⟩ := hm'
      obtain ⟨_, ⟨a, rfl⟩, rfl⟩ := hn'
      have hmessage : (InlineTx.transfer { tx with
            fromDid := .ofList x', toDid := .ofList y', amount := a, memo := some (.ofList z') }).message =
          (InlineTx.transfer tx).message :=
        transferMessage_eq_iff.mpr ⟨by simpa using heq, rfl⟩
      have hsame := h _ (by rfl) hmessage
      simp only [InlineTx.unsigned, InlineTx.transfer.injEq, TransferTx.mk.injEq] at hsame
      obtain ⟨hx, hy, ha, hz, -⟩ := hsame
      exact ⟨by simp [← hx], rfl, by simp [← hy], by rw [ha], by simp [← hz]⟩
    obtain ⟨hx, hy, hy', hz⟩ := transfer_splits_iff.mp honce
    rw [hm, Option.getD_some] at hz
    exact ⟨⟨memo, hm, hne, hz⟩, hx, hy, hy'⟩
  · obtain ⟨⟨memo, hm, hne, hz⟩, hx, hy, hy'⟩ := h
    have hseparated : (InlineTx.transfer tx).Separated := by
      rw [InlineTx.Separated, hm]
      exact ⟨hz, hx, hy, hy'⟩
    intro t' hkind hmessage
    cases t' with
    | transfer tx' =>
      obtain ⟨hfrom, hto, hamount, hmemo, hn⟩ := transfer_agrees hseparated hmessage
      have hmemo : tx'.memo = tx.memo := by
        rw [hm, Option.getD_some] at hmemo
        cases hm' : tx'.memo with
        | none =>
          rw [hm', Option.getD_none] at hmemo
          exact absurd hmemo.symm hne
        | some memo' =>
          rw [hm', Option.getD_some] at hmemo
          rw [hm, hmemo]
      simp only [InlineTx.unsigned, hfrom, hto, hamount, hmemo, hn]
    | _ => cases hkind

theorem fundSubgrove_binds_iff (tx : FundSubgroveTx) :
    (InlineTx.fundSubgrove tx).Binds ↔ (InlineTx.fundSubgrove tx).Unambiguous := by
  rw [InlineTx.Unambiguous, ← fund_splits_iff (a := tx.amount)]
  refine ⟨fun h => ?_, fun h => ?_⟩
  · intro xs' m' ys' hm' heq
    obtain ⟨_, ⟨a, rfl⟩, rfl⟩ := hm'
    have hmessage : (InlineTx.fundSubgrove { tx with
          subgroveId := .ofList xs', amount := a, fromDid := .ofList ys' }).message =
        (InlineTx.fundSubgrove tx).message :=
      fundSubgroveMessage_eq_iff.mpr ⟨by simpa using heq, rfl⟩
    have hsame := h _ (by rfl) hmessage
    simp only [InlineTx.unsigned, InlineTx.fundSubgrove.injEq, FundSubgroveTx.mk.injEq] at hsame
    obtain ⟨hs, ha, hf, -⟩ := hsame
    exact ⟨by simp [← hs], by rw [ha], by simp [← hf]⟩
  · intro t' hkind hmessage
    cases t' with
    | fundSubgrove tx' =>
      obtain ⟨heq, hn⟩ := fundSubgroveMessage_eq_iff.mp hmessage
      obtain ⟨hs, hmarker, hf⟩ := h _ _ _ (Set.mem_image_of_mem _ ⟨tx'.amount, rfl⟩) heq
      have hsubgrove : tx'.subgroveId = tx.subgroveId := String.toList_inj.mp hs
      have hfrom : tx'.fromDid = tx.fromDid := String.toList_inj.mp hf
      have hamount : tx'.amount = tx.amount := amount_marker_inj ⟨[], (List.append_nil _).trans hmarker⟩
      simp only [InlineTx.unsigned, hsubgrove, hfrom, hamount, hn]
    | _ => cases hkind

theorem claimSubgroveIndexing_binds_iff (tx : ClaimSubgroveIndexingTx) :
    (InlineTx.claimSubgroveIndexing tx).Binds ↔
      (InlineTx.claimSubgroveIndexing tx).Unambiguous := by
  rw [InlineTx.Unambiguous, ← separator_splits_iff]
  refine ⟨fun h => ?_, fun h => ?_⟩
  · intro xs' m' ys' hm' heq
    obtain rfl := Set.mem_singleton_iff.mp hm'
    have hmessage : (InlineTx.claimSubgroveIndexing { tx with
          subgroveId := .ofList xs', indexerDid := .ofList ys' }).message =
        (InlineTx.claimSubgroveIndexing tx).message :=
      claimSubgroveIndexingMessage_eq_iff.mpr ⟨by simpa using heq, rfl⟩
    have hsame := h _ (by rfl) hmessage
    simp only [InlineTx.unsigned, InlineTx.claimSubgroveIndexing.injEq,
      ClaimSubgroveIndexingTx.mk.injEq] at hsame
    obtain ⟨hs, hi, -⟩ := hsame
    exact ⟨by simp [← hs], rfl, by simp [← hi]⟩
  · intro t' hkind hmessage
    cases t' with
    | claimSubgroveIndexing tx' =>
      obtain ⟨heq, hn⟩ := claimSubgroveIndexingMessage_eq_iff.mp hmessage
      obtain ⟨hs, -, hi⟩ := h _ _ _ (Set.mem_singleton _) heq
      have hsubgrove : tx'.subgroveId = tx.subgroveId := String.toList_inj.mp hs
      have hindexer : tx'.indexerDid = tx.indexerDid := String.toList_inj.mp hi
      simp only [InlineTx.unsigned, hsubgrove, hindexer, hn]
    | _ => cases hkind

theorem deregisterSubgrove_binds_iff (tx : DeregisterSubgroveTx) :
    (InlineTx.deregisterSubgrove tx).Binds ↔ (InlineTx.deregisterSubgrove tx).Unambiguous := by
  rw [InlineTx.Unambiguous, ← separator_splits_iff]
  refine ⟨fun h => ?_, fun h => ?_⟩
  · intro xs' m' ys' hm' heq
    obtain rfl := Set.mem_singleton_iff.mp hm'
    have hmessage : (InlineTx.deregisterSubgrove { tx with
          subgroveId := .ofList xs', ownerDid := .ofList ys' }).message =
        (InlineTx.deregisterSubgrove tx).message :=
      deregisterSubgroveMessage_eq_iff.mpr ⟨by simpa using heq, rfl⟩
    have hsame := h _ (by rfl) hmessage
    simp only [InlineTx.unsigned, InlineTx.deregisterSubgrove.injEq,
      DeregisterSubgroveTx.mk.injEq] at hsame
    obtain ⟨hs, ho, -⟩ := hsame
    exact ⟨by simp [← hs], rfl, by simp [← ho]⟩
  · intro t' hkind hmessage
    cases t' with
    | deregisterSubgrove tx' =>
      obtain ⟨heq, hn⟩ := deregisterSubgroveMessage_eq_iff.mp hmessage
      obtain ⟨hs, -, ho⟩ := h _ _ _ (Set.mem_singleton _) heq
      have hsubgrove : tx'.subgroveId = tx.subgroveId := String.toList_inj.mp hs
      have howner : tx'.ownerDid = tx.ownerDid := String.toList_inj.mp ho
      simp only [InlineTx.unsigned, hsubgrove, howner, hn]
    | _ => cases hkind

theorem binds_iff (t : InlineTx) : t.Binds ↔ t.Unambiguous := by
  cases t with
  | transfer tx => exact transfer_binds_iff tx
  | fundSubgrove tx => exact fundSubgrove_binds_iff tx
  | claimSubgroveIndexing tx => exact claimSubgroveIndexing_binds_iff tx
  | deregisterSubgrove tx => exact deregisterSubgrove_binds_iff tx

/-- What is left open where no field holds what stands between two is
whether a transfer without a memo's text has one. -/
theorem separated_agrees {t t' : InlineTx} (h : t.Separated) (hkind : t'.kind = t.kind)
    (hmessage : t'.message = t.message) : t'.unsigned.memoText = t.unsigned.memoText := by
  cases t with
  | transfer tx =>
    cases t' with
    | transfer tx' =>
      obtain ⟨hfrom, hto, hamount, hmemo, hn⟩ := transfer_agrees h hmessage
      simp only [InlineTx.unsigned, InlineTx.memoText, hfrom, hto, hamount, hmemo, hn]
    | _ => cases hkind
  | fundSubgrove tx => rw [(fundSubgrove_binds_iff tx).mpr h t' hkind hmessage]
  | claimSubgroveIndexing tx => rw [(claimSubgroveIndexing_binds_iff tx).mpr h t' hkind hmessage]
  | deregisterSubgrove tx => rw [(deregisterSubgrove_binds_iff tx).mpr h t' hkind hmessage]

/-- **When an inline signature binds its transaction.** No call signs another
transaction over the same text, of the same kind, exactly when no field holds
what stands between two. -/
theorem inline_messages_bind_iff {sign : String → Result Bytes} {t : InlineTx}
    (h : Signs sign t) :
    (∀ (sign' : String → Result Bytes) (t' : InlineTx), Signs sign' t' → t'.kind = t.kind →
      t'.message = t.message → t'.unsigned = t.unsigned) ↔ t.Unambiguous := by
  rw [← binds_iff]
  refine ⟨fun hsigned => ?_, fun hbinds => ?_⟩
  · intro t' hkind hmessage
    -- the same key signs the same text, so the other transaction is one a call signs
    have hsigns : Signs sign (t'.resigned t.signature) := by
      rw [signs_iff, InlineTx.message_resigned, InlineTx.signature_resigned, hmessage]
      exact signs_iff.mp h
    simpa using hsigned sign _ hsigns (by simpa using hkind) (by simpa using hmessage)
  · intro sign' t' _
    exact hbinds t'

namespace Sample

def sign (_ : String) : Result Bytes := .ok [1, 2, 3]

/-- The deregistration of a subgrove by its owner. -/
def deregistration : InlineTx := .deregisterSubgrove ⟨"notes", "did:willow:ada", [1, 2, 3], "k", 7⟩

/-- Another, of another subgrove. -/
def reading : InlineTx := .deregisterSubgrove ⟨"notes:did", "willow:ada", [1, 2, 3], "k", 7⟩

/-- An indexer's claim of a subgrove. -/
def claim : InlineTx := .claimSubgroveIndexing ⟨"notes", "did:willow:ada", [1, 2, 3], "k", 7⟩

end Sample

theorem inline_messages_bind_iff_sample :
    Sample.claim.Unambiguous ∧
      ∀ (sign' : String → Result Bytes) (t' : InlineTx), Signs sign' t' →
        t'.kind = Sample.claim.kind → t'.message = Sample.claim.message →
        t'.unsigned = Sample.claim.unsigned :=
  ⟨⟨by decide, by decide⟩,
    (inline_messages_bind_iff (signs_iff.mpr rfl : Signs Sample.sign Sample.claim)).mpr
      ⟨by decide, by decide⟩⟩

/-- One signature, two deregistrations. -/
theorem inline_messages_do_not_bind :
    Signs Sample.sign Sample.deregistration ∧ Signs Sample.sign Sample.reading ∧
      Sample.reading.kind = Sample.deregistration.kind ∧
      Sample.reading.message = Sample.deregistration.message ∧
      Sample.reading.unsigned ≠ Sample.deregistration.unsigned := by
  refine ⟨signs_iff.mpr rfl, signs_iff.mpr rfl, rfl, ?_, ?_⟩
  · decide +kernel
  · simp [Sample.reading, Sample.deregistration, InlineTx.unsigned]

end InlineMessages
end WillowSdk
