/-
# When a write gives its nonce back

A write that holds a nonce ends in one of a dozen places, and gives the nonce
back in those where its transaction cannot land: nothing was sent, the
mempool took none of it, or CheckTx refused it for another reason than its
nonce (`CannotLand`). Everywhere else the nonce is recorded used, or held
from the answer on. A rebroadcast sends the bytes it is given and gives
nothing back unless CheckTx says so.

`sendSigned_tookNothing` and `sendSigned_answered` say what sending leaves of
the client; `run_eq` brings every call to it; `nonce_given_back_iff` is the
result.
-/
import WillowSdk.NonceFlights

namespace WillowSdk
namespace Consensus

/-! ### What is left of a nonce -/

/-- The nonce is in the window of what is known and reported of the DID. -/
def InWindow (account : Account) (state : AccountNonceState) (nonce : ℕ) : Prop :=
  nonce ≤ u64Max ∧ nonce ≤ max account.base state.base + nonceWindow

/-- With no time passing, `take` hands out the nonce or a lower one, whatever
state it is given that has the nonce in its window and doesn't show it used. -/
def Available (client : Client) (did : String) (nonce : ℕ) : Prop :=
  ∀ state : AccountNonceState, state.base ≤ u64Max - nonceWindow → state.isUsed nonce = false →
    InWindow (client.tracker did) state nonce →
    ∃ m ≤ nonce, (client.tracker.take client.now did state).1 = .ok m

/-- Nothing holds the nonce any more. -/
structure GivenBack (client : Client) (did : String) (nonce : ℕ) : Prop where
  handed : (client.tracker did).handed nonce = none
  not_held : (client.tracker.isHeld client.now did nonce).1 = false
  available : ¬ (client.tracker did).IsUsed nonce → Available client did nonce

/-- The nonce is used, or held for 120 s from now; no `take` until then hands
it out. -/
structure StaysTaken (client : Client) (did : String) (nonce : ℕ) : Prop where
  held : ∀ t, client.now ≤ t → t < client.now + nonceHold →
    (client.tracker.isHeld t did nonce).1 = true ∨ (client.tracker did).IsUsed nonce
  not_taken : (client.tracker did).base ≤ u64Max - nonceWindow →
    ∀ t state, client.now ≤ t → t < client.now + nonceHold → state.base ≤ u64Max - nonceWindow →
      (client.tracker.take t did state).1 ≠ .ok nonce

section Left

variable {client : Client} {tracker : NonceTracker} {did : String} {nonce t since : ℕ}

theorem take_le_of_free {state : AccountNonceState}
    (hfirst : saturatingAdd ((tracker did).refresh (some state) t).base 1 ≤ nonce)
    (hlast : nonce ≤ saturatingAdd ((tracker did).refresh (some state) t).base nonceWindow)
    (hfree : ((tracker did).refresh (some state) t).isFree nonce = true) :
    ∃ m ≤ nonce, (tracker.take t did state).1 = .ok m := by
  rcases NonceTracker.take_cases _ rfl with ⟨m, hm, -, -, hmin, -⟩ | ⟨-, hnone, -⟩
  · refine ⟨m, ?_, hm⟩
    by_contra hlt
    have := hmin nonce hfirst (by omega)
    rw [hfree] at this
    cases this
  · have := hnone nonce hfirst hlast
    rw [hfree] at this
    cases this

theorem refresh_handed_none {account : Account} {s : Option AccountNonceState}
    (h : account.handed nonce = none) : (account.refresh s t).handed nonce = none := by
  by_contra hsome
  obtain ⟨τ, hτ⟩ := Option.ne_none_iff_exists'.mp hsome
  rw [(Account.refresh_handed.mp hτ).1] at h
  cases h

/-- A nonce not handed out is given back. -/
theorem givenBack_of_handed (h : (client.tracker did).handed nonce = none) :
    GivenBack client did nonce where
  handed := h
  not_held := by
    simp only [NonceTracker.isHeld, refresh_handed_none h, Option.isSome_none]
  available hunused state hbase hstate hwindow := by
    have hnot : ¬ ((client.tracker did).refresh (some state) client.now).IsUsed nonce := by
      rw [Account.isUsed_refresh_some hbase]
      intro hcase
      rcases hcase with hused | hused
      · exact hunused hused
      · rw [hstate] at hused
        cases hused
    obtain ⟨hlt, hmem⟩ := not_or.mp hnot
    obtain ⟨hmax, hlast⟩ := hwindow
    refine take_le_of_free ?_ ?_ ?_
    · exact (min_le_left _ _).trans (by omega)
    · exact le_min hlast hmax
    · simp [Account.isFree, hmem, refresh_handed_none h]

theorem held_of_keeps (h : (tracker did).Keeps nonce since) (hlt : t < since + nonceHold) :
    (tracker.isHeld t did nonce).1 = true ∨ (tracker did).IsUsed nonce := by
  rcases h.refresh (s := none) hlt with hused | ⟨τ, hτ, -⟩
  · exact .inr (Account.isUsed_refresh_none.mp hused)
  · exact .inl (by simp [NonceTracker.isHeld, hτ])

theorem staysTaken_of_keeps (h : (client.tracker did).Keeps nonce client.now) :
    StaysTaken client did nonce where
  held t _ hlt := held_of_keeps h hlt
  not_taken hbase t state hle hlt hstate htake := by
    have hkeeps := h.refresh (s := some state) hlt
    rcases NonceTracker.take_cases _ rfl with ⟨m, hm, ⟨hfirst, -⟩, hfree, -, -⟩ | ⟨⟨_, hnone⟩, -, -⟩
    · obtain rfl : m = nonce := Except.ok.inj (hm.symm.trans htake)
      rw [Account.refresh_some_base, (NonceTracker.window_eq (max_le hbase hstate)).1] at hfirst
      exact hkeeps.not_free ⟨by rw [Account.refresh_some_base]; omega, hfree⟩
    · rw [hnone] at htake
      cases htake

end Left

/-! ### Whether a transaction can land -/

namespace Reply

/-- The node took nothing of the bytes. -/
def TookNothing : Reply → Prop
  | .unsent _ => True
  | .answered response =>
    ∃ error, response.error = some error ∧ error.alreadyHeld = false ∧ error.beforeCheckTx = true
  | _ => False

/-- CheckTx refused the transaction, for another reason than its nonce. -/
def RefusedFree (nonce : ℕ) : Reply → Prop
  | .answered response => response.error = none ∧ ∃ result, response.result = some result ∧
      result.code ≠ 0 ∧ refusalOutcome result.log nonce = .free
  | _ => False

end Reply

/-- How far a write came. -/
inductive Attempt
  | unprepared (e : WillowError)
  | unencoded (e : WillowError)
  | replied (reply : Reply)

/-- The transaction can't land: nothing was handed to the node, or it took
none of it, or it refused it without its nonce held or used. -/
def Attempt.CannotLand (nonce : ℕ) : Attempt → Prop
  | .unprepared _ => True
  | .unencoded _ => True
  | .replied reply => reply.TookNothing ∨ reply.RefusedFree nonce

section Replies

variable {Tx Grant : Type} {net : Network Tx Grant} {txBytes : Bytes} {reply : Reply}

/-- **What an answer is read as.** An error when the node took nothing, a
refusal by CheckTx, or the transaction may land. -/
theorem readReply_cases (net : Network Tx Grant) (txBytes : Bytes) (reply : Reply) :
    (reply.TookNothing ∧ ∃ e, readReply net txBytes reply = .error e) ∨
    (¬ reply.TookNothing ∧ ∃ code log, readReply net txBytes reply = .ok (.refused code log) ∧
      ∀ n, reply.RefusedFree n ↔ refusalOutcome log n = .free) ∨
    (¬ reply.TookNothing ∧ (∀ n, ¬ reply.RefusedFree n) ∧
      ((∃ hash, readReply net txBytes reply = .ok (.accepted hash)) ∨
        ∃ e, readReply net txBytes reply = .ok (.unknown e))) := by
  cases reply with
  | unsent e => exact .inl ⟨trivial, e, rfl⟩
  | lost e => exact .inr (.inr ⟨id, fun _ => id, .inr ⟨e, rfl⟩⟩)
  | unreadable e => exact .inr (.inr ⟨id, fun _ => id, .inr ⟨e, rfl⟩⟩)
  | garbled m => exact .inr (.inr ⟨id, fun _ => id, .inr ⟨_, rfl⟩⟩)
  | answered response =>
    obtain ⟨result, error⟩ := response
    cases error with
    | some error =>
      have hrefused : ∀ n, ¬ (Reply.answered ⟨result, some error⟩).RefusedFree n :=
        fun n h => absurd h.1 (by simp)
      cases hheld : error.alreadyHeld with
      | true =>
        have htook : ¬ (Reply.answered ⟨result, some error⟩).TookNothing := by
          simp [Reply.TookNothing, hheld]
        have hread : readReply net txBytes (.answered ⟨result, some error⟩) =
            .ok (.accepted (txHash net txBytes)) := by
          simp only [readReply, hheld, if_true]
        exact .inr (.inr ⟨htook, hrefused, .inl ⟨_, hread⟩⟩)
      | false =>
        cases hbefore : error.beforeCheckTx with
        | true =>
          have htook : (Reply.answered ⟨result, some error⟩).TookNothing :=
            ⟨error, rfl, hheld, hbefore⟩
          refine .inl ⟨htook, ?_⟩
          simp [readReply, hheld, hbefore]
        | false =>
          have htook : ¬ (Reply.answered ⟨result, some error⟩).TookNothing := by
            simp [Reply.TookNothing, hbefore]
          refine .inr (.inr ⟨htook, hrefused, .inr ?_⟩)
          simp [readReply, hheld, hbefore]
    | none =>
      have htook : ¬ (Reply.answered ⟨result, none⟩).TookNothing := by simp [Reply.TookNothing]
      cases result with
      | none =>
        have hrefused : ∀ n, ¬ (Reply.answered ⟨none, none⟩).RefusedFree n := by
          simp [Reply.RefusedFree]
        exact .inr (.inr ⟨htook, hrefused, .inr ⟨_, rfl⟩⟩)
      | some result =>
        by_cases hcode : result.code = 0
        · have hrefused : ∀ n, ¬ (Reply.answered ⟨some result, none⟩).RefusedFree n := by
            simp [Reply.RefusedFree, hcode]
          have hread : readReply net txBytes (.answered ⟨some result, none⟩) =
              .ok (.accepted result.hash) := by
            simp [readReply, hcode]
          exact .inr (.inr ⟨htook, hrefused, .inl ⟨_, hread⟩⟩)
        · have hread : readReply net txBytes (.answered ⟨some result, none⟩) =
              .ok (.refused result.code result.log) := by
            simp [readReply, hcode]
          have hfree : ∀ n, (Reply.answered ⟨some result, none⟩).RefusedFree n ↔
              refusalOutcome result.log n = .free := by
            simp [Reply.RefusedFree, hcode]
          exact .inr (.inl ⟨htook, _, _, hread, hfree⟩)

end Replies

/-! ### What a settlement and a sending leave -/

section Sending

variable {Tx Grant : Type} {net : Network Tx Grant} {client : Client} {did : String} {nonce : ℕ}
  {submission : SignedSubmission}

theorem release_handed : ((client.release did nonce).tracker did).handed nonce = none := by
  simp [Client.release, NonceTracker.release, Account.unhand]

/-- Only an outcome that frees the nonce gives it up. -/
theorem settle_keeps {outcome : NonceOutcome} (h : outcome ≠ .free) :
    ((client.settle did nonce outcome).tracker did).Keeps nonce client.now := by
  cases outcome with
  | accepted | held | unknown => exact NonceTracker.hold_self
  | free => exact absurd rfl h
  | used => exact .inl (NonceTracker.settle_isUsed.mpr (.inr ⟨rfl, rfl, rfl⟩))

variable (submission) in
/-- Where the node took nothing, a new write releases its nonce and a
rebroadcast leaves everything as it is. -/
theorem sendSigned_tookNothing {reply : Reply} {after : Client}
    (hpost : net.post submission.txBytes client = (reply, after)) (h : reply.TookNothing) :
    ∃ e, ∀ releaseUnsent, sendSigned net submission releaseUnsent client =
      if releaseUnsent = true then (.error e, after.release submission.did submission.nonce)
      else (.error (.submissionUnknown e.text submission), after) := by
  rcases readReply_cases net submission.txBytes reply with ⟨-, e, hread⟩ | ⟨hno, -⟩ | ⟨hno, -⟩
  · refine ⟨e, fun releaseUnsent => ?_⟩
    cases releaseUnsent <;> simp [sendSigned, sendBytes, hpost, hread]
  · exact absurd h hno
  · exact absurd h hno

variable (submission) in
/-- Any other answer settles the nonce: it is given back when CheckTx refused
the transaction for another reason, and taken from then on otherwise. -/
theorem sendSigned_answered (releaseUnsent : Bool) {reply : Reply} {after : Client}
    {result : Result String} {client' : Client}
    (hpost : net.post submission.txBytes client = (reply, after)) (h : ¬ reply.TookNothing)
    (hsend : sendSigned net submission releaseUnsent client = (result, client')) :
    (reply.RefusedFree submission.nonce →
        client' = after.release submission.did submission.nonce) ∧
      (¬ reply.RefusedFree submission.nonce →
        (client'.tracker submission.did).Keeps submission.nonce client'.now) ∧
      ∀ message sent, result = .error (.submissionUnknown message sent) → sent = submission := by
  rcases readReply_cases net submission.txBytes reply with
    ⟨htook, -⟩ | ⟨-, code, log, hread, hfree⟩ | ⟨-, hfree, ⟨hash, hread⟩ | ⟨e, hread⟩⟩
  · exact absurd htook h
  · simp only [sendSigned, sendBytes, hpost, hread, Prod.mk.injEq] at hsend
    obtain ⟨rfl, rfl⟩ := hsend
    refine ⟨fun hr => by rw [(hfree _).mp hr]; rfl, fun hr => ?_, fun message sent hsent => ?_⟩
    · exact settle_keeps fun hout => hr ((hfree _).mpr hout)
    · simp [refused] at hsent
  · simp only [sendSigned, sendBytes, hpost, hread, Prod.mk.injEq] at hsend
    obtain ⟨rfl, rfl⟩ := hsend
    exact ⟨fun hr => absurd hr (hfree _), fun _ => settle_keeps (by decide), nofun⟩
  · simp only [sendSigned, sendBytes, hpost, hread, Prod.mk.injEq] at hsend
    obtain ⟨rfl, rfl⟩ := hsend
    refine ⟨fun hr => absurd hr (hfree _), fun _ => settle_keeps (by decide), ?_⟩
    intro message sent hsent
    injection hsent with hsent
    injection hsent with _ hsent
    exact hsent.symm

end Sending

/-! ### The calls -/

/-- A write: the call, with its arguments. -/
inductive Call (Tx Grant : Type)
  | submitWithNonce (did : String) (build : ℕ → Result Tx)
  | submitWithGivenNonce (did : String) (nonce : ℕ) (tx : Tx)
  | updateDidWithNonce (did : String) (transaction : Result Tx) (nonce : ℕ)
  | grantSubgroveKey (sign : String → Bytes) (subgroveId : String) (grant : Grant)
      (sender publicKeyId : String) (nonce : ℕ)
  | revokeSubgroveKey (sign : String → Bytes) (subgroveId revokee sender publicKeyId : String)
      (nonce : ℕ)
  | rotateSubgroveKey (sign : String → Bytes) (subgroveId : String) (newEpoch : ℕ)
      (newGrants : List Grant) (sender publicKeyId : String) (nonce : ℕ)

/-- A write with its nonce: the transaction to send under it, or why there is
none, and the client when it is sent. -/
structure Start (Tx : Type) where
  did : String
  nonce : ℕ
  transaction : Result Tx
  client : Client

section Writes

variable {Tx Grant : Type} (net : Network Tx Grant)

namespace Call

def run (client : Client) : Call Tx Grant → Result String × Client
  | .submitWithNonce did build => Consensus.submitWithNonce net did build client
  | .submitWithGivenNonce did nonce tx => Consensus.submitWithGivenNonce net did nonce tx client
  | .updateDidWithNonce did transaction nonce =>
    Consensus.updateDidWithNonce net did transaction nonce client
  | .grantSubgroveKey sign subgroveId grant sender publicKeyId nonce =>
    Consensus.grantSubgroveKey net sign subgroveId grant sender publicKeyId nonce client
  | .revokeSubgroveKey sign subgroveId revokee sender publicKeyId nonce =>
    Consensus.revokeSubgroveKey net sign subgroveId revokee sender publicKeyId nonce client
  | .rotateSubgroveKey sign subgroveId newEpoch newGrants sender publicKeyId nonce =>
    Consensus.rotateSubgroveKey net sign subgroveId newEpoch newGrants sender publicKeyId nonce
      client

/-- A write under the caller's nonce, which it holds once there is something
to send. -/
def given (did : String) (nonce : ℕ) (transaction : Result Tx) (client : Client) : Start Tx :=
  ⟨did, nonce, transaction,
    match transaction with
    | .ok _ => client.hold did nonce
    | .error _ => client⟩

/-- The write once it has its nonce; `submit_with_nonce` may get none. -/
def start (client : Client) : Call Tx Grant → Option (Start Tx)
  | .submitWithNonce did build =>
    match net.accountNonceState did client with
    | (.error _, _) => none
    | (.ok state, client) =>
      match client.tracker.take client.now did state with
      | (.error _, _) => none
      | (.ok nonce, tracker) => some ⟨did, nonce, build nonce, { client with tracker := tracker }⟩
  | .submitWithGivenNonce did nonce tx => some (given did nonce (.ok tx) client)
  | .updateDidWithNonce did transaction nonce => some (given did nonce transaction client)
  | .grantSubgroveKey sign subgroveId grant sender publicKeyId nonce =>
    let tx : GrantSubgroveKeyTx Grant := ⟨subgroveId, grant, sender, [], publicKeyId, nonce⟩
    some (given sender nonce ((net.grantMessage tx).map fun m =>
      net.grantTransaction { tx with signature := sign m }) client)
  | .revokeSubgroveKey sign subgroveId revokee sender publicKeyId nonce =>
    let tx : SignedMessages.RevokeSubgroveKeyTx :=
      ⟨subgroveId, revokee, sender, [], publicKeyId, nonce⟩
    some (given sender nonce ((SignedMessages.revokeSubgroveKey net.validateDid tx).map fun m =>
      net.revokeTransaction { tx with signature := sign m }) client)
  | .rotateSubgroveKey sign subgroveId newEpoch newGrants sender publicKeyId nonce =>
    let tx : RotateSubgroveKeyTx Grant :=
      ⟨subgroveId, newEpoch, newGrants, sender, [], publicKeyId, nonce⟩
    some (given sender nonce ((net.rotateMessage tx).map fun m =>
      net.rotateTransaction { tx with signature := sign m }) client)

end Call

namespace Start

/-- Send the transaction, or release the nonce of one that couldn't be made. -/
def submit (s : Start Tx) : Result String × Client :=
  match s.transaction with
  | .error e => (.error e, s.client.release s.did s.nonce)
  | .ok tx => submitUnder net s.did s.nonce tx s.client

/-- How far the write comes. -/
def attempt (s : Start Tx) : Attempt :=
  match s.transaction with
  | .error e => .unprepared e
  | .ok tx =>
    match encode net tx with
    | .error e => .unencoded e
    | .ok txBytes => .replied (net.post txBytes s.client).1

/-- The submission is of the write's transaction, under its nonce. -/
def Sent (s : Start Tx) (submission : SignedSubmission) : Prop :=
  ∃ tx txBytes, s.transaction = .ok tx ∧ encode net tx = .ok txBytes ∧
    submission = ⟨s.did, s.nonce, txBytes, txHash net txBytes⟩

/-- The write holds its nonce, in a tracker that calls have led to, and no
other write gives the nonce up or shows it used while this one is in flight. -/
structure Holds (s : Start Tx) : Prop where
  reached : Reached s.client
  handed : (s.client.tracker s.did).handed s.nonce ≠ none
  flight : ∀ txBytes, Flight s.did s.nonce s.client (net.post txBytes s.client).2

end Start

variable {net}

theorem submitKeyTransaction_eq {sender : String} {nonce : ℕ} {message : Result String}
    {signed : String → Tx} {client : Client} :
    submitKeyTransaction net sender nonce message signed client =
      (Call.given sender nonce (message.map signed) client).submit net := by
  cases message <;> rfl

/-- `submit_with_nonce` starts with the nonce it takes. -/
theorem submitWithNonce_start {did : String} {build : ℕ → Result Tx} {client : Client}
    {s : Start Tx} (h : (Call.submitWithNonce did build).start net client = some s) :
    ∃ state before nonce tracker, net.accountNonceState did client = (.ok state, before) ∧
      before.tracker.take before.now did state = (.ok nonce, tracker) ∧
      s = ⟨did, nonce, build nonce, { before with tracker := tracker }⟩ := by
  simp only [Call.start] at h
  split at h
  · cases h
  · next state before hstate =>
    split at h
    · cases h
    · next nonce tracker htake =>
      exact ⟨state, before, nonce, tracker, hstate, htake, (Option.some.inj h).symm⟩

/-- Every call with a nonce submits or releases it. -/
theorem run_eq {call : Call Tx Grant} {client : Client} {s : Start Tx}
    (h : call.start net client = some s) : call.run net client = s.submit net := by
  cases call with
  | submitWithNonce did build =>
    obtain ⟨state, before, nonce, tracker, hstate, htake, rfl⟩ := submitWithNonce_start h
    cases hbuild : build nonce <;>
      simp [Call.run, submitWithNonce, hstate, htake, Start.submit, hbuild]
  | submitWithGivenNonce did nonce tx =>
    obtain rfl := Option.some.inj h
    rfl
  | updateDidWithNonce did transaction nonce =>
    obtain rfl := Option.some.inj h
    cases transaction <;> rfl
  | grantSubgroveKey sign subgroveId grant sender publicKeyId nonce =>
    obtain rfl := Option.some.inj h
    exact submitKeyTransaction_eq
  | revokeSubgroveKey sign subgroveId revokee sender publicKeyId nonce =>
    obtain rfl := Option.some.inj h
    exact submitKeyTransaction_eq
  | rotateSubgroveKey sign subgroveId newEpoch newGrants sender publicKeyId nonce =>
    obtain rfl := Option.some.inj h
    exact submitKeyTransaction_eq

variable (net) in
/-- What submitting leaves: the nonce released where its transaction can't
land, at a client that still was as the flight left it, and taken elsewhere. -/
theorem submit_left (s : Start Tx) :
    ((s.attempt net).CannotLand s.nonce → ∃ client,
        (s.submit net).2 = client.release s.did s.nonce ∧
        (client = s.client ∨ ∃ txBytes, client = (net.post txBytes s.client).2)) ∧
      (¬ (s.attempt net).CannotLand s.nonce →
        ((s.submit net).2.tracker s.did).Keeps s.nonce (s.submit net).2.now ∧
        ∀ message submission, (s.submit net).1 = .error (.submissionUnknown message submission) →
          s.Sent net submission) := by
  cases htx : s.transaction with
  | error e =>
    have hattempt : s.attempt net = .unprepared e := by rw [Start.attempt, htx]
    rw [hattempt]
    refine ⟨fun _ => ⟨s.client, ?_, .inl rfl⟩, fun h => absurd trivial h⟩
    rw [Start.submit, htx]
  | ok tx =>
    cases hencode : encode net tx with
    | error e =>
      have hattempt : s.attempt net = .unencoded e := by
        simp only [Start.attempt, htx, hencode]
      rw [hattempt]
      refine ⟨fun _ => ⟨s.client, ?_, .inl rfl⟩, fun h => absurd trivial h⟩
      simp only [Start.submit, htx, submitUnder, hencode]
    | ok txBytes =>
      have hattempt : s.attempt net = .replied (net.post txBytes s.client).1 := by
        simp only [Start.attempt, htx, hencode]
      have hsubmit : s.submit net =
          sendSigned net ⟨s.did, s.nonce, txBytes, txHash net txBytes⟩ true s.client := by
        simp only [Start.submit, htx, submitUnder, hencode]
      rw [hattempt, hsubmit]
      by_cases htook : (net.post txBytes s.client).1.TookNothing
      · obtain ⟨e, hsend⟩ := sendSigned_tookNothing
          ⟨s.did, s.nonce, txBytes, txHash net txBytes⟩ rfl htook
        rw [hsend true]
        exact ⟨fun _ => ⟨_, rfl, .inr ⟨txBytes, rfl⟩⟩, fun h => absurd (.inl htook) h⟩
      · obtain ⟨hfree, hkeeps, hsent⟩ := sendSigned_answered
          ⟨s.did, s.nonce, txBytes, txHash net txBytes⟩ true rfl htook rfl
        refine ⟨fun h => ⟨_, hfree (h.resolve_left htook), .inr ⟨txBytes, rfl⟩⟩, fun h => ⟨?_, ?_⟩⟩
        · exact hkeeps fun hr => h (.inr hr)
        · intro message submission hresult
          exact ⟨tx, txBytes, htx, hencode, hsent message submission hresult⟩

/-- A nonce held when its write starts is unused when the write ends. -/
theorem Start.Holds.unused {s : Start Tx} (h : s.Holds net) {client : Client}
    (hclient : client = s.client ∨ ∃ txBytes, client = (net.post txBytes s.client).2) :
    ¬ ((client.release s.did s.nonce).tracker s.did).IsUsed s.nonce := by
  have hstart : ¬ (s.client.tracker s.did).IsUsed s.nonce :=
    (h.reached.wellFormed s.did).unused s.nonce h.handed
  have hend : ¬ (client.tracker s.did).IsUsed s.nonce := by
    rcases hclient with rfl | ⟨txBytes, rfl⟩
    · exact hstart
    · exact (h.flight txBytes).unused hstart
  exact fun hused => hend (NonceTracker.release_isUsed.mp hused)

/-! ### Rebroadcasts -/

variable (net) in
/-- What a rebroadcast of a submission does. -/
structure Resends (submission : SignedSubmission) (client : Client) : Prop where
  /-- It sends the submission's bytes and no others. -/
  same_bytes : ∀ post, (∀ c, post submission.txBytes c = net.post submission.txBytes c) →
    rebroadcast { net with post := post } submission client = rebroadcast net submission client
  /-- An unknown outcome is the submission's. -/
  unknown : ∀ message sent, (rebroadcast net submission client).1 =
    .error (.submissionUnknown message sent) → sent = submission
  /-- Not sent or not admitted, it stays unknown and nothing is given back:
  the nonce is held from before the request. -/
  not_sent : (net.post submission.txBytes (client.hold submission.did submission.nonce)).1.TookNothing →
    (∃ message, (rebroadcast net submission client).1 =
      .error (.submissionUnknown message submission)) ∧
    (rebroadcast net submission client).2 =
      (net.post submission.txBytes (client.hold submission.did submission.nonce)).2
  held : (net.post submission.txBytes (client.hold submission.did submission.nonce)).1.TookNothing →
    Flight submission.did submission.nonce (client.hold submission.did submission.nonce)
      (rebroadcast net submission client).2 →
    ∀ t, (rebroadcast net submission client).2.now ≤ t → t < client.now + nonceHold →
      ((rebroadcast net submission client).2.tracker.isHeld t submission.did
          submission.nonce).1 = true ∨
        ((rebroadcast net submission client).2.tracker submission.did).IsUsed submission.nonce

  /-- It returns a hash exactly if its answer is that the bytes are accepted
  or held already. -/
  accepted : ∀ hash, (rebroadcast net submission client).1 = .ok hash ↔
    readReply net submission.txBytes
      (net.post submission.txBytes (client.hold submission.did submission.nonce)).1 =
        .ok (.accepted hash)
  /-- Answered, it settles the nonce: given back where CheckTx refused the
  transaction for another reason, and used or held from then on elsewhere. -/
  settled : ¬ (net.post submission.txBytes
      (client.hold submission.did submission.nonce)).1.TookNothing →
    ((net.post submission.txBytes
        (client.hold submission.did submission.nonce)).1.RefusedFree submission.nonce →
      GivenBack (rebroadcast net submission client).2 submission.did submission.nonce) ∧
    (¬ (net.post submission.txBytes
        (client.hold submission.did submission.nonce)).1.RefusedFree submission.nonce →
      StaysTaken (rebroadcast net submission client).2 submission.did submission.nonce)

theorem resends (submission : SignedSubmission) (client : Client) :
    Resends net submission client where
  same_bytes post hpost := by
    simp only [rebroadcast, sendSigned, sendBytes, hpost]
    rfl
  unknown message sent h := by
    by_cases htook : (net.post submission.txBytes
        (client.hold submission.did submission.nonce)).1.TookNothing
    · obtain ⟨e, hsend⟩ := sendSigned_tookNothing submission rfl htook
      rw [rebroadcast, hsend false] at h
      injection h with h
      injection h with _ h
      exact h.symm
    · exact (sendSigned_answered submission false rfl htook rfl).2.2 message sent h
  not_sent htook := by
    obtain ⟨e, hsend⟩ := sendSigned_tookNothing submission rfl htook
    rw [rebroadcast, hsend false]
    exact ⟨⟨e.text, rfl⟩, rfl⟩
  held _ hflight t hle hlt := by
    have hkeeps : ((client.hold submission.did submission.nonce).tracker submission.did).Keeps
        submission.nonce client.now := NonceTracker.hold_self
    exact held_of_keeps (hflight.keeps hkeeps le_rfl (by omega)).2 hlt
  accepted hash := by
    unfold rebroadcast sendSigned sendBytes
    dsimp only
    split
    case h_1 h => simp [h]
    case h_2 h => simp [h]
    case h_3 h => simp [h]
    case h_4 h => simp [h]
  settled htook := by
    have hsend : sendSigned net submission false (client.hold submission.did submission.nonce) =
        ((rebroadcast net submission client).1, (rebroadcast net submission client).2) := rfl
    obtain ⟨hfree, hkeeps, -⟩ := sendSigned_answered submission false rfl htook hsend
    refine ⟨fun hr => ?_, fun hr => staysTaken_of_keeps (hkeeps hr)⟩
    rw [hfree hr]
    exact givenBack_of_handed release_handed

/-! ### The result -/

/-- **A nonce is given back exactly when its transaction can't land.** -/
theorem nonce_given_back_iff (call : Call Tx Grant) (client : Client) (s : Start Tx)
    (hstart : call.start net client = some s) :
    ((s.attempt net).CannotLand s.nonce →
      GivenBack (call.run net client).2 s.did s.nonce ∧
        (s.Holds net → Available (call.run net client).2 s.did s.nonce)) ∧
    (¬ (s.attempt net).CannotLand s.nonce →
      StaysTaken (call.run net client).2 s.did s.nonce ∧
        ∀ message submission,
          (call.run net client).1 = .error (.submissionUnknown message submission) →
          s.Sent net submission ∧
            ∀ (later : Network Tx Grant) (client' : Client), Resends later submission client') := by
  rw [run_eq hstart]
  obtain ⟨hreleased, hkept⟩ := submit_left net s
  refine ⟨fun h => ?_, fun h => ?_⟩
  · obtain ⟨before, hend, hbefore⟩ := hreleased h
    rw [hend]
    have hback : GivenBack (before.release s.did s.nonce) s.did s.nonce :=
      givenBack_of_handed release_handed
    exact ⟨hback, fun hholds => hback.available (hholds.unused hbefore)⟩
  · obtain ⟨hkeeps, hsent⟩ := hkept h
    refine ⟨staysTaken_of_keeps hkeeps, fun message submission hresult => ⟨hsent _ _ hresult, ?_⟩⟩
    exact fun later client' => resends submission client'

end Writes

namespace Sample

/-- A network whose mempool is full. -/
def fullMempool : Network Bytes Unit where
  accountNonceState _ client := (.ok ⟨5, 0⟩, client)
  post _ client :=
    (.answered ⟨none, some ⟨-32603, "Internal error", some "mempool is full: 5000 txs"⟩⟩, client)
  serialize tx := .ok (0 :: tx)
  sha256 bytes := bytes
  validateDid _ _ := .ok ()
  grantMessage _ := .ok "GRANT_SUBGROVE_KEY"
  rotateMessage _ := .ok "ROTATE_SUBGROVE_KEY"
  grantTransaction tx := tx.signature
  revokeTransaction tx := tx.signature
  rotateTransaction tx := tx.signature

/-- A DID's next write. -/
def write : Call Bytes Unit :=
  .submitWithNonce "did:willow:ada" fun nonce => .ok [UInt8.ofNat nonce]

/-- A client that has written nothing. -/
def fresh : Client := ⟨.new, 100⟩

/-- The nonce after those the chain knows, and the client that holds it. -/
def started : Start Bytes :=
  ⟨"did:willow:ada", 6, .ok [6], ⟨(NonceTracker.new.take 100 "did:willow:ada" ⟨5, 0⟩).2, 100⟩⟩

theorem write_start : write.start fullMempool fresh = some started := rfl

theorem started_holds : started.Holds fullMempool where
  reached := by
    have hroom : 5 ≤ u64Max - nonceWindow := by decide
    exact ⟨100, .single (.call (.take "did:willow:ada" ⟨5, 0⟩) le_rfl hroom trivial)⟩
  handed := by decide
  flight _ := .refl

end Sample

theorem nonce_given_back_iff_sample :
    GivenBack (Sample.write.run Sample.fullMempool Sample.fresh).2 "did:willow:ada" 6 ∧
      Available (Sample.write.run Sample.fullMempool Sample.fresh).2 "did:willow:ada" 6 := by
  obtain ⟨hback, havailable⟩ :=
    (nonce_given_back_iff Sample.write Sample.fresh Sample.started Sample.write_start).1
      (.inl ⟨_, rfl, by decide, by decide⟩)
  exact ⟨hback, havailable Sample.started_holds⟩

end Consensus
end WillowSdk
