/-
# Writes and rebroadcasts over one tracker

A run of `submit_with_nonce` writes, and of rebroadcasts of those whose
outcome stayed unknown (src/consensus.rs). A write takes a nonce, and its
answer settles it; a rebroadcast holds the nonce of its submission, and its
answer settles that. The tracker keeps a hold by its nonce alone, so an
answer that gives back a nonce frees it for whichever write has it.

A write in flight for less than a hold is `Protected` when no `take` would
return its nonce. Every write is, throughout a run, exactly when each step is
`Good` (`settling_frees_no_other_nonce`).
-/
import WillowSdk.GivenBack
import WillowSdk.NonceRuns
import WillowSdk.Lib.Runs

namespace WillowSdk
namespace Consensus

open NonceRuns (Write)

/-- What a posted submission's reply leaves: `send_signed` from there on. -/
def answered {Tx Grant : Type} (net : Network Tx Grant) (submission : SignedSubmission)
    (releaseUnsent : Bool) (reply : Reply) (client : Client) : Result String × Client :=
  sendSigned { net with post := fun _ client => (reply, client) } submission releaseUnsent client

theorem sendSigned_eq_answered {Tx Grant : Type} (net : Network Tx Grant)
    (submission : SignedSubmission) (releaseUnsent : Bool) (client : Client) :
    sendSigned net submission releaseUnsent client =
      answered net submission releaseUnsent (net.post submission.txBytes client).1
        (net.post submission.txBytes client).2 := rfl

/-- The reply makes its sender give the nonce back. -/
def Reply.GivesBack (reply : Reply) (releaseUnsent : Bool) (nonce : ℕ) : Prop :=
  (releaseUnsent = true ∧ reply.TookNothing) ∨ reply.RefusedFree nonce

/-- Any other reply leaves the nonce as it was, or settles it but not as Free. -/
theorem answered_client {Tx Grant : Type} (net : Network Tx Grant) (submission : SignedSubmission)
    (releaseUnsent : Bool) (reply : Reply) (client : Client) :
    (reply.GivesBack releaseUnsent submission.nonce →
      (answered net submission releaseUnsent reply client).2 =
        client.release submission.did submission.nonce) ∧
    (¬ reply.GivesBack releaseUnsent submission.nonce →
      (answered net submission releaseUnsent reply client).2 = client ∨
      ∃ outcome, outcome ≠ .free ∧ (answered net submission releaseUnsent reply client).2 =
        client.settle submission.did submission.nonce outcome) := by
  have hread : readReply { net with post := fun _ client => (reply, client) } submission.txBytes reply =
      readReply net submission.txBytes reply := rfl
  unfold answered sendSigned sendBytes Reply.GivesBack
  simp only [hread]
  rcases readReply_cases net submission.txBytes reply with
    ⟨htook, e, hr⟩ | ⟨hno, code, log, hr, hfree⟩ | ⟨hno, hfree, ⟨hash, hr⟩ | ⟨e, hr⟩⟩
  · have hrefused : ¬ reply.RefusedFree submission.nonce := by
      cases reply with
      | answered response =>
        obtain ⟨error, herror, -⟩ := htook
        intro h
        have hnone : response.error = none := h.1
        rw [herror] at hnone
        cases hnone
      | unsent | lost | unreadable | garbled => exact id
    simp only [hr]
    cases releaseUnsent with
    | true => exact ⟨fun _ => rfl, fun h => absurd (.inl ⟨rfl, htook⟩) h⟩
    | false =>
      refine ⟨fun h => ?_, fun _ => .inl rfl⟩
      rcases h with h | h
      · cases h.1
      · exact absurd h hrefused
  · simp only [hr]
    refine ⟨fun h => ?_, fun h => .inr ⟨refusalOutcome log submission.nonce, ?_, rfl⟩⟩
    · rcases h with h | h
      · exact absurd h.2 hno
      · rw [(hfree _).mp h]
        rfl
    · exact fun hout => h (.inr ((hfree _).mpr hout))
  · simp only [hr]
    refine ⟨fun h => ?_, fun _ => .inr ⟨.accepted, by decide, rfl⟩⟩
    exact absurd (h.imp_left And.right) (by simp [hno, hfree])
  · simp only [hr]
    refine ⟨fun h => ?_, fun _ => .inr ⟨.unknown, by decide, rfl⟩⟩
    exact absurd (h.imp_left And.right) (by simp [hno, hfree])

namespace Rebroadcasts

/-- The writes and rebroadcasts in flight, and the submissions whose outcome
stayed unknown. -/
structure World where
  client : Client
  writes : List Write
  rebroadcasts : List SignedSubmission
  unknown : List SignedSubmission

def World.init : World := ⟨⟨.new, 0⟩, [], [], []⟩

inductive Action
  /-- A write takes a nonce, given what the chain reports. -/
  | take (now : ℕ) (did : String) (state : AccountNonceState)
  /-- A write could not build or encode its transaction. -/
  | unsigned (now : ℕ) (write : Write)
  /-- A write's bytes were posted, and the reply is there. -/
  | answer (now : ℕ) (write : Write) (txBytes : Bytes) (reply : Reply)
  /-- A submission is sent again. -/
  | rebroadcast (now : ℕ) (submission : SignedSubmission)
  | answerAgain (now : ℕ) (submission : SignedSubmission) (reply : Reply)

def Action.now : Action → ℕ
  | .take now .. | .unsigned now _ | .answer now .. | .rebroadcast now _ | .answerAgain now .. => now

/-- The submission an unknown outcome carries. -/
def unknownOf : Result String → List SignedSubmission
  | .error (.submissionUnknown _ submission) => [submission]
  | _ => []

section Steps

variable {Tx Grant : Type} (net : Network Tx Grant)

def signedBy (write : Write) (txBytes : Bytes) : SignedSubmission :=
  ⟨write.did, write.nonce, txBytes, txHash net txBytes⟩

def step (w : World) (action : Action) : World :=
  let client : Client := ⟨w.client.tracker, action.now⟩
  match action with
  | .take now did state =>
    let (result, tracker) := client.tracker.take now did state
    { w with
      client := ⟨tracker, now⟩
      writes := match result with
        | .ok nonce => ⟨did, nonce, now⟩ :: w.writes
        | .error _ => w.writes }
  | .unsigned _ write =>
    { w with client := client.release write.did write.nonce, writes := w.writes.erase write }
  | .answer _ write txBytes reply =>
    let (result, client) := answered net (signedBy net write txBytes) true reply client
    { w with
      client := client
      writes := w.writes.erase write
      unknown := unknownOf result ++ w.unknown }
  | .rebroadcast _ submission =>
    { w with
      client := client.hold submission.did submission.nonce
      rebroadcasts := submission :: w.rebroadcasts }
  | .answerAgain _ submission reply =>
    let (result, client) := answered net submission false reply client
    { w with
      client := client
      rebroadcasts := w.rebroadcasts.erase submission
      unknown := unknownOf result ++ w.unknown }

/-- The clock doesn't go back, a base is an unsigned 64-bit number, and what
is answered or sent again is there. -/
def May (w : World) (action : Action) : Prop :=
  w.client.now ≤ action.now ∧
    match action with
    | .take _ _ state => state.base ≤ u64Max
    | .unsigned _ write | .answer _ write _ _ => write ∈ w.writes
    | .rebroadcast _ submission => submission ∈ w.unknown
    | .answerAgain _ submission _ => submission ∈ w.rebroadcasts

end Steps

/-- No `take` returns the nonce of a write in flight, until 120 s after the
write took it. -/
def Protected (w : World) : Prop :=
  ∀ write ∈ w.writes, ∀ (now : ℕ) (state : AccountNonceState), w.client.now ≤ now →
    now < write.takenAt + nonceHold → state.base < u64Max →
    (w.client.tracker.take now write.did state).1 ≠ .ok write.nonce

/-- The nonce may be given back: it is known used, or no other write in flight
has had it for less than a hold. -/
def Spared (tracker : NonceTracker) (now : ℕ) (others : List Write) (did : String) (nonce : ℕ) :
    Prop :=
  (tracker did).IsUsed nonce ∨
    ∀ write ∈ others, write.did = did → write.nonce = nonce → write.takenAt + nonceHold ≤ now

/-- The step gives no nonce back that another write has, and takes none above
the largest base. -/
def Good (w : World) : Action → Prop
  | .take _ _ state => state.base < u64Max
  | .unsigned now write =>
    Spared w.client.tracker now (w.writes.erase write) write.did write.nonce
  | .answer now write _ reply => reply.GivesBack true write.nonce →
    Spared w.client.tracker now (w.writes.erase write) write.did write.nonce
  | .rebroadcast _ _ => True
  | .answerAgain now submission reply => reply.GivesBack false submission.nonce →
    Spared w.client.tracker now w.writes submission.did submission.nonce

/-! ### What a step keeps -/

structure Invariant (w : World) : Prop where
  base_lt : ∀ did, (w.client.tracker did).base < u64Max
  nonce_le : ∀ write ∈ w.writes, write.nonce ≤ u64Max
  takenAt_le : ∀ write ∈ w.writes, write.takenAt ≤ w.client.now
  kept : ∀ write ∈ w.writes, (w.client.tracker write.did).Keeps write.nonce write.takenAt ∨
    write.takenAt + nonceHold ≤ w.client.now

theorem init_invariant : Invariant World.init :=
  ⟨fun _ => (show 0 < u64Max by decide), nofun, nofun, nofun⟩

section Take

variable {tracker : NonceTracker} {did : String} {n : ℕ}

/-- A nonce that nothing keeps is taken, when the chain reports the base just
below it. -/
theorem take_of_unheld (now : ℕ) (hhanded : (tracker did).handed n = none)
    (hunused : ¬ (tracker did).IsUsed n) (hn : n ≤ u64Max) :
    (tracker.take now did ⟨n - 1, 0⟩).1 = .ok n := by
  obtain ⟨hlt, hmem⟩ := not_or.mp hunused
  have hbase : max (tracker did).base (n - 1) = n - 1 := max_eq_right (by omega)
  have hfirst : saturatingAdd (n - 1) 1 = n := by
    unfold saturatingAdd
    omega
  have hrefresh : ((tracker did).refresh (some ⟨n - 1, 0⟩) now).handed n = none :=
    refresh_handed_none hhanded
  have hused : n ∉ ((tracker did).refresh (some ⟨n - 1, 0⟩) now).used := by
    simp [Account.refresh, AccountNonceState.usedNonces, hmem]
  have hfree : ((tracker did).refresh (some ⟨n - 1, 0⟩) now).isFree n = true := by
    simp [Account.isFree, hused, hrefresh]
  have hwindow : saturatingAdd ((tracker did).refresh (some ⟨n - 1, 0⟩) now).base 1 = n := by
    rw [Account.refresh_some_base, hbase, hfirst]
  have hlast : n ≤ saturatingAdd ((tracker did).refresh (some ⟨n - 1, 0⟩) now).base nonceWindow := by
    rw [Account.refresh_some_base, hbase]
    unfold saturatingAdd nonceWindow
    omega
  obtain ⟨m, hm, htake⟩ := take_le_of_free hwindow.le hlast hfree
  rcases NonceTracker.take_cases _ rfl with ⟨m', hm', ⟨hge, -⟩, -⟩ | ⟨⟨_, hnone⟩, -⟩
  · rw [hwindow] at hge
    obtain rfl : m' = m := Except.ok.inj (hm'.symm.trans htake)
    rw [htake, Nat.le_antisymm hm hge]
  · rw [hnone] at htake
    cases htake

end Take

theorem Invariant.protected {w : World} (h : Invariant w) : Protected w := by
  intro write hw now state hnow hyoung hstate
  rcases h.kept write hw with hkeeps | hlapsed
  · exact NonceTracker.take_ne_of_keeps (h.base_lt _) hstate hkeeps hyoung
  · omega

section Step

variable {Tx Grant : Type} {net : Network Tx Grant} {w w' : World} {client : Client}
  {others : List Write} {did : String} {nonce : ℕ}

/-- A settlement other than Free keeps every nonce taken. -/
theorem settle_keeps_all {outcome : NonceOutcome} (ho : outcome ≠ .free) {d : String} {m since : ℕ}
    (h : (client.tracker d).Keeps m since) (hsince : since ≤ client.now)
    (hnow : client.now < since + nonceHold) :
    ((client.settle did nonce outcome).tracker d).Keeps m since := by
  by_cases hsame : d = did ∧ m = nonce
  · obtain ⟨rfl, rfl⟩ := hsame
    cases outcome with
    | accepted | held | unknown => exact NonceTracker.hold_keeps h hsince hnow
    | free => exact absurd rfl ho
    | used => exact .inl (NonceTracker.settle_isUsed.mpr (.inr ⟨rfl, rfl, rfl⟩))
  · exact NonceTracker.settle_keeps h hsince hnow hsame

/-- A nonce spared may be released: nobody's hold goes with it. -/
theorem Spared.release_keeps (h : Spared client.tracker client.now others did nonce)
    {write : Write} (hw : write ∈ others)
    (hkeeps : (client.tracker write.did).Keeps write.nonce write.takenAt)
    (hyoung : client.now < write.takenAt + nonceHold) :
    ((client.release did nonce).tracker write.did).Keeps write.nonce write.takenAt := by
  by_cases hsame : write.did = did ∧ write.nonce = nonce
  · obtain ⟨rfl, rfl⟩ := hsame
    rcases h with hused | hlapsed
    · exact .inl (NonceTracker.release_isUsed.mpr hused)
    · have := hlapsed write hw rfl rfl
      omega
  · exact NonceTracker.release_keeps hkeeps hsame

variable (net client) in
/-- What a reply leaves of the nonces of other writes. -/
theorem answered_keeps (submission : SignedSubmission) (releaseUnsent : Bool) (reply : Reply)
    (hgood : reply.GivesBack releaseUnsent submission.nonce →
      Spared client.tracker client.now others submission.did submission.nonce) :
    (answered net submission releaseUnsent reply client).2.now = client.now ∧
    (∀ d, ((answered net submission releaseUnsent reply client).2.tracker d).base =
      (client.tracker d).base) ∧
    ∀ write ∈ others, (client.tracker write.did).Keeps write.nonce write.takenAt →
      write.takenAt ≤ client.now → client.now < write.takenAt + nonceHold →
      ((answered net submission releaseUnsent reply client).2.tracker write.did).Keeps
        write.nonce write.takenAt := by
  obtain ⟨hback, hkept⟩ := answered_client net submission releaseUnsent reply client
  by_cases hgives : reply.GivesBack releaseUnsent submission.nonce
  · rw [hback hgives]
    exact ⟨rfl, fun _ => NonceTracker.release_base,
      fun write hw hkeeps _ hyoung => (hgood hgives).release_keeps hw hkeeps hyoung⟩
  · rcases hkept hgives with h | ⟨outcome, ho, h⟩
    · rw [h]
      exact ⟨rfl, fun _ => rfl, fun _ _ hkeeps _ _ => hkeeps⟩
    · rw [h]
      exact ⟨rfl, fun _ => NonceTracker.settle_base,
        fun _ _ hkeeps hle hyoung => settle_keeps_all ho hkeeps hle hyoung⟩

/-- The invariant after a call that leaves no write in flight but earlier ones. -/
theorem Invariant.of_keeps (h : Invariant w) (hnow : w.client.now ≤ w'.client.now)
    (hbase : ∀ d, (w'.client.tracker d).base = (w.client.tracker d).base)
    (hsub : w'.writes ⊆ w.writes)
    (hkeeps : ∀ write ∈ w'.writes, (w.client.tracker write.did).Keeps write.nonce write.takenAt →
      write.takenAt ≤ w'.client.now → w'.client.now < write.takenAt + nonceHold →
      (w'.client.tracker write.did).Keeps write.nonce write.takenAt) : Invariant w' where
  base_lt d := hbase d ▸ h.base_lt d
  nonce_le write hw := h.nonce_le write (hsub hw)
  takenAt_le write hw := (h.takenAt_le write (hsub hw)).trans hnow
  kept write hw := by
    have hle := (h.takenAt_le write (hsub hw)).trans hnow
    by_cases hlapsed : write.takenAt + nonceHold ≤ w'.client.now
    · exact .inr hlapsed
    · rcases h.kept write (hsub hw) with hk | hlapsed'
      · exact .inl (hkeeps write hw hk hle (Nat.lt_of_not_le hlapsed))
      · exact absurd (hlapsed'.trans hnow) hlapsed

theorem take_invariant (h : Invariant w) {now : ℕ} {state : AccountNonceState}
    (hnow : w.client.now ≤ now) (hstate : state.base < u64Max) :
    Invariant (step net w (.take now did state)) := by
  have hbase : ∀ d, ((w.client.tracker.take now did state).2 d).base < u64Max := by
    intro d
    rw [NonceTracker.take_base]
    split
    · exact max_lt (h.base_lt d) hstate
    · exact h.base_lt d
  have hold : ∀ write ∈ w.writes, write.takenAt ≤ now ∧
      (((w.client.tracker.take now did state).2 write.did).Keeps write.nonce write.takenAt ∨
        write.takenAt + nonceHold ≤ now) := by
    intro write hw
    have hle := (h.takenAt_le write hw).trans hnow
    refine ⟨hle, ?_⟩
    by_cases hlapsed : write.takenAt + nonceHold ≤ now
    · exact .inr hlapsed
    · rcases h.kept write hw with hk | hlapsed'
      · exact .inl (NonceTracker.take_keeps hk hle (Nat.lt_of_not_le hlapsed))
      · exact absurd (hlapsed'.trans hnow) hlapsed
  cases htake : (w.client.tracker.take now did state).1 with
  | error e =>
    have hwrites : (step net w (.take now did state)).writes = w.writes := by
      simp [step, htake]
    refine ⟨hbase, fun write hw => ?_, fun write hw => ?_, fun write hw => ?_⟩
    · exact h.nonce_le write (hwrites ▸ hw)
    · exact (hold write (hwrites ▸ hw)).1
    · exact (hold write (hwrites ▸ hw)).2
  | ok n =>
    have hwrites : (step net w (.take now did state)).writes = ⟨did, n, now⟩ :: w.writes := by
      simp [step, htake]
    refine ⟨hbase, fun write hw => ?_, fun write hw => ?_, fun write hw => ?_⟩
    · rcases List.mem_cons.mp (hwrites ▸ hw) with rfl | hw
      · exact NonceTracker.take_le_u64Max htake
      · exact h.nonce_le write hw
    · rcases List.mem_cons.mp (hwrites ▸ hw) with rfl | hw
      · exact le_rfl
      · exact (hold write hw).1
    · rcases List.mem_cons.mp (hwrites ▸ hw) with rfl | hw
      · exact .inl (NonceTracker.take_keeps_taken htake)
      · exact (hold write hw).2

/-- **A good step keeps the invariant.** -/
theorem Invariant.step (h : Invariant w) {action : Action} (hmay : May w action)
    (hgood : Good w action) : Invariant (step net w action) := by
  obtain ⟨hnow, hthere⟩ := hmay
  cases action with
  | take now did state => exact take_invariant h hnow hgood
  | unsigned now write =>
    have hspared : Spared w.client.tracker now (w.writes.erase write) write.did write.nonce := hgood
    refine h.of_keeps hnow (fun _ => NonceTracker.release_base) List.erase_subset ?_
    intro other ho hkeeps _ hyoung
    let client : Client := ⟨w.client.tracker, now⟩
    have hkept : ((client.release write.did write.nonce).tracker other.did).Keeps other.nonce
        other.takenAt := hspared.release_keeps ho hkeeps hyoung
    exact hkept
  | answer now write txBytes reply =>
    obtain ⟨htime, hbase, hkeeps⟩ :=
      answered_keeps net ⟨w.client.tracker, now⟩ (signedBy net write txBytes) true reply hgood
    refine h.of_keeps ?_ hbase List.erase_subset ?_
    · exact hnow.trans htime.ge
    · intro other ho hk hle hyoung
      exact hkeeps other ho hk (hle.trans htime.le) (htime.symm.le.trans_lt hyoung)
  | rebroadcast now submission =>
    refine h.of_keeps hnow (fun _ => NonceTracker.hold_base) (List.Subset.refl _) ?_
    intro other _ hkeeps hle hyoung
    exact NonceTracker.hold_keeps hkeeps hle hyoung
  | answerAgain now submission reply =>
    obtain ⟨htime, hbase, hkeeps⟩ :=
      answered_keeps net ⟨w.client.tracker, now⟩ submission false reply hgood
    refine h.of_keeps ?_ hbase (List.Subset.refl _) ?_
    · exact hnow.trans htime.ge
    · intro other ho hk hle hyoung
      exact hkeeps other ho hk (hle.trans htime.le) (htime.symm.le.trans_lt hyoung)

/-! ### What only good steps keep -/

/-- Giving back a nonce that another write has leaves it to the next `take`. -/
theorem spared_of_protected {tracker : NonceTracker} {now : ℕ}
    (hnonce : ∀ write ∈ others, write.nonce ≤ u64Max)
    (hwrites : others ⊆ w'.writes) (hclient : w'.client = ⟨tracker.release did nonce, now⟩)
    (h : Protected w') : Spared tracker now others did nonce := by
  by_contra hnot
  obtain ⟨hunused, htaken⟩ := not_or.mp hnot
  push Not at htaken
  obtain ⟨write, hw, rfl, rfl, hyoung⟩ := htaken
  have hreleased : ((tracker.release write.did write.nonce) write.did).handed write.nonce = none := by
    simp [NonceTracker.release, Account.unhand]
  have hunused' : ¬ ((tracker.release write.did write.nonce) write.did).IsUsed write.nonce :=
    mt NonceTracker.release_isUsed.mp hunused
  have htake := take_of_unheld now hreleased hunused' (hnonce write hw)
  have hle : write.nonce - 1 < u64Max := by
    have hbelow := hnonce write hw
    have hpos : 0 < u64Max := by decide
    omega
  have hprotected := h write (hwrites hw) now ⟨write.nonce - 1, 0⟩ (by rw [hclient]) hyoung hle
  rw [hclient] at hprotected
  exact hprotected htake

/-- A step after which every write is protected was good. -/
theorem good_of_protected (hi : Invariant w) {action : Action} (hmay : May w action)
    (h : Protected (step net w action)) : Good w action := by
  cases action with
  | take now did state =>
    by_contra hnot
    have hmax : state.base = u64Max := Nat.le_antisymm hmay.2 (Nat.not_lt.mp hnot)
    have hbase : max (w.client.tracker did).base state.base = u64Max := by
      rw [hmax]
      exact max_eq_right (hi.base_lt did).le
    have htake : (w.client.tracker.take now did state).1 = .ok u64Max := NonceTracker.take_of_u64Max hbase
    have hwrites : (step net w (.take now did state)).writes = ⟨did, u64Max, now⟩ :: w.writes := by
      simp [step, htake]
    have hafter : ((w.client.tracker.take now did state).2 did).base = u64Max := by
      rw [NonceTracker.take_base, if_pos rfl]
      exact hbase
    have hagain : ((w.client.tracker.take now did state).2.take now did ⟨0, 0⟩).1 = .ok u64Max :=
      NonceTracker.take_of_u64Max (by rw [hafter]; exact max_eq_left (Nat.zero_le _))
    have hmem : (⟨did, u64Max, now⟩ : Write) ∈ (step net w (.take now did state)).writes := by
      rw [hwrites]
      exact List.mem_cons_self
    have hpos := nonceHold_pos
    have hyoung : now < now + nonceHold := by omega
    exact h _ hmem now ⟨0, 0⟩ le_rfl hyoung (show 0 < u64Max by decide) hagain
  | unsigned now write =>
    exact spared_of_protected (fun x hx => hi.nonce_le x (List.erase_subset hx))
      (List.Subset.refl _) rfl h
  | answer now write txBytes reply =>
    intro hgives
    have hback : (step net w (.answer now write txBytes reply)).client =
        ⟨w.client.tracker.release write.did write.nonce, now⟩ :=
      (answered_client net (signedBy net write txBytes) true reply ⟨w.client.tracker, now⟩).1 hgives
    exact spared_of_protected (fun x hx => hi.nonce_le x (List.erase_subset hx))
      (List.Subset.refl _) hback h
  | rebroadcast now submission => trivial
  | answerAgain now submission reply =>
    intro hgives
    have hback : (step net w (.answerAgain now submission reply)).client =
        ⟨w.client.tracker.release submission.did submission.nonce, now⟩ :=
      (answered_client net submission false reply ⟨w.client.tracker, now⟩).1 hgives
    have hsub : w.writes ⊆ (step net w (.answerAgain now submission reply)).writes :=
      List.Subset.refl _
    exact spared_of_protected hi.nonce_le hsub hback h

end Step

theorem invariant_of_good {Tx Grant : Type} (net : Network Tx Grant) {actions : List Action}
    (hmay : Runs.EachGood (step net) May World.init actions)
    (hgood : Runs.EachGood (step net) Good World.init actions) :
    Invariant (Runs.run (step net) World.init actions) :=
  Runs.invariant (fun _ _ hi h => hi.step h.1 h.2) init_invariant
    (Runs.eachGood_and.mpr ⟨hmay, hgood⟩)

/-- No `take` of a run, after the answer to a rebroadcast, returns the
submission's nonce while another write in flight has it, until 120 s after
that write took it. -/
def RebroadcastsSpare {Tx Grant : Type} (net : Network Tx Grant) (actions : List Action) : Prop :=
  ∀ before now submission reply between now' state rest,
    actions = before ++ .answerAgain now submission reply ::
      (between ++ .take now' submission.did state :: rest) →
    let w := Runs.run (step net) World.init (before ++ .answerAgain now submission reply :: between)
    ∀ write ∈ w.writes, write.did = submission.did → write.nonce = submission.nonce →
      now' < write.takenAt + nonceHold →
      (w.client.tracker.take now' submission.did state).1 ≠ .ok submission.nonce

/-- **A rebroadcast frees no other write's nonce**, whatever its answer, in a
run of good steps. -/
theorem rebroadcasts_spare {Tx Grant : Type} (net : Network Tx Grant) {actions : List Action}
    (hmay : Runs.EachGood (step net) May World.init actions)
    (hgood : Runs.EachGood (step net) Good World.init actions) : RebroadcastsSpare net actions := by
  intro before now submission reply between now' state rest hactions w write hw hdid hnonce hyoung
  have hsplit : actions = (before ++ .answerAgain now submission reply :: between) ++
      .take now' submission.did state :: rest := by
    rw [hactions, List.append_assoc, List.cons_append]
  rw [hsplit, Runs.eachGood_append] at hmay hgood
  obtain ⟨hmayBefore, ⟨hnow, -⟩, -⟩ := hmay
  obtain ⟨hgoodBefore, hstate, -⟩ := hgood
  have hprotected : Protected w := (invariant_of_good net hmayBefore hgoodBefore).protected
  have htake := hprotected write hw now' state hnow hyoung hstate
  rwa [hdid, hnonce] at htake

/-- **When settling a submission frees no other write's nonce.** Throughout a
run of writes and rebroadcasts, the nonce of every write in flight is
protected for 120 s from when it was taken, exactly when no step gives back a
nonce that another write in flight took less than 120 s before (unless it is
known used), and the chain never reports the largest base. -/
theorem settling_frees_no_other_nonce {Tx Grant : Type} (net : Network Tx Grant)
    (actions : List Action) (hmay : Runs.EachGood (step net) May World.init actions) :
    (∀ done, done <+: actions → Protected (Runs.run (step net) World.init done)) ↔
      Runs.EachGood (step net) Good World.init actions := by
  have hkeep : ∀ w action, Invariant w → May w action → Good w action →
      Invariant (step net w action) := fun _ _ hi hm hgood => hi.step hm hgood
  have hneed : ∀ w action, Invariant w → May w action → Protected (step net w action) →
      Good w action := fun _ _ hi hm h => good_of_protected hi hm h
  exact Runs.holds_iff (fun _ hi => hi.protected) hkeep hneed init_invariant hmay

namespace Sample

open Consensus.Sample (fullMempool)

def second : ℕ := 1000000000

/-- The first write's request is lost; its nonce is taken again 130 s later,
and then the first write is sent again. -/
def actions : List Action :=
  [.take 0 "did:willow:ada" ⟨0, 0⟩,
   .answer second ⟨"did:willow:ada", 1, 0⟩ [6] (.lost (.network "timed out")),
   .take (130 * second) "did:willow:ada" ⟨0, 0⟩,
   .rebroadcast (131 * second) ⟨"did:willow:ada", 1, [6], "06"⟩]

/-- CheckTx refuses it now, for another reason than its nonce. -/
def refusal : Action :=
  .answerAgain (132 * second) ⟨"did:willow:ada", 1, [6], "06"⟩
    (.answered ⟨some ⟨5, "insufficient balance", ""⟩, none⟩)

theorem may : Runs.EachGood (step fullMempool) May World.init actions := by
  refine ⟨⟨by decide, by decide⟩, ⟨by decide, ?_⟩, ⟨by decide, by decide⟩, ⟨by decide, ?_⟩, trivial⟩
  · exact List.mem_singleton_self _
  · exact List.mem_singleton_self _

theorem good : Runs.EachGood (step fullMempool) Good World.init actions := by
  have hbase : 0 < u64Max := by decide
  refine ⟨hbase, fun h => ?_, hbase, trivial, trivial⟩
  rcases h with h | h
  · cases h.2
  · cases h

theorem may_refusal : Runs.EachGood (step fullMempool) May World.init (actions ++ [refusal]) := by
  refine ⟨⟨by decide, by decide⟩, ⟨by decide, ?_⟩, ⟨by decide, by decide⟩, ⟨by decide, ?_⟩,
    ⟨by decide, ?_⟩, trivial⟩
  · exact List.mem_singleton_self _
  · exact List.mem_singleton_self _
  · exact List.mem_singleton_self _

/-- The third write's `take`. -/
def third : Action := .take (133 * second) "did:willow:ada" ⟨0, 0⟩

theorem may_third :
    Runs.EachGood (step fullMempool) May World.init (actions ++ [refusal, third]) := by
  have hsplit : actions ++ [refusal, third] = (actions ++ [refusal]) ++ [third] := rfl
  rw [hsplit, Runs.eachGood_append]
  refine ⟨may_refusal, ⟨?_, Nat.zero_le _⟩, trivial⟩
  show 132 * second ≤ 133 * second
  decide

end Sample

theorem settling_frees_no_other_nonce_sample :
    Protected (Runs.run (step Consensus.Sample.fullMempool) World.init Sample.actions) :=
  (settling_frees_no_other_nonce _ Sample.actions Sample.may).mpr Sample.good _ (List.prefix_refl _)

/-- The refusal frees the nonce of the write that took it 2 s before: the next
`take` returns it to a third write. -/
theorem rebroadcast_frees_nonce :
    ((Runs.run (step Consensus.Sample.fullMempool) World.init
      (Sample.actions ++ [Sample.refusal])).client.tracker.take (133 * Sample.second)
        "did:willow:ada" ⟨0, 0⟩).1 = .ok 1 ∧
    (¬ ∀ actions, Runs.EachGood (step Consensus.Sample.fullMempool) May World.init actions →
      RebroadcastsSpare Consensus.Sample.fullMempool actions) ∧
    ¬ ∀ actions, Runs.EachGood (step Consensus.Sample.fullMempool) May World.init actions →
      ∀ done, done <+: actions →
        Protected (Runs.run (step Consensus.Sample.fullMempool) World.init done) := by
  have htake : ((Runs.run (step Consensus.Sample.fullMempool) World.init
      (Sample.actions ++ [Sample.refusal])).client.tracker.take (133 * Sample.second)
        "did:willow:ada" ⟨0, 0⟩).1 = .ok 1 := by decide
  refine ⟨htake, fun hall => ?_, fun hall => ?_⟩
  · have hspare := hall _ Sample.may_third Sample.actions (132 * Sample.second)
      ⟨"did:willow:ada", 1, [6], "06"⟩ _ [] (133 * Sample.second) ⟨0, 0⟩ [] rfl
    exact hspare ⟨"did:willow:ada", 1, 130 * Sample.second⟩ (List.mem_singleton_self _) rfl rfl
      (by decide) htake
  · have hprotected := hall _ Sample.may_refusal _ (List.prefix_refl _)
    refine hprotected ⟨"did:willow:ada", 1, 130 * Sample.second⟩ ?_ (133 * Sample.second) ⟨0, 0⟩
      ?_ (by decide) (by decide) htake
    · exact List.mem_singleton_self _
    · show 132 * Sample.second ≤ 133 * Sample.second
      decide

end Rebroadcasts
end Consensus
end WillowSdk
