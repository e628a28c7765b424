/-
# One client's writes and the chain's nonce rule

A DID that one client writes, and the chain's account of it. The chain takes
a transaction under a nonce of the 24 above its base that no transaction
landed under and none pending has, and its base advances over landed nonces
only (the rule src/nonces.rs works to). The client takes its nonces from its
tracker, each on a report of the account that may be old, and settles them by
what it is answered, which may be nothing. Its writes are in flight together,
land in any order, and may be refused or lost.

If each transaction lands or is lost, and each call is over, within `landing`
of when its nonce was last held, and a report shows what landed up to `lag`
before it is used, and the two are less than the hold together, then no
transaction is refused for its nonce; and after a hold with nothing in flight
the client takes exactly the least nonce the chain would
(`sole_signer_is_never_refused`).
-/
import WillowSdk.ChainReads
import WillowSdk.NonceHistory

namespace WillowSdk
namespace NonceChain

open Consensus (Operation)
open NonceHistory (HeldSince ShowsUsed KnownUsed Available Agrees highestBase)

/-- How long a transaction takes to land or be lost, and how old a report is. -/
structure Timing where
  landing : ℕ
  lag : ℕ
  within_hold : landing + lag < nonceHold

/-- The chain's account of the DID: its base, and when each nonce landed. -/
structure Chain where
  base : ℕ
  landed : ℕ → Option ℕ

namespace Chain

def new : Chain := ⟨0, fun _ => none⟩

variable (chain : Chain)

def IsUsed (n : ℕ) : Prop := n ≤ chain.base ∨ (chain.landed n).isSome = true

/-- A nonce the chain takes. -/
def accepts (n : ℕ) : Bool :=
  chain.base < n && n ≤ chain.base + nonceWindow && (chain.landed n).isNone

def land (now n : ℕ) : Chain :=
  { chain with landed := Function.update chain.landed n (some now) }

/-- The base goes up by one, if the next nonce landed. -/
def advance : Chain :=
  if (chain.landed (chain.base + 1)).isSome = true then { chain with base := chain.base + 1 }
  else chain

/-- A report that is true, and shows what landed up to `seen`. -/
structure Reports (seen : ℕ) (state : AccountNonceState) : Prop where
  base_le : state.base ≤ chain.base
  true_of_used : ∀ n, state.isUsed n = true → chain.IsUsed n
  complete : ∀ n at_, chain.landed n = some at_ → at_ ≤ seen → state.isUsed n = true

end Chain

/-! ### Transactions -/

inductive Stage
  /-- Its nonce is taken; it is built and signed. -/
  | taken
  | sent
  | pending
  | landed
  /-- Lost on its way, or dropped. -/
  | lost
  /-- Refused, not for its nonce. -/
  | refused
  /-- Refused for its nonce. -/
  | clashed
deriving DecidableEq

structure Tx where
  nonce : ℕ
  /-- When the client last held its nonce for it. -/
  held : ℕ
  stage : Stage
  /-- Its call is over. -/
  answered : Bool
deriving DecidableEq

namespace Tx

/-- It may land yet, or its refusal is on its way back. -/
def active (tx : Tx) : Bool :=
  match tx.stage with
  | .taken | .sent | .pending => true
  | .refused => !tx.answered
  | _ => false

def mayLand (tx : Tx) : Bool := tx.stage = .pending

end Tx

/-- What a call can be told of its transaction. -/
def Stage.Replies : Stage → NonceOutcome → Prop
  | .taken, _ => False
  | _, .unknown => True
  | .pending, .accepted | .landed, .accepted | .lost, .accepted => True
  | .refused, .free => True
  | .clashed, .held | .clashed, .used => True
  | _, _ => False

/-- The outcome leaves the nonce taken for another hold. -/
def Rehold (outcome : NonceOutcome) : Bool := outcome = .accepted || outcome = .unknown

/-! ### Runs -/

structure World where
  client : NonceHistory.World
  chain : Chain
  txs : List Tx
  now : ℕ

inductive Action
  /-- A write takes its nonce on a report. -/
  | take (state : AccountNonceState)
  /-- A write stops short of sending, or is told that nothing took it. -/
  | release (i : ℕ)
  | send (i : ℕ)
  /-- A request reaches the node. -/
  | check (i : ℕ)
  /-- The node refuses a transaction, not for its nonce. -/
  | refuse (i : ℕ)
  | lose (i : ℕ)
  | land (i : ℕ)
  | reply (i : ℕ) (outcome : NonceOutcome)
  /-- The chain's base goes up. -/
  | advance
  /-- A call of the tracker that is no write's of the DID. -/
  | other (op : Operation)

/-- An action, and what the clock reads then. -/
structure Turn where
  now : ℕ
  action : Action

namespace World

def init : World := ⟨.init, .new, [], 0⟩

variable (w : World) (now : ℕ)

def call (op : Operation) : World := { w with client := w.client.step ⟨now, op⟩, now := now }

/-- The transaction at `i`, if there is one, becomes another. -/
def setTx (i : ℕ) (f : Tx → Tx) : World :=
  match w.txs[i]? with
  | some tx => { w with txs := w.txs.set i (f tx) }
  | none => w

def toStage (i : ℕ) (stage : Stage) : World := w.setTx i fun tx => { tx with stage := stage }

/-- CheckTx of a nonce: the chain takes it, and no pending transaction has it. -/
def admits (n : ℕ) : Bool :=
  w.chain.accepts n && !w.txs.any fun tx => tx.mayLand && tx.nonce == n

end World

/-- What a call of the tracker is about, when it is no write's of the DID. -/
def Elsewhere (did : String) : Operation → Prop
  | .take d _ | .hold d _ | .settle d _ _ | .release d _ => d ≠ did
  | .isHeld _ _ => True

section Step

variable (did : String)

def act (w : World) (now : ℕ) : Action → World
  | .take state =>
    let txs := (NonceHistory.World.takenBy w.client.tracker ⟨now, .take did state⟩).toList.map
      fun n => (⟨n, now, .taken, false⟩ : Tx)
    { w.call now (.take did state) with txs := w.txs ++ txs }
  | .release i =>
    match w.txs[i]? with
    | some tx =>
      (w.call now (.release did tx.nonce)).setTx i fun tx =>
        { tx with stage := .lost, answered := true }
    | none => w
  | .send i => w.toStage i .sent
  | .check i =>
    match w.txs[i]? with
    | some tx => w.toStage i (if w.admits tx.nonce = true then .pending else .clashed)
    | none => w
  | .refuse i => w.toStage i .refused
  | .lose i => w.toStage i .lost
  | .land i =>
    match w.txs[i]? with
    | some tx =>
      if w.chain.accepts tx.nonce = true then
        { w.toStage i .landed with chain := w.chain.land now tx.nonce }
      else w.toStage i .clashed
    | none => w
  | .reply i outcome =>
    match w.txs[i]? with
    | some tx =>
      (w.call now (.settle did tx.nonce outcome)).setTx i fun tx =>
        { tx with answered := true, held := if Rehold outcome = true then now else tx.held }
    | none => w
  | .advance => { w with chain := w.chain.advance }
  | .other op => w.call now op

def step (w : World) (turn : Turn) : World :=
  { act did w turn.now turn.action with now := turn.now }

variable (t : Timing)

/-- A transaction at a stage. -/
def At (w : World) (i : ℕ) (stage : Stage) : Prop := ∃ tx, w.txs[i]? = some tx ∧ tx.stage = stage

/-- The turn may come: the clock doesn't go back, what is in flight is no
longer so than `landing`, and each part does what it can. -/
def MayAct (w : World) (turn : Turn) : Prop :=
  w.now ≤ turn.now ∧
  (∀ tx ∈ w.txs, tx.active = true → turn.now ≤ tx.held + t.landing) ∧
  match turn.action with
  | .take state => state.base ≤ u64Max - nonceWindow ∧
      ∃ seen, w.chain.Reports seen state ∧ turn.now ≤ seen + t.lag
  | .release i => At w i .taken ∨ ∃ tx, w.txs[i]? = some tx ∧ tx.stage = .refused ∧ tx.answered = false
  | .send i => At w i .taken
  | .check i | .refuse i => At w i .sent
  | .lose i => At w i .sent ∨ At w i .pending
  | .land i => At w i .pending
  | .reply i outcome =>
    ∃ tx, w.txs[i]? = some tx ∧ tx.answered = false ∧ tx.stage.Replies outcome
  | .advance => True
  | .other op => Elsewhere did op ∧ op.Bounded

/-- The world after some turns that may come. -/
def Reached (w : World) : Prop :=
  ∃ turns, Runs.EachGood (step did) (MayAct did t) World.init turns ∧
    w = Runs.run (step did) World.init turns

end Step

/-! ### The invariant -/

/-- What the client knows of the account is true. -/
structure Knows (did : String) (client : NonceHistory.World) (chain : Chain) : Prop where
  agrees : Agrees client
  base_le : highestBase did client.log ≤ chain.base
  shown : ∀ e ∈ client.log, ∀ n, ShowsUsed did n e.call.op → chain.IsUsed n

/-- A transaction that may land yet: the chain would take its nonce, and the
client holds it. -/
structure InFlight (did : String) (client : NonceHistory.World) (chain : Chain) (tx : Tx) : Prop where
  pos : 0 < tx.nonce
  below : tx.nonce ≤ chain.base + nonceWindow
  unlanded : chain.landed tx.nonce = none
  held : HeldSince did tx.nonce client.log tx.held

structure Sound (did : String) (t : Timing) (w : World) : Prop where
  knows : Knows did w.client w.chain
  clock : w.client.now ≤ w.now
  filled : ∀ n, 0 < n → n ≤ w.chain.base → (w.chain.landed n).isSome = true
  /-- What landed is held, or was until after a report shows it. -/
  landed : ∀ n at_, w.chain.landed n = some at_ →
    ∃ τ, HeldSince did n w.client.log τ ∧ at_ ≤ τ + t.landing
  active : ∀ {i : ℕ} {tx}, w.txs[i]? = some tx → tx.active = true →
    InFlight did w.client w.chain tx
  distinct : ∀ {i j : ℕ} {a b}, w.txs[i]? = some a → w.txs[j]? = some b → a.active = true →
    b.active = true → a.nonce = b.nonce → i = j
  unclashed : ∀ {i : ℕ} {tx}, w.txs[i]? = some tx → tx.stage ≠ .clashed

namespace Chain

variable {chain : Chain} {n now : ℕ}

theorem IsUsed.advance (h : chain.IsUsed n) : chain.advance.IsUsed n := by
  unfold Chain.advance
  split
  case isTrue => exact h.imp_left fun hle => hle.trans (Nat.le_succ _)
  case isFalse => exact h

theorem IsUsed.land {m : ℕ} (h : chain.IsUsed n) : (chain.land now m).IsUsed n := by
  refine h.imp_right fun hlanded => ?_
  show (Function.update chain.landed m (some now) n).isSome = true
  by_cases hn : n = m
  · rw [hn, Function.update_self]
    rfl
  · rw [Function.update_of_ne hn]
    exact hlanded

theorem advance_landed : chain.advance.landed = chain.landed := by
  unfold Chain.advance
  split <;> rfl

theorem base_le_advance : chain.base ≤ chain.advance.base := by
  unfold Chain.advance
  split
  case isTrue => exact Nat.le_succ _
  case isFalse => exact le_rfl

end Chain

theorem init_sound (did : String) (t : Timing) : Sound did t World.init where
  knows := ⟨NonceHistory.init_agrees, le_rfl, fun e he => by cases he⟩
  clock := le_rfl
  filled n hpos hle := absurd (Nat.lt_of_lt_of_le hpos hle) (Nat.lt_irrefl 0)
  landed n at_ h := by cases h
  active h := by cases h
  distinct h := by cases h
  unclashed h := by cases h

section Invariant

variable {did : String} {t : Timing} {w : World} {now n i : ℕ} {tx : Tx}

/-- The chain takes the nonce of a transaction that may land yet. -/
theorem Sound.accepts (h : Sound did t w) (hflight : InFlight did w.client w.chain tx) :
    w.chain.accepts tx.nonce = true := by
  have habove : w.chain.base < tx.nonce := by
    by_contra hle
    have hlanded := h.filled tx.nonce hflight.pos (Nat.le_of_not_lt hle)
    rw [hflight.unlanded] at hlanded
    cases hlanded
  simp [Chain.accepts, habove, hflight.below, hflight.unlanded]

/-- What hasn't landed isn't known used. -/
theorem Sound.not_knownUsed (h : Sound did t w) (hpos : 0 < n) (hn : w.chain.landed n = none) :
    ¬ KnownUsed did n w.client.log := by
  have hunlanded : ¬ (w.chain.landed n).isSome = true := by simp [hn]
  intro hknown
  rcases hknown with hle | ⟨e, he, hshows⟩
  · exact hunlanded (h.filled n hpos (hle.trans h.knows.base_le))
  · rcases h.knows.shown e he n hshows with hle | hlanded
    · exact hunlanded (h.filled n hpos hle)
    · exact hunlanded hlanded

theorem Sound.tick (h : Sound did t w) (hnow : w.now ≤ now) : Sound did t { w with now := now } :=
  { h with clock := h.clock.trans hnow }

/-! ### Calls of the tracker -/

/-- A call that reports the truth, and ends the hold on no nonce that landed
or may land yet. -/
theorem Sound.call (h : Sound did t w) (hnow : w.now ≤ now) {op : Operation} (hop : op.Bounded)
    (hbase : ∀ state, op = .take did state → state.base ≤ w.chain.base)
    (hshown : ∀ n, ShowsUsed did n op → w.chain.IsUsed n)
    (hlanded : ∀ n, NonceHistory.Ends did n op → w.chain.landed n = none)
    (hactive : ∀ {i : ℕ} {tx}, w.txs[i]? = some tx → tx.active = true →
      ¬ NonceHistory.Ends did tx.nonce op) :
    Sound did t (w.call now op) where
  knows := by
    refine ⟨h.knows.agrees.step ⟨h.clock.trans hnow, hop⟩, ?_, fun e he n hshows => ?_⟩
    · show highestBase did (w.client.step ⟨now, op⟩).log ≤ w.chain.base
      rw [NonceHistory.highestBase_step]
      cases op with
      | take d state =>
        dsimp only
        split
        case isTrue hd =>
          subst hd
          exact max_le h.knows.base_le (hbase state rfl)
        case isFalse => exact h.knows.base_le
      | hold | settle | release | isHeld => exact h.knows.base_le
    · rcases List.mem_cons.mp he with rfl | he
      · exact hshown n hshows
      · exact h.knows.shown e he n hshows
  clock := le_rfl
  filled := h.filled
  landed n at_ hn := by
    obtain ⟨τ, hτ, hle⟩ := h.landed n at_ hn
    have hstay : ¬ NonceHistory.Ends did n op := by
      intro hends
      have hnone : w.chain.landed n = none := hlanded n hends
      cases hnone.symm.trans hn
    exact ⟨τ, .stay hτ hstay, hle⟩
  active htx hact := by
    have hflight := h.active htx hact
    exact { hflight with held := .stay hflight.held (hactive htx hact) }
  distinct := h.distinct
  unclashed := h.unclashed

/-! ### Transactions -/

theorem getElem?_setTx {f : Tx → Tx} (htx : w.txs[i]? = some tx) (j : ℕ) :
    (w.setTx i f).txs[j]? = if i = j then some (f tx) else w.txs[j]? := by
  have hi := (List.getElem?_eq_some_iff.mp htx).1
  unfold World.setTx
  rw [htx]
  dsimp only
  rw [List.getElem?_set]
  by_cases hij : i = j
  · subst hij
    simp [hi]
  · simp [hij]

@[simp] theorem setTx_client (w : World) (i : ℕ) (f : Tx → Tx) :
    (w.setTx i f).client = w.client := by
  unfold World.setTx
  split <;> rfl

@[simp] theorem setTx_chain (w : World) (i : ℕ) (f : Tx → Tx) :
    (w.setTx i f).chain = w.chain := by
  unfold World.setTx
  split <;> rfl

@[simp] theorem setTx_now (w : World) (i : ℕ) (f : Tx → Tx) : (w.setTx i f).now = w.now := by
  unfold World.setTx
  split <;> rfl

theorem setTx_eq {f : Tx → Tx} (htx : w.txs[i]? = some tx) :
    w.setTx i f = { w with txs := w.txs.set i (f tx) } := by
  unfold World.setTx
  rw [htx]

/-- A transaction changes: it doesn't clash, and if it may land yet, so it
could before, and its nonce is held. -/
theorem Sound.setTx (h : Sound did t w) (htx : w.txs[i]? = some tx) {f : Tx → Tx}
    (hstage : (f tx).stage ≠ .clashed) (hnonce : (f tx).nonce = tx.nonce)
    (hactive : (f tx).active = true →
      tx.active = true ∧ HeldSince did tx.nonce w.client.log (f tx).held) :
    Sound did t (w.setTx i f) := by
  have hold : ∀ {j : ℕ} {b : Tx}, (w.setTx i f).txs[j]? = some b → b.active = true →
      ∃ b', w.txs[j]? = some b' ∧ b'.active = true ∧ b'.nonce = b.nonce := by
    intro j b hb hact
    rw [getElem?_setTx htx] at hb
    split at hb
    case isTrue hij =>
      obtain rfl := Option.some.inj hb
      exact ⟨tx, hij ▸ htx, (hactive hact).1, hnonce.symm⟩
    case isFalse => exact ⟨b, hb, hact, rfl⟩
  refine ⟨?_, ?_, ?_, ?_, fun hb hact => ?_, fun ha hb hacta hactb heq => ?_, fun hb => ?_⟩
  · rw [setTx_client, setTx_chain]
    exact h.knows
  · rw [setTx_client, setTx_now]
    exact h.clock
  · rw [setTx_chain]
    exact h.filled
  · rw [setTx_client, setTx_chain]
    exact h.landed
  · rw [setTx_client, setTx_chain]
    rw [getElem?_setTx htx] at hb
    split at hb
    case isTrue =>
      obtain rfl := Option.some.inj hb
      obtain ⟨hact, hheld⟩ := hactive hact
      have hflight := h.active htx hact
      rw [← hnonce] at hheld
      exact ⟨hnonce ▸ hflight.pos, hnonce ▸ hflight.below, hnonce ▸ hflight.unlanded, hheld⟩
    case isFalse => exact h.active hb hact
  · obtain ⟨a', ha', hacta', hna⟩ := hold ha hacta
    obtain ⟨b', hb', hactb', hnb⟩ := hold hb hactb
    exact h.distinct ha' hb' hacta' hactb' (by rw [hna, hnb, heq])
  · rw [getElem?_setTx htx] at hb
    split at hb
    case isTrue =>
      obtain rfl := Option.some.inj hb
      exact hstage
    case isFalse => exact h.unclashed hb

/-- Once a transaction may no longer land, none that may has its nonce. -/
theorem Sound.others (h : Sound did t w) (htx : w.txs[i]? = some tx) (hact : tx.active = true)
    {f : Tx → Tx} (hf : (f tx).active = false) {j : ℕ} {b : Tx}
    (hb : (w.setTx i f).txs[j]? = some b) (hactb : b.active = true) : b.nonce ≠ tx.nonce := by
  rw [getElem?_setTx htx] at hb
  split at hb
  case isTrue =>
    obtain rfl := Option.some.inj hb
    rw [hf] at hactb
    cases hactb
  case isFalse hij =>
    intro heq
    exact hij (h.distinct htx hb hact hactb heq.symm)

/-! ### Turns -/

/-- What a write takes is no nonce that landed: it would still be held, or the
report show it. -/
theorem Sound.available_unlanded (h : Sound did t w) {state : AccountNonceState} {seen : ℕ}
    (hreports : w.chain.Reports seen state) (hlag : now ≤ seen + t.lag)
    (hn : Available w.client.log now did state n) : w.chain.landed n = none := by
  by_contra hsome
  obtain ⟨at_, hat⟩ := Option.ne_none_iff_exists'.mp hsome
  obtain ⟨τ, hτ, hle⟩ := h.landed n at_ hat
  have hlapsed : τ + nonceHold ≤ now := hn.lapsed τ hτ
  have hwithin := t.within_hold
  have hseen : at_ ≤ seen := by omega
  have hshown := hreports.complete n at_ hat hseen
  rw [hn.notShown] at hshown
  cases hshown

/-- What a write takes is free to be taken: it starts a transaction that may land. -/
theorem Sound.available_inFlight (h : Sound did t w) {state : AccountNonceState} {seen : ℕ}
    (hreports : w.chain.Reports seen state) (hlag : now ≤ seen + t.lag)
    (hn : Available w.client.log now did state n) {log : NonceHistory.Log}
    (hheld : HeldSince did n log now) {client : NonceHistory.World} (hlog : client.log = log) :
    InFlight did client w.chain ⟨n, now, .taken, false⟩ where
  pos := Nat.lt_of_lt_of_le (Nat.succ_pos _) hn.above
  below := by
    have hbase : max (highestBase did w.client.log) state.base ≤ w.chain.base :=
      max_le h.knows.base_le hreports.base_le
    exact hn.below.trans (Nat.add_le_add_right hbase _)
  unlanded := h.available_unlanded hreports hlag hn
  held := hlog ▸ hheld

/-- Nothing that may land yet has the nonce a write takes. -/
theorem not_available_of_held {log : NonceHistory.Log} {state : AccountNonceState} {held : ℕ}
    (hheld : HeldSince did n log held) (hdeadline : now ≤ held + t.landing) :
    ¬ Available log now did state n := by
  intro hn
  have hlapsed : held + nonceHold ≤ now := hn.lapsed held hheld
  have hwithin := t.within_hold
  omega

theorem getElem?_append_singleton {txs : List Tx} {new tx : Tx} {j : ℕ}
    (h : (txs ++ [new])[j]? = some tx) : txs[j]? = some tx ∨ j = txs.length ∧ tx = new := by
  rw [List.getElem?_append] at h
  split at h
  case isTrue => exact .inl h
  case isFalse hj =>
    obtain ⟨hlast, htx⟩ := List.getElem?_eq_some_iff.mp h
    have hj' : j = txs.length := by
      rw [List.length_singleton] at hlast
      omega
    subst hj'
    exact .inr ⟨rfl, by simpa using htx.symm⟩

theorem Sound.take (h : Sound did t w) (hnow : w.now ≤ now)
    (hdeadline : ∀ tx ∈ w.txs, tx.active = true → now ≤ tx.held + t.landing)
    {state : AccountNonceState} (hs : state.base ≤ u64Max - nonceWindow) {seen : ℕ}
    (hreports : w.chain.Reports seen state) (hlag : now ≤ seen + t.lag) :
    Sound did t (act did w now (.take state)) := by
  have hbase : ∀ s, Operation.take did state = .take did s → s.base ≤ w.chain.base := by
    intro s heq
    obtain ⟨-, rfl⟩ := Operation.take.inj heq
    exact hreports.base_le
  have hcall : Sound did t (w.call now (.take did state)) :=
    h.call hnow hs hbase (fun n hshows => hreports.true_of_used n hshows.2) (fun _ hends => hends.elim)
      fun _ _ hends => hends.elim
  have hact : act did w now (.take state) = { w.call now (.take did state) with
      txs := w.txs ++ (NonceHistory.World.takenBy w.client.tracker ⟨now, .take did state⟩).toList.map
        fun n => ⟨n, now, .taken, false⟩ } := rfl
  rw [hact]
  cases htaken : NonceHistory.World.takenBy w.client.tracker ⟨now, .take did state⟩ with
  | none =>
    rw [Option.toList_none, List.map_nil, List.append_nil]
    exact hcall
  | some n =>
    have hok : (w.client.tracker.take now did state).1 = .ok n := by
      unfold NonceHistory.World.takenBy at htaken
      dsimp only at htaken
      generalize (w.client.tracker.take now did state).1 = result at htaken ⊢
      cases result with
      | error e => cases htaken
      | ok m => exact congrArg Except.ok (Option.some.inj htaken)
    have havailable : Available w.client.log now did state n := by
      rcases NonceHistory.take_spec h.knows.agrees (h.clock.trans hnow) hs with
        ⟨m, hm, hleast⟩ | ⟨⟨_, hfull⟩, -⟩
      · obtain rfl := Except.ok.inj (hok.symm.trans hm)
        exact hleast.1
      · cases hok.symm.trans hfull
    have hstarts : HeldSince did n (w.call now (.take did state)).client.log now :=
      .start (e := ⟨⟨now, .take did state⟩, _⟩) ⟨rfl, htaken⟩
    have hnew := h.available_inFlight hreports hlag havailable hstarts rfl
    have hother : ∀ {j : ℕ} {b : Tx}, w.txs[j]? = some b → b.active = true → b.nonce ≠ n := by
      intro j b hb hact heq
      have hheld := (h.active hb hact).held
      have hlate := hdeadline b (List.mem_of_getElem? hb) hact
      rw [heq] at hheld
      exact not_available_of_held hheld hlate havailable
    rw [Option.toList_some, List.map_cons, List.map_nil]
    refine { hcall with active := ?_, distinct := ?_, unclashed := ?_ }
    · intro j b hb hact
      rcases getElem?_append_singleton hb with hb | ⟨-, rfl⟩
      · exact hcall.active hb hact
      · exact hnew
    · intro j k a b ha hb hacta hactb heq
      rcases getElem?_append_singleton ha with ha | ⟨rfl, rfl⟩
      · rcases getElem?_append_singleton hb with hb | ⟨rfl, rfl⟩
        · exact h.distinct ha hb hacta hactb heq
        · exact absurd heq (hother ha hacta)
      · rcases getElem?_append_singleton hb with hb | ⟨rfl, rfl⟩
        · exact absurd heq.symm (hother hb hactb)
        · rfl
    · intro j b hb
      rcases getElem?_append_singleton hb with hb | ⟨-, rfl⟩
      · exact h.unclashed hb
      · simp

theorem setTx_call {f : Tx → Tx} (htx : w.txs[i]? = some tx) (op : Operation) :
    (w.call now op).setTx i f = (w.setTx i f).call now op := by
  have htx' : (w.call now op).txs[i]? = some tx := htx
  rw [setTx_eq htx, setTx_eq htx']
  rfl

/-- A nonce given back is no longer any transaction's that may land. -/
theorem Sound.giveBack (h : Sound did t w) (hnow : w.now ≤ now) (htx : w.txs[i]? = some tx)
    (hact : tx.active = true) {op : Operation}
    (hop : (∃ n, op = .release did n) ∨ ∃ n, op = .settle did n .free)
    (hends : ∀ n, NonceHistory.Ends did n op → n = tx.nonce) {f : Tx → Tx}
    (hstage : (f tx).stage ≠ .clashed) (hnonce : (f tx).nonce = tx.nonce)
    (hf : (f tx).active = false) : Sound did t ((w.call now op).setTx i f) := by
  have hset : Sound did t (w.setTx i f) := by
    refine h.setTx htx hstage hnonce fun hstill => ?_
    rw [hf] at hstill
    cases hstill
  have hbounded : op.Bounded := by
    rcases hop with ⟨n, rfl⟩ | ⟨n, rfl⟩ <;> trivial
  rw [setTx_call htx]
  refine hset.call (by rwa [setTx_now]) hbounded ?_ ?_ ?_ ?_
  · intro state heq
    rcases hop with ⟨n, rfl⟩ | ⟨n, rfl⟩ <;> cases heq
  · intro n hshows
    rcases hop with ⟨m, rfl⟩ | ⟨m, rfl⟩
    · exact hshows.elim
    · cases hshows.2.2
  · intro n hn
    rw [hends n hn, setTx_chain]
    exact (h.active htx hact).unlanded
  · intro j b hb hactb hn
    exact h.others htx hact hf hb hactb (hends _ hn)

/-- A nonce held again, for a transaction in flight or one no longer so. -/
theorem Sound.rehold (h : Sound did t w) (hnow : w.now ≤ now) (htx : w.txs[i]? = some tx)
    {outcome : NonceOutcome} (hout : outcome = .accepted ∨ outcome = .unknown) {f : Tx → Tx}
    (hstage : (f tx).stage ≠ .clashed) (hnonce : (f tx).nonce = tx.nonce)
    (hf : (f tx).active = true → tx.active = true) (hheld : (f tx).held = now) :
    Sound did t ((w.call now (.settle did tx.nonce outcome)).setTx i f) := by
  have hnot : ∀ n, ¬ NonceHistory.Ends did n (.settle did tx.nonce outcome) := by
    rintro n ⟨-, -, hends⟩
    rcases hout with rfl | rfl <;> rcases hends with h | h <;> cases h
  have hcall : Sound did t (w.call now (.settle did tx.nonce outcome)) := by
    refine h.call hnow trivial (fun state heq => by cases heq) (fun n hshows => ?_)
      (fun n hends => absurd hends (hnot n)) fun _ _ => hnot _
    rcases hout with rfl | rfl <;> cases hshows.2.2
  refine hcall.setTx htx hstage hnonce fun hstill => ⟨hf hstill, ?_⟩
  have hflight := h.active htx (hf hstill)
  rw [hheld]
  refine .start (e := ⟨⟨now, .settle did tx.nonce outcome⟩, _⟩) ⟨rfl, rfl, ?_, ?_⟩
  · exact h.not_knownUsed hflight.pos hflight.unlanded
  · rcases hout with rfl | rfl
    · exact .inl rfl
    · exact .inr (.inr rfl)

/-- A call is told of its transaction, which it was not refused for its nonce. -/
theorem Sound.reply (h : Sound did t w) (hnow : w.now ≤ now) (htx : w.txs[i]? = some tx)
    (hopen : tx.answered = false) {outcome : NonceOutcome} (hreplies : tx.stage.Replies outcome) :
    Sound did t (act did w now (.reply i outcome)) := by
  have hact : act did w now (.reply i outcome) =
      (w.call now (.settle did tx.nonce outcome)).setTx i fun tx =>
        { tx with answered := true, held := if Rehold outcome = true then now else tx.held } := by
    unfold act
    dsimp only
    rw [htx]
  have hstage := h.unclashed htx
  have hstill : ∀ held : ℕ, ({ tx with answered := true, held := held } : Tx).active = true →
      tx.active = true := by
    intro held hactive
    unfold Tx.active at hactive ⊢
    cases hs : tx.stage <;> simp_all
  rw [hact]
  cases outcome with
  | accepted => exact h.rehold hnow htx (.inl rfl) hstage rfl (hstill _) rfl
  | unknown => exact h.rehold hnow htx (.inr rfl) hstage rfl (hstill _) rfl
  | free =>
    have hrefused : tx.stage = .refused := by
      cases hs : tx.stage <;> rw [hs] at hreplies <;> first | rfl | exact hreplies.elim
    have hactive : tx.active = true := by simp [Tx.active, hrefused, hopen]
    refine h.giveBack hnow htx hactive (.inr ⟨_, rfl⟩) (fun n hends => hends.2.1.symm) hstage rfl ?_
    simp [Tx.active, hrefused]
  | held | used =>
    cases hs : tx.stage <;> rw [hs] at hreplies <;> first | exact absurd hs hstage | exact hreplies.elim

/-- A transaction lands: its nonce is the chain's to take. -/
theorem Sound.land (h : Sound did t w) (htx : w.txs[i]? = some tx) (hpending : tx.stage = .pending)
    (hdeadline : now ≤ tx.held + t.landing) : Sound did t (act did w now (.land i)) := by
  have hactive : tx.active = true := by simp [Tx.active, hpending]
  have hflight := h.active htx hactive
  have hact : act did w now (.land i) =
      { w.toStage i .landed with chain := w.chain.land now tx.nonce } := by
    unfold act
    dsimp only
    rw [htx]
    exact if_pos (h.accepts hflight)
  have hset : Sound did t (w.toStage i .landed) :=
    h.setTx htx (by simp) rfl fun hstill => by simp [Tx.active] at hstill
  have hclient : (w.toStage i .landed).client = w.client := setTx_client _ _ _
  have hchain : (w.toStage i .landed).chain = w.chain := setTx_chain _ _ _
  rw [hact]
  refine { clock := hset.clock, distinct := hset.distinct, unclashed := hset.unclashed
           knows := ?_, filled := ?_, landed := ?_, active := ?_ }
  · rw [hclient]
    exact ⟨h.knows.agrees, h.knows.base_le, fun e he n hshows => (h.knows.shown e he n hshows).land⟩
  · intro n hpos hle
    have hlanded := h.filled n hpos hle
    show (Function.update w.chain.landed tx.nonce (some now) n).isSome = true
    by_cases hn : n = tx.nonce
    · rw [hn, Function.update_self]
      rfl
    · rw [Function.update_of_ne hn]
      exact hlanded
  · intro n at_ hn
    rw [hclient]
    have hn' : Function.update w.chain.landed tx.nonce (some now) n = some at_ := hn
    by_cases heq : n = tx.nonce
    · rw [heq, Function.update_self] at hn'
      obtain rfl := Option.some.inj hn'
      exact ⟨tx.held, heq ▸ hflight.held, hdeadline⟩
    · rw [Function.update_of_ne heq] at hn'
      exact h.landed n at_ hn'
  · intro j b hb hactb
    have hne : b.nonce ≠ tx.nonce := h.others htx hactive (by simp [Tx.active]) hb hactb
    have hb' := hset.active hb hactb
    rw [hchain] at hb'
    refine { hb' with unlanded := ?_ }
    show Function.update w.chain.landed tx.nonce (some now) b.nonce = none
    rw [Function.update_of_ne hne]
    exact hb'.unlanded

theorem Sound.advance (h : Sound did t w) : Sound did t { w with chain := w.chain.advance } where
  knows := ⟨h.knows.agrees, h.knows.base_le.trans Chain.base_le_advance,
    fun e he n hshows => (h.knows.shown e he n hshows).advance⟩
  clock := h.clock
  filled n hpos hle := by
    show (w.chain.advance.landed n).isSome = true
    rw [Chain.advance_landed]
    have hle' : n ≤ w.chain.advance.base := hle
    unfold Chain.advance at hle'
    split at hle'
    case isTrue hnext =>
      rcases Nat.lt_or_ge w.chain.base n with hlt | hge
      · have hn : n = w.chain.base + 1 := Nat.le_antisymm hle' hlt
        rw [hn]
        exact hnext
      · exact h.filled n hpos hge
    case isFalse => exact h.filled n hpos hle'
  landed n at_ hn := by
    have hn' : w.chain.advance.landed n = some at_ := hn
    rw [Chain.advance_landed] at hn'
    exact h.landed n at_ hn'
  active htx hact := by
    have hflight := h.active htx hact
    refine { hflight with below := hflight.below.trans ?_, unlanded := ?_ }
    · exact Nat.add_le_add_right Chain.base_le_advance _
    · show w.chain.advance.landed _ = none
      rw [Chain.advance_landed]
      exact hflight.unlanded
  distinct := h.distinct
  unclashed := h.unclashed

/-- CheckTx admits a transaction in flight. -/
theorem Sound.admits (h : Sound did t w) (htx : w.txs[i]? = some tx) (hsent : tx.stage = .sent) :
    w.admits tx.nonce = true := by
  have hactive : tx.active = true := by simp [Tx.active, hsent]
  have haccepts := h.accepts (h.active htx hactive)
  have hnone : w.txs.any (fun b => b.mayLand && b.nonce == tx.nonce) = false := by
    rw [List.any_eq_false]
    intro b hb hboth
    obtain ⟨j, hj⟩ := List.getElem?_of_mem hb
    simp only [Bool.and_eq_true, Tx.mayLand, decide_eq_true_eq, beq_iff_eq] at hboth
    obtain ⟨hpending, hnonce⟩ := hboth
    have hactb : b.active = true := by simp [Tx.active, hpending]
    have hij := h.distinct hj htx hactb hactive hnonce
    rw [hij, htx] at hj
    obtain rfl := Option.some.inj hj
    rw [hsent] at hpending
    cases hpending
  simp [World.admits, haccepts, hnone]

theorem Sound.toStage (h : Sound did t w) (htx : w.txs[i]? = some tx) {stage : Stage}
    (hstage : stage ≠ .clashed) (hactive : tx.active = true) :
    Sound did t (w.toStage i stage) :=
  h.setTx htx hstage rfl fun _ => ⟨hactive, (h.active htx hactive).held⟩

theorem Sound.other (h : Sound did t w) (hnow : w.now ≤ now) {op : Operation}
    (helse : Elsewhere did op) (hop : op.Bounded) : Sound did t (w.call now op) := by
  have hends : ∀ n, ¬ NonceHistory.Ends did n op := by
    intro n hn
    cases op with
    | take | hold | isHeld => exact hn
    | settle | release => exact helse hn.1
  refine h.call hnow hop (fun state heq => ?_) (fun n hshows => ?_)
    (fun n hn => absurd hn (hends n)) fun _ _ => hends _
  · subst heq
    exact absurd rfl helse
  · cases op with
    | take | settle => exact absurd hshows.1 helse
    | hold | release | isHeld => exact hshows.elim

theorem act_now_le (hnow : w.now ≤ now) (action : Action) : (act did w now action).now ≤ now := by
  have hset : ∀ (w : World) (i : ℕ) (f : Tx → Tx), w.now ≤ now → (w.setTx i f).now ≤ now := by
    intro w i f hle
    rwa [setTx_now]
  cases action with
  | take | other => exact le_rfl
  | send | refuse | lose => exact hset _ _ _ hnow
  | advance => exact hnow
  | release i | reply i =>
    unfold act
    dsimp only
    split
    · exact hset _ _ _ le_rfl
    · exact hnow
  | check i =>
    unfold act
    dsimp only
    split
    · exact hset _ _ _ hnow
    · exact hnow
  | land i =>
    unfold act
    dsimp only
    split
    · split <;> exact hset _ _ _ hnow
    · exact hnow

/-- **A turn keeps the invariant.** -/
theorem Sound.step (h : Sound did t w) {turn : Turn} (hmay : MayAct did t w turn) :
    Sound did t (step did w turn) := by
  obtain ⟨now, action⟩ := turn
  obtain ⟨hnow, hdeadline, hmay⟩ := hmay
  have hact : Sound did t (act did w now action) := by
    cases action with
    | take state =>
      obtain ⟨hs, seen, hreports, hlag⟩ := hmay
      exact h.take hnow hdeadline hs hreports hlag
    | release i =>
      have htx : ∃ tx, w.txs[i]? = some tx ∧ tx.active = true := by
        rcases hmay with ⟨tx, htx, hs⟩ | ⟨tx, htx, hs, hopen⟩
        · exact ⟨tx, htx, by simp [Tx.active, hs]⟩
        · exact ⟨tx, htx, by simp [Tx.active, hs, hopen]⟩
      obtain ⟨tx, htx, hactive⟩ := htx
      have hact : act did w now (.release i) = (w.call now (.release did tx.nonce)).setTx i
          fun tx => { tx with stage := .lost, answered := true } := by
        unfold act
        dsimp only
        rw [htx]
      rw [hact]
      exact h.giveBack hnow htx hactive (.inl ⟨_, rfl⟩) (fun n hends => hends.2.symm) (by simp) rfl
        (by simp [Tx.active])
    | send i =>
      obtain ⟨tx, htx, hs⟩ := hmay
      exact h.toStage htx (by simp) (by simp [Tx.active, hs])
    | check i =>
      obtain ⟨tx, htx, hs⟩ := hmay
      have hact : act did w now (.check i) = w.toStage i .pending := by
        unfold act
        dsimp only
        rw [htx]
        dsimp only
        rw [if_pos (h.admits htx hs)]
      rw [hact]
      exact h.toStage htx (by simp) (by simp [Tx.active, hs])
    | refuse i =>
      obtain ⟨tx, htx, hs⟩ := hmay
      exact h.toStage htx (by simp) (by simp [Tx.active, hs])
    | lose i =>
      have htx : ∃ tx, w.txs[i]? = some tx ∧ tx.active = true := by
        rcases hmay with ⟨tx, htx, hs⟩ | ⟨tx, htx, hs⟩ <;> exact ⟨tx, htx, by simp [Tx.active, hs]⟩
      obtain ⟨tx, htx, hactive⟩ := htx
      exact h.toStage htx (by simp) hactive
    | land i =>
      obtain ⟨tx, htx, hs⟩ := hmay
      have hactive : tx.active = true := by simp [Tx.active, hs]
      exact h.land htx hs (hdeadline tx (List.mem_of_getElem? htx) hactive)
    | reply i outcome =>
      obtain ⟨tx, htx, hopen, hreplies⟩ := hmay
      exact h.reply hnow htx hopen hreplies
    | advance => exact h.advance
    | other op => exact h.other hnow hmay.1 hmay.2
  exact hact.tick (act_now_le hnow action)

theorem Reached.sound (h : Reached did t w) : Sound did t w := by
  obtain ⟨turns, hgood, rfl⟩ := h
  have hkeep : ∀ w turn, Sound did t w → MayAct did t w turn → Sound did t (step did w turn) :=
    fun _ _ hs hmay => hs.step hmay
  exact Runs.invariant hkeep (init_sound did t) hgood

/-! ### What the steps are of the code -/

/-- The node's answer to a query of the account: its base, and a bit for each
nonce above it that landed, none of what landed up to `seen` left out. -/
structure Chain.AnsweredBy (chain : Chain) (seen : ℕ) (answer : Bytes) : Prop where
  length : answer.length = 8 ∨ answer.length = 11
  base_le : AccountNonceState.wireBase answer ≤ chain.base
  bits : ∀ i < nonceWindow, AccountNonceState.WireBit answer i →
    (chain.landed (AccountNonceState.wireBase answer + 1 + i)).isSome = true
  complete : ∀ n at_, chain.landed n = some at_ → at_ ≤ seen →
    n ≤ AccountNonceState.wireBase answer ∨
      ∃ i < nonceWindow, AccountNonceState.WireBit answer i ∧
        n = AccountNonceState.wireBase answer + 1 + i

theorem isUsed_decoded {answer : Bytes} :
    AccountNonceState.isUsed ⟨AccountNonceState.wireBase answer, BitStream.packed (answer.drop 8)⟩ n =
      true ↔ n ≤ AccountNonceState.wireBase answer ∨
        ∃ i < nonceWindow, AccountNonceState.WireBit answer i ∧
          n = AccountNonceState.wireBase answer + 1 + i := by
  unfold AccountNonceState.isUsed
  by_cases hn : n ≤ AccountNonceState.wireBase answer
  · simp [hn]
  · simp only [hn, if_false, false_or, Bool.and_eq_true, decide_eq_true_eq, BitStream.testBit_packed]
    refine ⟨fun ⟨hi, hbit⟩ => ⟨_, hi, hbit, by omega⟩, ?_⟩
    rintro ⟨i, hi, hbit, heq⟩
    have hoffset : n - AccountNonceState.wireBase answer - 1 = i := by omega
    rw [hoffset]
    exact ⟨hi, hbit⟩

/-- **A report is what `account_nonce_state` reads**, when the RPC answers it. -/
theorem account_nonce_state_reports {V : Type} {node : ChainReads.Node V} {chain : Chain}
    {seen : ℕ} {answer : Bytes} (h : chain.AnsweredBy seen answer)
    (hnode : node.Answers s!"/store/account_nonce_state/{did}" answer) :
    ∃ state, node.accountNonceState did = .ok state ∧
      state.base = AccountNonceState.wireBase answer ∧ chain.Reports seen state := by
  refine ⟨⟨AccountNonceState.wireBase answer, BitStream.packed (answer.drop 8)⟩, ?_, rfl, h.base_le,
    fun n hn => ?_, fun n at_ hat hseen => ?_⟩
  · unfold ChainReads.Node.accountNonceState
    rw [ChainReads.abciQueryValue_of_answers hnode]
    dsimp only
    rw [AccountNonceState.fromBytes_eq h.length]
  · rcases isUsed_decoded.mp hn with hle | ⟨i, hi, hbit, rfl⟩
    · exact .inl (hle.trans h.base_le)
    · exact .inr (h.bits i hi hbit)
  · exact isUsed_decoded.mpr (h.complete n at_ hat hseen)

/-- **A call that sent its transaction ends in one call of the tracker**: it
settles the nonce, or gives it back where nothing took the transaction. -/
theorem sendSigned_ends {T Grant : Type} (net : Consensus.Network T Grant)
    (submission : SignedSubmission) (client : Consensus.Client) :
    ∃ op : Operation, (op = .release submission.did submission.nonce ∨
        ∃ outcome, op = .settle submission.did submission.nonce outcome) ∧
      (Consensus.sendSigned net submission true client).2 =
        { (net.post submission.txBytes client).2 with
          tracker := op.apply (net.post submission.txBytes client).2.tracker
            (net.post submission.txBytes client).2.now } := by
  unfold Consensus.sendSigned Consensus.sendBytes
  dsimp only
  split
  · exact ⟨.release _ _, .inl rfl, rfl⟩
  · exact ⟨.settle _ _ .accepted, .inr ⟨_, rfl⟩, rfl⟩
  · next log _ =>
    exact ⟨.settle _ _ (refusalOutcome log submission.nonce), .inr ⟨_, rfl⟩, rfl⟩
  · exact ⟨.settle _ _ .unknown, .inr ⟨_, rfl⟩, rfl⟩

/-! ### No clash -/

/-- The account as it is. -/
def Chain.IsState (chain : Chain) (state : AccountNonceState) : Prop :=
  state.base = chain.base ∧ ∀ n, state.isUsed n = true ↔ chain.IsUsed n

/-- Once the holds have lapsed, what is available is what the chain takes. -/
theorem Sound.available_iff_accepts (h : Sound did t w) {state : AccountNonceState}
    (hstate : w.chain.IsState state) (hquiet : w.now + nonceHold ≤ now) :
    Available w.client.log now did state n ↔ w.chain.accepts n = true := by
  obtain ⟨hbase, hused⟩ := hstate
  have hmax : max (highestBase did w.client.log) state.base = w.chain.base := by
    rw [hbase]
    exact max_eq_right h.knows.base_le
  have hfree : w.chain.accepts n = true ↔
      w.chain.base + 1 ≤ n ∧ n ≤ w.chain.base + 24 ∧ ¬ w.chain.IsUsed n := by
    have hunlanded : (w.chain.landed n).isNone = true ↔ ¬ (w.chain.landed n).isSome = true := by
      cases w.chain.landed n <;> simp
    unfold Chain.accepts Chain.IsUsed
    rw [Bool.and_eq_true, Bool.and_eq_true, decide_eq_true_eq, decide_eq_true_eq, hunlanded, not_or,
      Nat.not_le]
    exact ⟨fun ⟨⟨habove, hbelow⟩, hn⟩ => ⟨habove, hbelow, habove, hn⟩,
      fun ⟨habove, hbelow, _, hn⟩ => ⟨⟨habove, hbelow⟩, hn⟩⟩
  rw [hfree]
  refine ⟨fun ha => ⟨hmax ▸ ha.above, hmax ▸ ha.below, fun hn => ?_⟩, ?_⟩
  · rw [← hused, ha.notShown] at hn
    cases hn
  · rintro ⟨habove, hbelow, hn⟩
    refine ⟨hmax ▸ habove, hmax ▸ hbelow, fun e he hshows => hn (h.knows.shown e he n hshows), ?_, ?_⟩
    · rw [← hused] at hn
      simpa using hn
    · intro τ hτ
      have hle := (h.knows.agrees.held hτ).1
      have hclock := h.clock
      have hhold : nonceHold = 120 * 1000000000 := rfl
      omega

end Invariant

/-- **A sole signer is never refused for its nonce.** After any turns, the
writes in flight together, their requests and answers lost or late, and the
reports old: no transaction was refused for its nonce, and each that may land
yet has a nonce that the chain takes and no other has. And once a hold has
passed, a write on a report of the account as it is takes exactly the least
nonce the chain takes: nonces given up or lost on the way are used again. -/
theorem sole_signer_is_never_refused (did : String) (t : Timing) (w : World) (h : Reached did t w) :
    (∀ (i : ℕ) tx, w.txs[i]? = some tx → tx.stage ≠ .clashed) ∧
    (∀ (i : ℕ) tx, w.txs[i]? = some tx → tx.active = true → w.chain.accepts tx.nonce = true ∧
      ∀ (j : ℕ) other, w.txs[j]? = some other → other.active = true → other.nonce = tx.nonce → j = i) ∧
    ∀ now state, w.now + nonceHold ≤ now → state.base ≤ u64Max - nonceWindow →
      w.chain.IsState state →
      ∀ n, (w.client.tracker.take now did state).1 = .ok n ↔
        IsLeast {m | w.chain.accepts m = true} n := by
  have hsound := h.sound
  refine ⟨fun i tx => hsound.unclashed, fun i tx htx hact => ⟨?_, ?_⟩, ?_⟩
  · exact hsound.accepts (hsound.active htx hact)
  · exact fun j other hother hactother heq => hsound.distinct hother htx hactother hact heq
  · intro now state hquiet hs hstate n
    have hnow : w.client.now ≤ now := hsound.clock.trans ((Nat.le_add_right _ _).trans hquiet)
    have hset : {m | Available w.client.log now did state m} = {m | w.chain.accepts m = true} :=
      Set.ext fun m => hsound.available_iff_accepts hstate hquiet
    have hspec : (∃ m, (w.client.tracker.take now did state).1 = .ok m ∧
          IsLeast {m | Available w.client.log now did state m} m) ∨
        (∃ e, (w.client.tracker.take now did state).1 = .error (.nonceWindowFull e)) ∧
          ∀ m, ¬ Available w.client.log now did state m :=
      NonceHistory.take_spec hsound.knows.agrees hnow hs
    rcases hspec with ⟨m, hm, hleast⟩ | ⟨⟨_, hfull⟩, hnone⟩
    · rw [hset] at hleast
      refine ⟨fun hn => ?_, fun hn => by rw [hm, hleast.unique hn]⟩
      obtain rfl := Except.ok.inj (hm.symm.trans hn)
      exact hleast
    · refine ⟨fun hn => ?_, fun hn => ?_⟩
      · cases hfull.symm.trans hn
      · exact absurd ((hsound.available_iff_accepts hstate hquiet).mpr hn.1) (hnone n)

namespace Sample

def timing : Timing := ⟨60, 30, by decide⟩

/-- Two writes in flight at once, the first one's answer lost, the second's
transaction landed first. -/
def turns : List Turn :=
  [⟨0, .take ⟨0, 0⟩⟩, ⟨1, .take ⟨0, 0⟩⟩, ⟨2, .send 0⟩, ⟨3, .send 1⟩, ⟨4, .check 1⟩, ⟨5, .land 1⟩,
    ⟨6, .check 0⟩, ⟨7, .reply 0 .unknown⟩, ⟨8, .land 0⟩, ⟨9, .advance⟩]

def world : World := Runs.run (step "a") World.init turns

theorem reports (seen : ℕ) : Chain.new.Reports seen ⟨0, 0⟩ where
  base_le := le_rfl
  true_of_used n hn := by
    refine .inl ?_
    have hzero : n = 0 := by simpa [AccountNonceState.isUsed] using hn
    exact hzero.le
  complete n at_ hn := by cases hn

theorem reached : Reached "a" timing world := by
  refine ⟨turns, ?_, rfl⟩
  unfold turns timing
  refine ⟨⟨by decide, ?_, by decide, 0, reports 0, by decide⟩,
    ⟨by decide, ?_, by decide, 0, reports 0, by decide⟩, ⟨by decide, ?_, ⟨_, rfl, rfl⟩⟩,
    ⟨by decide, ?_, ⟨_, rfl, rfl⟩⟩, ⟨by decide, ?_, ⟨_, rfl, rfl⟩⟩, ⟨by decide, ?_, ⟨_, rfl, rfl⟩⟩,
    ⟨by decide, ?_, ⟨_, rfl, rfl⟩⟩, ⟨by decide, ?_, ⟨_, rfl, rfl, trivial⟩⟩,
    ⟨by decide, ?_, ⟨_, rfl, rfl⟩⟩, ⟨by decide, ?_, trivial⟩, trivial⟩
  all_goals decide

/-- What the first write left behind, the base past it and the second's nonce in the bitmap. -/
theorem isState : world.chain.IsState ⟨1, 1⟩ := by
  refine ⟨by decide, fun n => ?_⟩
  have husedNonces : AccountNonceState.usedNonces ⟨1, 1⟩ = [2] := by decide
  have hlanded : world.chain.landed = Function.update (Function.update (fun _ => none) 2 (some 5))
      1 (some 8) := rfl
  rw [AccountNonceState.isUsed_iff (by decide), husedNonces, List.mem_singleton]
  unfold Chain.IsUsed
  rw [hlanded]
  show n ≤ 1 ∨ n = 2 ↔ n ≤ 1 ∨ _
  by_cases hn : n = 2
  · simp [hn]
  · by_cases hone : n = 1
    · simp [hone]
    · simp [Function.update_of_ne, hn, hone]

end Sample

/-- Both landed, and the next write takes the nonce after them. -/
theorem sole_signer_is_never_refused_sample :
    IsLeast {m | Sample.world.chain.accepts m = true} 3 :=
  ((sole_signer_is_never_refused "a" Sample.timing Sample.world Sample.reached).2.2
    (9 + nonceHold) ⟨1, 1⟩ (by decide) (by decide) Sample.isState 3).mp (by decide)

end NonceChain
end WillowSdk
