/-
# Transaction nonces handed out per signing DID

`NonceTracker` (src/nonces.rs): per DID, the highest base the chain has
reported, the nonces above it known used, and the nonces handed out, each
with when. A nonce is an unsigned 64-bit number, a time is in nanoseconds.
Every operation takes the clock's reading as `now`; a DID the map has no
entry for has the default account.

What each operation leaves of an account is said once, by `refresh_handed`,
`take_cases` and the lemmas on `hold`, `settle` and `release`; what a run
of them keeps is in `WillowSdk.NonceRuns`.
-/
import WillowSdk.Machine
import WillowSdk.Lib.Text
import Mathlib.Data.Finset.Basic
import Mathlib.Data.Finset.Dedup
import Mathlib.Data.Finset.Filter
import Mathlib.Data.Nat.Bitwise

namespace WillowSdk

/-- How many nonces above the base the node accepts. -/
def nonceWindow : ℕ := 24

/-- How long a nonce handed out, and not seen to land, stays taken: 120 s. -/
def nonceHold : ℕ := 120 * 1000000000

theorem nonceHold_pos : 0 < nonceHold := by decide

/-- An account's nonce state as the chain reports it. -/
structure AccountNonceState where
  /-- Every nonce at or below the base is used. -/
  base : ℕ
  /-- Bit `i` set: `base + 1 + i` is used. -/
  used : ℕ
deriving DecidableEq, Repr

namespace AccountNonceState

/-- The value of the ABCI query: the base as a big-endian u64, then 3 bytes
of bits or none. -/
def fromBytes (value : Bytes) : Result AccountNonceState :=
  match value.length with
  | 0 => .ok ⟨0, 0⟩
  | 8 | 11 =>
    let base := (value.take 8).foldl (fun n b => n * 256 + b.toNat) 0
    let used := (value.drop 8).zipIdx.foldl (fun bits e => bits ||| e.1.toNat <<< (8 * e.2)) 0
    .ok ⟨base, used⟩
  | n => .error (.validation
      s!"an account nonce state of {n} bytes; the node answers 8 or 11")

/-- Whether the chain shows `nonce` used: at or below the base, or its bit set. -/
def isUsed (s : AccountNonceState) (nonce : ℕ) : Bool :=
  if nonce ≤ s.base then true
  else
    let offset := nonce - s.base - 1
    offset < nonceWindow && s.used.testBit offset

/-- The nonces above the base the chain shows used. -/
def usedNonces (s : AccountNonceState) : List ℕ :=
  ((List.range nonceWindow).filter fun i => s.used.testBit i).map fun i => saturatingAdd s.base (1 + i)

end AccountNonceState

/-- What a submission left its nonce as. -/
inductive NonceOutcome
  | accepted
  | free
  | held
  | used
  | unknown
deriving DecidableEq, Repr

/-- The outcome of a CheckTx refusal whose log is `log`, for a transaction
signed under `nonce`. -/
def refusalOutcome (log : String) (nonce : ℕ) : NonceOutcome :=
  let log := Text.trim log.toList
  let isHeld :=
    match Text.stripPrefix log s!"Nonce {nonce} of ".toList with
    | some rest =>
      match Text.afterWhitespace rest with
      | some r => "is held by a pending transaction".toList.isPrefixOf r
      | none => false
    | none => false
  if isHeld then .held
  else if s!"Invalid nonce: {nonce} already used".toList.isPrefixOf log ||
      s!"Invalid nonce: {nonce} <= base nonce".toList.isPrefixOf log ||
      s!"(nonce {nonce} spent)".toList.isSuffixOf log then .used
  else .free

structure Account where
  base : ℕ
  used : Finset ℕ
  /-- When each nonce handed out was. -/
  handed : ℕ → Option ℕ

namespace Account

def default : Account := ⟨0, ∅, fun _ => none⟩

/-- Merge `state` into what is known of the account, then drop what the base
passed and the holds that lapsed. -/
def refresh (account : Account) (state : Option AccountNonceState) (now : ℕ) : Account :=
  let account :=
    match state with
    | some state => { account with
        used := account.used ∪ state.usedNonces.toFinset
        base := max account.base state.base }
    | none => account
  let used := account.used.filter (account.base < ·)
  { base := account.base
    used := used
    handed := fun n => (account.handed n).filter fun at_ =>
      account.base < n && n ∉ used && now - at_ < nonceHold }

/-- Neither used nor handed out. -/
def isFree (account : Account) (nonce : ℕ) : Bool :=
  nonce ∉ account.used && (account.handed nonce).isNone

def hand (account : Account) (nonce now : ℕ) : Account :=
  { account with handed := Function.update account.handed nonce (some now) }

def unhand (account : Account) (nonce : ℕ) : Account :=
  { account with handed := Function.update account.handed nonce none }

end Account

/-- The nonces one client has handed out, per signing DID. -/
abbrev NonceTracker := String → Account

namespace NonceTracker

/-- A new tracker. -/
def new : NonceTracker := fun _ => .default

variable (tracker : NonceTracker) (now : ℕ) (did : String) (nonce : ℕ)

/-- Hand out the lowest nonce in `did`'s window that isn't used or handed out
within the hold, given the state the chain just reported. -/
def take (state : AccountNonceState) : Result ℕ × NonceTracker :=
  let account := (tracker did).refresh (some state) now
  let first := saturatingAdd account.base 1
  let last := saturatingAdd account.base nonceWindow
  match (List.range' first (last + 1 - first)).find? account.isFree with
  | some nonce => (.ok nonce, Function.update tracker did (account.hand nonce now))
  | none =>
    (.error (.nonceWindowFull
      s!"every nonce the node accepts for {did} ({first}..={last}) is used or held by a write in flight; send more once earlier writes land"),
      Function.update tracker did account)

/-- Mark `nonce` taken from now. -/
def hold : NonceTracker :=
  let account := (tracker did).refresh none now
  Function.update tracker did
    (if nonce > account.base ∧ nonce ∉ account.used then account.hand nonce now else account)

/-- Give back `nonce`. -/
def release : NonceTracker :=
  Function.update tracker did ((tracker did).unhand nonce)

/-- Record what a submission left `nonce` as. -/
def settle : NonceOutcome → NonceTracker
  | .accepted | .held | .unknown => hold tracker now did nonce
  | .free => release tracker did nonce
  | .used =>
    let account := (tracker did).unhand nonce
    Function.update tracker did
      (if nonce > account.base then { account with used := insert nonce account.used } else account)

/-- Whether `nonce` of `did` is handed out and its hold hasn't lapsed. -/
def isHeld : Bool × NonceTracker :=
  let account := (tracker did).refresh none now
  ((account.handed nonce).isSome, Function.update tracker did account)

end NonceTracker

/-! ### What the operations leave of an account -/

namespace AccountNonceState

/-- The bits and the membership test show the same nonces, if the window does
not reach past the largest one. -/
theorem isUsed_iff {s : AccountNonceState} (hs : s.base ≤ u64Max - nonceWindow) {n : ℕ} :
    s.isUsed n = true ↔ n ≤ s.base ∨ n ∈ s.usedNonces := by
  have hsat : ∀ i < nonceWindow, saturatingAdd s.base (1 + i) = s.base + (1 + i) := by
    intro i hi
    simp only [saturatingAdd, u64Max, nonceWindow] at *
    omega
  simp only [isUsed, usedNonces, List.mem_map, List.mem_filter, List.mem_range]
  by_cases hn : n ≤ s.base
  · simp [hn]
  · simp only [hn, if_false, false_or, Bool.and_eq_true, decide_eq_true_eq]
    refine ⟨fun h => ?_, fun h => ?_⟩
    · obtain ⟨hlt, hbit⟩ := h
      have hn' : saturatingAdd s.base (1 + (n - s.base - 1)) = n := by
        rw [hsat _ hlt]
        omega
      exact ⟨n - s.base - 1, ⟨hlt, hbit⟩, hn'⟩
    · obtain ⟨i, ⟨hi, hbit⟩, rfl⟩ := h
      rw [hsat i hi] at hn ⊢
      have hoffset : s.base + (1 + i) - s.base - 1 = i := by omega
      rw [hoffset]
      exact ⟨hi, hbit⟩

end AccountNonceState

namespace Account

/-- The account shows the nonce used. -/
def IsUsed (account : Account) (nonce : ℕ) : Prop :=
  nonce ≤ account.base ∨ nonce ∈ account.used

/-- Used, or handed out at `since` or later. -/
def Keeps (account : Account) (nonce since : ℕ) : Prop :=
  account.IsUsed nonce ∨ ∃ τ, account.handed nonce = some τ ∧ since ≤ τ

variable {account : Account} {state : AccountNonceState} {now n m since : ℕ}

@[simp] theorem refresh_none_base : (account.refresh none now).base = account.base := rfl

@[simp] theorem refresh_some_base :
    (account.refresh (some state) now).base = max account.base state.base := rfl

@[simp] theorem isUsed_refresh_none : (account.refresh none now).IsUsed n ↔ account.IsUsed n := by
  simp only [IsUsed, refresh, Finset.mem_filter]
  by_cases h : n ≤ account.base
  · simp [h]
  · simp [h, Nat.lt_of_not_le h]

theorem isUsed_refresh_some (hs : state.base ≤ u64Max - nonceWindow) :
    (account.refresh (some state) now).IsUsed n ↔ account.IsUsed n ∨ state.isUsed n = true := by
  simp only [AccountNonceState.isUsed_iff hs, IsUsed, refresh, Finset.mem_filter, Finset.mem_union,
    List.mem_toFinset, le_max_iff, max_lt_iff]
  by_cases h : n ≤ account.base
  · simp [h]
  · by_cases h' : n ≤ state.base
    · simp [h']
    · simp [h, h', Nat.lt_of_not_le]

/-- A nonce once used stays used, whatever a state says. -/
theorem IsUsed.refresh {s : Option AccountNonceState} (h : account.IsUsed n) :
    (account.refresh s now).IsUsed n := by
  cases s with
  | none => exact isUsed_refresh_none.mpr h
  | some state =>
    by_cases hle : n ≤ max account.base state.base
    · exact .inl hle
    · rcases h with h | h
      · exact absurd (h.trans (le_max_left _ _)) hle
      · refine .inr (Finset.mem_filter.mpr ⟨Finset.mem_union_left _ h, ?_⟩)
        exact lt_of_not_ge hle

/-- A refresh keeps the entries that are neither shown used nor lapsed. -/
theorem refresh_handed {s : Option AccountNonceState} {τ : ℕ} :
    (account.refresh s now).handed n = some τ ↔ account.handed n = some τ ∧
      ¬ (account.refresh s now).IsUsed n ∧ now - τ < nonceHold := by
  cases s <;>
  simp only [refresh, IsUsed, Option.filter_eq_some_iff, Bool.and_eq_true, decide_eq_true_eq,
    not_or, not_le, and_assoc]

theorem Keeps.not_free (h : account.Keeps n since) :
    ¬ (account.base < n ∧ account.isFree n = true) := by
  intro hboth
  obtain ⟨hb, hf⟩ := hboth
  simp only [isFree, Bool.and_eq_true, decide_eq_true_eq, Option.isNone_iff_eq_none] at hf
  rcases h with (h | h) | ⟨τ, hτ, -⟩
  · omega
  · exact hf.1 h
  · simp [hf.2] at hτ

/-- Until its hold lapses, a refresh keeps a nonce that was taken. -/
theorem Keeps.refresh {s : Option AccountNonceState} (h : account.Keeps n since)
    (hnow : now < since + nonceHold) : (account.refresh s now).Keeps n since := by
  rcases h with h | ⟨τ, hτ, hs⟩
  · exact .inl h.refresh
  · by_cases hu : (account.refresh s now).IsUsed n
    · exact .inl hu
    · have hpos := nonceHold_pos
      have hheld : now - τ < nonceHold := by omega
      exact .inr ⟨τ, refresh_handed.mpr ⟨hτ, hu, hheld⟩, hs⟩

@[simp] theorem isUsed_hand : (account.hand m now).IsUsed n ↔ account.IsUsed n := Iff.rfl

@[simp] theorem isUsed_unhand : (account.unhand m).IsUsed n ↔ account.IsUsed n := Iff.rfl

/-- Handing out a nonce, again or anew, keeps those taken before. -/
theorem Keeps.hand (h : account.Keeps n since) (hs : since ≤ now) :
    (account.hand m now).Keeps n since := by
  rcases h with h | ⟨τ, hτ, hs'⟩
  · exact .inl h
  · by_cases hm : n = m
    · have hnew : (account.hand m now).handed n = some now := by simp [Account.hand, hm]
      exact .inr ⟨now, hnew, hs⟩
    · have hold : (account.hand m now).handed n = some τ := by simp [Account.hand, hm, hτ]
      exact .inr ⟨τ, hold, hs'⟩

theorem Keeps.unhand (h : account.Keeps n since) (hm : n ≠ m) : (account.unhand m).Keeps n since := by
  rcases h with h | ⟨τ, hτ, hs⟩
  · exact .inl h
  · have hold : (account.unhand m).handed n = some τ := by simp [Account.unhand, hm, hτ]
    exact .inr ⟨τ, hold, hs⟩

theorem keeps_hand : (account.hand n now).Keeps n now :=
  .inr ⟨now, by simp [hand], le_rfl⟩

end Account

namespace NonceTracker

variable {tracker : NonceTracker} {now : ℕ} {did : String} {state : AccountNonceState}

/-- `take` hands out the lowest free nonce of the window, or the window has none. -/
theorem take_cases (account : Account) (ha : account = (tracker did).refresh (some state) now) :
    (∃ n, (take tracker now did state).1 = .ok n ∧
      (saturatingAdd account.base 1 ≤ n ∧ n ≤ saturatingAdd account.base nonceWindow) ∧
      account.isFree n = true ∧
      (∀ m, saturatingAdd account.base 1 ≤ m → m < n → account.isFree m = false) ∧
      (take tracker now did state).2 = Function.update tracker did (account.hand n now)) ∨
    ((∃ m, (take tracker now did state).1 = .error (.nonceWindowFull m)) ∧
      (∀ m, saturatingAdd account.base 1 ≤ m → m ≤ saturatingAdd account.base nonceWindow →
        account.isFree m = false) ∧
      (take tracker now did state).2 = Function.update tracker did account) := by
  subst ha
  unfold take
  simp only
  generalize (tracker did).refresh (some state) now = account
  cases hf : (List.range' (saturatingAdd account.base 1) (saturatingAdd account.base nonceWindow + 1 -
      saturatingAdd account.base 1)).find? account.isFree with
  | some n =>
    obtain ⟨hfree, hmem, hmin⟩ := List.find?_range'_eq_some.mp hf
    rw [List.mem_range'_1] at hmem
    refine .inl ⟨n, rfl, by omega, hfree, fun m h h' => ?_, rfl⟩
    simpa using hmin m h h'
  | none =>
    have hnone := List.find?_range'_eq_none.mp hf
    refine .inr ⟨⟨_, rfl⟩, fun m h h' => ?_, rfl⟩
    simpa using hnone m h (by omega)

/-- Below the top of the range, the window is the 24 nonces above the base. -/
theorem window_eq {base : ℕ} (h : base ≤ u64Max - nonceWindow) :
    saturatingAdd base 1 = base + 1 ∧ saturatingAdd base nonceWindow = base + nonceWindow := by
  simp only [saturatingAdd, u64Max, nonceWindow] at *
  omega

/-! What each call leaves of the account of any DID `d`, and of any nonce `m`. -/

variable {d : String} {n m since : ℕ}

variable (tracker now did state) in
/-- `take` refreshes the account with the state, and may hand out a nonce. -/
theorem take_account : ∃ a, (take tracker now did state).2 = Function.update tracker did a ∧
    (a = (tracker did).refresh (some state) now ∨
      ∃ n, a = ((tracker did).refresh (some state) now).hand n now) := by
  rcases take_cases _ rfl with ⟨n, -, -, -, -, h⟩ | ⟨-, -, h⟩
  · exact ⟨_, h, .inr ⟨n, rfl⟩⟩
  · exact ⟨_, h, .inl rfl⟩

variable (tracker now did n) in
/-- `hold` refreshes the account, and may hand out the nonce again. -/
theorem hold_account : ∃ a, hold tracker now did n = Function.update tracker did a ∧
    (a = (tracker did).refresh none now ∨ a = ((tracker did).refresh none now).hand n now) := by
  refine ⟨_, rfl, ?_⟩
  split
  · exact .inr rfl
  · exact .inl rfl

theorem take_base : ((take tracker now did state).2 d).base =
    if d = did then max (tracker d).base state.base else (tracker d).base := by
  obtain ⟨a, h, ha⟩ := take_account tracker now did state
  rw [h]
  by_cases hd : d = did
  · subst hd
    rcases ha with rfl | ⟨n, rfl⟩ <;> simp [Account.hand]
  · simp [hd]

@[simp] theorem hold_base : (hold tracker now did n d).base = (tracker d).base := by
  obtain ⟨a, h, ha⟩ := hold_account tracker now did n
  rw [h]
  by_cases hd : d = did
  · subst hd
    rcases ha with rfl | rfl <;> simp [Account.hand]
  · simp [hd]

@[simp] theorem release_base : (release tracker did n d).base = (tracker d).base := by
  by_cases hd : d = did
  · subst hd
    simp [release, Account.unhand]
  · simp [release, hd]

@[simp] theorem settle_base {o : NonceOutcome} :
    (settle tracker now did n o d).base = (tracker d).base := by
  cases o with
  | accepted | held | unknown => exact hold_base
  | free => exact release_base
  | used =>
    by_cases hd : d = did
    · subst hd
      by_cases hn : n > (tracker d).base <;> simp [settle, Account.unhand, hn]
    · simp [settle, hd]

@[simp] theorem isHeld_base : ((isHeld tracker now did n).2 d).base = (tracker d).base := by
  by_cases hd : d = did
  · subst hd
    simp [isHeld]
  · simp [isHeld, hd]

theorem take_isUsed (hs : state.base ≤ u64Max - nonceWindow) :
    ((take tracker now did state).2 d).IsUsed m ↔
      (tracker d).IsUsed m ∨ (d = did ∧ state.isUsed m = true) := by
  obtain ⟨a, h, ha⟩ := take_account tracker now did state
  rw [h]
  by_cases hd : d = did
  · subst hd
    rcases ha with rfl | ⟨n, rfl⟩ <;> simp [Account.isUsed_refresh_some hs]
  · simp [hd]

@[simp] theorem hold_isUsed : (hold tracker now did n d).IsUsed m ↔ (tracker d).IsUsed m := by
  obtain ⟨a, h, ha⟩ := hold_account tracker now did n
  rw [h]
  by_cases hd : d = did
  · subst hd
    rcases ha with rfl | rfl <;> simp
  · simp [hd]

@[simp] theorem release_isUsed : (release tracker did n d).IsUsed m ↔ (tracker d).IsUsed m := by
  by_cases hd : d = did
  · subst hd
    simp [release]
  · simp [release, hd]

theorem settle_isUsed {o : NonceOutcome} : (settle tracker now did n o d).IsUsed m ↔
    (tracker d).IsUsed m ∨ (o = .used ∧ d = did ∧ m = n) := by
  cases o with
  | accepted | held | unknown => simp [settle]
  | free => simp [settle]
  | used =>
    by_cases hd : d = did
    · subst hd
      by_cases hn : n > (tracker d).base
      · simp only [settle, Function.update_self, Account.unhand, hn, if_true, Account.IsUsed,
          Finset.mem_insert, true_and]
        tauto
      · have hle : m = n → m ≤ (tracker d).base := by omega
        simp only [settle, Function.update_self, Account.unhand, hn, if_false, Account.IsUsed,
          true_and]
        tauto
    · simp [settle, hd]

@[simp] theorem isHeld_isUsed :
    ((isHeld tracker now did n).2 d).IsUsed m ↔ (tracker d).IsUsed m := by
  by_cases hd : d = did
  · subst hd
    simp [isHeld]
  · simp [isHeld, hd]

theorem take_keeps (h : (tracker d).Keeps m since) (hsince : since ≤ now)
    (hnow : now < since + nonceHold) :
    ((take tracker now did state).2 d).Keeps m since := by
  obtain ⟨a, ht, ha⟩ := take_account tracker now did state
  rw [ht]
  by_cases hd : d = did
  · subst hd
    have hr : ((tracker d).refresh (some state) now).Keeps m since := h.refresh hnow
    rcases ha with rfl | ⟨n, rfl⟩
    · simpa using hr
    · simpa using hr.hand hsince
  · simpa [hd] using h

theorem hold_keeps (h : (tracker d).Keeps m since) (hsince : since ≤ now)
    (hnow : now < since + nonceHold) : (hold tracker now did n d).Keeps m since := by
  obtain ⟨a, ht, ha⟩ := hold_account tracker now did n
  rw [ht]
  by_cases hd : d = did
  · subst hd
    have hr : ((tracker d).refresh none now).Keeps m since := h.refresh hnow
    rcases ha with rfl | rfl
    · simpa using hr
    · simpa using hr.hand hsince
  · simpa [hd] using h

theorem isHeld_keeps (h : (tracker d).Keeps m since) (hnow : now < since + nonceHold) :
    ((isHeld tracker now did n).2 d).Keeps m since := by
  by_cases hd : d = did
  · subst hd
    simpa [isHeld] using h.refresh hnow
  · simpa [isHeld, hd] using h

theorem release_keeps (h : (tracker d).Keeps m since) (hm : ¬ (d = did ∧ m = n)) :
    (release tracker did n d).Keeps m since := by
  by_cases hd : d = did
  · subst hd
    simpa [release] using h.unhand fun he => hm ⟨rfl, he⟩
  · simpa [release, hd] using h

/-- Settling keeps every other nonce; settled Used, it keeps that one too. -/
theorem settle_keeps {o : NonceOutcome} (h : (tracker d).Keeps m since) (hsince : since ≤ now)
    (hnow : now < since + nonceHold) (hm : ¬ (d = did ∧ m = n)) :
    (settle tracker now did n o d).Keeps m since := by
  cases o with
  | accepted | held | unknown => exact hold_keeps h hsince hnow
  | free => exact release_keeps h hm
  | used =>
    by_cases hd : d = did
    · subst hd
      rcases h.unhand fun he => hm ⟨rfl, he⟩ with hu | ⟨τ, hτ, hs⟩
      · exact .inl (settle_isUsed.mpr (.inl hu))
      · refine .inr ⟨τ, ?_, hs⟩
        by_cases hn : n > ((tracker d).unhand n).base <;> simpa [settle, hn] using hτ
    · simpa [settle, hd] using h

/-- A nonce held from now is kept since now. -/
theorem hold_self : (hold tracker now did n did).Keeps n now := by
  by_cases hu : (tracker did).IsUsed n
  · exact .inl (hold_isUsed.mpr hu)
  · have hfree : n > ((tracker did).refresh none now).base ∧
        n ∉ ((tracker did).refresh none now).used := by
      have hunused : ¬ ((tracker did).refresh none now).IsUsed n :=
        mt Account.isUsed_refresh_none.mp hu
      simpa [Account.IsUsed] using hunused
    simp only [hold, Function.update_self, if_pos hfree]
    exact Account.keeps_hand

/-! What `take` returns, up to the top of the range. -/

/-- Below the top of the range, the window starts above the base. -/
theorem lt_first {base : ℕ} (h : base < u64Max) : base < saturatingAdd base 1 := by
  unfold saturatingAdd
  exact lt_min (Nat.lt_succ_self _) h

/-- A nonce that is kept is not taken, below the largest base. -/
theorem take_ne_of_keeps (hbase : (tracker did).base < u64Max) (hstate : state.base < u64Max)
    (h : (tracker did).Keeps n since) (hnow : now < since + nonceHold) :
    (take tracker now did state).1 ≠ .ok n := by
  intro htake
  have hkeeps := h.refresh (s := some state) hnow
  rcases take_cases _ rfl with ⟨m, hm, ⟨hfirst, -⟩, hfree, -, -⟩ | ⟨⟨_, hnone⟩, -, -⟩
  · obtain rfl : m = n := Except.ok.inj (hm.symm.trans htake)
    have hmax : ((tracker did).refresh (some state) now).base < u64Max := by
      rw [Account.refresh_some_base]
      exact max_lt hbase hstate
    exact hkeeps.not_free ⟨(lt_first hmax).trans_le hfirst, hfree⟩
  · rw [hnone] at htake
    cases htake

theorem take_le_u64Max (h : (take tracker now did state).1 = .ok n) : n ≤ u64Max := by
  rcases take_cases _ rfl with ⟨m, hm, ⟨-, hlast⟩, -⟩ | ⟨⟨_, hnone⟩, -⟩
  · obtain rfl : m = n := Except.ok.inj (hm.symm.trans h)
    exact hlast.trans (min_le_right _ _)
  · rw [hnone] at h
    cases h

/-- What `take` returns it keeps from then on. -/
theorem take_keeps_taken (h : (take tracker now did state).1 = .ok n) :
    ((take tracker now did state).2 did).Keeps n now := by
  rcases take_cases _ rfl with ⟨m, hm, -, -, -, ht⟩ | ⟨⟨_, hnone⟩, -⟩
  · obtain rfl : m = n := Except.ok.inj (hm.symm.trans h)
    rw [ht, Function.update_self]
    exact Account.keeps_hand
  · rw [hnone] at h
    cases h

/-- At the largest base, `take` returns it every time. -/
theorem take_of_u64Max (h : max (tracker did).base state.base = u64Max) :
    (take tracker now did state).1 = .ok u64Max := by
  have hbase : ((tracker did).refresh (some state) now).base = u64Max := h
  have hfirst : ∀ k, saturatingAdd u64Max k = u64Max := fun k => min_eq_right (Nat.le_add_right _ _)
  have hfree : ((tracker did).refresh (some state) now).isFree u64Max = true := by
    have hused : u64Max ∉ ((tracker did).refresh (some state) now).used := by
      simp [Account.refresh, h]
    have hhanded : ((tracker did).refresh (some state) now).handed u64Max = none := by
      by_contra hsome
      obtain ⟨τ, hτ⟩ := Option.ne_none_iff_exists'.mp hsome
      exact (Account.refresh_handed.mp hτ).2.1 (.inl hbase.ge)
    simp [Account.isFree, hused, hhanded]
  rcases take_cases _ rfl with ⟨m, hm, ⟨hge, hle⟩, -⟩ | ⟨-, hnone, -⟩
  · rw [hbase, hfirst] at hge hle
    rw [hm, Nat.le_antisymm hle hge]
  · have := hnone u64Max (by rw [hbase, hfirst]) (by rw [hbase, hfirst])
    rw [hfree] at this
    cases this

end NonceTracker

end WillowSdk
