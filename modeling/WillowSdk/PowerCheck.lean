/-
# The arithmetic of the header check

`verify_header` (src/light_client.rs) adds, multiplies and divides 64-bit
numbers unchecked, and turns the settings' durations into chrono's. It is
free of panics exactly `WithinLimits`: where each step that is reached stays
in its range; and then its power check is that of exact integers
(`power_check_is_exact_iff`).
-/
import WillowSdk.HeaderStore
import WillowSdk.VotingPower

namespace WillowSdk
namespace Headers

/-! ### The settings and the blocks -/

/-- `LightClient::new`, given whether the HTTP client builds. -/
def newLightClient (buildClient : Except String Unit) (config : Config) : Result Config := do
  if config.trustThreshold.1 > config.trustThreshold.2 then
    .error (.config "Trust threshold numerator cannot exceed denominator")
  else if config.chainId = "" then .error (.config "Chain ID cannot be empty")
  else
    let _ ← buildClient.mapError fun e => .config s!"Failed to create HTTP client: {e}"
    .ok config

/-- The power of all the set's validators. -/
def ValidatorSet.power (set : ValidatorSet) : ℕ :=
  (set.validators.map fun v => v.votingPower.toNat).sum

theorem sum_eq_ok {validators : List Validator} {start total : ℕ} (hstart : start ≤ u64Max)
    (h : validators.foldlM (fun sum v => Checked.add sum v.votingPower.toNat) start = .ok total) :
    total = start + (validators.map fun v => v.votingPower.toNat).sum ∧ total ≤ u64Max := by
  induction validators generalizing start with
  | nil =>
    obtain rfl := Except.ok.inj h
    exact ⟨rfl, hstart⟩
  | cons v validators ih =>
    rw [List.foldlM_cons, Outcome.bind_eq_ok] at h
    obtain ⟨next, hadd, h⟩ := h
    obtain ⟨hle, rfl⟩ := Checked.add_eq_ok.mp hadd
    obtain ⟨htotal, hmax⟩ := ih hle h
    exact ⟨by rw [htotal, List.map_cons, List.sum_cons, Nat.add_assoc], hmax⟩

/-- The total is that of the validators. -/
def ValidatorSet.Summed (set : ValidatorSet) : Prop := set.totalVotingPower.toNat = set.power

theorem parseValidatorSet_summed {V : Type} {json : JsonTree V} {codecs : Codecs} {v : Option V}
    {set : ValidatorSet} (h : parseValidatorSet json codecs v = .ok set) : set.Summed := by
  unfold parseValidatorSet at h
  obtain ⟨total, hsum, h⟩ := Outcome.bind_eq_ok.mp h
  obtain rfl := Except.ok.inj h
  obtain ⟨htotal, hmax⟩ := sum_eq_ok (Nat.zero_le _) hsum
  have hlt : total < 2 ^ 64 := by
    unfold u64Max at hmax
    omega
  show (UInt64.ofNat total).toNat = _
  rw [UInt64.toNat_ofNat', Nat.mod_eq_of_lt hlt, htotal, Nat.zero_add]
  rfl

/-- Every parsed block has the total of its validators. -/
theorem parseLightBlock_summed {V : Type} {json : JsonTree V} {codecs : Codecs} {now : ℤ}
    {commitResp validatorsResp : V} {block : LightBlock}
    (h : parseLightBlock json codecs now commitResp validatorsResp = .ok block) :
    block.validators.Summed := by
  unfold parseLightBlock at h
  obtain ⟨lastBlockId, -, h⟩ := Outcome.bind_eq_ok.mp h
  obtain ⟨blockId, -, h⟩ := Outcome.bind_eq_ok.mp h
  obtain ⟨validators, hparse, h⟩ := Outcome.bind_eq_ok.mp h
  obtain rfl := Except.ok.inj h
  exact parseValidatorSet_summed hparse

section Check

variable (schemes : Schemes) (config : Config) (now : ℤ) (trusted untrusted : LightBlock)

/-! ### What the steps read -/

/-- The power a commit signature adds: its validator's, if it verifies. -/
def powerOf (sig : CommitSig) : ℕ :=
  ((voter schemes config untrusted sig).map fun v => v.votingPower.toNat).getD 0

/-- The power of the commit signatures that verify. -/
def signedPower : ℕ := (untrusted.commit.signatures.map (powerOf schemes config untrusted)).sum

/-- The validator of a commit signature is there, and its key and signature
can be read. -/
def Readable : CommitSig → Prop
  | .blockIdFlagCommit validatorAddress _ signature => ∃ validator verified,
    (untrusted.validators.validators.find? fun v => v.address = validatorAddress) = some validator ∧
      verifySignature schemes config validator signature untrusted = .ok verified
  | .blockIdFlagNil | .blockIdFlagAbsent => True

/-- The untrusted header is the next of the chain, later than the trusted one. -/
structure Sequential : Prop where
  chainId : untrusted.header.chainId = config.chainId
  height : untrusted.header.height.toNat = trusted.header.height.toNat + 1
  time : trusted.header.time < untrusted.header.time

/-- It is in the trusting period. -/
structure Recent : Prop extends Sequential config trusted untrusted where
  age : now - untrusted.header.time ≤ config.trustingPeriod

/-- It is within the clock drift, and its validators are those announced. -/
structure Linked : Prop extends Recent config now trusted untrusted where
  drift : untrusted.header.time ≤ now + config.maxClockDrift
  links : untrusted.header.validatorsHash = trusted.header.nextValidatorsHash

/-- All that comes before the power check passes. -/
structure PassesBefore : Prop extends Linked config now trusted untrusted where
  readable : ∀ sig ∈ untrusted.commit.signatures, Readable schemes config untrusted sig

/-- Each step that is reached stays in its range. -/
structure WithinLimits : Prop where
  height : untrusted.header.chainId = config.chainId → trusted.header.height.toNat + 1 ≤ u64Max
  period : Sequential config trusted untrusted → config.trustingPeriod ≤ maxTimeDelta
  drift : Recent config now trusted untrusted →
    config.maxClockDrift ≤ maxTimeDelta ∧ now + config.maxClockDrift ≤ maxDateTime
  /-- The powers added, up to a signature that can't be read. -/
  signed : Linked config now trusted untrusted → ∀ done, done <+: untrusted.commit.signatures →
    (∀ sig ∈ done, Readable schemes config untrusted sig) →
    (done.map (powerOf schemes config untrusted)).sum ≤ u64Max
  product : PassesBefore schemes config now trusted untrusted →
    untrusted.validators.power * config.trustThreshold.1 ≤ u64Max ∧ config.trustThreshold.2 ≠ 0

end Check

section Exact

variable {schemes : Schemes} {config : Config} {now : ℤ} {trusted untrusted : LightBlock}

/-! ### The signatures -/

theorem countSignature_found {validatorAddress signature : Bytes} {timestamp : ℤ} {signed : ℕ}
    {validator : Validator}
    (hfind : (untrusted.validators.validators.find? fun v => v.address = validatorAddress) =
      some validator) :
    countSignature schemes config untrusted signed
        (.blockIdFlagCommit validatorAddress timestamp signature) =
      (Checked.lift (verifySignature schemes config validator signature untrusted) >>= fun verified =>
        if verified then Checked.add signed validator.votingPower.toNat else .ok signed) := by
  simp only [countSignature, hfind]
  rfl

/-- A signature that can be read adds its power. -/
theorem countSignature_readable {sig : CommitSig} {signed : ℕ}
    (hread : Readable schemes config untrusted sig) (hsigned : signed ≤ u64Max) :
    countSignature schemes config untrusted signed sig =
      Checked.add signed (powerOf schemes config untrusted sig) := by
  have hnone : Checked.add signed 0 = .ok signed := Checked.add_eq_ok.mpr ⟨hsigned, rfl⟩
  cases sig with
  | blockIdFlagNil => exact hnone.symm
  | blockIdFlagAbsent => exact hnone.symm
  | blockIdFlagCommit validatorAddress timestamp signature =>
    obtain ⟨validator, verified, hfind, hverify⟩ := hread
    have hvoter : voter schemes config untrusted
        (.blockIdFlagCommit validatorAddress timestamp signature) =
          if verified then some validator else none := by
      simp only [voter, hfind, Option.filter]
      cases verified <;> simp [hverify]
    have hcount : countSignature schemes config untrusted signed
        (.blockIdFlagCommit validatorAddress timestamp signature) =
          if verified then Checked.add signed validator.votingPower.toNat else .ok signed := by
      rw [countSignature_found hfind, hverify]
      rfl
    unfold powerOf
    rw [hvoter, hcount]
    cases verified with
    | true => rfl
    | false => exact hnone.symm

/-- One that can't is refused. -/
theorem countSignature_unreadable {sig : CommitSig} (signed : ℕ)
    (hread : ¬ Readable schemes config untrusted sig) :
    ∃ e, countSignature schemes config untrusted signed sig = Checked.refuse e := by
  cases sig with
  | blockIdFlagNil => exact absurd trivial hread
  | blockIdFlagAbsent => exact absurd trivial hread
  | blockIdFlagCommit validatorAddress timestamp signature =>
    cases hfind : untrusted.validators.validators.find? fun v => v.address = validatorAddress with
    | none =>
      refine ⟨.lightClient "Validator not found for signature", ?_⟩
      simp only [countSignature, hfind]
      rfl
    | some validator =>
      cases hverify : verifySignature schemes config validator signature untrusted with
      | error e =>
        refine ⟨e, ?_⟩
        rw [countSignature_found hfind, hverify]
        rfl
      | ok verified => exact absurd ⟨validator, verified, hfind, hverify⟩ hread

/-- The signatures are counted without a panic when each sum on the way fits. -/
theorem noPanic_countSignatures {sigs : List CommitSig} {signed : ℕ} (hsigned : signed ≤ u64Max) :
    Checked.NoPanic (sigs.foldlM (countSignature schemes config untrusted) signed) ↔
      ∀ done, done <+: sigs → (∀ sig ∈ done, Readable schemes config untrusted sig) →
        signed + (done.map (powerOf schemes config untrusted)).sum ≤ u64Max := by
  induction sigs generalizing signed with
  | nil =>
    refine ⟨fun _ done hdone _ => ?_, fun _ => Checked.noPanic_ok _⟩
    rw [List.prefix_nil.mp hdone]
    exact hsigned
  | cons sig sigs ih =>
    rw [List.foldlM_cons, Checked.noPanic_bind_iff]
    by_cases hread : Readable schemes config untrusted sig
    · rw [countSignature_readable hread hsigned, Checked.noPanic_add]
      refine ⟨fun h done hdone hall => ?_, fun h => ?_⟩
      · obtain ⟨hadd, hrest⟩ := h
        rcases List.prefix_cons_iff.mp hdone with rfl | ⟨rest, rfl, hprefix⟩
        · exact hsigned
        · have hnext := (ih hadd).mp (hrest _ (Checked.add_eq_ok.mpr ⟨hadd, rfl⟩)) rest hprefix
            fun s hs => hall s (List.mem_cons_of_mem _ hs)
          rw [List.map_cons, List.sum_cons, ← Nat.add_assoc]
          exact hnext
      · have hadd := h [sig] (List.prefix_iff_eq_take.mpr rfl) (by simpa using hread)
        rw [List.map_singleton, List.sum_singleton] at hadd
        refine ⟨hadd, fun next hnext => ?_⟩
        obtain ⟨-, rfl⟩ := Checked.add_eq_ok.mp hnext
        refine (ih hadd).mpr fun rest hprefix hall => ?_
        have hsum := h (sig :: rest) ((List.cons_prefix_cons).mpr ⟨rfl, hprefix⟩)
          (List.forall_mem_cons.mpr ⟨hread, hall⟩)
        rw [List.map_cons, List.sum_cons, ← Nat.add_assoc] at hsum
        exact hsum
    · obtain ⟨e, hrefuse⟩ := countSignature_unreadable signed hread
      rw [hrefuse]
      refine ⟨fun _ done hdone hall => ?_, fun _ => ?_⟩
      · rcases List.prefix_cons_iff.mp hdone with rfl | ⟨rest, rfl, hprefix⟩
        · exact hsigned
        · exact absurd (hall sig List.mem_cons_self) hread
      · exact ⟨Checked.noPanic_refuse e, fun a ha => by cases ha⟩

/-- They are counted when all can be read and each sum fits. -/
theorem countSignatures_eq_ok_iff {sigs : List CommitSig} {signed total : ℕ}
    (hsigned : signed ≤ u64Max) :
    sigs.foldlM (countSignature schemes config untrusted) signed = .ok total ↔
      (∀ sig ∈ sigs, Readable schemes config untrusted sig) ∧ total ≤ u64Max ∧
        signed + (sigs.map (powerOf schemes config untrusted)).sum = total := by
  induction sigs generalizing signed with
  | nil =>
    refine ⟨fun h => ?_, fun h => ?_⟩
    · obtain rfl := Except.ok.inj h
      exact ⟨fun sig hsig => absurd hsig List.not_mem_nil, hsigned, rfl⟩
    · exact congrArg Except.ok h.2.2
  | cons sig sigs ih =>
    rw [List.foldlM_cons, Outcome.bind_eq_ok, List.map_cons, List.sum_cons, ← Nat.add_assoc]
    refine ⟨fun h => ?_, fun h => ?_⟩
    · obtain ⟨next, hstep, hrest⟩ := h
      have hread : Readable schemes config untrusted sig := by
        by_contra hread
        obtain ⟨e, hrefuse⟩ := countSignature_unreadable signed hread
        rw [hrefuse] at hstep
        cases hstep
      rw [countSignature_readable hread hsigned] at hstep
      obtain ⟨hadd, rfl⟩ := Checked.add_eq_ok.mp hstep
      obtain ⟨hall, hmax, htotal⟩ := (ih hadd).mp hrest
      exact ⟨List.forall_mem_cons.mpr ⟨hread, hall⟩, hmax, htotal⟩
    · obtain ⟨hall, hmax, htotal⟩ := h
      obtain ⟨hread, hrest⟩ := List.forall_mem_cons.mp hall
      have hadd : signed + powerOf schemes config untrusted sig ≤ u64Max := by omega
      refine ⟨_, ?_, (ih hadd).mpr ⟨hrest, hmax, htotal⟩⟩
      rw [countSignature_readable hread hsigned]
      exact Checked.add_eq_ok.mpr ⟨hadd, rfl⟩

/-! ### The check -/

theorem noPanic_fromStd {d : ℕ} : Checked.NoPanic (fromStd d) ↔ d ≤ maxTimeDelta := by
  unfold Checked.NoPanic fromStd
  split <;> simp_all

theorem noPanic_addTime {time d : ℤ} :
    Checked.NoPanic (addTime time d) ↔ time + d ≤ maxDateTime := by
  unfold Checked.NoPanic addTime
  split <;> simp_all

/-- The signatures, where what comes before them passes. -/
theorem noPanic_verifyCommitSignatures :
    Checked.NoPanic (verifyCommitSignatures schemes config untrusted) ↔
      ∀ done, done <+: untrusted.commit.signatures →
        (∀ sig ∈ done, Readable schemes config untrusted sig) →
        (done.map (powerOf schemes config untrusted)).sum ≤ u64Max := by
  unfold verifyCommitSignatures
  rw [Checked.noPanic_bind_iff, noPanic_countSignatures (Nat.zero_le _)]
  simp only [Nat.zero_add, Checked.noPanic_ok, implies_true, and_true]

theorem verifyCommitSignatures_eq_ok_iff {signed total : ℕ} :
    verifyCommitSignatures schemes config untrusted = .ok (signed, total) ↔
      (∀ sig ∈ untrusted.commit.signatures, Readable schemes config untrusted sig) ∧
        signed ≤ u64Max ∧ signedPower schemes config untrusted = signed ∧
        untrusted.validators.totalVotingPower.toNat = total := by
  unfold verifyCommitSignatures
  simp only [Outcome.bind_eq_ok, Except.ok.injEq, Prod.mk.injEq,
    countSignatures_eq_ok_iff (Nat.zero_le _), Nat.zero_add]
  refine ⟨fun h => ?_, fun h => ?_⟩
  · obtain ⟨_, ⟨hall, hmax, hsum⟩, rfl, htotal⟩ := h
    exact ⟨hall, hmax, hsum, htotal⟩
  · obtain ⟨hall, hmax, hsum, htotal⟩ := h
    exact ⟨signed, ⟨hall, hmax, hsum⟩, rfl, htotal⟩

/-- The check is free of panics where each step that is reached is. -/
theorem noPanic_verifyHeader (hsummed : untrusted.validators.Summed) :
    Checked.NoPanic (verifyHeader schemes config now trusted untrusted) ↔
      WithinLimits schemes config now trusted untrusted := by
  unfold verifyHeader
  simp only [Checked.noPanic_bind_iff, Checked.noPanic_require, Checked.require_eq_ok, true_and,
    forall_const, Checked.noPanic_add, Checked.add_eq_ok, and_imp, noPanic_fromStd,
    fromStd_eq_ok, noPanic_addTime, addTime_eq_ok, noPanic_verifyCommitSignatures, Prod.forall,
    verifyCommitSignatures_eq_ok_iff, Checked.noPanic_mul, Checked.mul_eq_ok,
    Checked.noPanic_divCeil]
  refine ⟨fun h => ?_, fun h hchain => ?_⟩
  · have hnext : ∀ hseq : Sequential config trusted untrusted, _ := fun hseq =>
      (h hseq.chainId).2 _ (h hseq.chainId).1 rfl hseq.height hseq.time
    have hrecent : ∀ hrec : Recent config now trusted untrusted, _ := fun hrec =>
      (hnext hrec.toSequential).2 _ (hnext hrec.toSequential).1 rfl hrec.age
    have hlatest : ∀ hrec : Recent config now trusted untrusted, _ := fun hrec =>
      (hrecent hrec).2 _ (hrecent hrec).1 rfl
    have hlinked : ∀ hlink : Linked config now trusted untrusted, _ := fun hlink =>
      (hlatest hlink.toRecent).2 _ (hlatest hlink.toRecent).1 rfl hlink.drift hlink.links
    refine ⟨fun hchain => (h hchain).1, fun hseq => (hnext hseq).1,
      fun hrec => ⟨(hrecent hrec).1, (hlatest hrec).1⟩, fun hlink => (hlinked hlink).1,
      fun hpass => ?_⟩
    have hsum := (hlinked hpass.toLinked).1 _ (List.prefix_refl _) hpass.readable
    obtain ⟨hmul, hdiv⟩ := (hlinked hpass.toLinked).2 _ _ hpass.readable hsum rfl rfl
    have hden := (hdiv _ hmul rfl).1
    rw [hsummed] at hmul
    exact ⟨hmul, hden⟩
  · refine ⟨h.height hchain, ?_⟩
    rintro next - rfl hheight htime
    have hseq : Sequential config trusted untrusted := ⟨hchain, hheight, htime⟩
    refine ⟨h.period hseq, ?_⟩
    rintro period - rfl hage
    have hrec : Recent config now trusted untrusted := ⟨hseq, hage⟩
    refine ⟨(h.drift hrec).1, ?_⟩
    rintro drift - rfl
    refine ⟨(h.drift hrec).2, ?_⟩
    rintro latest - rfl hdrift hlinks
    have hlink : Linked config now trusted untrusted := ⟨hrec, hdrift, hlinks⟩
    refine ⟨h.signed hlink, ?_⟩
    rintro signed total hread - rfl rfl
    have hproduct := h.product ⟨hlink, hread⟩
    rw [← hsummed] at hproduct
    exact ⟨hproduct.1, fun _ _ _ => ⟨hproduct.2, fun _ _ => trivial⟩⟩

/-- Within the limits, and once what comes before it passes, the power check
is that of exact integers. -/
theorem WithinLimits.verifyHeader_eq_ok_iff
    (hlimits : WithinLimits schemes config now trusted untrusted)
    (hsummed : untrusted.validators.Summed)
    (hpass : PassesBefore schemes config now trusted untrusted) :
    verifyHeader schemes config now trusted untrusted = .ok () ↔
      untrusted.validators.power * config.trustThreshold.1 ≤
        signedPower schemes config untrusted * config.trustThreshold.2 := by
  have htotal : untrusted.validators.totalVotingPower.toNat = untrusted.validators.power := hsummed
  have hheight := hlimits.height hpass.chainId
  have hperiod := hlimits.period hpass.toSequential
  obtain ⟨hdrift, hlatest⟩ := hlimits.drift hpass.toRecent
  have hsigned := hlimits.signed hpass.toLinked _ (List.prefix_refl _) hpass.readable
  obtain ⟨hmul, hden⟩ := hlimits.product hpass
  have hceil := Checked.ceil_le_iff (a := untrusted.validators.power * config.trustThreshold.1)
    (s := signedPower schemes config untrusted) (Nat.pos_of_ne_zero hden)
  rw [Nat.mul_comm (signedPower schemes config untrusted), ← hceil]
  unfold verifyHeader
  simp only [Outcome.bind_eq_ok, Checked.require_eq_ok, Checked.add_eq_ok, fromStd_eq_ok,
    addTime_eq_ok, Checked.mul_eq_ok, Checked.divCeil_eq_ok, Prod.exists,
    verifyCommitSignatures_eq_ok_iff, htotal]
  refine ⟨fun h => ?_, fun henough => ?_⟩
  · obtain ⟨_, -, next, -, _, -, _, -, period, -, _, -, drift, -, latest, -, _, -, _, -, signed,
      total, ⟨-, -, rfl, rfl⟩, scaled, ⟨-, rfl⟩, threshold, ⟨-, rfl⟩, henough⟩ := h
    exact henough
  · exact ⟨(), hpass.chainId, _, ⟨hheight, rfl⟩, (), hpass.height, (), hpass.time, _,
      ⟨hperiod, rfl⟩, (), hpass.age, _, ⟨hdrift, rfl⟩, _, ⟨hlatest, rfl⟩, (), hpass.drift, (),
      hpass.links, _, _, ⟨hpass.readable, hsigned, rfl, rfl⟩, _, ⟨hmul, rfl⟩, _, ⟨hden, rfl⟩,
      henough⟩

/-- **When the power check is exact.** For blocks as they are parsed, the check
is free of panics, and its power check that of exact integers, exactly when
each step that is reached stays in its range. -/
theorem power_check_is_exact_iff (schemes : Schemes) (config : Config) (now : ℤ)
    (trusted untrusted : LightBlock) (hsummed : untrusted.validators.Summed) :
    Checked.NoPanic (verifyHeader schemes config now trusted untrusted) ∧
        (PassesBefore schemes config now trusted untrusted →
          (verifyHeader schemes config now trusted untrusted = .ok () ↔
            untrusted.validators.power * config.trustThreshold.1 ≤
              signedPower schemes config untrusted * config.trustThreshold.2)) ↔
      WithinLimits schemes config now trusted untrusted := by
  rw [noPanic_verifyHeader hsummed]
  exact ⟨fun h => h.1, fun h => ⟨h, fun hpass => h.verifyHeader_eq_ok_iff hsummed hpass⟩⟩

end Exact

theorem power_check_is_exact_iff_sample :
    WithinLimits Sample.schemes Sample.lenient (2 * 10 ^ 9) (Sample.block 1 [])
      (Sample.block 2 [Sample.vote]) := by
  have hnoPanic : Checked.NoPanic (verifyHeader Sample.schemes Sample.lenient (2 * 10 ^ 9)
      (Sample.block 1 []) (Sample.block 2 [Sample.vote])) := by
    show verifyHeader _ _ _ _ _ ≠ _
    intro h
    cases h
  refine (power_check_is_exact_iff Sample.schemes Sample.lenient (2 * 10 ^ 9) (Sample.block 1 [])
    (Sample.block 2 [Sample.vote]) (by rfl)).mp ⟨hnoPanic, fun _ => iff_of_true (by rfl) ?_⟩
  show 3 * 1 ≤ 1 * 3
  exact Nat.le_refl 3

/-- The settings with a threshold of nothing over nothing. -/
def Sample.nothing : Config := { Sample.config with trustThreshold := (0, 0) }

/-- A block whose one validator has half of the powers there are. -/
def Sample.heavyBlock : LightBlock :=
  { Sample.block 2 [] with
    validators :=
      ⟨[⟨Sample.address, .ed25519 Sample.key, 9223372036854775808⟩], 9223372036854775808⟩ }

/-- An endpoint's commit of the chain at the last height there is. -/
def Sample.lastCommit : Value :=
  .object [("result", .object [("signed_header", .object [("header", .object [
    ("chain_id", .text "willow"), ("height", .text "18446744073709551615")])])])]

/-- What the SDK parses of it. -/
def Sample.lastBlock : LightBlock where
  header := ⟨⟨18446744073709551615, []⟩, "willow", 0, none, [], []⟩
  commit := ⟨0, 0, ⟨[], none⟩, []⟩
  validators := ⟨[], 0⟩

/-- Under the default settings, the height after the last one overflows, and so
do two thirds of a large total; and a threshold with no denominator, which
`new` accepts, is divided by. -/
theorem power_check_panics :
    newLightClient (.ok ()) Sample.config = .ok Sample.config ∧
      parseLightBlock Sample.tree Sample.noCodecs 0 Sample.lastCommit Sample.lastCommit =
        .ok Sample.lastBlock ∧
      verifyHeader Sample.schemes Sample.config 0 Sample.lastBlock Sample.lastBlock =
        .error .panic ∧
      (Sample.block 1 []).validators.Summed ∧ Sample.heavyBlock.validators.Summed ∧
      verifyHeader Sample.schemes Sample.config (2 * 10 ^ 9) (Sample.block 1 []) Sample.heavyBlock =
        .error .panic ∧
      newLightClient (.ok ()) Sample.nothing = .ok Sample.nothing ∧
      (Sample.block 2 []).validators.Summed ∧
      verifyHeader Sample.schemes Sample.nothing (2 * 10 ^ 9) (Sample.block 1 [])
        (Sample.block 2 []) = .error .panic :=
  ⟨by rfl, by rfl, by rfl, by rfl, by rfl, by rfl, by rfl, by rfl, by rfl⟩

end Headers
end WillowSdk
