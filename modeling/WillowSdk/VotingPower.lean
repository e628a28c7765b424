/-
# Which voting power a header's check counts

`verify_commit_signatures` (src/light_client.rs) adds a validator's power for
each of its commit signatures that verifies, however many there are. It
counts the validators that signed once each exactly when none with power has
two, and then an accepted header has their share of the total behind it
(`power_counted_once_iff`).
-/
import WillowSdk.Headers
import WillowSdk.Lib.Tally

namespace WillowSdk
namespace Headers

/-- A set in which no address is twice. -/
def ValidatorSet.Distinct (set : ValidatorSet) : Prop := (set.validators.map (·.address)).Nodup

section Votes

variable (schemes : Schemes) (config : Config) (block : LightBlock)

/-- Whether a commit signature is a validator's, and verifies. -/
def isVoteOf (validator : Validator) : CommitSig → Bool
  | .blockIdFlagCommit validatorAddress _ signature =>
    validatorAddress = validator.address ∧
      verifySignature schemes config validator signature block = .ok true
  | .blockIdFlagNil | .blockIdFlagAbsent => false

/-- How many of the block's commit signatures are the validator's, and
verify. -/
def votesOf (validator : Validator) : ℕ :=
  block.commit.signatures.countP (isVoteOf schemes config block validator)

/-- The distinct validators with a commit signature that verifies. -/
def signers : Finset Validator :=
  block.validators.validators.toFinset.filter fun v => 0 < votesOf schemes config block v

/-- The power of the validators that signed, each counted once. -/
def signersPower : ℕ := ∑ v ∈ signers schemes config block, v.votingPower.toNat

/-- No validator with power has two commit signatures that verify. -/
def VotesOnce : Prop :=
  ∀ v ∈ block.validators.validators, 0 < v.votingPower.toNat → votesOf schemes config block v ≤ 1

instance instDecidableVotesOnce : Decidable (VotesOnce schemes config block) :=
  inferInstanceAs (Decidable (∀ v ∈ block.validators.validators,
    0 < v.votingPower.toNat → votesOf schemes config block v ≤ 1))

/-- Distinct validators, at least one, hold the trust threshold's share of the
total power and signed the block. -/
structure SignedByShare : Prop where
  nonempty : (signers schemes config block).Nonempty
  share : block.validators.totalVotingPower.toNat * config.trustThreshold.1 ≤
    config.trustThreshold.2 * signersPower schemes config block

/-- The validator whose power a commit signature adds. -/
def voter : CommitSig → Option Validator
  | .blockIdFlagCommit validatorAddress _ signature =>
    (block.validators.validators.find? fun v => v.address = validatorAddress).filter fun v =>
      verifySignature schemes config v signature block = .ok true
  | .blockIdFlagNil | .blockIdFlagAbsent => none

/-- The validators whose power was added, once for each time. -/
def voters : List Validator := block.commit.signatures.filterMap (voter schemes config block)

end Votes

section Counting

variable {schemes : Schemes} {config : Config} {block : LightBlock}

/-! ### The tally -/

theorem countSignature_eq_ok {sig : CommitSig} {signed signed' : ℕ}
    (h : countSignature schemes config block signed sig = .ok signed') :
    signed' = signed + ((voter schemes config block sig).map (·.votingPower.toNat)).getD 0 := by
  cases sig with
  | blockIdFlagNil => exact (Except.ok.inj h).symm
  | blockIdFlagAbsent => exact (Except.ok.inj h).symm
  | blockIdFlagCommit validatorAddress timestamp signature =>
    simp only [countSignature, Outcome.bind_eq_ok, Checked.lift_eq_ok, Outcome.okOr_eq_ok] at h
    obtain ⟨v, hfind, verified, hverify, h⟩ := h
    have hvoter : voter schemes config block
        (.blockIdFlagCommit validatorAddress timestamp signature) =
          if verified then some v else none := by
      simp only [voter, hfind, Option.filter]
      cases verified <;> simp [hverify]
    rw [hvoter]
    cases verified with
    | true =>
      rw [if_pos rfl, Checked.add_eq_ok] at h
      exact h.2.symm
    | false => exact (Except.ok.inj h).symm

theorem countSignatures_eq_ok {sigs : List CommitSig} {signed signed' : ℕ}
    (h : sigs.foldlM (countSignature schemes config block) signed = .ok signed') :
    signed' = signed +
      Tally.tally (·.votingPower.toNat) (sigs.filterMap (voter schemes config block)) := by
  induction sigs generalizing signed with
  | nil => exact (Except.ok.inj h).symm
  | cons sig sigs ih =>
    rw [List.foldlM_cons, Outcome.bind_eq_ok] at h
    obtain ⟨mid, hstep, hrest⟩ := h
    have hmid := countSignature_eq_ok hstep
    rw [ih hrest, hmid]
    cases hv : voter schemes config block sig with
    | none => simp [hv]
    | some v => simp [hv, Tally.tally, Nat.add_assoc]

/-- The power signed is the tally of the voters. -/
theorem verifyCommitSignatures_eq_ok {signed total : ℕ}
    (h : verifyCommitSignatures schemes config block = .ok (signed, total)) :
    signed = Tally.tally (·.votingPower.toNat) (voters schemes config block) ∧
      total = block.validators.totalVotingPower.toNat := by
  simp only [verifyCommitSignatures, Outcome.bind_eq_ok, Except.ok.injEq, Prod.mk.injEq] at h
  obtain ⟨_, hfold, rfl, rfl⟩ := h
  refine ⟨?_, rfl⟩
  rw [countSignatures_eq_ok hfold, Nat.zero_add]
  rfl

/-! ### Voters and votes -/

/-- The set's validator with an address, if no address is twice. -/
theorem find_address (hdistinct : block.validators.Distinct) {v : Validator} {address : Bytes} :
    block.validators.validators.find? (fun w => w.address = address) = some v ↔
      v ∈ block.validators.validators ∧ address = v.address := by
  refine ⟨fun h => ?_, fun h => ?_⟩
  · have haddress : v.address = address := by simpa using List.find?_some h
    exact ⟨List.mem_of_find?_eq_some h, haddress.symm⟩
  · obtain ⟨hv, rfl⟩ := h
    have hsome : (block.validators.validators.find? fun w => w.address = v.address).isSome := by
      rw [List.find?_isSome]
      exact ⟨v, hv, by simp⟩
    obtain ⟨w, hw⟩ := Option.isSome_iff_exists.mp hsome
    have haddress : w.address = v.address := by simpa using List.find?_some hw
    have hsame : w = v :=
      List.inj_on_of_nodup_map hdistinct (List.mem_of_find?_eq_some hw) hv haddress
    rw [hw, hsame]

theorem voter_eq_some (hdistinct : block.validators.Distinct) {v : Validator} {sig : CommitSig} :
    voter schemes config block sig = some v ↔
      v ∈ block.validators.validators ∧ isVoteOf schemes config block v sig = true := by
  cases sig with
  | blockIdFlagNil => simp [voter, isVoteOf]
  | blockIdFlagAbsent => simp [voter, isVoteOf]
  | blockIdFlagCommit validatorAddress timestamp signature =>
    simp only [voter, isVoteOf, Option.filter_eq_some_iff, find_address hdistinct,
      decide_eq_true_eq, and_assoc]

/-- A validator's power is added once for each vote of it. -/
theorem count_voters (hdistinct : block.validators.Distinct) {v : Validator}
    (hv : v ∈ block.validators.validators) :
    (voters schemes config block).count v = votesOf schemes config block v := by
  unfold voters votesOf
  rw [List.count_filterMap]
  refine List.countP_congr fun sig _ => ?_
  rw [beq_iff_eq, voter_eq_some hdistinct]
  exact and_iff_right hv

theorem mem_voters (hdistinct : block.validators.Distinct) {v : Validator} :
    v ∈ voters schemes config block ↔
      v ∈ block.validators.validators ∧ 0 < votesOf schemes config block v := by
  unfold voters votesOf
  rw [List.mem_filterMap, List.countP_pos_iff]
  simp only [voter_eq_some hdistinct]
  refine ⟨fun h => ?_, fun h => ?_⟩
  · obtain ⟨sig, hsig, hv, hvote⟩ := h
    exact ⟨hv, sig, hsig, hvote⟩
  · obtain ⟨hv, sig, hsig, hvote⟩ := h
    exact ⟨sig, hsig, hv, hvote⟩

theorem castWeight_voters (hdistinct : block.validators.Distinct) :
    Tally.castWeight (·.votingPower.toNat) (voters schemes config block) =
      signersPower schemes config block := by
  have hsigners : (voters schemes config block).toFinset = signers schemes config block := by
    ext v
    rw [List.mem_toFinset, mem_voters hdistinct, signers, Finset.mem_filter, List.mem_toFinset]
  unfold Tally.castWeight signersPower
  rw [hsigners]

/-- The power signed is the signers' exactly when nobody with power votes
twice. -/
theorem signed_eq_iff (hdistinct : block.validators.Distinct) {signed total : ℕ}
    (h : verifyCommitSignatures schemes config block = .ok (signed, total)) :
    signed = signersPower schemes config block ↔ VotesOnce schemes config block := by
  obtain ⟨hsigned, -⟩ := verifyCommitSignatures_eq_ok h
  rw [hsigned, ← castWeight_voters hdistinct, Tally.tally_eq_iff]
  refine ⟨fun honce v hv hpos => ?_, fun honce v hpos => ?_⟩
  · rw [← count_voters hdistinct hv]
    exact honce v hpos
  · by_cases hv : v ∈ voters schemes config block
    · have hmem := ((mem_voters hdistinct).mp hv).1
      rw [count_voters hdistinct hmem]
      exact honce v hmem hpos
    · rw [List.count_eq_zero_of_not_mem hv]
      exact Nat.zero_le 1

theorem signers_nonempty {signed total : ℕ} (hdistinct : block.validators.Distinct)
    (h : verifyCommitSignatures schemes config block = .ok (signed, total)) (hpos : 0 < signed) :
    (signers schemes config block).Nonempty := by
  obtain ⟨hsigned, -⟩ := verifyCommitSignatures_eq_ok h
  have hne : voters schemes config block ≠ [] := by
    intro hnil
    rw [hsigned, hnil] at hpos
    exact absurd hpos (Nat.lt_irrefl 0)
  obtain ⟨v, hv⟩ := List.exists_mem_of_ne_nil _ hne
  obtain ⟨hmem, hvotes⟩ := (mem_voters hdistinct).mp hv
  exact ⟨v, Finset.mem_filter.mpr ⟨List.mem_toFinset.mpr hmem, hvotes⟩⟩

/-- **When voting power is counted once per validator.** Where the signatures
are counted, the power signed is the signers' exactly when no validator with
power has two that verify. An accepted header then has a share of the signers
behind it, unless there is no power at all and nobody signed. -/
theorem power_counted_once_iff (schemes : Schemes) (config : Config) (block : LightBlock)
    (hdistinct : block.validators.Distinct) :
    (∀ signed total, verifyCommitSignatures schemes config block = .ok (signed, total) →
      total = block.validators.totalVotingPower.toNat ∧
      (signed = signersPower schemes config block ↔ VotesOnce schemes config block)) ∧
    ∀ now trusted, verifyHeader schemes config now trusted block = .ok () →
      0 < config.trustThreshold.1 →
      ∃ signed total, verifyCommitSignatures schemes config block = .ok (signed, total) ∧
        (signed = signersPower schemes config block ∧ SignedByShare schemes config block ↔
          VotesOnce schemes config block ∧
            (0 < block.validators.totalVotingPower.toNat ∨
              (signers schemes config block).Nonempty)) := by
  refine ⟨fun signed total h => ?_, fun now trusted haccept hnum => ?_⟩
  · exact ⟨(verifyCommitSignatures_eq_ok h).2, signed_eq_iff hdistinct h⟩
  · obtain ⟨signed, total, h⟩ := verifyHeader_accepted haccept
    have hiff := signed_eq_iff hdistinct h.signatures
    obtain ⟨-, htotal⟩ := verifyCommitSignatures_eq_ok h.signatures
    have henough := h.enough
    refine ⟨signed, total, h.signatures, fun hclaim => ?_, fun hcond => ?_⟩
    · obtain ⟨hsigned, hshare⟩ := hclaim
      exact ⟨hiff.mp hsigned, .inr hshare.nonempty⟩
    · obtain ⟨honce, hsome⟩ := hcond
      have hsigned := hiff.mpr honce
      rw [hsigned, htotal] at henough
      refine ⟨hsigned, ?_, henough⟩
      rcases hsome with hpos | hsigners
      · -- with power in the set, the threshold is more than nothing
        have hscaled : 0 < block.validators.totalVotingPower.toNat * config.trustThreshold.1 :=
          Nat.mul_pos hpos hnum
        refine signers_nonempty hdistinct h.signatures (Nat.pos_of_ne_zero fun hzero => ?_)
        rw [← hsigned, hzero, Nat.mul_zero] at henough
        omega
      · exact hsigners

end Counting

namespace Sample

/-- An Ed25519 key. -/
def key : Bytes :=
  [0xEA, 0x4A, 0x6C, 0x63, 0xE2, 0x9C, 0x52, 0x0A, 0xBE, 0xF5, 0x50, 0x7B, 0x13, 0x2E, 0xC5, 0xF9,
    0x95, 0x47, 0x76, 0xAE, 0xBE, 0xBE, 0x7B, 0x92, 0x42, 0x1E, 0xEA, 0x69, 0x14, 0x46, 0xD2, 0x2C]

def otherKey : Bytes :=
  [0x13, 0x98, 0xF6, 0x2C, 0x6D, 0x1A, 0x45, 0x7C, 0x51, 0xBA, 0x6A, 0x4B, 0x5F, 0x3D, 0xBD, 0x2F,
    0x69, 0xFC, 0xA9, 0x32, 0x16, 0x21, 0x8D, 0xC8, 0x99, 0x7E, 0x41, 0x6B, 0xD1, 0x7D, 0x93, 0xCA]

/-- What the key's holder signs of the block below. -/
def voteBytes : Bytes :=
  [2, 2, 0, 0, 0, 0, 0, 0, 0, 0, 0, 0, 0] ++ List.replicate 64 0 ++
    [0, 0x94, 0x35, 0x77, 0, 0, 0, 0] ++ [119, 105, 108, 108, 111, 119]

def signature : Bytes :=
  [0x65, 0xCB, 0x7E, 0xD8, 0xBD, 0x5A, 0x43, 0x9A, 0xE0, 0x5D, 0x51, 0xAF, 0xC6, 0x8B, 0x4A, 0xBC,
    0x77, 0xA2, 0x16, 0xB0, 0x1C, 0xE4, 0x3E, 0x23, 0xF6, 0x0E, 0x2B, 0x23, 0x5A, 0x6F, 0xAA, 0xF1,
    0x3F, 0x18, 0x43, 0xC5, 0x35, 0x59, 0x1B, 0x2D, 0x7C, 0x17, 0x69, 0x29, 0xDA, 0x58, 0x45, 0xD5,
    0x29, 0xAD, 0x3E, 0x1F, 0x63, 0xFE, 0x07, 0xF2, 0xE5, 0x54, 0xE7, 0xA5, 0x18, 0x05, 0x03, 0x07]

def schemes : Schemes where
  ed25519 k := .ok fun message sig => k = key ∧ message = voteBytes ∧ sig = signature
  secp256k1 _ := .error "malformed public key"
  fromCompact _ := .error "malformed signature"
  sha256 _ := List.replicate 32 0

def address : Bytes :=
  [0xFE, 0x81, 0x2C, 0x12, 0xF3, 0xAB, 0x4C, 0xE6, 0xAC, 0x5D, 0xB6, 0x9A, 0xC3, 0x52, 0xF9, 0x06,
    0xCB, 0x1B, 0x11, 0xEF]

def otherAddress : Bytes :=
  [0x5C, 0x29, 0xB7, 0x8F, 0x10, 0xA3, 0x5A, 0x49, 0xA6, 0x23, 0x1D, 0x08, 0xEE, 0x84, 0x0A, 0x04,
    0xBC, 0xC3, 0xA3, 0x7A]

/-- The default settings, for the chain `willow`. -/
def config : Config where
  validatorEndpoints := ["http://node"]
  minValidatorsForConsensus := 1
  maxProofLagBlocks := 20
  chainId := "willow"
  trustThreshold := (2, 3)
  trustingPeriod := 86400 * 10 ^ 9
  maxClockDrift := 10 * 10 ^ 9

/-- A header of the chain, `height` seconds after the epoch. -/
def header (height : UInt64) : Header where
  height := height
  appHash := List.replicate 32 0
  chainId := "willow"
  time := height.toNat * 10 ^ 9
  lastBlockId := none
  validatorsHash := List.replicate 32 0
  nextValidatorsHash := List.replicate 32 0

def vote : CommitSig := .blockIdFlagCommit address (2 * 10 ^ 9) signature

/-- A block at a height, with some of its commit's signatures. One validator
has a third of the power. -/
def block (height : UInt64) (signatures : List CommitSig) : LightBlock where
  header := header height
  commit := ⟨height, 0, ⟨[], none⟩, signatures⟩
  validators := ⟨[⟨address, .ed25519 key, 1⟩, ⟨otherAddress, .ed25519 otherKey, 2⟩], 3⟩

/-- A block whose answer named no validators. -/
def emptyBlock : LightBlock := { block 2 [] with validators := ⟨[], 0⟩ }

/-- The settings with a threshold of a third. -/
def lenient : Config := { config with trustThreshold := (1, 3) }

theorem distinct (height : UInt64) (signatures : List CommitSig) :
    (block height signatures).validators.Distinct := by
  show [address, otherAddress].Nodup
  decide

end Sample

theorem power_counted_once_iff_sample :
    SignedByShare Sample.schemes Sample.lenient (Sample.block 2 [Sample.vote]) := by
  have hcount := power_counted_once_iff Sample.schemes Sample.lenient
    (Sample.block 2 [Sample.vote]) (Sample.distinct 2 [Sample.vote])
  obtain ⟨signed, total, -, hiff⟩ := hcount.2 (2 * 10 ^ 9) (Sample.block 1 []) (by rfl) (by decide)
  exact (hiff.mpr ⟨by decide, .inl (by decide)⟩).2

/-- One validator's signature, given twice, passes for two thirds of the power
where it has one; and an empty set passes with no signature. -/
theorem repeated_vote_passes :
    verifyCommitSignatures Sample.schemes Sample.config
        (Sample.block 2 [Sample.vote, Sample.vote]) = .ok (2, 3) ∧
      signersPower Sample.schemes Sample.config (Sample.block 2 [Sample.vote, Sample.vote]) = 1 ∧
      verifyHeader Sample.schemes Sample.config (2 * 10 ^ 9) (Sample.block 1 [])
        (Sample.block 2 [Sample.vote, Sample.vote]) = .ok () ∧
      ¬ SignedByShare Sample.schemes Sample.config (Sample.block 2 [Sample.vote, Sample.vote]) ∧
      verifyHeader Sample.schemes Sample.config (2 * 10 ^ 9) (Sample.block 1 []) Sample.emptyBlock =
        .ok () ∧
      ¬ SignedByShare Sample.schemes Sample.config Sample.emptyBlock := by
  have hpower : signersPower Sample.schemes Sample.config
      (Sample.block 2 [Sample.vote, Sample.vote]) = 1 := by
    decide
  refine ⟨by rfl, hpower, by rfl, fun h => ?_, by rfl, fun h => ?_⟩
  · have hshare := h.share
    rw [hpower] at hshare
    exact absurd hshare (by decide)
  · exact absurd h.nonempty (by decide)

end Headers
end WillowSdk
