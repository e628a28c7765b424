/-
# Which height the endpoints select

`LightClient::latest_chain_height` (src/light_client.rs) takes, of the heights
the endpoints report, the highest that a majority of the answers, and at
least the configured number, have reached. Its documentation says that an
endpoint moves it only with a majority.

A minority can't raise it, but may lower it: answers below the honest ones
leave too few at their height when exactly half misreport, or when the
configured number is more than a majority (`minority_moves_height_iff`).
-/
import WillowSdk.LightClient
import WillowSdk.Lib.Ranked
import Mathlib.Data.List.MinMax

namespace WillowSdk
namespace LightClient

variable {V : Type}

/-- The heights the endpoints report, in the endpoints' order. -/
def reportedHeights (json : Json V) (client : Client) (net : Network V) : List ℕ :=
  client.config.validatorEndpoints.filterMap (fetchStatusHeight json net)

/-- How many of the answers must have reached the height selected. -/
def requiredAnswers (minValidators answers : ℕ) : ℕ := max (max minValidators 1) (answers / 2 + 1)

/-- The height selected, of those reported. -/
def selectHeight (minValidators : ℕ) (heights : List ℕ) : Checked ℕ := do
  let sorted := Ranked.highestFirst heights
  let rank ← Checked.sub (requiredAnswers minValidators sorted.length) 1
  Checked.index sorted rank

/-- The height of the latest header held. -/
def heldHeight (client : Client) : ℕ :=
  (getLatestHeader client).elim 0 fun block => block.header.height.toNat

theorem latestChainHeight_eq (json : Json V) (client : Client) (net : Network V)
    (hlen : max client.config.minValidatorsForConsensus 1 ≤ (reportedHeights json client net).length) :
    latestChainHeight json client net = (do
      let reached ← selectHeight client.config.minValidatorsForConsensus
        (reportedHeights json client net)
      .ok (max reached (heldHeight client))) := by
  have hnot := Nat.not_lt.mpr hlen
  unfold reportedHeights at hnot
  unfold latestChainHeight selectHeight reportedHeights
  simp only [if_neg hnot, bind_assoc]
  rfl

/-- An endpoint's answer, and whether the endpoint is honest. -/
structure Answer where
  height : ℕ
  honest : Bool

def misreporting (answers : List Answer) : ℕ := answers.countP fun a => !a.honest

/-- A height from the lowest to the highest that an honest endpoint reported. -/
def BetweenHonest (answers : List Answer) (h : ℕ) : Prop :=
  (∃ a ∈ answers, a.honest = true ∧ a.height ≤ h) ∧ ∃ a ∈ answers, a.honest = true ∧ h ≤ a.height

/-- Enough answers are at or above the lowest honest one. -/
def HonestReached (minValidators : ℕ) (answers : List Answer) : Prop :=
  ∃ a ∈ answers, a.honest = true ∧
    requiredAnswers minValidators answers.length ≤ Ranked.countFrom a.height (answers.map (·.height))

/-! ### The height selected -/

section Selected

variable {minValidators : ℕ} {answers : List Answer}

theorem requiredAnswers_le {n : ℕ} (hpos : 0 < n) (hmin : minValidators ≤ n) :
    requiredAnswers minValidators n ≤ n := by
  unfold requiredAnswers
  omega

/-- A height is selected, and one is at most it when enough answers reach it. -/
theorem selectHeight_spec (minValidators : ℕ) (heights : List ℕ) (hpos : 0 < heights.length)
    (hmin : minValidators ≤ heights.length) :
    ∃ h, selectHeight minValidators heights = .ok h ∧
      ∀ x, x ≤ h ↔ requiredAnswers minValidators heights.length ≤ Ranked.countFrom x heights := by
  have hlen := Ranked.length_highestFirst heights
  have hle := requiredAnswers_le hpos hmin
  have hone : 1 ≤ requiredAnswers minValidators heights.length := by
    unfold requiredAnswers
    omega
  have hrank : requiredAnswers minValidators heights.length - 1 <
      (Ranked.highestFirst heights).length := by
    omega
  refine ⟨(Ranked.highestFirst heights)[requiredAnswers minValidators heights.length - 1], ?_,
    fun x => ?_⟩
  · unfold selectHeight
    simp only [hlen, Checked.sub_bind hone, Checked.index, List.getElem?_eq_getElem hrank,
      Outcome.okOr]
  · rw [Ranked.le_ranked_iff hrank]
    omega

theorem countFrom_heights (h : ℕ) (answers : List Answer) :
    Ranked.countFrom h (answers.map (·.height)) = answers.countP fun a => h ≤ a.height := by
  unfold Ranked.countFrom
  rw [List.countP_map]
  rfl

theorem honest_add_misreporting (answers : List Answer) :
    answers.countP (·.honest) + misreporting answers = answers.length := by
  unfold misreporting
  rw [List.length_eq_countP_add_countP (fun a : Answer => a.honest)]
  simp

/-- No more than half of the answers can't raise the height selected. -/
theorem exists_honest_ge {h : ℕ} (hmis : 2 * misreporting answers ≤ answers.length)
    (hreached : requiredAnswers minValidators answers.length ≤
      Ranked.countFrom h (answers.map (·.height))) :
    ∃ a ∈ answers, a.honest = true ∧ h ≤ a.height := by
  by_contra hno
  -- then every answer that reaches the height misreports
  have hcount : Ranked.countFrom h (answers.map (·.height)) ≤ misreporting answers := by
    rw [countFrom_heights]
    unfold misreporting
    refine List.countP_mono_left fun a ha hreach => ?_
    have hle : h ≤ a.height := of_decide_eq_true hreach
    cases hhonest : a.honest with
    | true => exact absurd ⟨a, ha, hhonest, hle⟩ hno
    | false => rfl
  unfold requiredAnswers at hreached
  omega

/-- The height selected is between the honest ones if enough answers reach
one of them. -/
theorem betweenHonest_iff {h : ℕ} (hmis : 2 * misreporting answers ≤ answers.length)
    (hspec : ∀ x, x ≤ h ↔ requiredAnswers minValidators answers.length ≤
      Ranked.countFrom x (answers.map (·.height))) :
    BetweenHonest answers h ↔ HonestReached minValidators answers := by
  have habove := exists_honest_ge hmis ((hspec h).mp le_rfl)
  refine ⟨fun hb => ?_, fun hr => ?_⟩
  · obtain ⟨⟨a, ha, hhonest, hle⟩, -⟩ := hb
    exact ⟨a, ha, hhonest, (hspec a.height).mp hle⟩
  · obtain ⟨a, ha, hhonest, hcount⟩ := hr
    exact ⟨⟨a, ha, hhonest, (hspec a.height).mpr hcount⟩, habove⟩

end Selected

/-! ### How many misreporting answers are too many -/

theorem exists_lowest_honest (answers : List Answer) (h : misreporting answers < answers.length) :
    ∃ a ∈ answers, a.honest = true ∧ ∀ b ∈ answers, b.honest = true → a.height ≤ b.height := by
  have hsplit := honest_add_misreporting answers
  have hne : answers.filter (·.honest) ≠ [] := by
    intro hnil
    have hzero : answers.countP (·.honest) = 0 := by
      rw [List.countP_eq_length_filter, hnil, List.length_nil]
    omega
  obtain ⟨a, ha⟩ := Option.ne_none_iff_exists'.mp
    (fun hnone => hne (List.argmin_eq_none.mp hnone : answers.filter (·.honest) = []) :
      List.argmin (·.height) (answers.filter (·.honest)) ≠ none)
  obtain ⟨hmem, hhonest⟩ := List.mem_filter.mp (List.argmin_mem ha)
  refine ⟨a, hmem, hhonest, fun b hb hbh => ?_⟩
  exact List.le_of_mem_argmin (List.mem_filter.mpr ⟨hb, hbh⟩) ha

/-- All the honest answers are at or above the lowest. -/
theorem honestReached_of_few {minValidators : ℕ} {answers : List Answer}
    (hfew : misreporting answers + requiredAnswers minValidators answers.length ≤ answers.length) :
    HonestReached minValidators answers := by
  have hone : 1 ≤ requiredAnswers minValidators answers.length := by
    unfold requiredAnswers
    omega
  obtain ⟨a, ha, hhonest, hlow⟩ := exists_lowest_honest answers (by omega)
  have hsplit := honest_add_misreporting answers
  have hcount : answers.countP (·.honest) ≤ Ranked.countFrom a.height (answers.map (·.height)) := by
    rw [countFrom_heights]
    refine List.countP_mono_left fun b hb hbh => ?_
    exact decide_eq_true (hlow b hb hbh)
  refine ⟨a, ha, hhonest, ?_⟩
  omega

/-- The honest endpoints are at height 2 and the others report 1. -/
def lowered (n m : ℕ) : List Answer :=
  List.replicate (n - m) ⟨2, true⟩ ++ List.replicate m ⟨1, false⟩

theorem length_lowered {n m : ℕ} (h : m ≤ n) : (lowered n m).length = n := by
  unfold lowered
  rw [List.length_append, List.length_replicate, List.length_replicate]
  omega

theorem misreporting_lowered (n m : ℕ) : misreporting (lowered n m) = m := by
  simp [misreporting, lowered, List.countP_replicate]

theorem mem_lowered {n m : ℕ} {a : Answer} (h : a ∈ lowered n m) :
    a = ⟨2, true⟩ ∨ a = ⟨1, false⟩ := by
  unfold lowered at h
  rcases List.mem_append.mp h with h | h
  · exact .inl (List.eq_of_mem_replicate h)
  · exact .inr (List.eq_of_mem_replicate h)

theorem countFrom_lowered (n m : ℕ) :
    Ranked.countFrom 2 ((lowered n m).map (·.height)) = n - m := by
  rw [countFrom_heights]
  simp [lowered, List.countP_replicate]

/-- Few enough honest answers don't keep the height at theirs. -/
theorem not_honestReached_lowered {minValidators n m : ℕ} (hle : m ≤ n)
    (hmany : n < m + requiredAnswers minValidators n) : ¬ HonestReached minValidators (lowered n m) := by
  intro h
  obtain ⟨a, ha, hhonest, hcount⟩ := h
  rcases mem_lowered ha with rfl | rfl
  · rw [length_lowered hle, countFrom_lowered] at hcount
    omega
  · cases hhonest

/-- **When a minority can't move the latest height.** The height selected is
between the honest ones exactly when enough answers are at or above the
lowest of them, which is sure exactly when the honest answers are enough. -/
theorem minority_moves_height_iff :
    (∀ (json : Json V) (client : Client) (net : Network V) (answers : List Answer),
      reportedHeights json client net = answers.map (·.height) → answers ≠ [] →
      client.config.minValidatorsForConsensus ≤ answers.length →
      2 * misreporting answers ≤ answers.length →
      ∃ h, selectHeight client.config.minValidatorsForConsensus (answers.map (·.height)) = .ok h ∧
        latestChainHeight json client net = .ok (max h (heldHeight client)) ∧
        (BetweenHonest answers h ↔
          HonestReached client.config.minValidatorsForConsensus answers)) ∧
    ∀ minValidators n m, 0 < n → minValidators ≤ n → 2 * m ≤ n →
      ((∀ answers : List Answer, answers.length = n → misreporting answers = m →
          (∀ a ∈ answers, 0 < a.height ∧ a.height ≤ u64Max) →
          ∀ h, selectHeight minValidators (answers.map (·.height)) = .ok h →
            BetweenHonest answers h) ↔
        m + requiredAnswers minValidators n ≤ n) := by
  have hselect : ∀ (minValidators : ℕ) (answers : List Answer), 0 < answers.length →
      minValidators ≤ answers.length → 2 * misreporting answers ≤ answers.length →
      ∃ h, selectHeight minValidators (answers.map (·.height)) = .ok h ∧
        (BetweenHonest answers h ↔ HonestReached minValidators answers) := by
    intro minValidators answers hpos hmin hmis
    have hlen : (answers.map (·.height)).length = answers.length := List.length_map _
    obtain ⟨h, hok, hspec⟩ := selectHeight_spec minValidators (answers.map (·.height))
      (hlen.symm ▸ hpos) (hlen.symm ▸ hmin)
    rw [hlen] at hspec
    exact ⟨h, hok, betweenHonest_iff hmis hspec⟩
  refine ⟨fun json client net answers hheights hne hmin hmis => ?_,
    fun minValidators n m hpos hmin hmis => ⟨fun hall => ?_, fun hfew answers hlen hcount _ h hok => ?_⟩⟩
  · have hpos : 0 < answers.length := List.length_pos_iff.mpr hne
    obtain ⟨h, hok, hiff⟩ := hselect _ answers hpos hmin hmis
    refine ⟨h, hok, ?_, hiff⟩
    have hlen : max client.config.minValidatorsForConsensus 1 ≤
        (reportedHeights json client net).length := by
      rw [hheights, List.length_map]
      omega
    rw [latestChainHeight_eq json client net hlen, hheights, hok]
    rfl
  · by_contra hmany
    have hle : m ≤ n := by omega
    have hlen := length_lowered hle
    have hcount := misreporting_lowered n m
    obtain ⟨h, hok, hiff⟩ := hselect minValidators (lowered n m) (by omega) (by omega) (by omega)
    have hheights : ∀ a ∈ lowered n m, 0 < a.height ∧ a.height ≤ u64Max := by
      intro a ha
      rcases mem_lowered ha with rfl | rfl
      · exact ⟨by decide, by decide⟩
      · exact ⟨by decide, by decide⟩
    have hbetween := hall (lowered n m) hlen hcount hheights h hok
    exact not_honestReached_lowered hle (Nat.lt_of_not_le hmany) (hiff.mp hbetween)
  · obtain ⟨h', hok', hiff⟩ := hselect minValidators answers (by omega) (by omega) (by omega)
    obtain rfl : h' = h := Except.ok.inj (hok'.symm.trans hok)
    refine hiff.mpr (honestReached_of_few ?_)
    rw [hlen, hcount]
    exact hfew

namespace Sample

/-- Two endpoints. -/
def pair : Client where
  config := ⟨["http://a", "http://b"], 1, 20⟩
  headers := []

/-- The first endpoint is at height 100, and the second reports 1. -/
def pairNet : Network String :=
  ⟨fun _ url => some (if url = "http://a/status" then "100" else "1"), 0⟩

def pairAnswers : List Answer := [⟨100, true⟩, ⟨1, false⟩]

theorem pair_heights : reportedHeights json pair pairNet = pairAnswers.map (·.height) := by
  rfl

end Sample

theorem minority_moves_height_iff_sample :
    (∃ h, selectHeight 1 [3] = .ok h ∧ BetweenHonest [⟨3, true⟩] h) ∧
      ∀ answers : List Answer, answers.length = 3 → misreporting answers = 1 →
        (∀ a ∈ answers, 0 < a.height ∧ a.height ≤ u64Max) →
        ∀ h, selectHeight 1 (answers.map Answer.height) = .ok h → BetweenHonest answers h := by
  obtain ⟨hclient, hcounts⟩ := minority_moves_height_iff (V := String)
  obtain ⟨h, hok, -, hiff⟩ := hclient Sample.json Sample.client Sample.net [⟨3, true⟩] (by rfl)
    (by simp) (by decide) (by decide)
  refine ⟨⟨h, hok, hiff.mpr ⟨⟨3, true⟩, List.mem_cons_self, rfl, by decide⟩⟩, ?_⟩
  exact (hcounts 1 3 1 (by decide) (by decide) (by decide)).mpr (by decide)

/-- One of two endpoints, which is not more than half, takes the latest height
from 100 to 1. -/
theorem half_moves_height :
    2 * misreporting Sample.pairAnswers ≤ Sample.pairAnswers.length ∧
      reportedHeights Sample.json Sample.pair Sample.pairNet =
        Sample.pairAnswers.map (·.height) ∧
      latestChainHeight Sample.json Sample.pair Sample.pairNet = .ok 1 ∧
      ¬ BetweenHonest Sample.pairAnswers 1 := by
  have hmis : 2 * misreporting Sample.pairAnswers ≤ Sample.pairAnswers.length := by decide
  have hlen : max Sample.pair.config.minValidatorsForConsensus 1 ≤
      (reportedHeights Sample.json Sample.pair Sample.pairNet).length := by
    rw [Sample.pair_heights]
    decide
  obtain ⟨h, hok, hspec⟩ := selectHeight_spec 1
    (Sample.pairAnswers.map (·.height)) (by decide) (by decide)
  obtain rfl : h = 1 := by
    have hle : 1 ≤ h := (hspec 1).mpr (by decide)
    have hlt : ¬ 2 ≤ h := fun h2 => absurd ((hspec 2).mp h2) (by decide)
    omega
  refine ⟨hmis, Sample.pair_heights, ?_, fun hb => ?_⟩
  · rw [latestChainHeight_eq _ _ _ hlen, Sample.pair_heights]
    show (do
      let reached ← selectHeight 1 (Sample.pairAnswers.map Answer.height)
      .ok (max reached (heldHeight Sample.pair))) = _
    rw [hok]
    rfl
  · obtain ⟨⟨a, ha, hhonest, hle⟩, -⟩ := hb
    rcases List.mem_pair.mp ha with rfl | rfl
    · exact absurd hle (by decide)
    · cases hhonest

end LightClient
end WillowSdk
