/-
# What a sync adds to the headers held

`LightClient::sync_to_latest` (src/light_client.rs) extends the store by one
linked run: what is held stays, and whatever the endpoints answer, each height
above the latest gets a header that follows the one before it, up to where
the sync stops (`sync_extends_by_linked_run`).
-/
import WillowSdk.HeaderStore

namespace WillowSdk
namespace Headers

/-- Every held header is under its own height. -/
def OwnHeights (store : Store) : Prop :=
  ∀ height block, store.get height = some block → block.header.height.toNat = height

/-- A header links to the one before it. -/
structure Follows (config : Config) (pred block : LightBlock) : Prop where
  chainId : block.header.chainId = config.chainId
  time : pred.header.time < block.header.time
  links : block.header.validatorsHash = pred.header.nextValidatorsHash

/-- The store after has what the one before has, and one linked run of headers
from the height `bottom` up to `top`. -/
structure Extends (config : Config) (before after : Store) (bottom top : ℕ) : Prop where
  held : ∀ height block, before.get height = some block → after.get height = some block
  /-- What is added is just above `bottom`, without a gap. -/
  added : ∀ height, before.get height = none →
    ((after.get height).isSome ↔ bottom < height ∧ height ≤ top)
  linked : ∀ height, bottom ≤ height → height < top → ∃ pred block,
    after.get height = some pred ∧ after.get (height + 1) = some block ∧
      block.header.height.toNat = height + 1 ∧ Follows config pred block

section Stores

variable {V : Type} {json : JsonTree V} {codecs : Codecs} {schemes : Schemes} {config : Config}
  {answers : Answers V} {store after : Store} {block : LightBlock}

/-! ### Own heights -/

theorem OwnHeights.insert (h : OwnHeights store) :
    OwnHeights (store.insert block.header.height.toNat block) := by
  intro height b hb
  rw [OrderedMap.get_insert] at hb
  split_ifs at hb with heq
  · obtain rfl := Option.some.inj hb
    exact heq
  · exact h height b hb

/-- Every operation keeps the headers under their own heights. -/
theorem step_ownHeights (h : OwnHeights store) (op : Operation V) :
    OwnHeights (step json codecs schemes config store op) := by
  cases op with
  | initializeWithTrustedHeader block =>
    exact initializeWithTrustedHeader_keeps (fun hown _ => hown.insert) h
  | initializeWithTrustOnFirstUse answers =>
    show OwnHeights (initializeWithTrustOnFirstUse json codecs config answers store).2
    unfold initializeWithTrustOnFirstUse
    split
    case isTrue => exact h
    case isFalse =>
      split
      case h_1 => exact h
      case h_2 latest _ => exact h.insert
  | syncToLatest answers => exact syncToLatest_keeps (fun hown _ => hown.insert) h
  | importTrustedState state =>
    show OwnHeights (importTrustedState config state store).2
    unfold importTrustedState
    split
    case isTrue => exact h
    case isFalse =>
      show OwnHeights (state.headers.foldl (fun s b => s.insert b.header.height.toNat b) store)
      induction state.headers generalizing store with
      | nil => exact h
      | cons block headers ih => exact ih h.insert
  | pruneOldHeaders now =>
    show OwnHeights (pruneOldHeaders config now store).2
    unfold pruneOldHeaders
    split
    case h_1 => exact h
    case h_2 => exact fun height block hget => h height block (OrderedMap.get_retain hget)

/-- So they are in every store there is. -/
theorem storeAfter_ownHeights (ops : List (Operation V)) :
    OwnHeights (storeAfter json codecs schemes config ops) := by
  have hempty : OwnHeights OrderedMap.empty := fun height block h => by cases h
  exact Runs.run_keeps (fun store op (hown : OwnHeights store) => step_ownHeights hown op) hempty ops

/-! ### One header more -/

variable {bottom top : ℕ} {result : Checked Unit}

theorem Extends.refl (bottom : ℕ) :
    Extends config store store bottom bottom where
  held _ _ h := h
  added height hnone := by
    rw [hnone]
    exact iff_of_false (by simp) (by omega)
  linked height hle hlt := absurd hle (by omega)

/-- One header that follows the latest, then a run from it. -/
theorem Extends.cons {pred : LightBlock}
    (hlast : store.lastKey = some bottom) (hpred : store.get bottom = some pred)
    (hheight : block.header.height.toNat = bottom + 1) (hfollows : Follows config pred block)
    (hle : bottom + 1 ≤ top)
    (hrest : Extends config (store.insert (bottom + 1) block) after (bottom + 1) top) :
    Extends config store after bottom top := by
  have hkept : ∀ height b, store.get height = some b → after.get height = some b := by
    intro height b hget
    refine hrest.held height b ?_
    rw [OrderedMap.get_insert, if_neg]
    · exact hget
    · rintro rfl
      rw [OrderedMap.get_of_lastKey_lt hlast (Nat.lt_succ_self bottom)] at hget
      cases hget
  have hnew : after.get (bottom + 1) = some block := by
    refine hrest.held (bottom + 1) block ?_
    rw [OrderedMap.get_insert, if_pos rfl]
  refine ⟨hkept, fun height hnone => ?_, fun height hlow hhigh => ?_⟩
  · by_cases heq : bottom + 1 = height
    · subst heq
      rw [hnew]
      exact iff_of_true rfl ⟨Nat.lt_succ_self bottom, hle⟩
    · rw [hrest.added height (by rw [OrderedMap.get_insert, if_neg heq]; exact hnone)]
      omega
  · by_cases heq : height = bottom
    · subst heq
      exact ⟨pred, block, hkept height pred hpred, hnew, hheight, hfollows⟩
    · exact hrest.linked height (by omega) hhigh

/-- What storing a header does to a store with a latest one: nothing, or it adds
one that follows. -/
theorem verifyAndStoreHeader_cases {now : ℤ} (hown : OwnHeights store)
    (hlast : store.lastKey = some bottom)
    (h : verifyAndStoreHeader schemes config now block store = (result, after)) :
    (after = store ∧ result ≠ .ok ()) ∨
      (result = .ok () ∧ after = store.insert (bottom + 1) block ∧
        block.header.height.toNat = bottom + 1 ∧
        ∃ pred, store.get bottom = some pred ∧ Follows config pred block) := by
  obtain ⟨pred, hpred, hget⟩ := OrderedMap.get_lastKey hlast
  simp only [verifyAndStoreHeader, hpred] at h
  cases hverify : verifyHeader schemes config now pred block with
  | error e =>
    rw [hverify] at h
    obtain ⟨rfl, rfl⟩ := Prod.mk.inj h
    exact .inl ⟨rfl, fun hok => by cases hok⟩
  | ok u =>
    rw [hverify] at h
    obtain ⟨rfl, rfl⟩ := Prod.mk.inj h
    obtain ⟨_, _, haccepted⟩ := verifyHeader_accepted hverify
    have hheight : block.header.height.toNat = bottom + 1 := by
      rw [haccepted.height_eq, hown bottom pred hget]
    refine .inr ⟨rfl, by rw [hheight], hheight, pred, hget, ?_⟩
    exact ⟨haccepted.chainId_eq, haccepted.time_lt, haccepted.links⟩

/-! ### The loop -/

/-- The loop extends the store by one header for each height it gets through. -/
theorem syncHeights_extends {round height count : ℕ} (hown : OwnHeights store)
    (hlast : store.lastKey = some bottom)
    (h : syncHeights json codecs schemes config answers round height count store =
      (result, after)) :
    ∃ top, bottom ≤ top ∧ top ≤ bottom + count ∧ Extends config store after bottom top ∧
      (result = .ok () → top = bottom + count) := by
  induction count generalizing round height store bottom with
  | zero =>
    obtain ⟨rfl, rfl⟩ := Prod.mk.inj h
    exact ⟨bottom, le_rfl, le_rfl, .refl bottom, fun _ => rfl⟩
  | succ count ih =>
    -- a failure on the way leaves the store as it is
    have hstop : ∀ result : Checked Unit, result ≠ .ok () →
        ∃ top, bottom ≤ top ∧ top ≤ bottom + (count + 1) ∧
          Extends config store store bottom top ∧ (result = .ok () → top = bottom + (count + 1)) :=
      fun result hfail => ⟨bottom, le_rfl, by omega, .refl bottom, fun hok => absurd hok hfail⟩
    unfold syncHeights at h
    split at h
    case h_1 =>
      obtain ⟨rfl, rfl⟩ := Prod.mk.inj h
      exact hstop _ nofun
    case h_2 block _ =>
      split at h
      case h_1 hstore =>
        obtain ⟨rfl, rfl⟩ := Prod.mk.inj h
        obtain ⟨rfl, -⟩ | ⟨hok, -⟩ := verifyAndStoreHeader_cases hown hlast hstore
        · exact hstop _ nofun
        · cases hok
      case h_2 stored hstore =>
        obtain ⟨-, hfail⟩ | ⟨-, rfl, hheight, pred, hpred, hfollows⟩ :=
          verifyAndStoreHeader_cases hown hlast hstore
        · exact absurd rfl hfail
        · have hown' : OwnHeights (store.insert (bottom + 1) block) := hheight ▸ hown.insert
          have hlast' : (store.insert (bottom + 1) block).lastKey = some (bottom + 1) :=
            OrderedMap.lastKey_insert hlast (Nat.lt_succ_self bottom)
          obtain ⟨top, hlow, hhigh, hextends, htop⟩ := ih hown' hlast' h
          refine ⟨top, by omega, by omega, ?_, fun hok => ?_⟩
          · exact Extends.cons hlast hpred hheight hfollows hlow hextends
          · rw [htop hok]
            omega

end Stores

/-- The height the endpoints' latest block has. -/
def targetHeight {V : Type} (json : JsonTree V) (codecs : Codecs) (config : Config)
    (answers : Answers V) : ℕ :=
  match fetchBlockAtHeight json codecs config answers 0 0 with
  | .ok latest => latest.header.height.toNat
  | .error _ => 0

/-- **A sync extends the store by one linked run.** In every store, as the
operations leave them, each header is under its own height. Where the latest
held is at a height above zero, then whatever the endpoints answer and however
a sync ends, what was held is unchanged and what is added is a run of linked
headers above it, no further than the target; one that succeeds gets there. -/
theorem sync_extends_by_linked_run {V : Type} (json : JsonTree V) (codecs : Codecs)
    (schemes : Schemes) (config : Config) :
    (∀ ops : List (Operation V), OwnHeights (storeAfter json codecs schemes config ops)) ∧
      ∀ (store : Store) (h : ℕ), OwnHeights store → store.lastKey = some h → 0 < h →
        ∀ (answers : Answers V) (result : Checked Unit) (after : Store),
          syncToLatest json codecs schemes config answers store = (result, after) →
          ∃ m, h ≤ m ∧ m ≤ max h (targetHeight json codecs config answers) ∧
            Extends config store after h m ∧
            (result = .ok () → h < targetHeight json codecs config answers →
              m = targetHeight json codecs config answers) := by
  refine ⟨storeAfter_ownHeights, fun store h hown hlast hpos answers result after hsync => ?_⟩
  unfold syncToLatest at hsync
  unfold targetHeight
  split at hsync
  case isTrue hnone =>
    obtain ⟨rfl, rfl⟩ := Prod.mk.inj hsync
    exact ⟨h, le_rfl, le_max_left _ _, .refl h, nofun⟩
  case isFalse =>
    split at hsync
    case h_1 e hfetch =>
      obtain ⟨rfl, rfl⟩ := Prod.mk.inj hsync
      exact ⟨h, le_rfl, le_max_left _ _, .refl h, nofun⟩
    case h_2 latest hfetch =>
      simp only [hfetch]
      simp only [hlast, Option.getD_some] at hsync
      split at hsync
      case isTrue hreached =>
        obtain ⟨rfl, rfl⟩ := Prod.mk.inj hsync
        exact ⟨h, le_rfl, le_max_left _ _, .refl h, fun _ hlt => absurd hlt (by omega)⟩
      case isFalse hbelow =>
        rw [if_neg (Nat.pos_iff_ne_zero.mp hpos)] at hsync
        obtain ⟨top, hlow, hhigh, hextends, htop⟩ := syncHeights_extends hown hlast hsync
        refine ⟨top, hlow, by omega, hextends, fun hok _ => ?_⟩
        rw [htop hok]
        omega

namespace Sample

/-- The chain's block at a height: no validators, no time but the clock's. -/
def commitAt (height : String) : Value :=
  .object [("result", .object [("signed_header", .object [("header", .object [
    ("chain_id", .text "willow"), ("height", .text height)])])])]

/-- A client that took the block at 1 on first use. -/
def firstUse : Operation Value :=
  .initializeWithTrustOnFirstUse ⟨fun _ _ _ => .ok (commitAt "1"), fun _ => 0⟩

/-- A second later, the endpoint is at 2. -/
def nextAnswers : Answers Value := ⟨fun _ _ _ => .ok (commitAt "2"), fun _ => 10 ^ 9⟩

end Sample

theorem sync_extends_by_linked_run_sample :
    Extends Sample.willow
      (storeAfter Sample.tree Sample.noCodecs Sample.noSchemes Sample.willow [Sample.firstUse])
      (storeAfter Sample.tree Sample.noCodecs Sample.noSchemes Sample.willow
        [Sample.firstUse, .syncToLatest Sample.nextAnswers]) 1 2 := by
  obtain ⟨hown, hsync⟩ := sync_extends_by_linked_run Sample.tree Sample.noCodecs Sample.noSchemes
    Sample.willow
  obtain ⟨m, -, -, hextends, htop⟩ := hsync _ 1 (hown [Sample.firstUse]) (by rfl) (by decide)
    Sample.nextAnswers (.ok ()) _ (by rfl)
  have hm : m = 2 := htop rfl (by decide)
  rw [hm] at hextends
  exact hextends

end Headers
end WillowSdk
