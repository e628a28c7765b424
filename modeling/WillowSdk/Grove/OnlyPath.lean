/-
# The one path an envelope descends

`descended_path` (src/grovedb_envelope.rs) follows the layers down greedily,
`check_envelope` follows a path it is given. The path found by the first is
the only one the second accepts, and none is found exactly where the layers
branch (`descended_path_is_the_only_path`).
-/
import WillowSdk.Grove.Descended
import WillowSdk.Grove.OwnChecks

namespace WillowSdk
namespace Grove

variable {D : Type}

/-- A layer reached through layers that have one lower layer each. -/
inductive SoleReached : LayerProof → LayerProof → Prop
  | here {layer : LayerProof} : SoleReached layer layer
  | lower {layer below reached : LayerProof} {key : Bytes} :
      layer.lowerLayers = [(key, below)] → SoleReached below reached → SoleReached layer reached

/-- Some layer so reached has more than one lower layer. -/
def Branches (layer : LayerProof) : Prop :=
  ∃ reached, SoleReached layer reached ∧ 1 < reached.lowerLayers.length

theorem not_branches_of_none {layer : LayerProof} (h : layer.lowerLayers = []) :
    ¬ Branches layer := by
  intro hbranches
  obtain ⟨reached, hreached, hmany⟩ := hbranches
  cases hreached with
  | here =>
    rw [h] at hmany
    exact absurd hmany (by decide)
  | lower hone _ =>
    rw [h] at hone
    cases hone

theorem branches_of_one {layer below : LayerProof} {key : Bytes}
    (h : layer.lowerLayers = [(key, below)]) : Branches layer ↔ Branches below := by
  refine ⟨fun hbranches => ?_, fun hbranches => ?_⟩
  · obtain ⟨reached, hreached, hmany⟩ := hbranches
    cases hreached with
    | here =>
      rw [h] at hmany
      exact absurd hmany (by simp)
    | lower hone hbelow =>
      rw [h] at hone
      obtain ⟨⟨⟩⟩ := hone
      exact ⟨reached, hbelow, hmany⟩
  · obtain ⟨reached, hreached, hmany⟩ := hbranches
    exact ⟨reached, .lower h hreached, hmany⟩

/-- **No path is found exactly where the layers branch.** -/
theorem descendedFrom_eq_error {layer : LayerProof} :
    (∃ e, descendedFrom layer = .error e) ↔ Branches layer := by
  induction layer using descendedFrom.induct with
  | case1 merkProof =>
    refine iff_of_false (fun h => ?_) (not_branches_of_none rfl)
    obtain ⟨e, he⟩ := h
    rw [descendedFrom] at he
    cases he
  | case2 merkProof key lower ih =>
    rw [branches_of_one rfl, ← ih, descendedFrom]
    cases descendedFrom lower with
    | error e => exact iff_of_true ⟨e, rfl⟩ ⟨e, rfl⟩
    | ok path =>
      refine iff_of_false (fun h => ?_) (fun h => ?_)
      · obtain ⟨e, he⟩ := h
        cases he
      · obtain ⟨e, he⟩ := h
        cases he
  | case3 merkProof first second rest =>
    refine iff_of_true ?_ ⟨_, .here, ?_⟩
    · rw [descendedFrom]
      exact ⟨_, rfl⟩
    · simp

/-- In a chain of layers only its own path leads to a layer with none below it. -/
theorem OnlyChain.layerAt_last_iff {layer : LayerProof} {path other : List Bytes}
    (h : OnlyChain layer path) :
    (∃ last, layer.layerAt other = some last ∧ last.lowerLayers = []) ↔ other = path := by
  induction h generalizing other with
  | @last layer hnone =>
    cases other with
    | nil => exact iff_of_true ⟨layer, rfl, hnone⟩ rfl
    | cons seg rest =>
      refine iff_of_false (fun hlast => ?_) nofun
      obtain ⟨last, hat, -⟩ := hlast
      have hself : layer.layerAt [] = some layer := rfl
      have hbelow := LayerProof.layerAt_below hself hnone seg rest
      rw [List.nil_append, hat] at hbelow
      cases hbelow
  | @lower layer below key path hone _ ih =>
    cases other with
    | nil =>
      refine iff_of_false (fun hlast => ?_) nofun
      obtain ⟨last, hat, hnone⟩ := hlast
      obtain rfl : layer = last := Option.some.inj hat
      rw [hone] at hnone
      cases hnone
    | cons seg rest =>
      rw [List.cons.injEq, ← ih]
      have hget : layer.get seg = if key = seg then some below else none := by
        rw [LayerProof.get, hone]
        by_cases hkey : key = seg <;> simp [hkey]
      rw [LayerProof.layerAt, hget]
      by_cases hkey : key = seg
      · rw [if_pos hkey]
        exact ⟨fun hlast => ⟨hkey.symm, hlast⟩, fun hlast => hlast.2⟩
      · rw [if_neg hkey]
        refine iff_of_false (fun hlast => ?_) fun hlast => hkey hlast.1.symm
        obtain ⟨last, hat, -⟩ := hlast
        cases hat

theorem checkEnvelope_eq_ok {deps : Deps D} {proof : Bytes} {v0 : GroveDBProofV0}
    {path : List Bytes} (hdecoded : decodeEnvelope deps proof = .ok v0)
    (hoptions : v0.proveOptions = defaultProveOptions) :
    checkEnvelope deps proof path = .ok () ↔
      ∃ last, v0.rootLayer.layerAt path = some last ∧ last.lowerLayers = [] := by
  unfold checkEnvelope
  rw [hdecoded]
  show (layerAtPath v0 path >>= fun _ => Except.ok ()) = .ok () ↔ _
  simp only [Outcome.bind_eq_ok, layerAtPath_eq_ok, descend_eq_ok, hoptions, true_and, and_true]

/-- **An envelope has one path.** Of an envelope under the default prove option,
the path found is the one that `check_envelope` accepts, and none is found
exactly if a layer reached through layers with one lower layer each has more
than one. -/
theorem descended_path_is_the_only_path (deps : Deps D) (proof : Bytes) (v0 : GroveDBProofV0)
    (hdecoded : decodeEnvelope deps proof = .ok v0)
    (hoptions : v0.proveOptions = defaultProveOptions) :
    (∀ path, descendedPath deps proof = .ok path →
      ∀ other, checkEnvelope deps proof other = .ok () ↔ other = path) ∧
    ((∃ e, descendedPath deps proof = .error e) ↔
      ∃ reached, SoleReached v0.rootLayer reached ∧ 1 < reached.lowerLayers.length) := by
  refine ⟨fun path hpath other => ?_, ?_⟩
  · obtain ⟨v0', hdecoded', hchain⟩ := descendedPath_eq_ok.mp hpath
    obtain rfl : v0 = v0' := Except.ok.inj (hdecoded.symm.trans hdecoded')
    rw [checkEnvelope_eq_ok hdecoded hoptions, hchain.layerAt_last_iff]
  · unfold descendedPath
    rw [hdecoded]
    exact descendedFrom_eq_error

/-- A proof of one item descends to the data tree that holds it, and to no other. -/
theorem descended_path_is_the_only_path_sample :
    checkEnvelope Sample.deps Sample.proof Sample.path = .ok () ∧
      checkEnvelope Sample.deps Sample.proof [] ≠ .ok () := by
  have hchain : OnlyChain Sample.rootLayer Sample.path :=
    .lower rfl (.lower rfl (.lower rfl (.last rfl)))
  have hpath : descendedPath Sample.deps Sample.proof = .ok Sample.path :=
    descendedPath_eq_ok.mpr ⟨_, Sample.decodeEnvelope_proof, hchain⟩
  have honly := (descended_path_is_the_only_path Sample.deps Sample.proof _
    Sample.decodeEnvelope_proof rfl).1 Sample.path hpath
  exact ⟨(honly Sample.path).mpr rfl, fun h => List.cons_ne_nil _ _ ((honly []).mp h).symm⟩

end Grove
end WillowSdk
