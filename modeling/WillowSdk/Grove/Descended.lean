/-
# The path a proof descends

`descended_path` (src/grovedb_envelope.rs) follows each layer's one lower
layer until a layer has none. It gives a path exactly when the layers are one
chain of that path (`descendedPath_eq_ok`).
-/
import WillowSdk.Grove.Verify

namespace WillowSdk
namespace Grove

variable {D : Type}

/-- The keys from a layer down, refusing a layer with two lower layers. -/
def descendedFrom : LayerProof → Result (List Bytes)
  | .mk _ [] => .ok []
  | .mk _ [(key, lower)] => do
    let path ← descendedFrom lower
    .ok (key :: path)
  | .mk _ (_ :: _ :: _) => .error (envelopeError "a layer with more than one lower layer")

/-- The path a proof descends. -/
def descendedPath (deps : Deps D) (proof : Bytes) : Result (List Bytes) := do
  let v0 ← decodeEnvelope deps proof
  descendedFrom v0.rootLayer

/-- The layers from one down are a chain with these keys, and no others. -/
inductive OnlyChain : LayerProof → List Bytes → Prop
  | last {layer : LayerProof} : layer.lowerLayers = [] → OnlyChain layer []
  | lower {layer below : LayerProof} {key : Bytes} {path : List Bytes} :
      layer.lowerLayers = [(key, below)] → OnlyChain below path → OnlyChain layer (key :: path)

theorem descendedFrom_eq_ok {layer : LayerProof} {path : List Bytes} :
    descendedFrom layer = .ok path ↔ OnlyChain layer path := by
  refine ⟨fun h => ?_, fun h => ?_⟩
  · induction layer using descendedFrom.induct generalizing path with
    | case1 merkProof =>
      obtain rfl : [] = path := by simpa [descendedFrom] using h
      exact .last rfl
    | case2 merkProof key lower ih =>
      rw [descendedFrom, Outcome.bind_eq_ok] at h
      obtain ⟨below, hbelow, hpath⟩ := h
      obtain rfl := Except.ok.inj hpath
      exact .lower rfl (ih hbelow)
    | case3 merkProof first second rest =>
      rw [descendedFrom] at h
      cases h
  · induction h with
    | @last layer hnone =>
      obtain ⟨merkProof, lower⟩ := layer
      obtain rfl : lower = [] := hnone
      rw [descendedFrom]
    | @lower layer below key path hone _ ih =>
      obtain ⟨merkProof, lower⟩ := layer
      obtain rfl : lower = [(key, below)] := hone
      rw [descendedFrom, ih]
      rfl

theorem descendedPath_eq_ok {deps : Deps D} {proof : Bytes} {path : List Bytes} :
    descendedPath deps proof = .ok path ↔
      ∃ v0, decodeEnvelope deps proof = .ok v0 ∧ OnlyChain v0.rootLayer path := by
  unfold descendedPath
  simp only [Outcome.bind_eq_ok, descendedFrom_eq_ok]

end Grove
end WillowSdk
