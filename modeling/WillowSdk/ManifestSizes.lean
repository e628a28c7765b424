/-
# The manifests that describe a file

`check_manifest` (src/files.rs) compares a manifest's sizes by two products,
where `chunk_data` splits a file at every multiple of the chunk size. They
agree: of all sizes of the fields' widths, those accepted are a file's, in as
many chunks as it splits in (`check_manifest_is_exact`).
-/
import WillowSdk.FileTransfer

namespace WillowSdk
namespace Files

/-- Whatever the sizes, none of the arithmetic is out of range. -/
theorem whyRefused_noPanic (total count : ℕ) {size : ℕ} (hsize : size < 2 ^ 32) :
    Checked.NoPanic (whyRefused total count size) := by
  obtain ⟨why, hwhy, -⟩ := whyRefused_answers total count hsize
  rw [hwhy]
  exact Checked.noPanic_ok _

theorem checkManifest_noPanic (manifest : FileManifest) :
    Checked.NoPanic (checkManifest manifest) := by
  refine (whyRefused_noPanic _ _ (UInt32.toNat_lt _)).bind fun why _ => ?_
  cases why with
  | none => exact Checked.noPanic_ok _
  | some why => exact Checked.noPanic_refuse _

/-- As many chunks as the two products allow. -/
theorem splits_iff {total count : ℕ} {chunkSize : UInt32} (hsize : 0 < chunkSize.toNat)
    (htotal : 0 < total) :
    (∀ data : Bytes, data.length = total → (chunkData data chunkSize).length = count) ↔
      0 < count ∧ (count - 1) * chunkSize.toNat < total ∧ total ≤ count * chunkSize.toNat := by
  have hsplit : ∀ data : Bytes, data.length = total →
      ((chunkData data chunkSize).length = count ↔
        0 < count ∧ (count - 1) * chunkSize.toNat < total ∧ total ≤ count * chunkSize.toNat) := by
    intro data hdata
    have hne : data ≠ [] := by
      rw [← List.length_pos_iff, hdata]
      exact htotal
    rw [← hdata]
    exact Chunked.length_chunks_eq_iff hsize hne
  refine ⟨fun h => ?_, fun h data hdata => (hsplit data hdata).mpr h⟩
  have hlength : (List.replicate total (0 : UInt8)).length = total := List.length_replicate
  exact (hsplit _ hlength).mp (h _ hlength)

/-- **A manifest is accepted exactly if it describes a file**: one of at least a
byte, within the chain's limits, that splits in as many chunks of the size. No
product or subtraction is out of range, whatever the sizes. -/
theorem check_manifest_is_exact (manifest : FileManifest) :
    (checkManifest manifest = .ok () ↔
      0 < manifest.chunkSize ∧ 0 < manifest.totalSize ∧
        manifest.totalSize.toNat ≤ maxFileSize ∧ manifest.chunkCount.toNat ≤ maxChunkCount ∧
        ∀ data : Bytes, data.length = manifest.totalSize.toNat →
          (chunkData data manifest.chunkSize).length = manifest.chunkCount.toNat) ∧
    Checked.NoPanic (checkManifest manifest) := by
  refine ⟨?_, checkManifest_noPanic manifest⟩
  have hsize : 0 < manifest.chunkSize ↔ 0 < manifest.chunkSize.toNat := UInt32.lt_iff_toNat_lt
  have htotal : 0 < manifest.totalSize ↔ 0 < manifest.totalSize.toNat := UInt64.lt_iff_toNat_lt
  rw [checkManifest_eq_ok, whyRefused_eq_none_iff (UInt32.toNat_lt _), hsize, htotal]
  refine ⟨fun h => ?_, fun h => ?_⟩
  · obtain ⟨hsome, hpos, hmax, hcount, hfew, hfits⟩ := h
    exact ⟨hsome, hpos, hmax, hfew, (splits_iff hsome hpos).mpr ⟨hcount, hfits⟩⟩
  · obtain ⟨hsome, hpos, hmax, hfew, hsplits⟩ := h
    obtain ⟨hcount, hfits⟩ := (splits_iff hsome hpos).mp hsplits
    exact ⟨hsome, hpos, hmax, hcount, hfew, hfits⟩

end Files
end WillowSdk
