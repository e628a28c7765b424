/-
# The chunk Merkle root binds every chunk

`compute_merkle_root` (src/files.rs) merges the chunks' hashes pair by pair. A
single leaf is paired with itself, so every root is the hash of a node. Of two
lists of as many hashes only one has a root, unless SHA-256 collides on inputs
met in computing it (`chunk_root_binds`). Lists of different lengths can share
one: a download fixes the count first.
-/
import WillowSdk.Files
import WillowSdk.Lib.HashLevels

namespace WillowSdk
namespace Files

open EthState (B256 zeroHash)
open HashLevels (top inputs)

/-- The input of a node's hash. -/
def nodeInput (pair : B256 × B256) : Bytes := pair.1.val ++ pair.2.val

theorem length_nodeInput (pair : B256 × B256) : (nodeInput pair).length = 64 := by
  rw [nodeInput, List.length_append, pair.1.2, pair.2.2]

theorem nodeInput_inj {p q : B256 × B256} (h : nodeInput p = nodeInput q) : p = q := by
  have hlen : p.1.val.length = q.1.val.length := by rw [p.1.2, q.1.2]
  obtain ⟨hfirst, hsecond⟩ := List.append_inj h hlen
  exact Prod.ext (Subtype.ext hfirst) (Subtype.ext hsecond)

/-- The level the loop starts from. -/
def firstLevel : List B256 → List B256
  | [leaf] => [leaf, leaf]
  | hashes => hashes

theorem firstLevel_inj {xs ys : List B256} (hlen : xs.length = ys.length)
    (h : firstLevel xs = firstLevel ys) : xs = ys := by
  match xs, ys, hlen, h with
  | [], [], _, _ => rfl
  | [x], [y], _, h =>
    obtain ⟨rfl, -⟩ := List.cons.inj h
    rfl
  | _ :: _ :: _, _ :: _ :: _, _, h => exact h

theorem length_firstLevel {xs ys : List B256} (hlen : xs.length = ys.length) :
    (firstLevel xs).length = (firstLevel ys).length := by
  match xs, ys, hlen with
  | [], [], _ => rfl
  | [_], [_], _ => rfl
  | _ :: _ :: _, _ :: _ :: _, hlen => exact hlen

section Hashed

variable (sha256 : Bytes → B256)

def hashNode (pair : B256 × B256) : B256 := sha256 (nodeInput pair)

/-- One turn of the loop. -/
def nextLevel (current : List B256) : List B256 := hashPairs sha256 (padOdd current)

/-- What is hashed on the way to the root. -/
def nodeInputs (hashes : List B256) : List Bytes :=
  (inputs (hashNode sha256) (firstLevel hashes)).map nodeInput

theorem hashPairs_eq (current : List B256) :
    hashPairs sha256 current = (HashLevels.pairs current).map (hashNode sha256) := by
  induction current using List.twoStepInduction with
  | nil => rfl
  | singleton _ => rfl
  | cons_cons a b rest ih _ =>
    rw [hashPairs, HashLevels.pairs, List.map_cons, ih]
    rfl

theorem nextLevel_eq (current : List B256) :
    nextLevel sha256 current = HashLevels.next (hashNode sha256) current :=
  hashPairs_eq sha256 _

theorem mergeLevels_eq (current : List B256) :
    mergeLevels sha256 current = top (hashNode sha256) current := by
  induction current using mergeLevels.induct sha256 with
  | case1 current hmany ih =>
    rw [mergeLevels, if_pos hmany, ih, HashLevels.top_of_many hmany, ← nextLevel_eq]
    rfl
  | case2 current hone => rw [mergeLevels, if_neg hone, top, if_neg hone]

/-- The root is the last level's one hash. -/
theorem computeMerkleRoot_eq {hashes : List B256} (hne : hashes ≠ []) :
    computeMerkleRoot sha256 hashes = (mergeLevels sha256 (firstLevel hashes)).headD zeroHash := by
  match hashes, hne with
  | [_], _ => rfl
  | _ :: _ :: _, _ => rfl

theorem firstLevel_ne_nil {hashes : List B256} (hne : hashes ≠ []) : firstLevel hashes ≠ [] := by
  match hashes, hne with
  | [_], _ => nofun
  | _ :: _ :: _, _ => nofun

/-- **The loop ends**, with the root: it goes on while there is more than one
hash, for `k` turns. -/
theorem merge_ends {hashes : List B256} (hne : hashes ≠ []) :
    ∃ k, (∀ j < k, 1 < ((nextLevel sha256)^[j] (firstLevel hashes)).length) ∧
      (nextLevel sha256)^[k] (firstLevel hashes) = [computeMerkleRoot sha256 hashes] := by
  have hnext : nextLevel sha256 = HashLevels.next (hashNode sha256) :=
    funext (nextLevel_eq sha256)
  obtain ⟨k, -, hturns, hlast, hone⟩ :=
    HashLevels.top_reached (hashNode sha256) (firstLevel_ne_nil hne)
  obtain ⟨root, hroot⟩ := List.length_eq_one_iff.mp hone
  rw [hnext, computeMerkleRoot_eq sha256 hne, mergeLevels_eq, hroot]
  exact ⟨k, hturns, hlast.trans hroot⟩

end Hashed

/-- **The chunk Merkle root binds every chunk**, at a fixed count: two lists of
as many hashes with one root are equal, or two different node inputs met in
computing it have one SHA-256. And the loop over the levels ends. -/
theorem chunk_root_binds (sha256 : Bytes → B256) (xs ys : List B256) (hpos : 1 ≤ xs.length)
    (hlen : xs.length = ys.length) :
    (computeMerkleRoot sha256 xs = computeMerkleRoot sha256 ys →
      xs = ys ∨ ∃ x ∈ nodeInputs sha256 xs, ∃ y ∈ nodeInputs sha256 ys,
        x.length = 64 ∧ y.length = 64 ∧ x ≠ y ∧ sha256 x = sha256 y) ∧
    ∃ k, (∀ j < k, 1 < ((nextLevel sha256)^[j] (firstLevel xs)).length) ∧
      (nextLevel sha256)^[k] (firstLevel xs) = [computeMerkleRoot sha256 xs] := by
  have hxs : xs ≠ [] := List.length_pos_iff.mp hpos
  refine ⟨fun hroot => ?_, merge_ends sha256 hxs⟩
  have hys : ys ≠ [] := List.length_pos_iff.mp (hlen ▸ hpos)
  have htop : top (hashNode sha256) (firstLevel xs) = top (hashNode sha256) (firstLevel ys) := by
    obtain ⟨-, -, -, -, honex⟩ :=
      HashLevels.top_reached (hashNode sha256) (firstLevel_ne_nil hxs)
    obtain ⟨-, -, -, -, honey⟩ :=
      HashLevels.top_reached (hashNode sha256) (firstLevel_ne_nil hys)
    obtain ⟨rootx, hrootx⟩ := List.length_eq_one_iff.mp honex
    obtain ⟨rooty, hrooty⟩ := List.length_eq_one_iff.mp honey
    rw [computeMerkleRoot_eq sha256 hxs, computeMerkleRoot_eq sha256 hys, mergeLevels_eq,
      mergeLevels_eq, hrootx, hrooty] at hroot
    rw [hrootx, hrooty]
    exact congrArg (fun root => [root]) hroot
  rcases HashLevels.eq_or_collide (length_firstLevel hlen) htop with hsame | hcollide
  · exact .inl (firstLevel_inj hlen hsame)
  · obtain ⟨p, hp, q, hq, hne, hhash⟩ := hcollide
    refine .inr ⟨nodeInput p, List.mem_map_of_mem hp, nodeInput q, List.mem_map_of_mem hq,
      length_nodeInput p, length_nodeInput q, fun h => hne (nodeInput_inj h), hhash⟩

namespace Leaves

/-- SHA-256 of `a`. -/
def first : B256 :=
  ⟨[0xCA, 0x97, 0x81, 0x12, 0xCA, 0x1B, 0xBD, 0xCA, 0xFA, 0xC2, 0x31, 0xB3, 0x9A, 0x23, 0xDC, 0x4D,
    0xA7, 0x86, 0xEF, 0xF8, 0x14, 0x7C, 0x4E, 0x72, 0xB9, 0x80, 0x77, 0x85, 0xAF, 0xEE, 0x48, 0xBB], rfl⟩

/-- SHA-256 of `b`. -/
def second : B256 :=
  ⟨[0x3E, 0x23, 0xE8, 0x16, 0x00, 0x39, 0x59, 0x4A, 0x33, 0x89, 0x4F, 0x65, 0x64, 0xE1, 0xB1, 0x34,
    0x8B, 0xBD, 0x7A, 0x00, 0x88, 0xD4, 0x2C, 0x4A, 0xCB, 0x73, 0xEE, 0xAE, 0xD5, 0x9C, 0x00, 0x9D], rfl⟩

/-- SHA-256 of `c`. -/
def third : B256 :=
  ⟨[0x2E, 0x7D, 0x2C, 0x03, 0xA9, 0x50, 0x7A, 0xE2, 0x65, 0xEC, 0xF5, 0xB5, 0x35, 0x68, 0x85, 0xA5,
    0x33, 0x93, 0xA2, 0x02, 0x9D, 0x24, 0x13, 0x94, 0x99, 0x72, 0x65, 0xA1, 0xA2, 0x5A, 0xEF, 0xC6], rfl⟩

/-- Of the first two. -/
def pair : B256 :=
  ⟨[0xE5, 0xA0, 0x1F, 0xEE, 0x14, 0xE0, 0xED, 0x5C, 0x48, 0x71, 0x4F, 0x22, 0x18, 0x0F, 0x25, 0xAD,
    0x83, 0x65, 0xB5, 0x3F, 0x97, 0x79, 0xF7, 0x9D, 0xC4, 0xA3, 0xD7, 0xE9, 0x39, 0x63, 0xF9, 0x4A], rfl⟩

/-- Of the third twice. -/
def lastTwice : B256 :=
  ⟨[0xA3, 0xE3, 0x33, 0xFB, 0xEE, 0x45, 0x5B, 0x9A, 0x05, 0x4C, 0xF0, 0x50, 0x77, 0xF0, 0xF9, 0xD4,
    0x5B, 0x91, 0xBD, 0x13, 0xDB, 0x4C, 0xD4, 0xA3, 0x68, 0x1E, 0xC4, 0x74, 0x55, 0xAF, 0x08, 0x5C], rfl⟩

/-- Of these two. -/
def root : B256 :=
  ⟨[0xD3, 0x1A, 0x37, 0xEF, 0x6A, 0xC1, 0x4A, 0x2D, 0xB1, 0x47, 0x0C, 0x43, 0x16, 0xBE, 0xB5, 0x59,
    0x2E, 0x6A, 0xFD, 0x44, 0x65, 0x02, 0x23, 0x39, 0xAD, 0xAF, 0xDA, 0x76, 0xA1, 0x8F, 0xFA, 0xBE], rfl⟩

/-- SHA-256 of the node inputs. -/
def sha256 (bytes : Bytes) : B256 :=
  if bytes = first.val ++ second.val then pair
  else if bytes = third.val ++ third.val then lastTwice
  else if bytes = pair.val ++ lastTwice.val then root
  else zeroHash

end Leaves

/-- Three hashes of a file take two turns, the last of them paired with itself;
no other three have their root. -/
theorem chunk_root_binds_sample :
    computeMerkleRoot Leaves.sha256 [Leaves.first, Leaves.second, Leaves.third] = Leaves.root ∧
    (∀ ys : List B256, ys.length = 3 → computeMerkleRoot Leaves.sha256 ys = Leaves.root →
      [Leaves.first, Leaves.second, Leaves.third] = ys ∨
        ∃ x y : Bytes, x.length = 64 ∧ y.length = 64 ∧ x ≠ y ∧
          Leaves.sha256 x = Leaves.sha256 y) ∧
    ∃ k, (nextLevel Leaves.sha256)^[k] [Leaves.first, Leaves.second, Leaves.third] =
      [Leaves.root] := by
  have hroot : computeMerkleRoot Leaves.sha256 [Leaves.first, Leaves.second, Leaves.third] =
      Leaves.root := by
    decide +kernel
  refine ⟨hroot, fun ys hlen hsame => ?_, ?_⟩
  · rcases (chunk_root_binds Leaves.sha256 [Leaves.first, Leaves.second, Leaves.third] ys (by decide)
      hlen.symm).1 (hroot.trans hsame.symm) with heq | ⟨x, -, y, -, hcollide⟩
    · exact .inl heq
    · exact .inr ⟨x, y, hcollide⟩
  · obtain ⟨k, -, hk⟩ := (chunk_root_binds Leaves.sha256
      [Leaves.first, Leaves.second, Leaves.third] [Leaves.first, Leaves.second, Leaves.third]
      (by decide) rfl).2
    exact ⟨k, hk.trans (congrArg (fun r => [r]) hroot)⟩

end Files
end WillowSdk
