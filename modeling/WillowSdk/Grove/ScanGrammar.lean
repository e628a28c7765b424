/-
# What the envelope scan accepts

The encoding of an envelope as a grammar: a varint `n` is one byte below
251, or the tag 251, 252 or 253 and a big-endian u16, u32 or u64 (`Varint`);
a layer is its ops' length and bytes, how many lower layers it has, and for
each its key's length and bytes and the layer itself (`EncodesTo`).

`scan_envelope_iff`: the scan accepts exactly the strings of this grammar
within its bounds on length, layers and depth. The loop keeps a stack of
counters in place of a recursive parser's call stack; what carries the proof
is that one layer's encoding, whatever follows it, moves the loop to where
it resumes after that layer (`readLayers_encoding`), and that a loop that
ends well has read one layer's encoding first (`readLayers_sound`).
-/
import WillowSdk.Grove.Scan
import WillowSdk.Lib.Outcome
import Mathlib.Data.List.Induction
import Mathlib.Data.Nat.Digits.Defs
import Mathlib.Tactic.Ring

namespace WillowSdk
namespace Grove

open Scan LayerProof

/-! ### The grammar -/

/-- The encodings of a number. -/
inductive Varint : ℕ → Bytes → Prop
  | byte (b : UInt8) : b.toNat < 251 → Varint b.toNat [b]
  | u16 (s : Bytes) : s.length = 2 → Varint (Nat.ofDigits 256 (s.reverse.map UInt8.toNat)) (251 :: s)
  | u32 (s : Bytes) : s.length = 4 → Varint (Nat.ofDigits 256 (s.reverse.map UInt8.toNat)) (252 :: s)
  | u64 (s : Bytes) : s.length = 8 → Varint (Nat.ofDigits 256 (s.reverse.map UInt8.toNat)) (253 :: s)

/-- A byte string after its length. -/
def Counted (s c : Bytes) : Prop := ∃ v, Varint s.length v ∧ c = v ++ s

mutual
/-- The encodings of a layer and all below it. -/
def LayerProof.EncodesTo : LayerProof → Bytes → Prop
  | .mk ops lower, b => ∃ o v e, Counted ops o ∧ Varint lower.length v ∧
      LowerEncodesTo lower e ∧ b = o ++ (v ++ e)
/-- The encodings of lower layers, each after its key. -/
def LayerProof.LowerEncodesTo : List (Bytes × LayerProof) → Bytes → Prop
  | [], b => b = []
  | (key, l) :: rest, b => ∃ k e e', Counted key k ∧ l.EncodesTo e ∧
      LowerEncodesTo rest e' ∧ b = k ++ (e ++ e')
end

/-- The one-byte encoding of a small number. -/
theorem Varint.short {n : ℕ} (h : n < 251) : Varint n [.ofNat n] := by
  have hn : (UInt8.ofNat n).toNat = n := by
    rw [UInt8.toNat_ofNat']
    omega
  have hbyte := Varint.byte (.ofNat n) (by omega)
  rwa [hn] at hbyte

theorem Counted.short {s : Bytes} (h : s.length < 251) : Counted s (.ofNat s.length :: s) :=
  ⟨_, .short h, rfl⟩

theorem Varint.length_pos {n : ℕ} {v : Bytes} (h : Varint n v) : 0 < v.length := by
  cases h <;> simp

theorem Counted.length_pos {s c : Bytes} (h : Counted s c) : 0 < c.length := by
  obtain ⟨v, hv, rfl⟩ := h
  have := hv.length_pos
  simp only [List.length_append]
  omega

/-- A layer takes at least two bytes: its ops' length and its count. -/
theorem two_le_of_encodesTo {l : LayerProof} {e : Bytes} (h : l.EncodesTo e) : 2 ≤ e.length := by
  obtain ⟨ops, lower⟩ := l
  obtain ⟨o, v, e', ho, hv, -, rfl⟩ := h
  have := ho.length_pos
  have := hv.length_pos
  simp only [List.length_append]
  omega

/-- So lower layers take at least three bytes each, and a count above a third
of the bytes left is no encoding's. -/
theorem three_mul_le : ∀ {lower : List (Bytes × LayerProof)} {e : Bytes},
    LowerEncodesTo lower e → 3 * lower.length ≤ e.length
  | [], _, _ => by simp
  | (key, l) :: rest, _, h => by
    obtain ⟨k, e, e', hk, hl, hr, rfl⟩ := h
    have := hk.length_pos
    have := two_le_of_encodesTo hl
    have := three_mul_le hr
    simp only [List.length_cons, List.length_append]
    omega

/-! ### The scanner's primitives -/

namespace Scan

theorem take_eq_ok {n : ℕ} {b t w : Bytes} :
    take n b = .ok (t, w) ↔ t.length = n ∧ b = t ++ w := by
  unfold take
  simp only [gt_iff_lt, Outcome.refuse_eq_ok, not_lt, Except.ok.injEq, Prod.mk.injEq]
  refine ⟨fun h => ?_, fun h => ?_⟩
  · obtain ⟨hn, rfl, rfl⟩ := h
    exact ⟨by simp [hn], by simp⟩
  · obtain ⟨rfl, rfl⟩ := h
    simp

theorem skip_eq_ok {n : ℕ} {b w : Bytes} :
    skip n b = .ok w ↔ ∃ t, t.length = n ∧ b = t ++ w := by
  simp [skip, take_eq_ok]

theorem bigEndian_eq_ofDigits (s : Bytes) :
    bigEndian s = Nat.ofDigits 256 (s.reverse.map UInt8.toNat) := by
  induction s using List.reverseRecOn with
  | nil => rfl
  | append_singleton s b ih =>
    have hb : b.toNat < 2 ^ 8 := b.toNat_lt
    have hlast : bigEndian (s ++ [b]) = bigEndian s <<< 8 ||| b.toNat := by
      unfold bigEndian
      rw [List.foldl_append]
      rfl
    have hdigits : Nat.ofDigits 256 ((s ++ [b]).reverse.map UInt8.toNat) =
        b.toNat + 256 * Nat.ofDigits 256 (s.reverse.map UInt8.toNat) := by
      rw [List.reverse_append, List.reverse_singleton, List.singleton_append, List.map_cons]
      exact Nat.ofDigits_cons ..
    rw [hlast, hdigits, ← ih, ← Nat.shiftLeft_add_eq_or_of_lt hb, Nat.shiftLeft_eq]
    ring

theorem varint_cons (tag : UInt8) (rest : Bytes) : varint (tag :: rest) =
    if tag ≤ 250 then .ok (tag.toNat, rest)
    else tagWidth tag >>= fun width =>
      take width rest >>= fun taken => .ok (bigEndian taken.1, taken.2) := by
  have h1 : take 1 (tag :: rest) = .ok ([tag], rest) := take_eq_ok.mpr (by simp)
  simp only [varint, h1]
  rfl

theorem le_250_iff (tag : UInt8) : tag ≤ 250 ↔ tag.toNat < 251 := by
  rw [UInt8.le_iff_toNat_le, Nat.lt_succ_iff]
  rfl

/-- The number after the tag `251`, `252` or `253`. -/
theorem varint_tag {tag : UInt8} {width n : ℕ} {rest w : Bytes} (ht : ¬ tag ≤ 250)
    (hw : tagWidth tag = .ok width) :
    varint (tag :: rest) = .ok (n, w) ↔
      ∃ s : Bytes, s.length = width ∧ n = Nat.ofDigits 256 (s.reverse.map UInt8.toNat) ∧
        rest = s ++ w := by
  rw [varint_cons, if_neg ht, hw]
  simp only [Outcome.bind_eq_ok, Prod.exists, take_eq_ok, Except.ok.injEq, Prod.mk.injEq,
    bigEndian_eq_ofDigits, exists_eq_left']
  refine ⟨fun h => ?_, fun h => ?_⟩
  · obtain ⟨s, w, ⟨hs, rfl⟩, rfl, rfl⟩ := h
    exact ⟨s, hs, rfl, rfl⟩
  · obtain ⟨s, hs, rfl, rfl⟩ := h
    exact ⟨s, w, ⟨hs, rfl⟩, rfl, rfl⟩

theorem tagWidth_eq_ok {tag : UInt8} {width : ℕ} :
    tagWidth tag = .ok width ↔
      (tag = 251 ∧ width = 2) ∨ (tag = 252 ∧ width = 4) ∨ (tag = 253 ∧ width = 8) := by
  unfold tagWidth
  split_ifs with h1 h2 h3
  · simp [h1, eq_comm]
  · simp [h2, eq_comm]
  · simp [h3, eq_comm]
  · simp [h1, h2, h3]

/-- The scanner reads exactly the encodings of a number. -/
theorem varint_eq_ok {n : ℕ} {b w : Bytes} :
    varint b = .ok (n, w) ↔ ∃ v, Varint n v ∧ b = v ++ w := by
  refine ⟨fun h => ?_, fun h => ?_⟩
  · cases b with
    | nil => simp [varint, take] at h
    | cons tag rest =>
      by_cases ht : tag ≤ 250
      · rw [varint_cons, if_pos ht] at h
        simp only [Except.ok.injEq, Prod.mk.injEq] at h
        obtain ⟨rfl, rfl⟩ := h
        exact ⟨[tag], .byte tag ((le_250_iff tag).mp ht), rfl⟩
      · cases hw : tagWidth tag with
        | error e => simp [varint_cons, ht, hw] at h
        | ok width =>
          obtain ⟨s, hs, rfl, rfl⟩ := (varint_tag ht hw).mp h
          rcases tagWidth_eq_ok.mp hw with ⟨rfl, rfl⟩ | ⟨rfl, rfl⟩ | ⟨rfl, rfl⟩
          · exact ⟨_, .u16 s hs, rfl⟩
          · exact ⟨_, .u32 s hs, rfl⟩
          · exact ⟨_, .u64 s hs, rfl⟩
  · obtain ⟨v, hv, rfl⟩ := h
    cases hv with
    | byte b hb => rw [List.singleton_append, varint_cons, if_pos ((le_250_iff b).mpr hb)]
    | u16 s hs => exact (varint_tag (by decide) (tagWidth_eq_ok.mpr (by decide))).mpr ⟨s, hs, rfl, rfl⟩
    | u32 s hs => exact (varint_tag (by decide) (tagWidth_eq_ok.mpr (by decide))).mpr ⟨s, hs, rfl, rfl⟩
    | u64 s hs => exact (varint_tag (by decide) (tagWidth_eq_ok.mpr (by decide))).mpr ⟨s, hs, rfl, rfl⟩

theorem len_eq_ok {n : ℕ} {b w : Bytes} :
    len b = .ok (n, w) ↔ (∃ v, Varint n v ∧ b = v ++ w) ∧ n ≤ w.length := by
  simp only [len, Outcome.bind_eq_ok, Prod.exists, varint_eq_ok, Outcome.refuse_eq_ok,
    Except.ok.injEq, Prod.mk.injEq, not_lt, gt_iff_lt]
  refine ⟨fun h => ?_, fun h => ?_⟩
  · obtain ⟨_, _, hv, hle, rfl, rfl⟩ := h
    exact ⟨hv, hle⟩
  · obtain ⟨hv, hle⟩ := h
    exact ⟨n, w, hv, hle, rfl, rfl⟩

/-- A length and as many bytes. -/
theorem len_skip_eq_ok {b w : Bytes} :
    (∃ n b', len b = .ok (n, b') ∧ skip n b' = .ok w) ↔ ∃ s c, Counted s c ∧ b = c ++ w := by
  simp only [len_eq_ok, skip_eq_ok]
  refine ⟨fun h => ?_, fun h => ?_⟩
  · obtain ⟨n, b', ⟨⟨v, hv, rfl⟩, -⟩, s, rfl, rfl⟩ := h
    exact ⟨s, v ++ s, ⟨v, hv, rfl⟩, by simp⟩
  · obtain ⟨s, c, ⟨v, hv, rfl⟩, rfl⟩ := h
    exact ⟨s.length, s ++ w, ⟨⟨v, hv, by simp⟩, by simp⟩, s, rfl, rfl⟩

/-! ### The loop

After a layer the loop resumes with the counters of the layers still open:
`resume` is the inner loop and then the next layer, if any. -/

def resume (opened : List ℕ) (bytes : Bytes) (layers : ℕ) : Result Bytes :=
  nextLower opened bytes >>= fun next =>
    match next with
    | none => .ok bytes
    | some (opened, bytes) => readLayers bytes opened layers

@[simp] theorem resume_nil (b : Bytes) (k : ℕ) : resume [] b k = .ok b := rfl

@[simp] theorem resume_zero (opened : List ℕ) (b : Bytes) (k : ℕ) :
    resume (0 :: opened) b k = resume opened b k := by
  simp only [resume, nextLower]

theorem resume_succ {opened : List ℕ} {left k : ℕ} {b w : Bytes} :
    resume ((left + 1) :: opened) b k = .ok w ↔
      ∃ key c b', Counted key c ∧ b = c ++ b' ∧ readLayers b' (left :: opened) k = .ok w := by
  simp only [resume, nextLower, Outcome.bind_eq_ok, Except.ok.injEq, Prod.exists]
  refine ⟨fun h => ?_, fun h => ?_⟩
  · obtain ⟨_, ⟨n, b1, hn, b2, hb, rfl⟩, h⟩ := h
    obtain ⟨key, c, hc, rfl⟩ := len_skip_eq_ok.mp ⟨n, b1, hn, hb⟩
    exact ⟨key, c, b2, hc, rfl, h⟩
  · obtain ⟨key, c, b', hc, rfl, h⟩ := h
    obtain ⟨n, b1, hn, hb⟩ := len_skip_eq_ok.mpr ⟨key, c, hc, rfl⟩
    exact ⟨_, ⟨n, b1, hn, b', hb, rfl⟩, h⟩

/-- What one turn of the loop reads: a layer's ops and its count of lower
layers, within the bounds. -/
theorem readLayers_eq_ok {b w : Bytes} {opened : List ℕ} {k : ℕ} :
    readLayers b opened k = .ok w ↔
      k + 1 ≤ maxLayers ∧ opened.length ≤ maxLayerDepth ∧
        ∃ ops o lower v b', Counted ops o ∧ Varint lower v ∧ lower ≤ b'.length / 3 ∧
          b = o ++ (v ++ b') ∧ resume (lower :: opened) b' (k + 1) = .ok w := by
  rw [readLayers]
  simp only [gt_iff_lt, dite_eq_ite, Outcome.refuse_eq_ok, not_lt, Outcome.bind_eq_ok, Prod.exists,
    varint_eq_ok, resume]
  refine and_congr_right fun _ => and_congr_right fun _ => ?_
  refine ⟨fun h => ?_, fun h => ?_⟩
  · obtain ⟨n, b1, hn, b2, hb, lower, b3, ⟨v, hv, rfl⟩, hle, next, hnext, h⟩ := h
    obtain ⟨ops, o, ho, rfl⟩ := len_skip_eq_ok.mp ⟨n, b1, hn, hb⟩
    exact ⟨ops, o, lower, v, b3, ho, hv, hle, rfl, next, hnext, h⟩
  · obtain ⟨ops, o, lower, v, b3, ho, hv, hle, rfl, next, hnext, h⟩ := h
    obtain ⟨n, b1, hn, hb⟩ := len_skip_eq_ok.mpr ⟨ops, o, ho, rfl⟩
    exact ⟨n, b1, hn, _, hb, lower, b3, ⟨v, hv, rfl⟩, hle, next, hnext, h⟩

mutual
/-- Over one layer's encoding the loop moves to where it resumes after it. -/
theorem readLayers_encoding : ∀ (l : LayerProof) {e b w : Bytes} {opened : List ℕ} {k : ℕ},
    l.EncodesTo e → k + l.count ≤ maxLayers → opened.length + l.depth ≤ maxLayerDepth →
    resume opened b (k + l.count) = .ok w → readLayers (e ++ b) opened k = .ok w
  | .mk ops lower, _, b, w, opened, k, he, hc, hd, h => by
    obtain ⟨o, v, e, ho, hv, hl, rfl⟩ := he
    simp only [count, depth] at hc hd h
    rw [readLayers_eq_ok]
    refine ⟨by omega, by omega, ops, o, lower.length, v, e ++ b, ho, hv, ?_, by simp, ?_⟩
    · have := three_mul_le hl
      simp only [List.length_append]
      omega
    · exact resume_encoding lower hl (by omega) hd (by rwa [Nat.add_assoc])
/-- Over the encodings of the lower layers left, to where it resumes after
them all. -/
theorem resume_encoding : ∀ (lower : List (Bytes × LayerProof)) {e b w : Bytes} {opened : List ℕ}
    {k : ℕ}, LowerEncodesTo lower e → k + countLower lower ≤ maxLayers →
    opened.length + depthLower lower ≤ maxLayerDepth →
    resume opened b (k + countLower lower) = .ok w → resume (lower.length :: opened) (e ++ b) k = .ok w
  | [], _, b, w, opened, k, he, _, _, h => by
    obtain rfl : _ = [] := he
    simpa [countLower] using h
  | (key, l) :: rest, _, b, w, opened, k, he, hc, hd, h => by
    obtain ⟨c, e, e', hk, hl, hr, rfl⟩ := he
    simp only [countLower, depthLower] at hc hd h
    rw [List.length_cons, resume_succ]
    refine ⟨key, c, e ++ (e' ++ b), hk, by simp, ?_⟩
    have hopened : (rest.length :: opened).length + l.depth ≤ maxLayerDepth := by
      rw [List.length_cons]
      omega
    apply readLayers_encoding l hl (by omega) hopened
    apply resume_encoding rest hr (by omega) (by omega)
    rwa [Nat.add_assoc]
end

/-- `b` starts with one layer's encoding, within the bounds, and the loop
resumes after it to end with `w` left. -/
def ReadsLayer (b w : Bytes) (opened : List ℕ) (k : ℕ) : Prop :=
  ∃ (l : LayerProof) (e b' : Bytes), l.EncodesTo e ∧ b = e ++ b' ∧ k + l.count ≤ maxLayers ∧
    opened.length + l.depth ≤ maxLayerDepth ∧ resume opened b' (k + l.count) = .ok w

/-- The lower layers a counter counts, if every layer after layer `k` is read
as one layer's encoding. -/
theorem resume_sound {k : ℕ}
    (ih : ∀ {b w : Bytes} {opened : List ℕ} {k' : ℕ}, k < k' → readLayers b opened k' = .ok w →
      ReadsLayer b w opened k') :
    ∀ (m : ℕ) {b w : Bytes} {opened : List ℕ} {k' : ℕ}, k < k' → k' ≤ maxLayers →
      opened.length ≤ maxLayerDepth → resume (m :: opened) b k' = .ok w →
      ∃ lower e b', lower.length = m ∧ LowerEncodesTo lower e ∧ b = e ++ b' ∧
        k' + countLower lower ≤ maxLayers ∧ opened.length + depthLower lower ≤ maxLayerDepth ∧
        resume opened b' (k' + countLower lower) = .ok w
  | 0, b, w, opened, k', _, hk', hd, h => by
    rw [resume_zero] at h
    exact ⟨[], [], b, rfl, rfl, rfl, hk', hd, h⟩
  | m + 1, b, w, opened, k', hlt, _, hd, h => by
    obtain ⟨key, c, b1, hk, rfl, h1⟩ := resume_succ.mp h
    obtain ⟨l, e, b2, hl, rfl, hc, hdl, h2⟩ := ih hlt h1
    obtain ⟨rest, e', b3, rfl, hr, rfl, hc', hd', h3⟩ := resume_sound ih m (by omega) hc hd h2
    simp only [List.length_cons] at hdl
    have hcount : countLower ((key, l) :: rest) = l.count + countLower rest := by rw [countLower]
    have hdepth : depthLower ((key, l) :: rest) = max (l.depth + 1) (depthLower rest) := by
      rw [depthLower]
    have hencodes : LowerEncodesTo ((key, l) :: rest) (c ++ (e ++ e')) :=
      ⟨c, e, e', hk, hl, hr, rfl⟩
    refine ⟨(key, l) :: rest, c ++ (e ++ e'), b3, rfl, hencodes, by simp, ?_, ?_, ?_⟩
    · rw [hcount]
      omega
    · rw [hdepth]
      omega
    · rw [hcount, ← Nat.add_assoc]
      exact h3

/-- A loop that ends well has read one layer's encoding, within the bounds,
and gone on from there. -/
theorem readLayers_sound {b w : Bytes} {opened : List ℕ} {k : ℕ} (h : readLayers b opened k = .ok w) :
    ReadsLayer b w opened k := by
  obtain ⟨hk, hd, ops, o, m, v, b1, ho, hv, -, rfl, h1⟩ := readLayers_eq_ok.mp h
  obtain ⟨lower, e, b2, rfl, hl, rfl, hc, hd', h2⟩ :=
    resume_sound (k := k) (fun hlt h' => readLayers_sound h') m (Nat.lt_add_one k) hk hd h1
  have hencodes : (LayerProof.mk ops lower).EncodesTo (o ++ (v ++ e)) := ⟨o, v, e, ho, hv, hl, rfl⟩
  refine ⟨.mk ops lower, o ++ (v ++ e), b2, hencodes, by simp, ?_, ?_, ?_⟩
  · rw [count]
    omega
  · rw [depth]
    exact hd'
  · rw [count, ← Nat.add_assoc]
    exact h2
termination_by maxLayers - k
decreasing_by omega

end Scan

/-! ### The scan -/

/-- An envelope of the grammar passes. -/
theorem scanEnvelope_encoding {version e : Bytes} {options : UInt8} {t : LayerProof}
    (hv : Varint 0 version) (ht : t.EncodesTo e) (hc : t.count ≤ 1024) (hd : t.depth ≤ 64)
    (ho : options = 0 ∨ options = 1) (hlen : (version ++ (e ++ [options])).length ≤ maxProofBytes) :
    scanEnvelope (version ++ (e ++ [options])) = .ok () := by
  have h : Scan.readLayers (e ++ [options]) [] 0 = .ok [options] :=
    Scan.readLayers_encoding t ht (by simpa [maxLayers] using hc) (by simpa [maxLayerDepth] using hd)
      (Scan.resume_nil _ _)
  unfold scanEnvelope
  simp only [gt_iff_lt, Outcome.refuse_eq_ok, not_lt, Outcome.bind_eq_ok, Prod.exists,
    Scan.varint_eq_ok, Scan.take_eq_ok, ne_eq, not_and_or, not_not]
  refine ⟨hlen, 0, e ++ [options], ⟨version, hv, rfl⟩, rfl, [options], h, [options], [],
    ⟨rfl, rfl⟩, ?_, by simp⟩
  rcases ho with rfl | rfl <;> simp

/-- **The scan accepts exactly its grammar.** -/
theorem scan_envelope_iff (b : Bytes) : scanEnvelope b = .ok () ↔
    b.length ≤ 2 ^ 20 ∧ ∃ version e options, ∃ t : LayerProof, Varint 0 version ∧ t.EncodesTo e ∧
      t.count ≤ 1024 ∧ t.depth ≤ 64 ∧ (options = 0 ∨ options = 1) ∧ b = version ++ (e ++ [options]) := by
  refine ⟨fun h => ?_, fun h => ?_⟩
  · unfold scanEnvelope at h
    simp only [gt_iff_lt, Outcome.refuse_eq_ok, not_lt, Outcome.bind_eq_ok, Prod.exists,
      Scan.varint_eq_ok, Scan.take_eq_ok, ne_eq, not_and_or, not_not] at h
    obtain ⟨hlen, n, b1, ⟨v, hv, rfl⟩, rfl, w, hw, o, b2, ⟨-, rfl⟩, ho, hb2, -⟩ := h
    obtain ⟨t, e, b3, ht, rfl, hc, hd, h3⟩ := Scan.readLayers_sound hw
    rw [Scan.resume_nil, Except.ok.injEq] at h3
    obtain rfl : b2 = [] := by simpa using hb2
    have hc : t.count ≤ 1024 := by simpa [maxLayers] using hc
    have hd : t.depth ≤ 64 := by simpa [maxLayerDepth] using hd
    refine ⟨hlen, v, e, ?_⟩
    rcases ho with rfl | rfl
    · exact ⟨0, t, hv, ht, hc, hd, .inl rfl, by simp [h3]⟩
    · exact ⟨1, t, hv, ht, hc, hd, .inr rfl, by simp [h3]⟩
  · obtain ⟨hlen, v, e, o, t, hv, ht, hc, hd, ho, rfl⟩ := h
    exact scanEnvelope_encoding hv ht hc hd ho hlen

end Grove
end WillowSdk
