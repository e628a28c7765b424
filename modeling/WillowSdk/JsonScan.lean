/-
# What the pass counts over a value

Over a JSON text the pass of `check_json` counts what the text's tree holds:
its strings, keys, literals, arrays and objects at once, its numbers one at
a time (`scanAll_value`, by the tree).
-/
import WillowSdk.Lib.JsonText
import WillowSdk.JsonBudget
import Mathlib.Logic.Function.Iterate

namespace WillowSdk
namespace JsonBudget

open JsonText

variable {budget : Budget} {s : Scan} {tail : Bytes}

/-! ### One token -/

/-- What follows doesn't go on with a number or literal. -/
def Stops (tail : Bytes) : Prop := ∀ b ∈ tail.head?, isScalarByte b = false

theorem isScalarByte_of {b : UInt8} (h : IsScalarByte b) : isScalarByte b = true := by
  unfold IsScalarByte IsDigit at h
  unfold isScalarByte
  rw [decide_eq_true_eq]
  tauto

theorem skipScalar_append {run : Bytes} (hrun : ∀ b ∈ run, IsScalarByte b) (htail : Stops tail) :
    skipScalar (run ++ tail) = tail := by
  induction run with
  | nil =>
    cases tail with
    | nil => rfl
    | cons b rest =>
      have hb : isScalarByte b = false := htail b rfl
      simp [skipScalar, hb]
  | cons b run ih =>
    obtain ⟨hb, hrun⟩ := List.forall_mem_cons.mp hrun
    rw [List.cons_append, skipScalar, if_pos (isScalarByte_of hb)]
    exact ih hrun

theorem scanAll_number (n : Number) (htail : Stops tail) :
    scanAll budget s (n.bytes ++ tail) = scanAll budget s.countNumber tail := by
  obtain ⟨first, rest, hbytes, hfirst, hrest⟩ := n.bytes_eq
  have hsign : first = 0x2D ∨ 0x30 ≤ first ∧ first ≤ 0x39 := hfirst
  have hquote : first ≠ 0x22 := by
    rintro rfl
    revert hsign
    decide
  have hopen : ¬ (first = 0x5B ∨ first = 0x7B) := by
    rintro (rfl | rfl) <;> revert hsign <;> decide
  have hclose : ¬ (first = 0x5D ∨ first = 0x7D) := by
    rintro (rfl | rfl) <;> revert hsign <;> decide
  rw [hbytes, List.cons_append]
  apply scanAll_of_token
  rw [scanToken, if_neg hquote, if_neg hopen, if_neg hclose, if_pos hsign,
    skipScalar_append hrest htail]

theorem scanAll_literal (l : Literal) (htail : Stops tail) :
    scanAll budget s (l.bytes ++ tail) = scanAll budget (s.add 1) tail := by
  obtain ⟨first, rest, hbytes, hfirst, hrest⟩ := l.bytes_eq
  have hquote : first ≠ 0x22 := by
    rintro rfl
    revert hfirst
    decide
  have hopen : ¬ (first = 0x5B ∨ first = 0x7B) := by
    rintro (rfl | rfl) <;> revert hfirst <;> decide
  have hclose : ¬ (first = 0x5D ∨ first = 0x7D) := by
    rintro (rfl | rfl) <;> revert hfirst <;> decide
  have hnumber : ¬ (first = 0x2D ∨ 0x30 ≤ first ∧ first ≤ 0x39) := by
    rintro (rfl | ⟨-, hdigit⟩)
    · revert hfirst
      decide
    · have hletter := hfirst.1
      rw [UInt8.le_iff_toNat_le] at hletter hdigit
      simp at hletter hdigit
      omega
  rw [hbytes, List.cons_append]
  apply scanAll_of_token
  rw [scanToken, if_neg hquote, if_neg hopen, if_neg hclose, if_neg hnumber, if_pos hfirst,
    skipScalar_append hrest htail]

/-- White space, commas and colons count for nothing. -/
theorem scanAll_blanks (blanks : List Blank) :
    scanAll budget s (blankBytes blanks ++ tail) = scanAll budget s tail := by
  induction blanks with
  | nil => rfl
  | cons blank blanks ih =>
    rw [← ih]
    show scanAll budget s (blank.byte :: (blankBytes blanks ++ tail)) = _
    apply scanAll_of_token
    cases blank <;> rfl

theorem scanAll_comma : scanAll budget s (0x2C :: tail) = scanAll budget s tail :=
  scanAll_of_token rfl

theorem scanAll_colon : scanAll budget s (0x3A :: tail) = scanAll budget s tail :=
  scanAll_of_token rfl

/-- A quote that is part of a string is escaped. -/
theorem skipString_bytes (str : Spelling) :
    skipString (str.bytes ++ 0x22 :: tail) = (str.bytes, 0x22 :: tail) := by
  have hplain : ∀ (b : UInt8) (rest : Bytes), b ≠ 0x22 → b ≠ 0x5C →
      skipString (b :: rest) = (b :: (skipString rest).1, (skipString rest).2) := by
    intro b rest hquote hslash
    rw [skipString.eq_def]
    simp only [hquote, hslash, if_false]
  have hhex : ∀ (d : HexDigit) (rest : Bytes),
      skipString (d.1 :: rest) = (d.1 :: (skipString rest).1, (skipString rest).2) := by
    rintro ⟨d, hd⟩ rest
    apply hplain <;> (rintro rfl; revert hd; decide)
  have hescape : ∀ (b : UInt8) (rest : Bytes), skipString (0x5C :: b :: rest) =
      (0x5C :: b :: (skipString rest).1, (skipString rest).2) := by
    intro b rest
    rfl
  induction str with
  | nil => cases tail <;> rfl
  | cons part str ih =>
    have hcons : Spelling.bytes (part :: str) = part.bytes ++ Spelling.bytes str := rfl
    rw [hcons, List.append_assoc]
    cases part with
    | plain b =>
      obtain ⟨b, -, hquote, hslash⟩ := b
      show skipString (b :: (Spelling.bytes str ++ 0x22 :: tail)) = (b :: Spelling.bytes str, _)
      rw [hplain b _ hquote hslash, ih]
    | escape e =>
      show skipString (0x5C :: e.byte :: (Spelling.bytes str ++ 0x22 :: tail)) =
        (0x5C :: e.byte :: Spelling.bytes str, _)
      rw [hescape, ih]
    | unicode a b c d =>
      show skipString (0x5C :: 0x75 :: a.1 :: b.1 :: c.1 :: d.1 ::
          (Spelling.bytes str ++ 0x22 :: tail)) =
        (0x5C :: 0x75 :: a.1 :: b.1 :: c.1 :: d.1 :: Spelling.bytes str, _)
      rw [hescape, hhex a, hhex b, hhex c, hhex d, ih]

/-- The pass takes this string for the key of a proof. -/
def StartsProof (budget : Budget) (s : Scan) (str : Spelling) (tail : Bytes) : Prop :=
  budget = .underProof ∧ s.depth = 1 ∧ str.bytes = proofKey ∧
    opensContainerAfterColon tail = true

theorem scanToken_string (str : Spelling) :
    scanToken budget s 0x22 (str.bytes ++ 0x22 :: tail) =
      if budget = .underProof ∧ s.depth = 1 ∧ str.bytes = proofKey ∧
          opensContainerAfterColon tail = true then
        ({ s with units := s.units + 1, underProof := true }, tail)
      else (s.add 1, tail) := by
  rw [scanToken, if_pos rfl, skipString_bytes]
  rfl

theorem quoted_append (str : Spelling) :
    quoted str ++ tail = 0x22 :: (str.bytes ++ 0x22 :: tail) := by
  simp [quoted]

theorem scanAll_string {str : Spelling} (h : ¬ StartsProof budget s str tail) :
    scanAll budget s (quoted str ++ tail) = scanAll budget (s.add 1) tail := by
  rw [quoted_append]
  apply scanAll_of_token
  unfold StartsProof at h
  rw [scanToken_string, if_neg h]

theorem scanAll_proofKey {str : Spelling} (h : StartsProof budget s str tail) :
    scanAll budget s (quoted str ++ tail) =
      scanAll budget { s with units := s.units + 1, underProof := true } tail := by
  rw [quoted_append]
  apply scanAll_of_token
  unfold StartsProof at h
  rw [scanToken_string, if_pos h]

/-! ### Charges

What a value adds to the counts: its `others` at once, its numbers one at a
time. -/

def Scan.charge (s : Scan) (others numbers : ℕ) : Scan :=
  (Scan.countNumber^[numbers] s).add others

def Scan.opened (s : Scan) : Scan :=
  { s with units := s.units + containerCost, depth := s.depth + 1 }

def Scan.closed (s : Scan) : Scan :=
  { s with depth := s.depth - 1, underProof := if s.depth - 1 ≤ 1 then false else s.underProof }

theorem scanAll_open {b : UInt8} (hb : b = 0x5B ∨ b = 0x7B) :
    scanAll budget s (b :: tail) = scanAll budget s.opened tail := by
  apply scanAll_of_token
  rcases hb with rfl | rfl <;> rfl

theorem scanAll_close {b : UInt8} (hb : b = 0x5D ∨ b = 0x7D) :
    scanAll budget s (b :: tail) = scanAll budget s.closed tail := by
  apply scanAll_of_token
  rcases hb with rfl | rfl <;> rfl

/-- What is between two brackets, from the pass over it. -/
theorem scanAll_bracketed {contents : Bytes} {a n : ℕ} {o c : UInt8} (ho : o = 0x5B ∨ o = 0x7B)
    (hc : c = 0x5D ∨ c = 0x7D)
    (hin : scanAll budget s.opened (contents ++ c :: tail) =
      scanAll budget (s.opened.charge a n) (c :: tail)) :
    scanAll budget s (o :: (contents ++ [c]) ++ tail) =
      scanAll budget (s.opened.charge a n).closed tail := by
  have hsplit : o :: (contents ++ [c]) ++ tail = o :: (contents ++ c :: tail) := by simp
  rw [hsplit, scanAll_open ho, hin, scanAll_close hc]

theorem countNumber_add (n : ℕ) : (s.add n).countNumber = s.countNumber.add n := by
  unfold Scan.countNumber Scan.countCheap Scan.add
  split_ifs <;> simp only [Nat.add_right_comm]

theorem countNumber_opened : s.opened.countNumber = s.countNumber.opened := by
  unfold Scan.countNumber Scan.countCheap Scan.add Scan.opened
  split_ifs <;> simp only [Nat.add_right_comm]

theorem countNumber_depth : s.countNumber.depth = s.depth := by
  unfold Scan.countNumber Scan.countCheap Scan.add
  split_ifs <;> rfl

theorem countNumber_underProof : s.countNumber.underProof = s.underProof := by
  unfold Scan.countNumber Scan.countCheap Scan.add
  split_ifs <;> rfl

theorem charge_depth (a n : ℕ) : (s.charge a n).depth = s.depth :=
  congrFun (Function.iterate_invariant (funext fun _ => countNumber_depth) n) s

theorem charge_underProof (a n : ℕ) : (s.charge a n).underProof = s.underProof :=
  congrFun (Function.iterate_invariant (funext fun _ => countNumber_underProof) n) s

theorem charge_opened (a n : ℕ) : s.opened.charge a n = (s.charge a n).opened := by
  have hcommute : Function.Commute Scan.countNumber Scan.opened := fun _ => countNumber_opened
  unfold Scan.charge
  rw [hcommute.iterate_left n s]
  unfold Scan.opened Scan.add
  simp only [Nat.add_right_comm]

/-- Counting one at a time waits for what is counted at once. -/
theorem iterate_add_iterate_add {count : Scan → Scan}
    (hcount : ∀ (s : Scan) (n : ℕ), count (s.add n) = (count s).add n) (a b n m : ℕ) :
    (count^[m] ((count^[n] s).add a)).add b = (count^[n + m] s).add (a + b) := by
  have hcommute : Function.Commute count fun s => s.add a := fun s => hcount s a
  calc (count^[m] ((count^[n] s).add a)).add b
      = ((count^[m] (count^[n] s)).add a).add b := by rw [hcommute.iterate_left m _]
    _ = (count^[n + m] s).add (a + b) := by
      rw [← Function.iterate_add_apply, Nat.add_comm m n]
      unfold Scan.add
      simp only [Nat.add_assoc]

/-- One value after another. -/
theorem charge_charge (a b n m : ℕ) : (s.charge a n).charge b m = s.charge (a + b) (n + m) :=
  iterate_add_iterate_add (fun _ n => countNumber_add n) a b n m

theorem add_eq_charge (n : ℕ) : s.add n = s.charge n 0 := rfl

/-! ### Inside the top level

Under a `proof`, or anywhere if every number costs one, the pass takes no
string for a key that starts a proof. -/

structure Inside (budget : Budget) (s : Scan) : Prop where
  noKey : budget = .underProof → 2 ≤ s.depth
  proof : s.underProof = true → 2 ≤ s.depth

theorem Inside.not_startsProof (h : Inside budget s) (str : Spelling) :
    ¬ StartsProof budget s str tail := by
  intro hstarts
  obtain ⟨hbudget, hdepth, -, -⟩ := hstarts
  have := h.noKey hbudget
  omega

theorem Inside.opened (h : Inside budget s) : Inside budget s.opened :=
  ⟨fun hb => Nat.le_succ_of_le (h.noKey hb), fun hp => Nat.le_succ_of_le (h.proof hp)⟩

theorem Inside.charge (h : Inside budget s) (a n : ℕ) : Inside budget (s.charge a n) where
  noKey hb := by
    rw [charge_depth]
    exact h.noKey hb
  proof hp := by
    rw [charge_underProof] at hp
    rw [charge_depth]
    exact h.proof hp

theorem closed_opened : s.opened.closed =
    { s.add containerCost with underProof := if s.depth ≤ 1 then false else s.underProof } := rfl

theorem Inside.closed_opened (h : Inside budget s) : s.opened.closed = s.add containerCost := by
  rw [JsonBudget.closed_opened]
  by_cases hp : s.underProof = true
  · have hdepth := h.proof hp
    rw [if_neg (by omega)]
    rfl
  · rw [Bool.not_eq_true] at hp
    rw [hp, ite_self]
    unfold Scan.add
    rw [hp]

/-- A container from its contents. -/
theorem Inside.closed_charge (h : Inside budget s) (a n : ℕ) :
    (s.opened.charge a n).closed = s.charge (a + containerCost) n := by
  rw [charge_opened, (h.charge a n).closed_opened, add_eq_charge, charge_charge]
  rfl

theorem stops_cons {b : UInt8} (hb : isScalarByte b = false) : Stops (b :: tail) := by
  intro c hc
  obtain rfl : b = c := Option.some.inj hc
  exact hb

theorem stops_blanks (blanks : List Blank) (htail : Stops tail) :
    Stops (blankBytes blanks ++ tail) := by
  cases blanks with
  | nil => exact htail
  | cons blank blanks => exact stops_cons (by cases blank <;> rfl)

theorem containers_pos {v : Value} (hv : v.isContainer = true) : 1 ≤ v.containers := by
  cases v with
  | literal l => cases hv
  | number n => cases hv
  | string str => cases hv
  | emptyArray blanks => exact Nat.le_refl _
  | emptyObject blanks => exact Nat.le_refl _
  | array elements => exact Nat.le_add_right _ _
  | object members => exact Nat.le_add_right _ _

theorem cost_of_container {v : Value} (hv : v.isContainer = true) :
    v.words + containerCost * (v.containers - 1) + containerCost =
      v.words + containerCost * v.containers := by
  rw [Nat.add_assoc, ← Nat.mul_succ, Nat.succ_eq_add_one, Nat.sub_add_cancel (containers_pos hv)]

mutual

/-- **The pass over a value counts what its tree holds.** -/
theorem scanAll_value (v : Value) {s : Scan} {tail : Bytes} (hs : Inside budget s)
    (htail : Stops tail) : scanAll budget s (v.bytes ++ tail) =
      scanAll budget (s.charge (v.words + containerCost * v.containers) v.numbers) tail := by
  cases hv : v.isContainer with
  | true =>
    rw [scanAll_container v hv hs.opened, hs.closed_charge, cost_of_container hv]
  | false =>
    cases v with
    | literal l => exact scanAll_literal l htail
    | number n => exact scanAll_number n htail
    | string str => exact scanAll_string (hs.not_startsProof str)
    | emptyArray blanks => cases hv
    | emptyObject blanks => cases hv
    | array elements => cases hv
    | object members => cases hv
termination_by (sizeOf v, 1)

/-- An array or object, wherever what it holds is inside. -/
theorem scanAll_container (v : Value) {s : Scan} {tail : Bytes} (hv : v.isContainer = true)
    (hs : Inside budget s.opened) : scanAll budget s (v.bytes ++ tail) =
      scanAll budget (s.opened.charge (v.words + containerCost * (v.containers - 1)) v.numbers).closed
        tail := by
  cases v with
  | literal l => cases hv
  | number n => cases hv
  | string str => cases hv
  | emptyArray blanks =>
    have hin : scanAll budget s.opened (blankBytes blanks ++ 0x5D :: tail) =
        scanAll budget (s.opened.charge 0 0) (0x5D :: tail) := scanAll_blanks blanks
    rw [Value.bytes, scanAll_bracketed (.inl rfl) (.inl rfl) hin]
    rfl
  | emptyObject blanks =>
    have hin : scanAll budget s.opened (blankBytes blanks ++ 0x7D :: tail) =
        scanAll budget (s.opened.charge 0 0) (0x7D :: tail) := scanAll_blanks blanks
    rw [Value.bytes, scanAll_bracketed (.inr rfl) (.inr rfl) hin]
    rfl
  | array elements =>
    have hin : scanAll budget s.opened (elements.bytes ++ 0x5D :: tail) = _ :=
      scanAll_elements elements hs (stops_cons rfl)
    rw [Value.bytes, scanAll_bracketed (.inl rfl) (.inl rfl) hin]
    simp only [Value.words, Value.containers, Value.numbers, Nat.add_sub_cancel_left]
  | object members =>
    have hin : scanAll budget s.opened (members.bytes ++ 0x7D :: tail) = _ :=
      scanAll_members members hs (stops_cons rfl)
    rw [Value.bytes, scanAll_bracketed (.inr rfl) (.inr rfl) hin]
    simp only [Value.words, Value.containers, Value.numbers, Nat.add_sub_cancel_left]
termination_by (sizeOf v, 0)

theorem scanAll_elements (es : Elements) {s : Scan} {tail : Bytes} (hs : Inside budget s)
    (htail : Stops tail) : scanAll budget s (es.bytes ++ tail) =
      scanAll budget (s.charge (es.words + containerCost * es.containers) es.numbers) tail := by
  cases es with
  | last before value after =>
    simp only [Elements.bytes, List.append_assoc]
    rw [scanAll_blanks, scanAll_value value hs (stops_blanks after htail), scanAll_blanks]
    rfl
  | more before value after rest =>
    simp only [Elements.bytes, List.append_assoc, List.cons_append]
    rw [scanAll_blanks, scanAll_value value hs (stops_blanks after (stops_cons rfl)), scanAll_blanks,
      scanAll_comma, scanAll_elements rest (hs.charge _ _) htail, charge_charge]
    simp only [Elements.words, Elements.containers, Elements.numbers, Nat.mul_add]
    congr 2
    omega
termination_by (sizeOf es, 0)

theorem scanAll_members (ms : Members) {s : Scan} {tail : Bytes} (hs : Inside budget s)
    (htail : Stops tail) : scanAll budget s (ms.bytes ++ tail) =
      scanAll budget (s.charge (ms.words + containerCost * ms.containers) ms.numbers) tail := by
  cases ms with
  | last before key afterKey beforeValue value after =>
    simp only [Members.bytes, List.append_assoc, List.cons_append]
    rw [scanAll_blanks, scanAll_string (hs.not_startsProof key), scanAll_blanks, scanAll_colon,
      scanAll_blanks, add_eq_charge, scanAll_value value (hs.charge _ _) (stops_blanks after htail),
      scanAll_blanks, charge_charge]
    simp only [Members.words, Members.containers, Members.numbers, Nat.zero_add, Nat.add_assoc]
  | more before key afterKey beforeValue value after rest =>
    simp only [Members.bytes, List.append_assoc, List.cons_append]
    rw [scanAll_blanks, scanAll_string (hs.not_startsProof key), scanAll_blanks, scanAll_colon,
      scanAll_blanks, add_eq_charge,
      scanAll_value value (hs.charge _ _) (stops_blanks after (stops_cons rfl)), scanAll_blanks,
      scanAll_comma, charge_charge, scanAll_members rest (hs.charge _ _) htail, charge_charge]
    simp only [Members.words, Members.containers, Members.numbers, Nat.zero_add, Nat.mul_add]
    congr 2
    omega
termination_by (sizeOf ms, 0)

end

end JsonBudget
end WillowSdk
