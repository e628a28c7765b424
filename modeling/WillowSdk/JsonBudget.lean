/-
# How much JSON an answer may hold

`check_json` (src/http_body.rs): one pass over an answer's bytes that counts
the values it holds, before any of it is decoded. The pass knows no grammar:
it skips strings, runs of scalar bytes and all else a byte at a time.
-/
import WillowSdk.HttpBody

namespace WillowSdk
namespace JsonBudget

/-- The most an answer decoded into JSON values may hold, in units. -/
def maxValues : ℕ := 1 <<< 21

/-- What an array or object costs. -/
def containerCost : ℕ := 8

/-- How many numbers under a top-level `proof` cost one unit. -/
def proofNumbersPerUnit : ℕ := 16

/-- Which numbers in an answer cost less than a unit. -/
inductive Budget
  | full
  | underProof
deriving DecidableEq, Repr

/-- What the pass has counted so far. -/
structure Scan where
  units : ℕ
  depth : ℕ
  cheap : ℕ
  underProof : Bool
deriving DecidableEq, Repr

def Scan.start : Scan := ⟨0, 0, 0, false⟩

def Scan.add (s : Scan) (n : ℕ) : Scan := { s with units := s.units + n }

/-- A number under the proof. -/
def Scan.countCheap (s : Scan) : Scan :=
  if s.cheap + 1 = proofNumbersPerUnit then { s with units := s.units + 1, cheap := 0 }
  else { s with cheap := s.cheap + 1 }

def Scan.countNumber (s : Scan) : Scan := if s.underProof then s.countCheap else s.add 1

def isScalarByte (c : UInt8) : Bool :=
  (0x30 ≤ c ∧ c ≤ 0x39 ∨ 0x41 ≤ c ∧ c ≤ 0x5A ∨ 0x61 ≤ c ∧ c ≤ 0x7A) ∨
    c = 0x2E ∨ c = 0x2B ∨ c = 0x2D

/-- The string that starts the data, up to its closing quote, and the data
from that quote on. -/
def skipString : Bytes → Bytes × Bytes
  | [] => ([], [])
  | b :: rest =>
    if b = 0x22 then ([], b :: rest)
    else if b = 0x5C then
      match rest with
      | [] => ([b], [])
      | escaped :: rest => (b :: escaped :: (skipString rest).1, (skipString rest).2)
    else (b :: (skipString rest).1, (skipString rest).2)

def skipScalar : Bytes → Bytes
  | [] => []
  | b :: rest => if isScalarByte b then skipScalar rest else b :: rest

def skipBlanks : Bytes → Bytes
  | [] => []
  | b :: rest =>
    if b = 0x20 ∨ b = 0x09 ∨ b = 0x0A ∨ b = 0x0D then skipBlanks rest else b :: rest

/-- Whether the data is a colon and then an array or object, white space aside. -/
def opensContainerAfterColon (data : Bytes) : Bool :=
  match skipBlanks data with
  | [] => false
  | b :: rest =>
    if b = 0x3A then
      match skipBlanks rest with
      | [] => false
      | c :: _ => c = 0x5B ∨ c = 0x7B
    else false

def proofKey : Bytes := "proof".toUTF8.toList

/-- One iteration of the pass, at the byte `b`: what it has counted then, and
the bytes it goes on with. -/
def scanToken (budget : Budget) (s : Scan) (b : UInt8) (rest : Bytes) : Scan × Bytes :=
  if b = 0x22 then
    let (string, rest) := skipString rest
    let rest := rest.drop 1
    if budget = .underProof ∧ s.depth = 1 ∧ string = proofKey ∧
        opensContainerAfterColon rest = true then
      ({ s with units := s.units + 1, underProof := true }, rest)
    else (s.add 1, rest)
  else if b = 0x5B ∨ b = 0x7B then
    ({ s with units := s.units + containerCost, depth := s.depth + 1 }, rest)
  else if b = 0x5D ∨ b = 0x7D then
    let depth := s.depth - 1
    ({ s with depth := depth, underProof := if depth ≤ 1 then false else s.underProof }, rest)
  else if b = 0x2D ∨ 0x30 ≤ b ∧ b ≤ 0x39 then (s.countNumber, skipScalar rest)
  else if 0x61 ≤ b ∧ b ≤ 0x7A then (s.add 1, skipScalar rest)
  else (s, rest)

theorem skipString_length_le (data : Bytes) : (skipString data).2.length ≤ data.length := by
  fun_induction skipString data with
  | case1 => exact Nat.le_refl _
  | case2 => exact Nat.le_refl _
  | case3 => exact Nat.zero_le _
  | case4 =>
    simp only [List.length_cons]
    omega
  | case5 =>
    simp only [List.length_cons]
    omega

theorem skipScalar_length_le (data : Bytes) : (skipScalar data).length ≤ data.length := by
  induction data with
  | nil => exact le_rfl
  | cons b rest ih =>
    unfold skipScalar
    split
    · exact Nat.le_succ_of_le ih
    · exact le_rfl

/-- An iteration goes past the byte it is at. -/
theorem scanToken_length_lt (budget : Budget) (s : Scan) (b : UInt8) (rest : Bytes) :
    (scanToken budget s b rest).2.length < (b :: rest).length := by
  have hstring := skipString_length_le rest
  have hscalar := skipScalar_length_le rest
  unfold scanToken
  simp only [List.length_cons]
  split_ifs <;> simp only [List.length_drop] <;> omega

/-- The rest of the pass: whether the units stay within `max`. -/
def scanFrom (budget : Budget) (max : ℕ) (s : Scan) : Bytes → Bool
  | [] => true
  | b :: rest =>
    if (scanToken budget s b rest).1.units > max then false
    else scanFrom budget max (scanToken budget s b rest).1 (scanToken budget s b rest).2
termination_by data => data.length
decreasing_by exact scanToken_length_lt budget s b rest

/-- Whether the data holds at most `max` units. -/
def scanUnits (data : Bytes) (max : ℕ) (budget : Budget) : Bool :=
  scanFrom budget max .start data

def checkJsonWithin (data : Bytes) (max : ℕ) (budget : Budget) : Result Unit :=
  if scanUnits data max budget then .ok () else .error (.responseTooComplex max)

def checkJson (data : Bytes) (budget : Budget) : Result Unit :=
  checkJsonWithin data maxValues budget

/-! ### The pass without its early end -/

variable {budget : Budget} {s : Scan} {tail : Bytes}

/-- The counts at the end of the data. -/
def scanAll (budget : Budget) (s : Scan) : Bytes → Scan
  | [] => s
  | b :: rest => scanAll budget (scanToken budget s b rest).1 (scanToken budget s b rest).2
termination_by data => data.length
decreasing_by exact scanToken_length_lt budget s b rest

theorem scanAll_nil : scanAll budget s [] = s := by rw [scanAll]

theorem scanAll_of_token {s' : Scan} {b : UInt8} {rest rest' : Bytes}
    (h : scanToken budget s b rest = (s', rest')) :
    scanAll budget s (b :: rest) = scanAll budget s' rest' := by rw [scanAll, h]

theorem units_le_countNumber : s.units ≤ s.countNumber.units := by
  unfold Scan.countNumber Scan.countCheap Scan.add
  split_ifs
  · exact Nat.le_succ _
  · exact Nat.le_refl _
  · exact Nat.le_succ _

theorem units_le_scanToken (b : UInt8) (rest : Bytes) :
    s.units ≤ (scanToken budget s b rest).1.units := by
  have hnumber := units_le_countNumber (s := s)
  unfold scanToken
  simp only
  split_ifs <;> simp only [Scan.add] <;> omega

theorem units_le_scanAll (budget : Budget) (s : Scan) (data : Bytes) :
    s.units ≤ (scanAll budget s data).units := by
  fun_induction scanAll budget s data with
  | case1 => exact Nat.le_refl _
  | case2 s b rest ih => exact Nat.le_trans (units_le_scanToken b rest) ih

/-- Ending the pass early changes nothing: the units never decrease. -/
theorem scanFrom_eq (budget : Budget) (max : ℕ) (s : Scan) (data : Bytes) (hs : s.units ≤ max) :
    scanFrom budget max s data = decide ((scanAll budget s data).units ≤ max) := by
  fun_induction scanFrom budget max s data with
  | case1 s => simp [scanAll_nil, hs]
  | case2 s b rest hover =>
    have hle := units_le_scanAll budget (scanToken budget s b rest).1 (scanToken budget s b rest).2
    rw [scanAll, eq_comm, decide_eq_false_iff_not]
    omega
  | case3 s b rest hwithin ih =>
    rw [scanAll]
    exact ih (Nat.not_lt.mp hwithin)

/-- A token costs at most what an array or object does. -/
theorem scanToken_units_le (b : UInt8) (rest : Bytes) :
    (scanToken budget s b rest).1.units ≤ s.units + containerCost := by
  have hnumber : s.countNumber.units ≤ s.units + 1 := by
    unfold Scan.countNumber Scan.countCheap Scan.add
    split_ifs
    · exact Nat.le_refl _
    · exact Nat.le_succ _
    · exact Nat.le_refl _
  unfold scanToken containerCost
  simp only
  split_ifs <;> simp only [Scan.add] <;> omega

theorem scanAll_units_le (budget : Budget) (s : Scan) (data : Bytes) :
    (scanAll budget s data).units ≤ s.units + containerCost * data.length := by
  fun_induction scanAll budget s data with
  | case1 => exact Nat.le_add_right _ _
  | case2 s b rest ih =>
    have htoken : (scanToken budget s b rest).1.units ≤ s.units + containerCost :=
      scanToken_units_le b rest
    have hrest := scanToken_length_lt budget s b rest
    have hmul : containerCost * (scanToken budget s b rest).2.length + containerCost ≤
        containerCost * (b :: rest).length := by
      rw [← Nat.mul_succ]
      exact Nat.mul_le_mul_left _ hrest
    omega

/-- A short answer is not too complex, whatever it holds. -/
theorem checkJson_of_short {data : Bytes} (h : containerCost * data.length ≤ maxValues) :
    checkJson data budget = .ok () := by
  have hall := scanAll_units_le budget .start data
  have hnone : Scan.start.units = 0 := rfl
  have hunits : (scanAll budget .start data).units ≤ maxValues := by omega
  unfold checkJson checkJsonWithin scanUnits
  rw [scanFrom_eq _ _ _ _ (Nat.zero_le _), decide_eq_true hunits]
  rfl

end JsonBudget
end WillowSdk
