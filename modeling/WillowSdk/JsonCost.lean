/-
# The JSON budget is exact

At the top level a key may start a proof, whose numbers cost less. With what
the pass counts there, a text is accepted exactly when its `cost` is within
the limit (`json_budget_is_exact`).
-/
import WillowSdk.JsonScan

namespace WillowSdk
namespace JsonBudget

open JsonText

/-! ### What a text costs -/

/-- The numbers in the arrays and objects that are members' values under a
key spelled `proof`. -/
def proofNumbersOf : Members → ℕ
  | .last _ key _ _ value _ =>
    if key.bytes = proofKey ∧ value.isContainer = true then value.numbers else 0
  | .more _ key _ _ value _ rest =>
    (if key.bytes = proofKey ∧ value.isContainer = true then value.numbers else 0) +
      proofNumbersOf rest

/-- The numbers under the proof of a text: it is a member of a top-level object. -/
def proofNumbers (t : Text) : ℕ :=
  match t.value with
  | .object members => proofNumbersOf members
  | _ => 0

/-- What the strings, keys, literals, arrays and objects of a value cost. -/
def others (v : Value) : ℕ := v.words + containerCost * v.containers

def cost (t : Text) : Budget → ℕ
  | .full => others t.value + t.value.numbers
  | .underProof =>
    others t.value + (t.value.numbers - proofNumbers t) + proofNumbers t / proofNumbersPerUnit

variable {budget : Budget} {s : Scan} {tail : Bytes}

/-! ### The top level

Between the outermost brackets the depth is 1, and a key may start a proof.
What is inside a container there is inside the top level. -/

theorem opened_inside (hdepth : s.depth = 1) : Inside budget s.opened := by
  have h : 2 ≤ s.opened.depth := by
    show 2 ≤ s.depth + 1
    omega
  exact ⟨fun _ => h, fun _ => h⟩

/-- Leaving a container for the top level leaves the proof. -/
theorem closed_charge_top (hdepth : s.depth = 1) (a n : ℕ) :
    (s.opened.charge a n).closed =
      { s.charge (a + containerCost) n with underProof := false } := by
  have hle : (s.charge a n).depth ≤ 1 := by
    rw [charge_depth, hdepth]
  rw [charge_opened, closed_opened, if_pos hle, add_eq_charge, charge_charge]
  rfl

/-- An array or object that a key or an element is at the top level. -/
theorem scanAll_container_top {v : Value} (hv : v.isContainer = true) (hdepth : s.depth = 1) :
    scanAll budget s (v.bytes ++ tail) = scanAll budget
      { s.charge (v.words + containerCost * v.containers) v.numbers with underProof := false }
      tail := by
  rw [scanAll_container v hv (opened_inside hdepth), closed_charge_top hdepth, cost_of_container hv]

theorem countNumber_of_outside (hproof : s.underProof = false) : s.countNumber = s.add 1 := by
  rw [Scan.countNumber, hproof]
  rfl

theorem charge_of_outside (hproof : s.underProof = false) (a n : ℕ) :
    s.charge a n = s.add (a + n) := by
  induction n generalizing s with
  | zero => rfl
  | succ n ih =>
    show (s.countNumber).charge a n = s.add (a + (n + 1))
    have hadd : (s.add 1).underProof = false := hproof
    rw [countNumber_of_outside hproof, ih hadd]
    unfold Scan.add
    simp only [Nat.add_assoc, Nat.add_comm 1]

/-- A value at the top level that is no container after the key of a proof. -/
theorem scanAll_value_top (v : Value) (hdepth : s.depth = 1) (hproof : s.underProof = false)
    (htail : Stops tail) (hcolon : opensContainerAfterColon tail = false) :
    scanAll budget s (v.bytes ++ tail) =
      scanAll budget (s.add (v.words + containerCost * v.containers + v.numbers)) tail := by
  rw [← charge_of_outside hproof]
  cases hv : v.isContainer with
  | true =>
    rw [scanAll_container_top hv hdepth]
    congr 1
    have hout : (s.charge (v.words + containerCost * v.containers) v.numbers).underProof = false :=
      (charge_underProof _ _).trans hproof
    rw [← hout]
  | false =>
    cases v with
    | literal l => exact scanAll_literal l htail
    | number n => exact scanAll_number n htail
    | string str =>
      apply scanAll_string
      intro hstarts
      have hopens := hstarts.2.2.2
      rw [hcolon] at hopens
      cases hopens
    | emptyArray blanks => cases hv
    | emptyObject blanks => cases hv
    | array elements => cases hv
    | object members => cases hv

/-! #### What is after a colon -/

theorem skipBlanks_blanks (blanks : List Blank) :
    skipBlanks (blankBytes blanks ++ tail) = skipBlanks tail := by
  induction blanks with
  | nil => rfl
  | cons blank blanks ih =>
    rw [← ih]
    cases blank <;> rfl

theorem opensContainer_of_noColon (blanks : List Blank) {b : UInt8}
    (hb : b = 0x2C ∨ b = 0x5D ∨ b = 0x7D) :
    opensContainerAfterColon (blankBytes blanks ++ b :: tail) = false := by
  rw [opensContainerAfterColon, skipBlanks_blanks]
  rcases hb with rfl | rfl | rfl <;> rfl

/-- A value starts with a byte that isn't white space, a bracket if it is a
container. -/
theorem value_bytes_eq (v : Value) : ∃ first rest, v.bytes = first :: rest ∧
    ¬ (first = 0x20 ∨ first = 0x09 ∨ first = 0x0A ∨ first = 0x0D) ∧
    (decide (first = 0x5B ∨ first = 0x7B)) = v.isContainer := by
  cases v with
  | literal l => cases l <;> exact ⟨_, _, rfl, by decide, by decide⟩
  | number n =>
    obtain ⟨first, rest, hbytes, hfirst, -⟩ := n.bytes_eq
    refine ⟨first, rest, hbytes, ?_, ?_⟩
    · rintro (rfl | rfl | rfl | rfl) <;> revert hfirst <;> decide
    · rw [Value.isContainer, decide_eq_false_iff_not]
      rintro (rfl | rfl) <;> revert hfirst <;> decide
  | string str => exact ⟨_, _, rfl, by decide, rfl⟩
  | emptyArray blanks => exact ⟨_, _, rfl, by decide, rfl⟩
  | emptyObject blanks => exact ⟨_, _, rfl, by decide, rfl⟩
  | array elements => exact ⟨0x5B, elements.bytes ++ [0x5D], by rw [Value.bytes], by decide, rfl⟩
  | object members => exact ⟨0x7B, members.bytes ++ [0x7D], by rw [Value.bytes], by decide, rfl⟩

theorem opensContainer_eq (afterKey beforeValue : List Blank) (v : Value) :
    opensContainerAfterColon
      (blankBytes afterKey ++ 0x3A :: (blankBytes beforeValue ++ (v.bytes ++ tail))) =
        v.isContainer := by
  obtain ⟨first, rest, hbytes, hblank, hcontainer⟩ := value_bytes_eq v
  have hcolon : skipBlanks (0x3A :: (blankBytes beforeValue ++ (v.bytes ++ tail))) =
      0x3A :: (blankBytes beforeValue ++ (v.bytes ++ tail)) := rfl
  have hfirst : skipBlanks (v.bytes ++ tail) = first :: (rest ++ tail) := by
    rw [hbytes, List.cons_append, skipBlanks, if_neg hblank]
  rw [opensContainerAfterColon, skipBlanks_blanks, hcolon]
  simp only [if_true, skipBlanks_blanks, hfirst]
  exact hcontainer

/-! #### The members of the top-level object -/

theorem scanAll_elements_top (es : Elements) {s : Scan} (hdepth : s.depth = 1)
    (hproof : s.underProof = false) :
    scanAll budget s (es.bytes ++ 0x5D :: tail) =
      scanAll budget (s.add (es.words + containerCost * es.containers + es.numbers))
        (0x5D :: tail) := by
  cases es with
  | last before value after =>
    simp only [Elements.bytes, List.append_assoc]
    rw [scanAll_blanks, scanAll_value_top value hdepth hproof (stops_blanks after (stops_cons rfl))
      (opensContainer_of_noColon after (.inr (.inl rfl))), scanAll_blanks]
    rfl
  | more before value after rest =>
    have hdepth' : ∀ n, (s.add n).depth = 1 := fun _ => hdepth
    have hproof' : ∀ n, (s.add n).underProof = false := fun _ => hproof
    simp only [Elements.bytes, List.append_assoc, List.cons_append]
    rw [scanAll_blanks, scanAll_value_top value hdepth hproof (stops_blanks after (stops_cons rfl))
      (opensContainer_of_noColon after (.inl rfl)), scanAll_blanks, scanAll_comma,
      scanAll_elements_top rest (hdepth' _) (hproof' _)]
    simp only [Elements.words, Elements.containers, Elements.numbers, Nat.mul_add, Scan.add,
      Nat.add_assoc]
    congr 2
    omega
termination_by structural es

/-- What members of the top-level object come to, `p` numbers of them under a
proof. -/
def Scan.chargeTop (s : Scan) (a p : ℕ) : Scan := (Scan.countCheap^[p] s).add a

theorem countCheap_add (n : ℕ) : (s.add n).countCheap = s.countCheap.add n := by
  unfold Scan.countCheap Scan.add
  split_ifs <;> simp only [Nat.add_right_comm]

theorem countCheap_depth : s.countCheap.depth = s.depth := by
  unfold Scan.countCheap
  split_ifs <;> rfl

theorem countCheap_underProof : s.countCheap.underProof = s.underProof := by
  unfold Scan.countCheap
  split_ifs <;> rfl

theorem chargeTop_chargeTop (a b n m : ℕ) :
    (s.chargeTop a n).chargeTop b m = s.chargeTop (a + b) (n + m) :=
  iterate_add_iterate_add (fun _ n => countCheap_add n) a b n m

theorem chargeTop_add (a b n : ℕ) : (s.add a).chargeTop b n = s.chargeTop (a + b) n := by
  have hnone : (s.chargeTop a 0).chargeTop b n = s.chargeTop (a + b) (0 + n) :=
    chargeTop_chargeTop a b 0 n
  rw [Nat.zero_add] at hnone
  exact hnone

theorem chargeTop_depth (a n : ℕ) : (s.chargeTop a n).depth = s.depth :=
  congrFun (Function.iterate_invariant (funext fun _ => countCheap_depth) n) s

theorem chargeTop_underProof (a n : ℕ) : (s.chargeTop a n).underProof = s.underProof :=
  congrFun (Function.iterate_invariant (funext fun _ => countCheap_underProof) n) s

/-- Going under a proof and leaving it again. -/
theorem charge_proof (hproof : s.underProof = false) (a n : ℕ) :
    { ({ s with underProof := true } : Scan).charge a n with underProof := false } =
      s.chargeTop a n := by
  induction n generalizing s with
  | zero =>
    show ({ s.add a with underProof := false } : Scan) = s.add a
    unfold Scan.add
    rw [hproof]
  | succ n ih =>
    have hcheap : s.countCheap.underProof = false := countCheap_underProof.trans hproof
    have hcount : ({ s with underProof := true } : Scan).countNumber =
        { s.countCheap with underProof := true } := by
      unfold Scan.countNumber Scan.countCheap
      rw [if_pos rfl]
      split_ifs <;> rfl
    show { (({ s with underProof := true } : Scan).countNumber).charge a n with underProof := false } =
      (s.countCheap).chargeTop a n
    rw [hcount]
    exact ih hcheap

/-- The numbers of one member that are under the proof. -/
def proofNumbersIn (key : Spelling) (value : Value) : ℕ :=
  if key.bytes = proofKey ∧ value.isContainer = true then value.numbers else 0

theorem proofNumbersIn_le (key : Spelling) (value : Value) :
    proofNumbersIn key value ≤ value.numbers := by
  unfold proofNumbersIn
  split_ifs
  · exact Nat.le_refl _
  · exact Nat.zero_le _

theorem proofNumbersOf_le (ms : Members) : proofNumbersOf ms ≤ ms.numbers := by
  cases ms with
  | last before key afterKey beforeValue value after => exact proofNumbersIn_le key value
  | more before key afterKey beforeValue value after rest =>
    exact Nat.add_le_add (proofNumbersIn_le key value) (proofNumbersOf_le rest)
termination_by structural ms

/-- One member of the top-level object. -/
theorem scanAll_member_top (key : Spelling) (afterKey beforeValue : List Blank) (value : Value)
    (after : List Blank) {b : UInt8} (hb : b = 0x2C ∨ b = 0x7D) (hdepth : s.depth = 1)
    (hproof : s.underProof = false) :
    scanAll .underProof s (quoted key ++ (blankBytes afterKey ++
        0x3A :: (blankBytes beforeValue ++ (value.bytes ++ (blankBytes after ++ b :: tail))))) =
      scanAll .underProof
        (s.chargeTop (1 + value.words + containerCost * value.containers +
          (value.numbers - proofNumbersIn key value)) (proofNumbersIn key value)) (b :: tail) := by
  have hstops : Stops (blankBytes after ++ b :: tail) := by
    apply stops_blanks
    apply stops_cons
    rcases hb with rfl | rfl <;> rfl
  have hcolon : opensContainerAfterColon (blankBytes after ++ b :: tail) = false :=
    opensContainer_of_noColon after (hb.imp_right .inr)
  by_cases hkey : key.bytes = proofKey ∧ value.isContainer = true
  · have hin : proofNumbersIn key value = value.numbers := if_pos hkey
    have hunder : ({ s with units := s.units + 1, underProof := true } : Scan).depth = 1 := hdepth
    have hadd : (s.add 1).underProof = false := hproof
    have hsum : s.chargeTop (1 + value.words + containerCost * value.containers + 0) value.numbers =
        (s.add 1).chargeTop (value.words + containerCost * value.containers) value.numbers := by
      rw [chargeTop_add, Nat.add_zero, Nat.add_assoc]
    rw [scanAll_proofKey ⟨rfl, hdepth, hkey.1, (opensContainer_eq ..).trans hkey.2⟩, scanAll_blanks,
      scanAll_colon, scanAll_blanks, scanAll_container_top hkey.2 hunder, scanAll_blanks, hin,
      Nat.sub_self, hsum, ← charge_proof hadd]
    rfl
  · have hin : proofNumbersIn key value = 0 := if_neg hkey
    have hstarts : ∀ tail', opensContainerAfterColon tail' = value.isContainer →
        ¬ StartsProof .underProof s key tail' :=
      fun _ hopens h => hkey ⟨h.2.2.1, hopens.symm.trans h.2.2.2⟩
    have hdepth' : (s.add 1).depth = 1 := hdepth
    have hadd : (s.add 1).underProof = false := hproof
    rw [scanAll_string (hstarts _ (opensContainer_eq ..)), scanAll_blanks, scanAll_colon,
      scanAll_blanks, scanAll_value_top value hdepth' hadd hstops hcolon, scanAll_blanks, hin]
    show scanAll _ ((s.add 1).add _) _ = scanAll _ (s.add _) _
    simp only [Scan.add, Nat.sub_zero, Nat.add_assoc]

theorem scanAll_members_top (ms : Members) {s : Scan} (hdepth : s.depth = 1)
    (hproof : s.underProof = false) :
    scanAll .underProof s (ms.bytes ++ 0x7D :: tail) =
      scanAll .underProof
        (s.chargeTop (ms.words + containerCost * ms.containers + (ms.numbers - proofNumbersOf ms))
          (proofNumbersOf ms)) (0x7D :: tail) := by
  cases ms with
  | last before key afterKey beforeValue value after =>
    simp only [Members.bytes, List.append_assoc, List.cons_append]
    rw [scanAll_blanks,
      scanAll_member_top key afterKey beforeValue value after (.inr rfl) hdepth hproof]
    rfl
  | more before key afterKey beforeValue value after rest =>
    simp only [Members.bytes, List.append_assoc, List.cons_append]
    rw [scanAll_blanks,
      scanAll_member_top key afterKey beforeValue value after (.inl rfl) hdepth hproof,
      scanAll_comma, scanAll_members_top rest ((chargeTop_depth ..).trans hdepth)
        ((chargeTop_underProof ..).trans hproof), chargeTop_chargeTop]
    have hvalue := proofNumbersIn_le key value
    have hrest := proofNumbersOf_le rest
    have hof : proofNumbersOf (.more before key afterKey beforeValue value after rest) =
        proofNumbersIn key value + proofNumbersOf rest := rfl
    rw [hof]
    simp only [Members.words, Members.containers, Members.numbers, Nat.mul_add]
    congr 2
    omega

/-! ### The budget -/

theorem countCheap_units (n : ℕ) (hcheap : s.cheap < proofNumbersPerUnit) :
    (Scan.countCheap^[n] s).units = s.units + (s.cheap + n) / proofNumbersPerUnit := by
  induction n generalizing s with
  | zero =>
    rw [Nat.add_zero, Nat.div_eq_of_lt hcheap]
    rfl
  | succ n ih =>
    rw [Function.iterate_succ_apply]
    unfold proofNumbersPerUnit at *
    by_cases hfull : s.cheap + 1 = 16
    · have hcount : s.countCheap = { s with units := s.units + 1, cheap := 0 } := if_pos hfull
      rw [hcount, ih (show 0 < 16 by decide)]
      show s.units + 1 + (0 + n) / 16 = s.units + (s.cheap + (n + 1)) / 16
      omega
    · have hcount : s.countCheap = { s with cheap := s.cheap + 1 } := if_neg hfull
      have hlt : s.cheap + 1 < 16 := by omega
      rw [hcount, ih hlt]
      show s.units + (s.cheap + 1 + n) / 16 = s.units + (s.cheap + (n + 1)) / 16
      omega

theorem cost_of_no_proof {t : Text} (h : proofNumbers t = 0) :
    cost t .underProof = others t.value + t.value.numbers := by
  rw [cost, h]
  rfl

theorem start_inside : Inside .full .start := ⟨nofun, nofun⟩

/-- The white space after a text's value. -/
theorem scanAll_after (after : List Blank) : scanAll budget s (blankBytes after) = s := by
  have h : scanAll budget s (blankBytes after ++ []) = scanAll budget s [] := scanAll_blanks after
  rwa [List.append_nil, scanAll_nil] at h

theorem stops_after (after : List Blank) : Stops (blankBytes after) := by
  have h : Stops (blankBytes after ++ []) := stops_blanks after nofun
  rwa [List.append_nil] at h

/-- The pass counts a text's cost where every number costs one. -/
theorem scanAll_full (t : Text) : (scanAll .full .start t.bytes).units = cost t .full := by
  obtain ⟨before, value, after⟩ := t
  rw [Text.bytes, List.append_assoc, scanAll_blanks,
    scanAll_value value start_inside (stops_after after), scanAll_after, charge_of_outside rfl]
  exact Nat.zero_add _

/-- A text that is no object has no proof. -/
theorem scanAll_noObject (v : Value) (after : List Blank) (hv : ∀ members, v ≠ .object members) :
    (scanAll .underProof .start (v.bytes ++ blankBytes after)).units = others v + v.numbers := by
  have hstops : Stops (blankBytes after) := stops_after after
  have hnoKey : ∀ str tail, ¬ StartsProof .underProof .start str tail :=
    fun _ _ h => absurd h.2.1 (by decide)
  cases v with
  | literal l =>
    rw [Value.bytes, scanAll_literal l hstops, scanAll_after]
    rfl
  | number n =>
    rw [Value.bytes, scanAll_number n hstops, scanAll_after]
    rfl
  | string str =>
    rw [Value.bytes, scanAll_string (hnoKey str _), scanAll_after]
    rfl
  | emptyArray blanks =>
    have hin : scanAll .underProof Scan.start.opened
        (blankBytes blanks ++ 0x5D :: blankBytes after) =
          scanAll .underProof (Scan.start.opened.charge 0 0) (0x5D :: blankBytes after) :=
      scanAll_blanks blanks
    rw [Value.bytes, scanAll_bracketed (.inl rfl) (.inl rfl) hin, scanAll_after]
    rfl
  | emptyObject blanks =>
    have hin : scanAll .underProof Scan.start.opened
        (blankBytes blanks ++ 0x7D :: blankBytes after) =
          scanAll .underProof (Scan.start.opened.charge 0 0) (0x7D :: blankBytes after) :=
      scanAll_blanks blanks
    rw [Value.bytes, scanAll_bracketed (.inr rfl) (.inr rfl) hin, scanAll_after]
    rfl
  | array elements =>
    have hin : scanAll .underProof Scan.start.opened (elements.bytes ++ 0x5D :: blankBytes after) =
        scanAll .underProof (Scan.start.opened.charge
          (elements.words + containerCost * elements.containers + elements.numbers) 0)
          (0x5D :: blankBytes after) := scanAll_elements_top elements rfl rfl
    rw [Value.bytes, scanAll_bracketed (.inl rfl) (.inl rfl) hin, scanAll_after]
    show 0 + containerCost + (elements.words + containerCost * elements.containers +
      elements.numbers) = elements.words + containerCost * (1 + elements.containers) +
        elements.numbers
    rw [Nat.mul_add]
    omega
  | object members => exact absurd rfl (hv members)

theorem scanAll_object (members : Members) (after : List Blank) :
    (scanAll .underProof .start (Value.bytes (.object members) ++ blankBytes after)).units =
      others (.object members) + (members.numbers - proofNumbersOf members) +
        proofNumbersOf members / proofNumbersPerUnit := by
  have hchars : Value.bytes (.object members) ++ blankBytes after =
      0x7B :: (members.bytes ++ 0x7D :: blankBytes after) := by simp [Value.bytes]
  rw [hchars, scanAll_open (.inr rfl), scanAll_members_top members rfl rfl,
    scanAll_close (.inr rfl), scanAll_after]
  show (Scan.countCheap^[proofNumbersOf members] Scan.start.opened).units + _ = _
  rw [countCheap_units _ (by decide)]
  show 0 + containerCost + (0 + proofNumbersOf members) / proofNumbersPerUnit +
    (members.words + containerCost * members.containers +
      (members.numbers - proofNumbersOf members)) =
    members.words + containerCost * (1 + members.containers) +
      (members.numbers - proofNumbersOf members) + proofNumbersOf members / proofNumbersPerUnit
  rw [Nat.mul_add, Nat.zero_add (proofNumbersOf members)]
  omega

/-- And where those under the proof cost a sixteenth. -/
theorem scanAll_underProof (t : Text) :
    (scanAll .underProof .start t.bytes).units = cost t .underProof := by
  obtain ⟨before, value, after⟩ := t
  rw [Text.bytes, List.append_assoc, scanAll_blanks]
  by_cases hobject : ∃ members, value = .object members
  · obtain ⟨members, rfl⟩ := hobject
    exact scanAll_object members after
  · have hv : ∀ members, value ≠ .object members := not_exists.mp hobject
    have hnone : proofNumbers ⟨before, value, after⟩ = 0 := by
      cases value with
      | object members => exact absurd rfl (hv members)
      | _ => rfl
    rw [scanAll_noObject value after hv, cost_of_no_proof hnone]

/-- **The JSON budget is exact.** Of the JSON texts, those are accepted that
cost at most `max`; any others are refused as too complex. And over any
bytes each iteration of the pass goes past a byte at least, so it ends. -/
theorem json_budget_is_exact (budget : Budget) (max : ℕ) :
    (∀ t : Text, checkJsonWithin t.bytes max budget =
      if cost t budget ≤ max then .ok () else .error (.responseTooComplex max)) ∧
    ∀ (s : Scan) (b : UInt8) (rest : Bytes),
      (scanToken budget s b rest).2.length < (b :: rest).length := by
  refine ⟨fun t => ?_, fun s b rest => scanToken_length_lt budget s b rest⟩
  have hcost : (scanAll budget .start t.bytes).units = cost t budget := by
    cases budget with
    | full => exact scanAll_full t
    | underProof => exact scanAll_underProof t
  rw [checkJsonWithin, scanUnits, scanFrom_eq budget max .start t.bytes (Nat.zero_le _), hcost]
  simp only [decide_eq_true_eq]

end JsonBudget
end WillowSdk
