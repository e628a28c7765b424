/-
# A refusal is charged to the nonce it names

`refusalOutcome` finds the nonce in the log's free text by prefix and by
suffix. Either one writes the nonce between two separators that no decimal
number holds, so it names one nonce (`ofNonce_inj`, `invalid_inj`,
`spent_inj`). What is left is the seam between the node's own words and a
text after or before them: the suffix begins with the one parenthesis that
those words lack (`Text.prefix_of_not_mem`, `Text.suffix_of_not_mem`).
-/
import WillowSdk.Nonces
import WillowSdk.Lib.Joined

namespace WillowSdk

/-! ### The node's own refusals of a nonce -/

/-- A pending transaction holds the nonce. -/
def heldLog (nonce : ℕ) (did t : String) : String :=
  s!"Nonce {nonce} of {did} is held by a pending transaction{t}"

/-- The nonce is used. -/
def replayedLog (nonce : ℕ) (t : String) : String := s!"Invalid nonce: {nonce} already used{t}"

/-- The base passed the nonce. -/
def passedLog (nonce : ℕ) (t : String) : String := s!"Invalid nonce: {nonce} <= base nonce{t}"

/-- The transaction failed and spent the nonce. -/
def spentLog (t : String) (nonce : ℕ) : String := s!"{t}(nonce {nonce} spent)"

namespace Refusal

/-- How a log that `nonce` is held begins. -/
def ofNonce (nonce : ℕ) : List Char := s!"Nonce {nonce} of ".toList

/-- How a log that `nonce` is no good begins. -/
def invalid (nonce : ℕ) : List Char := s!"Invalid nonce: {nonce} ".toList

/-- How a log that `nonce` is spent ends. -/
def spent (nonce : ℕ) : List Char := s!"(nonce {nonce} spent)".toList

/-- The nonce in decimal. -/
def digits (nonce : ℕ) : List Char := (toString nonce).toList

theorem ofNonce_eq (nonce : ℕ) :
    ofNonce nonce = "Nonce ".toList ++ (digits nonce ++ ' ' :: "of ".toList) := by
  simp [ofNonce, digits, toString]

theorem invalid_eq (nonce : ℕ) :
    invalid nonce = "Invalid nonce: ".toList ++ (digits nonce ++ ' ' :: []) := by
  simp [invalid, digits, toString]

theorem spent_eq (nonce : ℕ) :
    spent nonce = '(' :: ("nonce ".toList ++ (digits nonce ++ ' ' :: "spent)".toList)) := by
  simp [spent, digits, toString]

/-! ### Each form names one nonce -/

theorem not_mem_digits {c : Char} (hc : c.isDigit = false) (nonce : ℕ) : c ∉ digits nonce :=
  Joined.not_mem_decimal hc nonce

/-- A number that a space ends can be read back. -/
theorem digits_inj {m n : ℕ} {x y : List Char} (h : digits m ++ ' ' :: x = digits n ++ ' ' :: y) :
    m = n := by
  have hdigits := (Joined.cut_inj (not_mem_digits rfl m) (not_mem_digits rfl n) h).1
  exact Joined.decimal_inj (String.toList_inj.mp hdigits)

/-- What follows the same words and ends with a space is the same number. -/
theorem named_inj {m n : ℕ} {words x y z : List Char}
    (h : words ++ (digits n ++ ' ' :: x) <+: words ++ (digits m ++ ' ' :: y) ++ z) : n = m := by
  obtain ⟨rest, hrest⟩ := h
  simp only [List.append_assoc, List.append_cancel_left_eq] at hrest
  exact digits_inj hrest

theorem ofNonce_inj {m n : ℕ} {x : List Char} (h : ofNonce n <+: ofNonce m ++ x) : n = m := by
  rw [ofNonce_eq, ofNonce_eq] at h
  exact named_inj h

theorem invalid_inj {m n : ℕ} {x : List Char} (h : invalid n <+: invalid m ++ x) : n = m := by
  rw [invalid_eq, invalid_eq] at h
  exact named_inj h

theorem spent_inj {m n : ℕ} {x : List Char} (h : spent n <:+ x ++ spent m) : n = m := by
  obtain ⟨y, hy⟩ := h
  rw [spent_eq, spent_eq] at hy
  have hn : '(' ∉ digits n := not_mem_digits rfl n
  have hm : '(' ∉ digits m := not_mem_digits rfl m
  have hafter := (Joined.cut_last_inj (by simp [hn]) (by simp [hm]) hy).2
  exact digits_inj (List.append_cancel_left hafter)

/-- A log begins in one way. -/
theorem not_ofNonce_invalid {m n : ℕ} {x : List Char} : ¬ofNonce n <+: invalid m ++ x := by
  rw [ofNonce_eq, invalid_eq]
  simp

theorem not_invalid_ofNonce {m n : ℕ} {x : List Char} : ¬invalid n <+: ofNonce m ++ x := by
  rw [ofNonce_eq, invalid_eq]
  simp

theorem paren_not_mem_ofNonce (nonce : ℕ) : '(' ∉ ofNonce nonce := by
  have hdigits : '(' ∉ digits nonce := not_mem_digits rfl nonce
  rw [ofNonce_eq]
  simp [hdigits]

theorem paren_not_mem_invalid (nonce : ℕ) : '(' ∉ invalid nonce := by
  have hdigits : '(' ∉ digits nonce := not_mem_digits rfl nonce
  rw [invalid_eq]
  simp [hdigits]

/-- A log that ends with a nonce spent begins as the text before it does. -/
theorem begins_before {m : ℕ} {p x : List Char} (hp : '(' ∉ p) (h : p <+: x ++ spent m) :
    p <+: x := by
  rw [spent_eq] at h
  exact Text.prefix_of_not_mem hp h

/-- A log whose own words have an `a` and no parenthesis ends with a nonce
spent only if the text after them does. -/
theorem spent_after {n : ℕ} {x words y : List Char} (hparen : '(' ∉ words) (ha : 'a' ∈ words)
    (h : spent n <:+ x ++ words ++ y) : spent n <:+ y := by
  have hn : 'a' ∉ digits n := not_mem_digits rfl n
  rw [spent_eq] at h ⊢
  exact Text.suffix_of_not_mem hparen ha (by simp [hn]) h

/-! ### What the outcome reads -/

/-- The trimmed log is the node's word that `nonce` is held. -/
def SaysHeld (log : List Char) (nonce : ℕ) : Prop :=
  ∃ rest r, log = ofNonce nonce ++ rest ∧ Text.afterWhitespace rest = some r ∧
    "is held by a pending transaction".toList <+: r

/-- The trimmed log is the node's word that `nonce` is used. -/
def SaysUsed (log : List Char) (nonce : ℕ) : Prop :=
  invalid nonce ++ "already used".toList <+: log ∨
    invalid nonce ++ "<= base nonce".toList <+: log ∨ spent nonce <:+ log

theorem SaysHeld.begins {log : List Char} {nonce : ℕ} (h : SaysHeld log nonce) :
    ofNonce nonce <+: log := by
  obtain ⟨rest, _, rfl, -⟩ := h
  exact List.prefix_append _ _

theorem SaysUsed.names {log : List Char} {nonce : ℕ} (h : SaysUsed log nonce) :
    invalid nonce <+: log ∨ spent nonce <:+ log := by
  obtain h | h | h := h
  · exact .inl ((List.prefix_append _ _).trans h)
  · exact .inl ((List.prefix_append _ _).trans h)
  · exact .inr h

/-- The test for a hold, as `refusalOutcome` makes it. -/
def isHeld (log : List Char) (nonce : ℕ) : Bool :=
  match Text.stripPrefix log (ofNonce nonce) with
  | some rest =>
    match Text.afterWhitespace rest with
    | some r => "is held by a pending transaction".toList.isPrefixOf r
    | none => false
  | none => false

theorem isHeld_iff (log : List Char) (nonce : ℕ) : isHeld log nonce = true ↔ SaysHeld log nonce := by
  unfold isHeld Text.stripPrefix SaysHeld
  by_cases hbegin : ofNonce nonce <+: log
  · obtain ⟨rest, rfl⟩ := hbegin
    have htest : (ofNonce nonce).isPrefixOf (ofNonce nonce ++ rest) = true := by simp
    rw [if_pos htest, List.drop_left]
    cases hafter : Text.afterWhitespace rest with
    | none => simp [hafter]
    | some r => simp [hafter]
  · have htest : ¬(ofNonce nonce).isPrefixOf log = true := by simpa using hbegin
    rw [if_neg htest]
    refine ⟨fun h => Bool.noConfusion h, fun ⟨rest, _, hlog, _⟩ => ?_⟩
    exact absurd ⟨rest, hlog.symm⟩ hbegin

/-- The tests for a nonce used, as `refusalOutcome` makes them. -/
def isUsed (log : List Char) (nonce : ℕ) : Bool :=
  s!"Invalid nonce: {nonce} already used".toList.isPrefixOf log ||
    s!"Invalid nonce: {nonce} <= base nonce".toList.isPrefixOf log ||
    s!"(nonce {nonce} spent)".toList.isSuffixOf log

theorem isUsed_iff (log : List Char) (nonce : ℕ) : isUsed log nonce = true ↔ SaysUsed log nonce := by
  have hreplayed : s!"Invalid nonce: {nonce} already used".toList =
      invalid nonce ++ "already used".toList := by
    unfold invalid toString instToStringString
    simp only [String.toList_append, List.append_assoc]
    rfl
  have hpassed : s!"Invalid nonce: {nonce} <= base nonce".toList =
      invalid nonce ++ "<= base nonce".toList := by
    unfold invalid toString instToStringString
    simp only [String.toList_append, List.append_assoc]
    rfl
  rw [isUsed, hreplayed, hpassed, SaysUsed, Bool.or_eq_true, Bool.or_eq_true, or_assoc,
    List.isPrefixOf_iff_prefix, List.isPrefixOf_iff_prefix, List.isSuffixOf_iff_suffix]
  rfl

theorem refusalOutcome_eq (log : String) (nonce : ℕ) :
    refusalOutcome log nonce =
      if isHeld (Text.trim log.toList) nonce then .held
      else if isUsed (Text.trim log.toList) nonce then .used else .free := rfl

section Outcomes

variable {log : String} {nonce : ℕ} {trimmed : List Char} (htrim : Text.trim log.toList = trimmed)

include htrim

theorem refusalOutcome_held (h : SaysHeld trimmed nonce) : refusalOutcome log nonce = .held := by
  rw [refusalOutcome_eq, htrim, if_pos ((isHeld_iff _ _).mpr h)]

theorem refusalOutcome_used (hheld : ¬SaysHeld trimmed nonce) (h : SaysUsed trimmed nonce) :
    refusalOutcome log nonce = .used := by
  rw [refusalOutcome_eq, htrim, if_neg (mt (isHeld_iff _ _).mp hheld),
    if_pos ((isUsed_iff _ _).mpr h)]

theorem refusalOutcome_free (hheld : ¬SaysHeld trimmed nonce) (hused : ¬SaysUsed trimmed nonce) :
    refusalOutcome log nonce = .free := by
  rw [refusalOutcome_eq, htrim, if_neg (mt (isHeld_iff _ _).mp hheld),
    if_neg (mt (isUsed_iff _ _).mp hused)]

end Outcomes

/-! ### What is left of the node's refusals when trimmed -/

theorem trim_heldLog (nonce : ℕ) (did t : String) :
    Text.trim (heldLog nonce did t).toList =
      ofNonce nonce ++ (did.toList ++ " is held by a pending transaction".toList) ++
        Text.trimEnd t.toList := by
  have hlog : (heldLog nonce did t).toList =
      ofNonce nonce ++ (did.toList ++ " is held by a pending transaction".toList) ++ t.toList := by
    simp [heldLog, ofNonce, toString]
  rw [hlog]
  apply Text.trim_append_left
  · exact ⟨'N', by simp [ofNonce_eq], rfl⟩
  · exact ⟨'n', by simp [List.getLast?_append], rfl⟩

/-- Either refusal of an invalid nonce, by the words after the number. -/
theorem trim_invalid {log : String} {nonce : ℕ} {words t : List Char}
    (hlog : log.toList = invalid nonce ++ words ++ t)
    (hwords : ∃ c ∈ words.getLast?, Text.isWhitespace c = false) :
    Text.trim log.toList = invalid nonce ++ words ++ Text.trimEnd t := by
  rw [hlog]
  apply Text.trim_append_left
  · exact ⟨'I', by simp [invalid_eq], rfl⟩
  · obtain ⟨c, hlast, hc⟩ := hwords
    exact ⟨c, by rw [List.getLast?_append, hlast]; rfl, hc⟩

theorem trim_replayedLog (nonce : ℕ) (t : String) :
    Text.trim (replayedLog nonce t).toList =
      invalid nonce ++ "already used".toList ++ Text.trimEnd t.toList := by
  have hlog : (replayedLog nonce t).toList =
      invalid nonce ++ "already used".toList ++ t.toList := by
    unfold replayedLog invalid toString instToStringString
    simp only [String.toList_append, List.append_assoc]
    rfl
  exact trim_invalid hlog ⟨'d', rfl, rfl⟩

theorem trim_passedLog (nonce : ℕ) (t : String) :
    Text.trim (passedLog nonce t).toList =
      invalid nonce ++ "<= base nonce".toList ++ Text.trimEnd t.toList := by
  have hlog : (passedLog nonce t).toList =
      invalid nonce ++ "<= base nonce".toList ++ t.toList := by
    unfold passedLog invalid toString instToStringString
    simp only [String.toList_append, List.append_assoc]
    rfl
  exact trim_invalid hlog ⟨'e', rfl, rfl⟩

theorem trim_spentLog (t : String) (nonce : ℕ) :
    Text.trim (spentLog t nonce).toList = Text.trimStart t.toList ++ spent nonce := by
  have hlog : (spentLog t nonce).toList = t.toList ++ spent nonce := by
    simp [spentLog, spent, toString]
  rw [hlog]
  apply Text.trim_append_right
  · exact ⟨'(', by simp [spent_eq], rfl⟩
  · exact ⟨')', by simp [spent_eq, List.getLast?_cons, List.getLast?_append], rfl⟩

/-! ### The outcome under the nonce they name -/

theorem heldLog_own (nonce : ℕ) {did : String} (hdid : ∀ c ∈ did.toList, Text.isWhitespace c = false)
    (t : String) : refusalOutcome (heldLog nonce did t) nonce = .held := by
  apply refusalOutcome_held (trim_heldLog nonce did t)
  have hafter := Text.afterWhitespace_append hdid (c := ' ') rfl
    ("is held by a pending transaction".toList ++ Text.trimEnd t.toList)
  refine ⟨_, _, ?_, hafter, List.prefix_append _ _⟩
  simp

theorem invalid_not_held {m n : ℕ} {x y : List Char} : ¬SaysHeld (invalid m ++ x ++ y) n := by
  intro h
  have hbegins := h.begins
  rw [List.append_assoc] at hbegins
  exact not_ofNonce_invalid hbegins

theorem replayedLog_own (nonce : ℕ) (t : String) :
    refusalOutcome (replayedLog nonce t) nonce = .used :=
  refusalOutcome_used (trim_replayedLog nonce t) invalid_not_held (.inl (List.prefix_append _ _))

theorem passedLog_own (nonce : ℕ) (t : String) :
    refusalOutcome (passedLog nonce t) nonce = .used :=
  refusalOutcome_used (trim_passedLog nonce t) invalid_not_held
    (.inr (.inl (List.prefix_append _ _)))

theorem spentLog_own {t : String} {nonce : ℕ} (ht : ¬ofNonce nonce <+: Text.trimStart t.toList) :
    refusalOutcome (spentLog t nonce) nonce = .used := by
  apply refusalOutcome_used (trim_spentLog t nonce)
  · exact fun h => ht (begins_before (paren_not_mem_ofNonce _) h.begins)
  · exact .inr (.inr (List.suffix_append _ _))

/-! ### The outcome under another nonce -/

section Other

variable {m n : ℕ} (hne : m ≠ n)

include hne

theorem heldLog_other (did : String) {t : String} (ht : ¬spent n <:+ Text.trimEnd t.toList) :
    refusalOutcome (heldLog m did t) n = .free := by
  apply refusalOutcome_free (trim_heldLog m did t)
  · intro h
    have hbegins := h.begins
    rw [List.append_assoc] at hbegins
    exact hne (ofNonce_inj hbegins).symm
  · intro h
    obtain hinvalid | hspent := h.names
    · rw [List.append_assoc] at hinvalid
      exact not_invalid_ofNonce hinvalid
    · rw [← List.append_assoc] at hspent
      exact ht (spent_after (by decide) (by decide) hspent)

/-- Either refusal of an invalid nonce, by the words after the number. -/
theorem invalid_other {log : String} {words y : List Char}
    (htrim : Text.trim log.toList = invalid m ++ words ++ y) (hparen : '(' ∉ words)
    (ha : 'a' ∈ words) (hy : ¬spent n <:+ y) : refusalOutcome log n = .free := by
  apply refusalOutcome_free htrim invalid_not_held
  · intro h
    obtain hinvalid | hspent := h.names
    · rw [List.append_assoc] at hinvalid
      exact hne (invalid_inj hinvalid).symm
    · exact hy (spent_after hparen ha hspent)

theorem replayedLog_other {t : String} (ht : ¬spent n <:+ Text.trimEnd t.toList) :
    refusalOutcome (replayedLog m t) n = .free :=
  invalid_other hne (trim_replayedLog m t) (by decide) (by decide) ht

theorem passedLog_other {t : String} (ht : ¬spent n <:+ Text.trimEnd t.toList) :
    refusalOutcome (passedLog m t) n = .free :=
  invalid_other hne (trim_passedLog m t) (by decide) (by decide) ht

theorem spentLog_other {t : String} (hheld : ¬ofNonce n <+: Text.trimStart t.toList)
    (hinvalid : ¬invalid n <+: Text.trimStart t.toList) :
    refusalOutcome (spentLog t m) n = .free := by
  apply refusalOutcome_free (trim_spentLog t m)
  · exact fun h => hheld (begins_before (paren_not_mem_ofNonce _) h.begins)
  · intro h
    obtain h | h := h.names
    · exact hinvalid (begins_before (paren_not_mem_invalid _) h)
    · exact hne (spent_inj h).symm

end Other

/-! ### A log that quotes them -/

theorem quoted_free {log : String} (hheld : ¬"Nonce ".toList <+: Text.trim log.toList)
    (hinvalid : ¬"Invalid nonce: ".toList <+: Text.trim log.toList)
    (hspent : ¬" spent)".toList <:+ Text.trim log.toList) (nonce : ℕ) :
    refusalOutcome log nonce = .free := by
  apply refusalOutcome_free rfl
  · intro h
    have hbegins := h.begins
    rw [ofNonce_eq] at hbegins
    exact hheld ((List.prefix_append _ _).trans hbegins)
  · intro h
    obtain h | h := h.names
    · rw [invalid_eq] at h
      exact hinvalid ((List.prefix_append _ _).trans h)
    · have hends : " spent)".toList <:+ spent nonce :=
        ⟨'(' :: ("nonce ".toList ++ digits nonce), by simp [spent_eq]⟩
      exact hspent (hends.trans h)

/-- Only the trimmed log counts. -/
theorem refusalOutcome_congr {log log' : String} (nonce : ℕ)
    (h : Text.trim log.toList = Text.trim log'.toList) :
    refusalOutcome log nonce = refusalOutcome log' nonce := by
  unfold refusalOutcome
  rw [h]

theorem refusalOutcome_surrounded {v w : String} (hv : ∀ c ∈ v.toList, Text.isWhitespace c = true)
    (hw : ∀ c ∈ w.toList, Text.isWhitespace c = true) (log : String) (nonce : ℕ) :
    refusalOutcome (v ++ log ++ w) nonce = refusalOutcome log nonce := by
  apply refusalOutcome_congr
  rw [String.toList_append, String.toList_append]
  exact Text.trim_surrounded hv hw log.toList

end Refusal

/-- **A refusal is charged to the nonce it names.** Under that nonce the
node's own refusals keep it; under another nonce they free it, as does every
log that only quotes them; whitespace around a log changes nothing. -/
theorem refusal_is_charged_to_its_nonce :
    -- the nonce the log names
    (∀ (n : ℕ) (did t : String), (∀ c ∈ did.toList, Text.isWhitespace c = false) →
      refusalOutcome (heldLog n did t) n = .held ∧
      refusalOutcome (replayedLog n t) n = .used ∧
      refusalOutcome (passedLog n t) n = .used ∧
      (¬s!"Nonce {n} of ".toList <+: Text.trimStart t.toList →
        refusalOutcome (spentLog t n) n = .used)) ∧
    -- another nonce
    (∀ (m n : ℕ) (did t : String), m ≠ n → (∀ c ∈ did.toList, Text.isWhitespace c = false) →
      (¬s!"(nonce {n} spent)".toList <:+ Text.trimEnd t.toList →
        refusalOutcome (heldLog m did t) n = .free ∧
        refusalOutcome (replayedLog m t) n = .free ∧
        refusalOutcome (passedLog m t) n = .free) ∧
      (¬s!"Nonce {n} of ".toList <+: Text.trimStart t.toList →
        ¬s!"Invalid nonce: {n} ".toList <+: Text.trimStart t.toList →
        refusalOutcome (spentLog t m) n = .free)) ∧
    -- a log that only quotes a refusal
    (∀ log : String, ¬"Nonce ".toList <+: Text.trim log.toList →
      ¬"Invalid nonce: ".toList <+: Text.trim log.toList →
      ¬" spent)".toList <:+ Text.trim log.toList → ∀ n, refusalOutcome log n = .free) ∧
    -- whitespace around the log
    (∀ log v w : String, (∀ c ∈ v.toList, Text.isWhitespace c = true) →
      (∀ c ∈ w.toList, Text.isWhitespace c = true) →
      ∀ n, refusalOutcome (v ++ log ++ w) n = refusalOutcome log n) := by
  refine ⟨fun n did t hdid => ?_, fun m n did t hne _ => ?_, fun log => ?_, fun log v w hv hw => ?_⟩
  · exact ⟨Refusal.heldLog_own n hdid t, Refusal.replayedLog_own n t, Refusal.passedLog_own n t,
      Refusal.spentLog_own⟩
  · exact ⟨fun ht => ⟨Refusal.heldLog_other hne did ht, Refusal.replayedLog_other hne ht,
      Refusal.passedLog_other hne ht⟩, Refusal.spentLog_other hne⟩
  · exact fun hheld hinvalid hspent => Refusal.quoted_free hheld hinvalid hspent
  · exact Refusal.refusalOutcome_surrounded hv hw log

/-- Nonces 7 and 17, one's digits the end of the other's. -/
theorem refusal_is_charged_to_its_nonce_sample :
    (refusalOutcome (heldLog 7 "did:willow:a" "; sign this one with another nonce") 7 = .held ∧
      refusalOutcome (spentLog "Subgrove not found " 7) 7 = .used) ∧
    (refusalOutcome (heldLog 17 "did:willow:a" "; sign this one with another nonce") 7 = .free ∧
      refusalOutcome (spentLog "Subgrove not found " 17) 7 = .free) ∧
    refusalOutcome "Signature mismatch: \"Invalid nonce: 7 already used\"" 7 = .free ∧
    refusalOutcome ("\n" ++ replayedLog 7 "" ++ " ") 7 = refusalOutcome (replayedLog 7 "") 7 := by
  obtain ⟨hown, hother, hquoted, hsurrounded⟩ := refusal_is_charged_to_its_nonce
  have hdid : ∀ c ∈ "did:willow:a".toList, Text.isWhitespace c = false := by
    simp [Text.isWhitespace]
  obtain ⟨hheld, -, -, -⟩ := hown 7 _ "; sign this one with another nonce" hdid
  obtain ⟨-, -, -, hspent⟩ := hown 7 _ "Subgrove not found " hdid
  obtain ⟨hheld', -⟩ := hother 17 7 _ "; sign this one with another nonce" (by decide) hdid
  obtain ⟨-, hspent'⟩ := hother 17 7 _ "Subgrove not found " (by decide) hdid
  refine ⟨⟨hheld, hspent (by decide)⟩, ?_, ?_, ?_⟩
  · exact ⟨(hheld' (by decide)).1, hspent' (by decide) (by decide)⟩
  · exact hquoted _ (by decide) (by decide) (by decide) 7
  · exact hsurrounded _ "\n" " " (by simp [Text.isWhitespace]) (by simp [Text.isWhitespace]) 7

end WillowSdk
