/-
# Text, character by character

The string functions of Rust's standard library that the SDK uses, on lists
of characters: trimming at Unicode's `White_Space`, prefixes and suffixes,
containment, splitting, and lower case in ASCII.
-/
import Mathlib.Data.List.DropRight

namespace Text

/-- `char::is_whitespace`: Unicode's `White_Space`. -/
def isWhitespace (c : Char) : Bool :=
  let n := c.toNat
  (9 ≤ n && n ≤ 13) || n = 0x20 || n = 0x85 || n = 0xA0 || n = 0x1680 ||
    (0x2000 ≤ n && n ≤ 0x200A) || n = 0x2028 || n = 0x2029 || n = 0x202F || n = 0x205F || n = 0x3000

/-- `str::trim_start`. -/
def trimStart (s : List Char) : List Char := s.dropWhile isWhitespace

/-- `str::trim_end`. -/
def trimEnd (s : List Char) : List Char := s.rdropWhile isWhitespace

/-- `str::trim`. -/
def trim (s : List Char) : List Char := trimEnd (s.dropWhile isWhitespace)

/-- `str::strip_prefix`. -/
def stripPrefix (s p : List Char) : Option (List Char) :=
  if p.isPrefixOf s then some (s.drop p.length) else none

/-- `str::contains` of a string. -/
def contains (s needle : List Char) : Bool := s.tails.any fun t => needle.isPrefixOf t

/-- What follows the first whitespace character (`str::split_once`). -/
def afterWhitespace (s : List Char) : Option (List Char) :=
  match s.dropWhile fun c => !isWhitespace c with
  | [] => none
  | _ :: rest => some rest

/-- `str::to_ascii_lowercase`. -/
def asciiLowercase (s : List Char) : List Char :=
  s.map fun c => if 65 ≤ c.toNat ∧ c.toNat ≤ 90 then Char.ofNat (c.toNat + 32) else c

/-- `str::trim_end_matches` of one character. -/
def trimEndMatches (s : List Char) (c : Char) : List Char := s.rdropWhile (· = c)

/-- `str::trim_start_matches` of `"0x"`. -/
def trim0x : List Char → List Char
  | '0' :: 'x' :: rest => trim0x rest
  | s => s

def isDigit (c : Char) : Bool := 48 ≤ c.toNat && c.toNat ≤ 57

/-- `str::parse` as an unsigned number of at most `max`: digits, after a plus
sign if there is one. -/
def parseUnsigned (max : ℕ) (s : List Char) : Option ℕ :=
  let digits := (stripPrefix s ['+']).getD s
  if digits ≠ [] ∧ digits.all isDigit = true then
    let n := digits.foldl (fun n c => n * 10 + (c.toNat - 48)) 0
    if n ≤ max then some n else none
  else none

/-- `str::parse` as an `i64`: digits after a minus sign, or an unsigned number. -/
def parseI64 (s : List Char) : Option Int :=
  match stripPrefix s ['-'] with
  | some digits =>
    if digits.head? = some '+' then none
    else (parseUnsigned 9223372036854775808 digits).map fun n => -(n : Int)
  | none => (parseUnsigned 9223372036854775807 s).map fun n => (n : Int)

theorem parseUnsigned_le {max n : ℕ} {s : List Char} (h : parseUnsigned max s = some n) :
    n ≤ max := by
  simp only [parseUnsigned] at h
  split at h
  · split at h
    case isTrue hle => exact Option.some.inj h ▸ hle
    case isFalse => cases h
  · cases h

/-! ### Trimming a text with more text at one end -/

theorem trimStart_append_of_whitespace {w : List Char} (hw : ∀ c ∈ w, isWhitespace c = true)
    (s : List Char) : trimStart (w ++ s) = trimStart s :=
  List.dropWhile_append_of_pos hw

theorem trimEnd_append_of_whitespace {w : List Char} (hw : ∀ c ∈ w, isWhitespace c = true)
    (s : List Char) : trimEnd (s ++ w) = trimEnd s := by
  unfold trimEnd List.rdropWhile
  rw [List.reverse_append, List.dropWhile_append_of_pos (by simpa using hw)]

/-- A text is not trimmed past a character that is no whitespace. -/
theorem trimStart_append {b : List Char} (hb : ∃ c ∈ b.head?, isWhitespace c = false)
    (s : List Char) : trimStart (s ++ b) = trimStart s ++ b := by
  obtain ⟨c, hhead, hc⟩ := hb
  have hself : b.dropWhile isWhitespace = b := by
    obtain ⟨rest, rfl⟩ := List.head?_eq_some_iff.mp hhead
    rw [List.dropWhile_cons, hc]
    rfl
  unfold trimStart
  rw [List.dropWhile_append, hself]
  split
  case isTrue h => rw [List.isEmpty_iff.mp h, List.nil_append]
  case isFalse => rfl

theorem trimEnd_append {a : List Char} (ha : ∃ c ∈ a.getLast?, isWhitespace c = false)
    (s : List Char) : trimEnd (a ++ s) = a ++ trimEnd s := by
  have hrev : ∃ c ∈ a.reverse.head?, isWhitespace c = false := by
    rw [List.head?_reverse]
    exact ha
  have hstart := trimStart_append hrev s.reverse
  unfold trimStart at hstart
  unfold trimEnd List.rdropWhile
  rw [List.reverse_append, hstart, List.reverse_append, List.reverse_reverse]

theorem trimStart_of_head {a : List Char} (ha : ∃ c ∈ a.head?, isWhitespace c = false) :
    trimStart a = a := trimStart_append ha []

theorem trimEnd_of_last {a : List Char} (ha : ∃ c ∈ a.getLast?, isWhitespace c = false) :
    trimEnd a = a := by
  have hempty : trimEnd [] = [] := rfl
  have happend := trimEnd_append ha []
  rwa [hempty, List.append_nil] at happend

theorem trim_append_left {a : List Char} (hhead : ∃ c ∈ a.head?, isWhitespace c = false)
    (hlast : ∃ c ∈ a.getLast?, isWhitespace c = false) (s : List Char) :
    trim (a ++ s) = a ++ trimEnd s := by
  have hstart : trimStart (a ++ s) = a ++ s := by
    apply trimStart_of_head
    obtain ⟨c, hmem, hc⟩ := hhead
    exact ⟨c, by rw [List.head?_append, hmem]; rfl, hc⟩
  calc trim (a ++ s) = trimEnd (trimStart (a ++ s)) := rfl
    _ = a ++ trimEnd s := by rw [hstart, trimEnd_append hlast]

theorem trim_append_right {b : List Char} (hhead : ∃ c ∈ b.head?, isWhitespace c = false)
    (hlast : ∃ c ∈ b.getLast?, isWhitespace c = false) (s : List Char) :
    trim (s ++ b) = trimStart s ++ b := by
  have hend : trimEnd (trimStart s ++ b) = trimStart s ++ b := by
    apply trimEnd_of_last
    obtain ⟨c, hmem, hc⟩ := hlast
    exact ⟨c, by rw [List.getLast?_append, hmem]; rfl, hc⟩
  calc trim (s ++ b) = trimEnd (trimStart (s ++ b)) := rfl
    _ = trimStart s ++ b := by rw [trimStart_append hhead, hend]

/-- Whitespace around a text goes. -/
theorem trim_surrounded {v w : List Char} (hv : ∀ c ∈ v, isWhitespace c = true)
    (hw : ∀ c ∈ w, isWhitespace c = true) (s : List Char) : trim (v ++ s ++ w) = trim s := by
  have hstart : trimStart (v ++ s ++ w) = trimStart (s ++ w) := by
    rw [List.append_assoc, trimStart_append_of_whitespace hv]
  show trimEnd (trimStart (v ++ s ++ w)) = trimEnd (trimStart s)
  rw [hstart]
  unfold trimStart
  rw [List.dropWhile_append]
  split
  case isTrue h =>
    have hnil : w.dropWhile isWhitespace = [] := List.dropWhile_eq_nil_iff.mpr hw
    rw [hnil, List.isEmpty_iff.mp h]
  case isFalse => exact trimEnd_append_of_whitespace hw _

theorem afterWhitespace_append {s : List Char} (hs : ∀ c ∈ s, isWhitespace c = false) {c : Char}
    (hc : isWhitespace c = true) (rest : List Char) : afterWhitespace (s ++ c :: rest) = some rest := by
  have hdrop : (s ++ c :: rest).dropWhile (fun c => !isWhitespace c) = c :: rest := by
    rw [List.dropWhile_append_of_pos (fun d hd => by rw [hs d hd]; rfl), List.dropWhile_cons, hc]
    rfl
  unfold afterWhitespace
  rw [hdrop]

theorem trim_of_not_mem {s : List Char} (hs : ∀ c ∈ s, isWhitespace c = false) : trim s = s := by
  have hstart : trimStart s = s := by
    cases s with
    | nil => rfl
    | cons c s => exact trimStart_of_head ⟨c, rfl, hs c List.mem_cons_self⟩
  show trimEnd (trimStart s) = s
  rw [hstart]
  cases hlast : s.getLast? with
  | none =>
    rw [List.getLast?_eq_none_iff.mp hlast]
    rfl
  | some c => exact trimEnd_of_last ⟨c, hlast, hs c (List.mem_of_getLast? hlast)⟩

/-- A trimmed text has nothing to trim. -/
theorem trim_trim (s : List Char) : trim (trim s) = trim s := by
  have hstart : trimStart (trim s) = trim s := by
    cases htrim : trim s with
    | nil => rfl
    | cons c rest =>
      have hprefix : trim s <+: s.dropWhile isWhitespace := List.rdropWhile_prefix _ _
      obtain ⟨more, hmore⟩ := hprefix
      rw [htrim, List.cons_append] at hmore
      have hc : isWhitespace c = false := by
        have hhead := List.head?_dropWhile_not isWhitespace s
        rw [← hmore] at hhead
        simpa using hhead
      exact trimStart_of_head ⟨c, rfl, hc⟩
  show trimEnd (trimStart (trim s)) = trim s
  rw [hstart]
  exact List.rdropWhile_idempotent _ _

/-- By the pairs that go. -/
theorem trim0x_trim0x (s : List Char) : trim0x (trim0x s) = trim0x s := by
  fun_induction trim0x s with
  | case1 rest ih => exact ih
  | case2 s hs => exact trim0x.eq_2 s hs

theorem trim0x_of_not_mem {s : List Char} (hs : 'x' ∉ s) : trim0x s = s := by
  refine trim0x.eq_2 s fun rest h => ?_
  rw [h] at hs
  simp at hs

/-! ### Prefixes and suffixes across a seam -/

section Seams

variable {α : Type} {c : α} {p s x y : List α}

/-- A prefix without `c` ends before the first `c`. -/
theorem prefix_of_not_mem (hc : c ∉ p) (h : p <+: x ++ c :: y) : p <+: x := by
  obtain hpx | ⟨r, hr⟩ := List.prefix_or_prefix_of_prefix h (List.prefix_append x _)
  · exact hpx
  · cases r with
    | nil => exact ⟨[], by simpa using hr.symm⟩
    | cons d r =>
      obtain ⟨q, hq⟩ := h
      rw [← hr, List.append_assoc] at hq
      obtain ⟨rfl, -⟩ := List.cons.inj (List.append_cancel_left hq)
      exact absurd (hr ▸ by simp) hc

/-- A suffix that starts with `c` does not reach back into a text without
`c`, nor over one that has a character the suffix lacks. -/
theorem suffix_of_not_mem {d : α} (hc : c ∉ y) (hd : d ∈ y) (hs : d ∉ c :: s)
    (h : c :: s <:+ x ++ y ++ p) : c :: s <:+ p := by
  rw [List.append_assoc] at h
  obtain hshort | hlong := List.suffix_or_suffix_of_suffix h (List.suffix_append x (y ++ p))
  · obtain hin | ⟨r, hr⟩ := List.suffix_or_suffix_of_suffix hshort (List.suffix_append y p)
    · exact hin
    · cases r with
      | nil => exact ⟨[], by simpa using hr.symm⟩
      | cons e r =>
        obtain ⟨rfl, -⟩ := List.cons.inj hr
        obtain ⟨q, hq⟩ := hshort
        rw [← hr, ← List.append_assoc] at hq
        exact absurd (List.append_cancel_right hq ▸ by simp) hc
  · exact absurd (hlong.subset (List.mem_append_left _ hd)) hs

end Seams

end Text
