/-
# UTF-8

`str::as_bytes`, and `String::from_utf8_lossy`: each maximal prefix of a sequence that is not
UTF-8 becomes one replacement character. A sequence's first byte fixes how
many bytes follow it, and the range of the second.
-/
import Mathlib.Algebra.Ring.Nat
import Mathlib.Data.List.TakeWhile

namespace Utf8

/-- The bytes of some text. -/
def encode (s : String) : List UInt8 := s.toList.flatMap String.utf8EncodeChar

/-- How many bytes follow `lead` in its sequence; `none` if none starts with it. -/
def following (lead : UInt8) : Option ℕ :=
  if lead < 0x80 then some 0
  else if 0xC2 ≤ lead ∧ lead ≤ 0xDF then some 1
  else if 0xE0 ≤ lead ∧ lead ≤ 0xEF then some 2
  else if 0xF0 ≤ lead ∧ lead ≤ 0xF4 then some 3
  else none

/-- The range of the byte after `lead`: it excludes overlong forms, the
surrogates, and scalars above 0x10FFFF. -/
def secondRange (lead : UInt8) : UInt8 × UInt8 :=
  if lead = 0xE0 then (0xA0, 0xBF)
  else if lead = 0xED then (0x80, 0x9F)
  else if lead = 0xF0 then (0x90, 0xBF)
  else if lead = 0xF4 then (0x80, 0x8F)
  else (0x80, 0xBF)

/-- The bytes of `rest` that go on with the sequence of `lead`, `n` at most. -/
def continuing (lead : UInt8) (n : ℕ) (rest : List UInt8) : List UInt8 :=
  match n, rest with
  | n + 1, b :: rest =>
    if (secondRange lead).1 ≤ b ∧ b ≤ (secondRange lead).2 then
      b :: (rest.take n).takeWhile fun c => 0x80 ≤ c ∧ c ≤ 0xBF
    else []
  | _, _ => []

/-- The scalar of a whole sequence. -/
def scalar (lead : UInt8) (bytes : List UInt8) : Char :=
  let bits := if bytes.length = 0 then lead.toNat else lead.toNat % 2 ^ (6 - bytes.length)
  Char.ofNat (bytes.foldl (fun acc b => acc * 64 + b.toNat % 64) bits)

def lossyChars : List UInt8 → List Char
  | [] => []
  | lead :: rest =>
    match following lead with
    | none => Char.ofNat 0xFFFD :: lossyChars rest
    | some n =>
      let bytes := continuing lead n rest
      (if bytes.length = n then scalar lead bytes else Char.ofNat 0xFFFD) ::
        lossyChars (rest.drop bytes.length)
termination_by bytes => bytes.length
decreasing_by all_goals simp only [List.length_drop, List.length_cons]; omega

/-- The text of some bytes (`String::from_utf8_lossy`). -/
def lossy (bytes : List UInt8) : String := String.ofList (lossyChars bytes)

/-! ### Text comes back -/

/-- A byte is in the range of the second after `lead`. -/
def Seconds (lead b : UInt8) : Prop := (secondRange lead).1 ≤ b ∧ b ≤ (secondRange lead).2

/-- A whole sequence of several bytes is one character. -/
theorem lossyChars_sequence {lead b : UInt8} (more rest : List UInt8)
    (hlead : following lead = some (more.length + 1)) (hb : Seconds lead b)
    (hmore : ∀ c ∈ more, 0x80 ≤ c ∧ c ≤ 0xBF) :
    lossyChars (lead :: b :: (more ++ rest)) = scalar lead (b :: more) :: lossyChars rest := by
  have hall : more.takeWhile (fun c => 0x80 ≤ c ∧ c ≤ 0xBF) = more :=
    List.takeWhile_eq_self_iff.mpr fun c hc => by simpa using hmore c hc
  have hbytes : continuing lead (more.length + 1) (b :: (more ++ rest)) = b :: more := by
    show (if (secondRange lead).1 ≤ b ∧ b ≤ (secondRange lead).2 then
      b :: ((more ++ rest).take more.length).takeWhile (fun c => 0x80 ≤ c ∧ c ≤ 0xBF) else []) = _
    rw [if_pos ⟨hb.1, hb.2⟩, List.take_left, hall]
  rw [lossyChars, hlead]
  dsimp only
  rw [hbytes, List.length_cons, if_pos rfl, List.drop_succ_cons, List.drop_left]

theorem toNat_byte {n : ℕ} (h : n < 256) : (UInt8.ofNat n).toNat = n := by
  rw [UInt8.toNat_ofNat', Nat.mod_eq_of_lt h]

theorem following_eq (lead : UInt8) :
    following lead =
      if lead.toNat < 0x80 then some 0
      else if 0xC2 ≤ lead.toNat ∧ lead.toNat ≤ 0xDF then some 1
      else if 0xE0 ≤ lead.toNat ∧ lead.toNat ≤ 0xEF then some 2
      else if 0xF0 ≤ lead.toNat ∧ lead.toNat ≤ 0xF4 then some 3
      else none := rfl

theorem secondRange_eq (lead : UInt8) :
    (secondRange lead).1.toNat = (if lead.toNat = 0xE0 then 0xA0 else
      if lead.toNat = 0xF0 then 0x90 else 0x80) ∧
    (secondRange lead).2.toNat = (if lead.toNat = 0xED then 0x9F else
      if lead.toNat = 0xF4 then 0x8F else 0xBF) := by
  unfold secondRange
  simp only [← UInt8.toNat_inj]
  split_ifs <;> simp_all

/-- By the numbers. -/
theorem Seconds.of_toNat {lead b : UInt8}
    (hlow : (if lead.toNat = 0xE0 then 0xA0 else if lead.toNat = 0xF0 then 0x90 else 0x80) ≤ b.toNat)
    (hhigh : b.toNat ≤ if lead.toNat = 0xED then 0x9F else if lead.toNat = 0xF4 then 0x8F else 0xBF) :
    Seconds lead b := by
  obtain ⟨hfirst, hlast⟩ := secondRange_eq lead
  rw [← hfirst] at hlow
  rw [← hlast] at hhigh
  exact ⟨UInt8.le_iff_toNat_le.mpr hlow, UInt8.le_iff_toNat_le.mpr hhigh⟩

/-- Six bits of a number, as the bytes after the first carry them. -/
theorem toNat_sixBits (n : ℕ) : (UInt8.ofNat (n % 0x40 + 0x80)).toNat = n % 64 + 0x80 :=
  toNat_byte (by omega)

theorem continues (n : ℕ) : 0x80 ≤ UInt8.ofNat (n % 0x40 + 0x80) ∧
    UInt8.ofNat (n % 0x40 + 0x80) ≤ 0xBF := by
  refine ⟨UInt8.le_iff_toNat_le.mpr ?_, UInt8.le_iff_toNat_le.mpr ?_⟩
  · rw [toNat_sixBits]
    exact Nat.le_add_left _ _
  · rw [toNat_sixBits]
    show n % 64 + 0x80 ≤ 0xBF
    omega

section Scalars

variable {v : ℕ} (rest : List UInt8)

theorem lossyChars_one (h : v ≤ 0x7F) :
    lossyChars (UInt8.ofNat v :: rest) = Char.ofNat v :: lossyChars rest := by
  have hlead : (UInt8.ofNat v).toNat = v := toNat_byte (by omega)
  have hfollowing : following (UInt8.ofNat v) = some 0 := by
    rw [following_eq, hlead, if_pos (by omega)]
  have hnone : continuing (UInt8.ofNat v) 0 rest = [] := rfl
  have hscalar : scalar (UInt8.ofNat v) [] = Char.ofNat v := by
    show Char.ofNat (UInt8.ofNat v).toNat = _
    rw [hlead]
  rw [lossyChars, hfollowing]
  dsimp only
  rw [hnone, List.length_nil, if_pos rfl, hscalar, List.drop_zero]

theorem lossyChars_two (hlow : 0x7F < v) (hhigh : v ≤ 0x7FF) :
    lossyChars (UInt8.ofNat (v / 64 % 0x20 + 0xC0) :: UInt8.ofNat (v % 0x40 + 0x80) :: rest) =
      Char.ofNat v :: lossyChars rest := by
  have hlead : (UInt8.ofNat (v / 64 % 0x20 + 0xC0)).toNat = v / 64 + 0xC0 := by
    rw [toNat_byte (by omega)]
    omega
  have hfollowing : following (UInt8.ofNat (v / 64 % 0x20 + 0xC0)) = some 1 := by
    rw [following_eq, hlead, if_neg (by omega), if_pos (by omega)]
  have hrange : Seconds (UInt8.ofNat (v / 64 % 0x20 + 0xC0))
      (UInt8.ofNat (v % 0x40 + 0x80)) := by
    refine .of_toNat ?_ ?_
    · rw [hlead, toNat_sixBits]
      split_ifs <;> omega
    · rw [hlead, toNat_sixBits]
      split_ifs <;> omega
  have hscalar : scalar (UInt8.ofNat (v / 64 % 0x20 + 0xC0)) [UInt8.ofNat (v % 0x40 + 0x80)] =
      Char.ofNat v := by
    show Char.ofNat ((UInt8.ofNat _).toNat % 32 * 64 + (UInt8.ofNat _).toNat % 64) = _
    rw [hlead, toNat_sixBits]
    congr 1
    omega
  rw [← hscalar]
  exact lossyChars_sequence [] rest hfollowing hrange nofun

theorem lossyChars_three (hlow : 0x7FF < v) (hhigh : v ≤ 0xFFFF)
    (hvalid : v < 0xD800 ∨ 0xDFFF < v) :
    lossyChars (UInt8.ofNat (v / 4096 % 0x10 + 0xE0) :: UInt8.ofNat (v / 64 % 0x40 + 0x80) ::
        UInt8.ofNat (v % 0x40 + 0x80) :: rest) = Char.ofNat v :: lossyChars rest := by
  have hlead : (UInt8.ofNat (v / 4096 % 0x10 + 0xE0)).toNat = v / 4096 + 0xE0 := by
    rw [toNat_byte (by omega)]
    omega
  have hfollowing : following (UInt8.ofNat (v / 4096 % 0x10 + 0xE0)) = some 2 := by
    rw [following_eq, hlead, if_neg (by omega), if_neg (by omega), if_pos (by omega)]
  have hrange : Seconds (UInt8.ofNat (v / 4096 % 0x10 + 0xE0))
      (UInt8.ofNat (v / 64 % 0x40 + 0x80)) := by
    refine .of_toNat ?_ ?_
    · rw [hlead, toNat_sixBits]
      split_ifs <;> omega
    · rw [hlead, toNat_sixBits]
      split_ifs <;> omega
  have hscalar : scalar (UInt8.ofNat (v / 4096 % 0x10 + 0xE0))
      [UInt8.ofNat (v / 64 % 0x40 + 0x80), UInt8.ofNat (v % 0x40 + 0x80)] = Char.ofNat v := by
    show Char.ofNat (((UInt8.ofNat _).toNat % 16 * 64 + (UInt8.ofNat _).toNat % 64) * 64 +
      (UInt8.ofNat _).toNat % 64) = _
    rw [hlead, toNat_sixBits, toNat_sixBits]
    congr 1
    omega
  rw [← hscalar]
  exact lossyChars_sequence [_] rest hfollowing hrange
    (List.forall_mem_singleton.mpr (continues v))

theorem lossyChars_four (hlow : 0xFFFF < v) (hvalid : v < 0x110000) :
    lossyChars (UInt8.ofNat (v / 262144 % 0x08 + 0xF0) :: UInt8.ofNat (v / 4096 % 0x40 + 0x80) ::
        UInt8.ofNat (v / 64 % 0x40 + 0x80) :: UInt8.ofNat (v % 0x40 + 0x80) :: rest) =
      Char.ofNat v :: lossyChars rest := by
  have hlead : (UInt8.ofNat (v / 262144 % 0x08 + 0xF0)).toNat = v / 262144 + 0xF0 := by
    rw [toNat_byte (by omega)]
    omega
  have hfollowing : following (UInt8.ofNat (v / 262144 % 0x08 + 0xF0)) = some 3 := by
    rw [following_eq, hlead, if_neg (by omega), if_neg (by omega), if_neg (by omega),
      if_pos (by omega)]
  have hrange : Seconds (UInt8.ofNat (v / 262144 % 0x08 + 0xF0))
      (UInt8.ofNat (v / 4096 % 0x40 + 0x80)) := by
    refine .of_toNat ?_ ?_
    · rw [hlead, toNat_sixBits]
      split_ifs <;> omega
    · rw [hlead, toNat_sixBits]
      split_ifs <;> omega
  have hscalar : scalar (UInt8.ofNat (v / 262144 % 0x08 + 0xF0))
      [UInt8.ofNat (v / 4096 % 0x40 + 0x80), UInt8.ofNat (v / 64 % 0x40 + 0x80),
        UInt8.ofNat (v % 0x40 + 0x80)] = Char.ofNat v := by
    show Char.ofNat ((((UInt8.ofNat _).toNat % 8 * 64 + (UInt8.ofNat _).toNat % 64) * 64 +
      (UInt8.ofNat _).toNat % 64) * 64 + (UInt8.ofNat _).toNat % 64) = _
    rw [hlead, toNat_sixBits, toNat_sixBits, toNat_sixBits]
    congr 1
    omega
  rw [← hscalar]
  refine lossyChars_sequence [_, _] rest hfollowing hrange ?_
  exact List.forall_mem_cons.mpr
    ⟨continues (v / 64), List.forall_mem_singleton.mpr (continues v)⟩

end Scalars

/-- The sequence of a character is read as the character. -/
theorem lossyChars_utf8EncodeChar (c : Char) (rest : List UInt8) :
    lossyChars (String.utf8EncodeChar c ++ rest) = c :: lossyChars rest := by
  have hvalid : c.val.toNat < 0xD800 ∨ 0xDFFF < c.val.toNat ∧ c.val.toNat < 0x110000 := c.valid
  have hchar : Char.ofNat c.val.toNat = c := Char.ofNat_toNat c
  unfold String.utf8EncodeChar
  dsimp only
  generalize c.val.toNat = v at hvalid hchar ⊢
  rw [← hchar]
  split_ifs with hone htwo hthree
  · exact lossyChars_one rest hone
  · exact lossyChars_two rest (Nat.not_le.mp hone) htwo
  · have hscalar : v < 0xD800 ∨ 0xDFFF < v := hvalid.imp_right And.left
    exact lossyChars_three rest (Nat.not_le.mp htwo) hthree hscalar
  · have hscalar : v < 0x110000 := by omega
    exact lossyChars_four rest (Nat.not_le.mp hthree) hscalar

/-- **Text comes back** from its bytes. -/
theorem lossy_encode (s : String) : lossy (encode s) = s := by
  have hchars : ∀ cs : List Char, lossyChars (cs.flatMap String.utf8EncodeChar) = cs := by
    intro cs
    induction cs with
    | nil => rw [List.flatMap_nil, lossyChars]
    | cons c cs ih => rw [List.flatMap_cons, lossyChars_utf8EncodeChar, ih]
  unfold lossy encode
  rw [hchars, String.ofList_toList]

end Utf8
