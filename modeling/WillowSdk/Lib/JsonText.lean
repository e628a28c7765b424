/-
# JSON texts

The concrete syntax of JSON as trees that keep how a text is spelled: its
white space, the escapes of its strings, the digits of its numbers. `bytes`
writes a tree out, so the texts of the grammar are the trees' bytes.
-/
import Mathlib.Data.List.Basic

namespace JsonText

/-! ### Scalars -/

/-- A byte of white space. -/
inductive Blank
  | space
  | tab
  | lineFeed
  | carriageReturn
deriving DecidableEq, Repr

def Blank.byte : Blank → UInt8
  | .space => 0x20
  | .tab => 0x09
  | .lineFeed => 0x0A
  | .carriageReturn => 0x0D

def blankBytes (blanks : List Blank) : List UInt8 := blanks.map Blank.byte

def IsDigit (b : UInt8) : Prop := 0x30 ≤ b ∧ b ≤ 0x39

def IsHexDigit (b : UInt8) : Prop :=
  IsDigit b ∨ 0x41 ≤ b ∧ b ≤ 0x46 ∨ 0x61 ≤ b ∧ b ≤ 0x66

/-- A byte that stands for itself in a string. -/
def IsPlain (b : UInt8) : Prop := 0x20 ≤ b ∧ b ≠ 0x22 ∧ b ≠ 0x5C

instance (b : UInt8) : Decidable (IsDigit b) := inferInstanceAs (Decidable (_ ∧ _))
instance (b : UInt8) : Decidable (IsHexDigit b) := inferInstanceAs (Decidable (_ ∨ _))
instance (b : UInt8) : Decidable (IsPlain b) := inferInstanceAs (Decidable (_ ∧ _ ∧ _))

abbrev Digit := { b : UInt8 // IsDigit b }
abbrev HexDigit := { b : UInt8 // IsHexDigit b }

def digitBytes (digits : List Digit) : List UInt8 := digits.map Subtype.val

/-- What follows the backslash of a short escape. -/
inductive Escape
  | quote
  | backslash
  | slash
  | backspace
  | formFeed
  | lineFeed
  | carriageReturn
  | tab
deriving DecidableEq, Repr

def Escape.byte : Escape → UInt8
  | .quote => 0x22
  | .backslash => 0x5C
  | .slash => 0x2F
  | .backspace => 0x62
  | .formFeed => 0x66
  | .lineFeed => 0x6E
  | .carriageReturn => 0x72
  | .tab => 0x74

/-- A part of a string as it is spelled. -/
inductive StringPart
  | plain (b : { b : UInt8 // IsPlain b })
  | escape (e : Escape)
  | unicode (a b c d : HexDigit)
deriving DecidableEq

def StringPart.bytes : StringPart → List UInt8
  | .plain b => [b.1]
  | .escape e => [0x5C, e.byte]
  | .unicode a b c d => [0x5C, 0x75, a.1, b.1, c.1, d.1]

/-- A string as it is spelled, without its quotes. -/
abbrev Spelling := List StringPart

def Spelling.bytes (s : Spelling) : List UInt8 := s.flatMap StringPart.bytes

def quoted (s : Spelling) : List UInt8 := 0x22 :: (s.bytes ++ [0x22])

inductive Whole
  | zero
  | digits (first : Digit) (nonzero : first.1 ≠ 0x30) (rest : List Digit)
deriving DecidableEq

def Whole.bytes : Whole → List UInt8
  | .zero => [0x30]
  | .digits first _ rest => first.1 :: digitBytes rest

inductive Sign
  | plus
  | minus
deriving DecidableEq, Repr

def Sign.byte : Sign → UInt8
  | .plus => 0x2B
  | .minus => 0x2D

structure Exponent where
  upper : Bool
  sign : Option Sign
  first : Digit
  rest : List Digit
deriving DecidableEq

def Exponent.bytes (e : Exponent) : List UInt8 :=
  (if e.upper then 0x45 else 0x65) ::
    ((e.sign.map Sign.byte).toList ++ e.first.1 :: digitBytes e.rest)

structure Number where
  negative : Bool
  whole : Whole
  fraction : Option (Digit × List Digit)
  exponent : Option Exponent
deriving DecidableEq

def fractionBytes : Option (Digit × List Digit) → List UInt8
  | none => []
  | some (first, rest) => 0x2E :: first.1 :: digitBytes rest

def exponentBytes : Option Exponent → List UInt8
  | none => []
  | some e => e.bytes

def Number.bytes (n : Number) : List UInt8 :=
  (if n.negative then [0x2D] else []) ++ n.whole.bytes ++ fractionBytes n.fraction ++
    exponentBytes n.exponent

inductive Literal
  | null
  | true
  | false
deriving DecidableEq, Repr

def Literal.bytes : Literal → List UInt8
  | .null => [0x6E, 0x75, 0x6C, 0x6C]
  | .true => [0x74, 0x72, 0x75, 0x65]
  | .false => [0x66, 0x61, 0x6C, 0x73, 0x65]

/-! ### Values -/

mutual

inductive Value
  | literal (l : Literal)
  | number (n : Number)
  | string (s : Spelling)
  | emptyArray (blanks : List Blank)
  | array (elements : Elements)
  | emptyObject (blanks : List Blank)
  | object (members : Members)

/-- The elements of an array, with the white space around each. -/
inductive Elements
  | last (before : List Blank) (value : Value) (after : List Blank)
  | more (before : List Blank) (value : Value) (after : List Blank) (rest : Elements)

/-- The members of an object, with the white space around each key and value. -/
inductive Members
  | last (before : List Blank) (key : Spelling) (afterKey beforeValue : List Blank)
    (value : Value) (after : List Blank)
  | more (before : List Blank) (key : Spelling) (afterKey beforeValue : List Blank)
    (value : Value) (after : List Blank) (rest : Members)

end

mutual

def Value.bytes : Value → List UInt8
  | .literal l => l.bytes
  | .number n => n.bytes
  | .string s => quoted s
  | .emptyArray blanks => 0x5B :: (blankBytes blanks ++ [0x5D])
  | .array elements => 0x5B :: (elements.bytes ++ [0x5D])
  | .emptyObject blanks => 0x7B :: (blankBytes blanks ++ [0x7D])
  | .object members => 0x7B :: (members.bytes ++ [0x7D])

def Elements.bytes : Elements → List UInt8
  | .last before value after => blankBytes before ++ value.bytes ++ blankBytes after
  | .more before value after rest =>
    blankBytes before ++ value.bytes ++ blankBytes after ++ 0x2C :: rest.bytes

def Members.bytes : Members → List UInt8
  | .last before key afterKey beforeValue value after =>
    blankBytes before ++ quoted key ++ blankBytes afterKey ++
      0x3A :: (blankBytes beforeValue ++ value.bytes ++ blankBytes after)
  | .more before key afterKey beforeValue value after rest =>
    blankBytes before ++ quoted key ++ blankBytes afterKey ++
      0x3A :: (blankBytes beforeValue ++ value.bytes ++ blankBytes after ++ 0x2C :: rest.bytes)

end

/-- A JSON text: a value and the white space around it. -/
structure Text where
  before : List Blank
  value : Value
  after : List Blank

def Text.bytes (t : Text) : List UInt8 :=
  blankBytes t.before ++ t.value.bytes ++ blankBytes t.after

/-- The value is an array or object. -/
def Value.isContainer : Value → Bool
  | .emptyArray _ | .array _ | .emptyObject _ | .object _ => true
  | .literal _ | .number _ | .string _ => false

/-! ### What a value holds -/

mutual

/-- How many strings, keys and literals a value holds. -/
def Value.words : Value → ℕ
  | .literal _ | .string _ => 1
  | .number _ | .emptyArray _ | .emptyObject _ => 0
  | .array elements => elements.words
  | .object members => members.words

def Elements.words : Elements → ℕ
  | .last _ value _ => value.words
  | .more _ value _ rest => value.words + rest.words

def Members.words : Members → ℕ
  | .last _ _ _ _ value _ => 1 + value.words
  | .more _ _ _ _ value _ rest => 1 + value.words + rest.words

end

mutual

/-- How many numbers a value holds. -/
def Value.numbers : Value → ℕ
  | .number _ => 1
  | .literal _ | .string _ | .emptyArray _ | .emptyObject _ => 0
  | .array elements => elements.numbers
  | .object members => members.numbers

def Elements.numbers : Elements → ℕ
  | .last _ value _ => value.numbers
  | .more _ value _ rest => value.numbers + rest.numbers

def Members.numbers : Members → ℕ
  | .last _ _ _ _ value _ => value.numbers
  | .more _ _ _ _ value _ rest => value.numbers + rest.numbers

end

mutual

/-- How many arrays and objects a value holds, itself included. -/
def Value.containers : Value → ℕ
  | .literal _ | .number _ | .string _ => 0
  | .emptyArray _ | .emptyObject _ => 1
  | .array elements => 1 + elements.containers
  | .object members => 1 + members.containers

def Elements.containers : Elements → ℕ
  | .last _ value _ => value.containers
  | .more _ value _ rest => value.containers + rest.containers

def Members.containers : Members → ℕ
  | .last _ _ _ _ value _ => value.containers
  | .more _ _ _ _ value _ rest => value.containers + rest.containers

end

/-! ### The bytes of numbers and literals -/

/-- A byte of a number or literal. -/
def IsScalarByte (b : UInt8) : Prop :=
  IsDigit b ∨ 0x41 ≤ b ∧ b ≤ 0x5A ∨ 0x61 ≤ b ∧ b ≤ 0x7A ∨ b = 0x2E ∨ b = 0x2B ∨ b = 0x2D

theorem digitBytes_scalar {digits : List Digit} : ∀ b ∈ digitBytes digits, IsScalarByte b := by
  intro b hb
  obtain ⟨d, -, rfl⟩ := List.mem_map.mp hb
  exact .inl d.2

theorem fractionBytes_scalar {fraction : Option (Digit × List Digit)} :
    ∀ b ∈ fractionBytes fraction, IsScalarByte b := by
  intro b hb
  rcases fraction with _ | ⟨first, rest⟩
  · cases hb
  · rcases List.mem_cons.mp hb with rfl | hb
    · unfold IsScalarByte
      decide
    · rcases List.mem_cons.mp hb with rfl | hb
      · exact .inl first.2
      · exact digitBytes_scalar b hb

theorem Exponent.bytes_scalar (e : Exponent) : ∀ b ∈ e.bytes, IsScalarByte b := by
  intro b hb
  have hsign : ∀ s : Sign, IsScalarByte s.byte := by
    intro s
    cases s <;> (unfold IsScalarByte; decide)
  have hletter : IsScalarByte (if e.upper then 0x45 else 0x65) := by
    cases e.upper <;> (unfold IsScalarByte; decide)
  rcases List.mem_cons.mp hb with rfl | hb
  · exact hletter
  · rcases List.mem_append.mp hb with hb | hb
    · rw [Option.mem_toList, Option.map_eq_some_iff] at hb
      obtain ⟨s, -, rfl⟩ := hb
      exact hsign s
    · rcases List.mem_cons.mp hb with rfl | hb
      · exact .inl e.first.2
      · exact digitBytes_scalar b hb

theorem Whole.bytes_eq (w : Whole) :
    ∃ first rest, w.bytes = first :: rest ∧ IsDigit first ∧ ∀ b ∈ rest, IsScalarByte b := by
  cases w with
  | zero => exact ⟨0x30, [], rfl, by decide, nofun⟩
  | digits first _ rest => exact ⟨first.1, digitBytes rest, rfl, first.2, digitBytes_scalar⟩

/-- A number starts with its sign or a digit, and goes on with scalar bytes. -/
theorem Number.bytes_eq (n : Number) : ∃ first rest, n.bytes = first :: rest ∧
    (first = 0x2D ∨ IsDigit first) ∧ ∀ b ∈ rest, IsScalarByte b := by
  obtain ⟨first, rest, hwhole, hfirst, hrest⟩ := n.whole.bytes_eq
  have htail : ∀ b ∈ fractionBytes n.fraction ++ exponentBytes n.exponent, IsScalarByte b := by
    intro b hb
    rcases List.mem_append.mp hb with hb | hb
    · exact fractionBytes_scalar b hb
    · rcases he : n.exponent with _ | e
      · rw [he] at hb
        cases hb
      · rw [he] at hb
        exact e.bytes_scalar b hb
  have hall : ∀ b ∈ rest ++ (fractionBytes n.fraction ++ exponentBytes n.exponent),
      IsScalarByte b := List.forall_mem_append.mpr ⟨hrest, htail⟩
  unfold Number.bytes
  rw [hwhole]
  by_cases hneg : n.negative = true
  · refine ⟨0x2D, first :: rest ++ (fractionBytes n.fraction ++ exponentBytes n.exponent), ?_,
      .inl rfl, ?_⟩
    · simp [hneg]
    · exact List.forall_mem_cons.mpr ⟨.inl hfirst, hall⟩
  · exact ⟨first, _, by simp [hneg], .inr hfirst, hall⟩

/-- A literal starts with a small letter, and goes on with scalar bytes. -/
theorem Literal.bytes_eq (l : Literal) : ∃ first rest, l.bytes = first :: rest ∧
    (0x61 ≤ first ∧ first ≤ 0x7A) ∧ ∀ b ∈ rest, IsScalarByte b := by
  unfold IsScalarByte
  cases l with
  | null =>
    refine ⟨0x6E, [0x75, 0x6C, 0x6C], rfl, by decide, fun b hb => ?_⟩
    simp only [List.mem_cons, List.not_mem_nil, or_false] at hb
    rcases hb with rfl | rfl | rfl <;> decide
  | true =>
    refine ⟨0x74, [0x72, 0x75, 0x65], rfl, by decide, fun b hb => ?_⟩
    simp only [List.mem_cons, List.not_mem_nil, or_false] at hb
    rcases hb with rfl | rfl | rfl <;> decide
  | false =>
    refine ⟨0x66, [0x61, 0x6C, 0x73, 0x65], rfl, by decide, fun b hb => ?_⟩
    simp only [List.mem_cons, List.not_mem_nil, or_false] at hb
    rcases hb with rfl | rfl | rfl | rfl <;> decide

end JsonText
