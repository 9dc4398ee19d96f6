/-!
# Integers of fixed width

Eight integer types, unsigned and signed, of 8, 16, 32 and 64 bits. A value is an integer together
with the proof that its type holds it, so arithmetic is done on integers and checked once against
the range. Bit operations go through two's complement.
-/

namespace Patchbay

/-- The integer types in promotion order: by width, the unsigned type of a width first. -/
inductive IntType where
  | uint8 | int8 | uint16 | int16 | uint32 | int32 | uint64 | int64
deriving DecidableEq, Repr, Inhabited

namespace IntType

/-- All integer types in promotion order. -/
def all : List IntType := [uint8, int8, uint16, int16, uint32, int32, uint64, int64]

/-- The number of bits of a value. -/
def bits : IntType → Nat
  | uint8 | int8 => 8
  | uint16 | int16 => 16
  | uint32 | int32 => 32
  | uint64 | int64 => 64

/-- Whether the type holds negative numbers. -/
def isSigned : IntType → Bool
  | int8 | int16 | int32 | int64 => true
  | uint8 | uint16 | uint32 | uint64 => false

/-- The least number of the type. -/
def least (t : IntType) : Int :=
  if t.isSigned then -(Nat.pow 2 (t.bits - 1) : Nat) else 0

/-- The number after the greatest one of the type. -/
def bound (t : IntType) : Int :=
  if t.isSigned then Nat.pow 2 (t.bits - 1) else Nat.pow 2 t.bits

/-- The type holds the number `n`. -/
def Holds (t : IntType) (n : Int) : Prop := t.least ≤ n ∧ n < t.bound

instance (t : IntType) (n : Int) : Decidable (t.Holds n) :=
  inferInstanceAs (Decidable (_ ∧ _))

/-- Position in the promotion order of the integer types. -/
def rank : IntType → Nat
  | uint8 => 0
  | int8 => 1
  | uint16 => 2
  | int16 => 3
  | uint32 => 4
  | int32 => 5
  | uint64 => 6
  | int64 => 7

/-- The name of the type in programs and messages. -/
def name : IntType → String
  | uint8 => "uint8"
  | int8 => "int8"
  | uint16 => "uint16"
  | int16 => "int16"
  | uint32 => "uint32"
  | int32 => "int32"
  | uint64 => "uint64"
  | int64 => "int64"

theorem holds_zero (t : IntType) : t.Holds 0 := by cases t <;> decide

theorem holds_one (t : IntType) : t.Holds 1 := by cases t <;> decide

end IntType

/-- An integer that its type holds. -/
structure FixedInt (t : IntType) where
  /-- The integer. -/
  val : Int
  /-- The integer is in range. -/
  holds : t.Holds val
deriving DecidableEq

namespace FixedInt

variable {t : IntType}

instance : Inhabited (FixedInt t) := ⟨0, t.holds_zero⟩

/-- The integer `n` as a value of type `t`, if `t` holds it. -/
def ofInt? (t : IntType) (n : Int) : Option (FixedInt t) :=
  if h : t.Holds n then some ⟨n, h⟩ else none

theorem ofInt?_eq_some_iff {n : Int} {a : FixedInt t} : ofInt? t n = some a ↔ a.val = n := by
  unfold ofInt?
  constructor
  · intro h
    split at h
    · cases h
      rfl
    · cases h
  · rintro rfl
    simp [a.holds]

theorem ofInt?_eq_none_iff {n : Int} : ofInt? t n = none ↔ ¬t.Holds n := by
  unfold ofInt?
  split <;> simp_all

theorem ofInt?_val (a : FixedInt t) : ofInt? t a.val = some a :=
  ofInt?_eq_some_iff.2 rfl

/-- The two's complement of a value. -/
def toBitVec (a : FixedInt t) : BitVec t.bits := BitVec.ofInt t.bits a.val

/-- The number that a bit pattern stands for, read with or without a sign as the type says. -/
def valueOfBits (t : IntType) (b : BitVec t.bits) : Int :=
  if t.isSigned then b.toInt else b.toNat

theorem holds_valueOfBits (t : IntType) (b : BitVec t.bits) : t.Holds (valueOfBits t b) := by
  have hn := b.isLt
  have lo := @BitVec.le_toInt t.bits b
  have hi := @BitVec.toInt_lt t.bits b
  cases t <;>
    simp only [IntType.Holds, IntType.least, IntType.bound, IntType.isSigned, IntType.bits,
      valueOfBits, Nat.pow_eq] at * <;>
    simp only [Bool.false_eq_true, ↓reduceIte] <;> omega

/-- The value that a bit pattern stands for. -/
def ofBitVec (b : BitVec t.bits) : FixedInt t := ⟨valueOfBits t b, holds_valueOfBits t b⟩

/-- The value that an integer is congruent to modulo two to the width. -/
def wrap (t : IntType) (n : Int) : FixedInt t := ofBitVec (BitVec.ofInt t.bits n)

/-! ## Checked arithmetic -/

def add? (a b : FixedInt t) : Option (FixedInt t) := ofInt? t (a.val + b.val)

def sub? (a b : FixedInt t) : Option (FixedInt t) := ofInt? t (a.val - b.val)

def mul? (a b : FixedInt t) : Option (FixedInt t) := ofInt? t (a.val * b.val)

/-- The quotient rounded toward zero, if the divisor is not zero and the type holds the quotient. -/
def div? (a b : FixedInt t) : Option (FixedInt t) :=
  if b.val = 0 then none else ofInt? t (a.val.tdiv b.val)

/-- The remainder of `div?`. It is refused together with the quotient, although the type would
hold the remainder itself. -/
def mod? (a b : FixedInt t) : Option (FixedInt t) :=
  (a.div? b).bind fun _ => ofInt? t (a.val.tmod b.val)

def neg? (a : FixedInt t) : Option (FixedInt t) := ofInt? t (-a.val)

/-! ## Bits -/

def and (a b : FixedInt t) : FixedInt t := ofBitVec (a.toBitVec &&& b.toBitVec)

def or (a b : FixedInt t) : FixedInt t := ofBitVec (a.toBitVec ||| b.toBitVec)

def xor (a b : FixedInt t) : FixedInt t := ofBitVec (a.toBitVec ^^^ b.toBitVec)

def not (a : FixedInt t) : FixedInt t := ofBitVec (~~~a.toBitVec)

/-- A shift amount is a number of bits below the width. -/
def shiftAmount? (b : FixedInt t) : Option Nat :=
  if 0 ≤ b.val ∧ b.val < t.bits then some b.val.toNat else none

/-- Shift left; bits that leave the width are lost. -/
def shl? (a b : FixedInt t) : Option (FixedInt t) :=
  b.shiftAmount?.map fun k => ofBitVec (a.toBitVec <<< k)

/-- Shift right; a signed type repeats its sign bit. -/
def shr? (a b : FixedInt t) : Option (FixedInt t) :=
  b.shiftAmount?.map fun k =>
    ofBitVec (if t.isSigned then a.toBitVec.sshiftRight k else a.toBitVec >>> k)

end FixedInt
end Patchbay
