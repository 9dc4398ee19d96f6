/-!
# Binary interchange formats

A finite binary number is `m * 2 ^ q` with a sign. This module reads bit patterns of 32 and 64 bits
as such numbers and rounds quotients of naturals to the nearest pattern, ties to the even one. All
steps are exact arithmetic on naturals, so conversions between formats, from integers and from
decimals are one function each.

A machine number is its pattern. The many patterns that stand for no number are different machine
numbers: they differ in sign and in payload, and the total order tells them apart.
-/

namespace Patchbay.Number

/-- The field widths of a binary format. -/
structure Format where
  /-- Bits of the stored fraction. -/
  fraction : Nat
  /-- Bits of the exponent field. -/
  exponent : Nat
deriving DecidableEq, Repr

namespace Format

/-- The 32-bit format. -/
def single : Format := ⟨23, 8⟩

/-- The 64-bit format. -/
def double : Format := ⟨52, 11⟩

/-- The power of two that the last place of the smallest numbers is worth. -/
def leastPlace (f : Format) : Int := 2 - (Nat.pow 2 (f.exponent - 1) : Nat) - f.fraction

/-- The pattern of positive infinity, which is also the first one that is no finite magnitude. -/
def infinity (f : Format) : Nat := (Nat.pow 2 f.exponent - 1) * Nat.pow 2 f.fraction

/-- The value of the sign bit. -/
def signBit (f : Format) : Nat := Nat.pow 2 (f.exponent + f.fraction)

end Format

/-- What a bit pattern stands for. -/
inductive Binary where
  | nan
  | infinite (negative : Bool)
  /-- The number `m * 2 ^ q`, or its negative. Zeros keep their sign. -/
  | finite (negative : Bool) (m : Nat) (q : Int)
deriving DecidableEq, Repr

namespace Binary

/-- Read a bit pattern. -/
def ofBits (f : Format) (bits : Nat) : Binary :=
  let negative := f.signBit ≤ bits
  let magnitude := bits % f.signBit
  let power := magnitude / Nat.pow 2 f.fraction
  let rest := magnitude % Nat.pow 2 f.fraction
  if f.infinity < magnitude then nan
  else if magnitude = f.infinity then infinite negative
  else if power = 0 then finite negative rest f.leastPlace
  else finite negative (Nat.pow 2 f.fraction + rest) (f.leastPlace + power - 1)

/-- `num / den` rounded to the nearest natural, a half to the even one. -/
def roundQuotient (num den : Nat) : Nat :=
  let floor := num / den
  match compare (2 * (num % den)) den with
  | .lt => floor
  | .gt => floor + 1
  | .eq => if floor % 2 = 0 then floor else floor + 1

/-- The pattern of the magnitude nearest to `num / den`; from half a place above the greatest
finite one on it is infinity. The place is chosen so that the rounded number fills the fraction,
unless the number is too small for that; a carry out of the fraction lands in the exponent. -/
def nearestMagnitude (f : Format) (num den : Nat) : Nat :=
  if num = 0 then 0
  else
    let guess : Int := (num.log2 : Int) - den.log2
    let power :=
      if den * Nat.pow 2 guess.toNat ≤ num * Nat.pow 2 (-guess).toNat then guess else guess - 1
    let place := max (power - f.fraction) f.leastPlace
    let m := roundQuotient (num * Nat.pow 2 (-place).toNat) (den * Nat.pow 2 place.toNat)
    min f.infinity ((place - f.leastPlace).toNat * Nat.pow 2 f.fraction + m)

/-- The pattern of a magnitude with a sign. -/
def signed (f : Format) (negative : Bool) (magnitude : Nat) : Nat :=
  if negative then f.signBit + magnitude else magnitude

/-- The pattern of the number nearest to `m * 2 ^ q`, with a sign. -/
def nearest (f : Format) (negative : Bool) (m : Nat) (q : Int) : Nat :=
  signed f negative (nearestMagnitude f (m * Nat.pow 2 q.toNat) (Nat.pow 2 (-q).toNat))

/-- The pattern for a number of another format. -/
def toBits (f : Format) : Binary → Nat
  | nan => f.infinity + Nat.pow 2 (f.fraction - 1)
  | infinite negative => signed f negative f.infinity
  | finite negative m q => nearest f negative m q

/-- The integer next to a finite number on the side of zero. -/
def truncate? : Binary → Option Int
  | finite negative m q =>
    let whole : Nat := m * Nat.pow 2 q.toNat / Nat.pow 2 (-q).toNat
    some (if negative then -whole else whole)
  | _ => none

/-- The remainder of a division whose quotient is rounded toward zero, for a finite dividend and a
divisor that is neither zero nor infinite. It has the sign of the dividend and is always exact. -/
def remainder (f : Format) (negative : Bool) (m : Nat) (q : Int) (m' : Nat) (q' : Int) : Nat :=
  let place := min q q'
  nearest f negative ((m * Nat.pow 2 (q - place).toNat) % (m' * Nat.pow 2 (q' - place).toNat)) place

/-- The pattern of a NaN with a sign and with the given places below the quiet one. -/
def quiet (f : Format) (negative : Bool) (payload : Nat) : Nat :=
  signed f negative
    (f.infinity + Nat.pow 2 (f.fraction - 1) + payload % Nat.pow 2 (f.fraction - 1))

/-- The pattern in the format `g` for a pattern of the format `f`. A NaN keeps its sign and the
leading places of its payload, and comes out quiet. -/
def convert (f g : Format) (bits : Nat) : Nat :=
  match ofBits f bits with
  | nan =>
    let payload := bits % Nat.pow 2 f.fraction
    quiet g (f.signBit ≤ bits) (payload * Nat.pow 2 g.fraction / Nat.pow 2 f.fraction)
  | number => number.toBits g

end Binary

/-! ## Machine numbers -/

/-- A 32-bit number, which is its pattern. -/
structure Single where
  bits : UInt32
deriving DecidableEq, Repr, Inhabited

/-- A 64-bit number, which is its pattern. -/
structure Double where
  bits : UInt64
deriving DecidableEq, Repr, Inhabited

/-- The 64-bit number with the given pattern. -/
def doubleOfBits (bits : Nat) : Double := ⟨bits.toUInt64⟩

/-- The 32-bit number with the given pattern. -/
def singleOfBits (bits : Nat) : Single := ⟨bits.toUInt32⟩

/-- What a 64-bit number stands for. -/
def ofDouble (x : Double) : Binary := Binary.ofBits Format.double x.bits.toNat

/-- What a 32-bit number stands for. -/
def ofSingle (x : Single) : Binary := Binary.ofBits Format.single x.bits.toNat

/-- The 64-bit number equal to a 32-bit one. -/
def widen (x : Single) : Double :=
  doubleOfBits (Binary.convert Format.single Format.double x.bits.toNat)

/-- The 32-bit number nearest to a 64-bit one. -/
def narrow (x : Double) : Single :=
  singleOfBits (Binary.convert Format.double Format.single x.bits.toNat)

/-- The 64-bit number nearest to an integer. -/
def doubleOfInt (n : Int) : Double :=
  doubleOfBits (Binary.nearest Format.double (n < 0) n.natAbs 0)

namespace Double

/-- The number that machine arithmetic computes with. -/
def value (x : Double) : Float := Float.ofBits x.bits

/-- A result of machine arithmetic. Which NaN a machine gives is left open; here it is always the
plain quiet one. -/
def ofValue (x : Float) : Double := ⟨x.toBits⟩

/-- The number with the other sign, NaN included. -/
def neg (x : Double) : Double := ⟨x.bits ^^^ Format.double.signBit.toUInt64⟩

/-- Whether the number is zero, of either sign. -/
def isZero (x : Double) : Bool := x.value == 0

/-- The remainder of a division. Without a finite dividend and a nonzero divisor there is none; an
infinite divisor leaves the dividend as it is. -/
def rem (x y : Double) : Double :=
  match ofDouble x, ofDouble y with
  | .finite negative m q, .finite _ m' q' =>
    if m' = 0 then doubleOfBits (Binary.nan.toBits Format.double)
    else doubleOfBits (Binary.remainder Format.double negative m q m' q')
  | .finite .., .infinite _ => x
  | _, _ => doubleOfBits (Binary.nan.toBits Format.double)

end Double

namespace Single

/-- The number that machine arithmetic computes with. -/
def value (x : Single) : Float32 := Float32.ofBits x.bits

/-- A result of machine arithmetic. Which NaN a machine gives is left open; here it is always the
plain quiet one. -/
def ofValue (x : Float32) : Single := ⟨x.toBits⟩

/-- The number with the other sign, NaN included. -/
def neg (x : Single) : Single := ⟨x.bits ^^^ Format.single.signBit.toUInt32⟩

/-- Whether the number is zero, of either sign. -/
def isZero (x : Single) : Bool := x.value == 0

/-- The remainder of a division. -/
def rem (x y : Single) : Single := narrow ((widen x).rem (widen y))

end Single

/-- The key of the total order of 64-bit patterns: by sign, then by magnitude, with the negative
zero below the positive one and the NaN patterns outside the infinities, on the side of their
sign. -/
def orderKey (x : Double) : Int :=
  let bits := x.bits.toNat
  if Format.double.signBit ≤ bits then -((bits % Format.double.signBit : Nat) : Int) - 1 else bits

end Patchbay.Number
