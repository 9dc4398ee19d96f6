import Patchbay.Number.Binary

/-!
# Numerals

Reading numbers from text. An integer numeral is an optional sign and decimal digits. A decimal
numeral has a sign, digits with an optional point, and an optional power of ten; infinities and NaN
are written by name, in any case. The numeral is the whole text.
-/

namespace Patchbay.Number

/-- The digit that a character stands for. -/
def digit? (c : Char) : Option Nat :=
  if '0' ≤ c ∧ c ≤ '9' then some (c.toNat - '0'.toNat) else none

/-- The number written by decimal digits alone, starting from the number written so far. -/
def digitsFrom? (start : Nat) : List Char → Option Nat
  | [] => some start
  | c :: rest => (digit? c).bind fun d => digitsFrom? (10 * start + d) rest

/-- The number written by at least one decimal digit and nothing else. -/
def natural? : List Char → Option Nat
  | [] => none
  | cs => digitsFrom? 0 cs

/-- Take a sign off the front of a text; `true` is the negative one. -/
def takeSign : List Char → Bool × List Char
  | '-' :: rest => (true, rest)
  | '+' :: rest => (false, rest)
  | cs => (false, cs)

/-- The integer that a text writes. -/
def integer? (cs : List Char) : Option Int :=
  let (negative, digits) := takeSign cs
  (natural? digits).map fun n => if negative then -(n : Int) else n

/-- The number written in radix ten, at least one digit, if `bits` bits of two's complement hold
it. -/
def wideInteger? (bits : Nat) (cs : List Char) : Option Int :=
  let bound : Int := Nat.pow 2 (bits - 1)
  (integer? cs).filter fun n => -bound ≤ n ∧ n < bound

/-! ## Decimal numerals -/

/-- The power of ten after the digits: nothing, or a mark and an integer numeral. -/
def exponent? : List Char → Option Int
  | [] => some 0
  | c :: rest => if c = 'e' ∨ c = 'E' then integer? rest else none

/-- The digits and the power of ten of an unsigned decimal numeral: digits around an optional point,
at least one of them, then the exponent. -/
def decimal? (cs : List Char) : Option (Nat × Int) :=
  let isDigit := fun c => (digit? c).isSome
  let whole := cs.takeWhile isDigit
  let rest := cs.dropWhile isDigit
  let (places, rest) :=
    match rest with
    | '.' :: rest => (rest.takeWhile isDigit, rest.dropWhile isDigit)
    | _ => ([], rest)
  do
    let digits ← natural? (whole ++ places)
    let exponent ← exponent? rest
    return (digits, exponent - places.length)

/-- The pattern of the 64-bit magnitude nearest to `digits * 10 ^ exponent`. Numbers that are far
outside the range of the format on either side are not computed. -/
def nearestDecimal (digits : Nat) (exponent : Int) : Nat :=
  let magnitude := (Nat.toDigits 10 digits).length + exponent
  if digits = 0 ∨ magnitude < -400 then 0
  else if 400 < magnitude then Format.double.infinity
  else
    Binary.nearestMagnitude Format.double (digits * Nat.pow 10 exponent.toNat)
      (Nat.pow 10 (-exponent).toNat)

/-- The pattern of a magnitude written by name. -/
def named? (cs : List Char) : Option Nat :=
  let word := String.ofList (cs.map Char.toLower)
  if word = "inf" ∨ word = "infinity" then some Format.double.infinity
  else if word = "nan" then some (Binary.nan.toBits Format.double)
  else none

/-- The 64-bit number that a text writes, rounded to nearest. -/
def double? (cs : List Char) : Option Double :=
  let (negative, unsigned) := takeSign cs
  let magnitude? :=
    match decimal? unsigned with
    | some (digits, exponent) => some (nearestDecimal digits exponent)
    | none => named? unsigned
  magnitude?.map fun magnitude => doubleOfBits (Binary.signed Format.double negative magnitude)

end Patchbay.Number
