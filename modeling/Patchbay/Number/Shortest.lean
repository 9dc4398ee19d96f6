import Patchbay.Number.Binary

/-!
# Shortest decimals

A binary number is written with the fewest decimal digits that still identify it: among the decimals
that lie nearer to it than to any neighbour of its format, one with the fewest digits, and of those
the closest. Digits are found by exact arithmetic, grid by grid from the leading digit on. They are
laid out positionally, whatever the magnitude.
-/

namespace Patchbay.Number

/-- The decimal `digits * 10 ^ exponent`. -/
structure Decimal where
  digits : Nat
  exponent : Int
deriving DecidableEq, Repr

/-- The reals that round to a number, in units of `2 ^ place`. -/
structure Basin where
  /-- Halfway to the neighbour below. -/
  low : Nat
  /-- The number itself. -/
  middle : Nat
  /-- Halfway to the neighbour above. -/
  high : Nat
  /-- The power of two of the unit. -/
  place : Int
  /-- Whether the two ends belong to it. -/
  closed : Bool

namespace Basin

/-- The basin of `m * 2 ^ q` with `m` positive. Below a power of two the places are half as wide,
unless the number is among the smallest of its format. Ends round to an even fraction. -/
def of (f : Format) (m : Nat) (q : Int) : Basin where
  low := if m = Nat.pow 2 f.fraction ∧ f.leastPlace < q then 4 * m - 1 else 4 * m - 2
  middle := 4 * m
  high := 4 * m + 2
  place := q - 2
  closed := m % 2 = 0

/-- Compare the decimal `d` with `n` units. -/
def compareDecimal (b : Basin) (d : Decimal) (n : Nat) : Ordering :=
  compare (d.digits * Nat.pow 10 d.exponent.toNat * Nat.pow 2 (-b.place).toNat)
    (n * Nat.pow 2 b.place.toNat * Nat.pow 10 (-d.exponent).toNat)

/-- Whether the decimal `d` rounds to the number. -/
def contains (b : Basin) (d : Decimal) : Bool :=
  match b.compareDecimal d b.low, b.compareDecimal d b.high with
  | .gt, .lt => true
  | .eq, .lt | .gt, .eq => b.closed
  | _, _ => false

/-- The number of decimal digits before the point; negative or zero if the number starts with zeros
after the point. -/
def magnitude (b : Basin) : Int :=
  let whole := b.middle * Nat.pow 2 b.place.toNat / Nat.pow 2 (-b.place).toNat
  if whole = 0 then
    1 - ((Nat.toDigits 10 (Nat.pow 2 (-b.place).toNat / b.middle)).length : Int)
  else (Nat.toDigits 10 whole).length

/-- The two neighbours of the number among the multiples of `10 ^ exponent`, and of those the ones
that round to it. If both do, the closer one is taken, and the upper one of two equally close. -/
def onGrid? (b : Basin) (exponent : Int) : Option Decimal :=
  let floor := b.middle * Nat.pow 2 b.place.toNat * Nat.pow 10 (-exponent).toNat /
    (Nat.pow 2 (-b.place).toNat * Nat.pow 10 exponent.toNat)
  let lower : Decimal := ⟨floor, exponent⟩
  let upper : Decimal := ⟨floor + 1, exponent⟩
  match b.contains lower, b.contains upper with
  | true, true =>
    let between : Decimal := ⟨lower.digits + upper.digits, exponent⟩
    if b.compareDecimal between (2 * b.middle) = .gt then some lower else some upper
  | true, false => some lower
  | false, true => some upper
  | false, false => none

/-- The exact decimal of the number. -/
def exact (b : Basin) : Decimal :=
  ⟨b.middle * Nat.pow 2 b.place.toNat * Nat.pow 5 (-b.place).toNat, min b.place 0⟩

/-- The shortest decimal that rounds to the number. No format of at most 64 bits needs more than
seventeen digits. -/
def shortest (b : Basin) : Decimal :=
  let found := (List.range 17).findSome? fun (n : Nat) => b.onGrid? (b.magnitude - (n + 1))
  found.getD b.exact

end Basin

/-- Drop the zeros at the end of the digits. -/
def Decimal.strip (d : Decimal) : Decimal :=
  if d.digits ≠ 0 ∧ d.digits % 10 = 0 then Decimal.strip ⟨d.digits / 10, d.exponent + 1⟩ else d
termination_by d.digits
decreasing_by omega

/-- Lay out a decimal positionally; a whole number gets no point. -/
def Decimal.layout (d : Decimal) : List Char :=
  let digits := Nat.toDigits 10 d.digits
  let places := (-d.exponent).toNat
  if places = 0 then digits ++ List.replicate d.exponent.toNat '0'
  else if places < digits.length then
    digits.take (digits.length - places) ++ '.' :: digits.drop (digits.length - places)
  else '0' :: '.' :: (List.replicate (places - digits.length) '0' ++ digits)

/-- The text of a number of the format `f`. -/
def Binary.text (f : Format) : Binary → String
  | .nan => "NaN"
  | .infinite negative => if negative then "-inf" else "inf"
  | .finite negative m q =>
    let digits := if m = 0 then ['0'] else (Basin.of f m q).shortest.strip.layout
    String.ofList (if negative then '-' :: digits else digits)

/-- The text of a 64-bit number. -/
def textOfDouble (x : Double) : String := (ofDouble x).text Format.double

/-- The text of a 32-bit number. -/
def textOfSingle (x : Single) : String := (ofSingle x).text Format.single

end Patchbay.Number
