import Mathlib.Algebra.Group.Nat.Defs
import Mathlib.Logic.Function.Defs
import Mathlib.Tactic.Lemma
import Patchbay.Number.Binary

/-!
# Patterns and keys

The key of the total order can be read off the sign and the magnitude of a pattern, and two 64-bit
numbers with the same key are the same.
-/

namespace Patchbay.Number

lemma signBit_double : Format.double.signBit = 2 ^ 63 := by decide

lemma infinity_double : Format.double.infinity = 2047 * 2 ^ 52 := by decide

/-- The pattern of a number that was made from a pattern. -/
lemma toNat_bits_doubleOfBits {bits : Nat} (hlt : bits < 2 ^ 64) :
    (doubleOfBits bits).bits.toNat = bits :=
  Nat.mod_eq_of_lt hlt

/-- The key of a number with a sign and a magnitude. -/
lemma orderKey_signed {negative : Bool} {magnitude : Nat}
    (hm : magnitude ≤ Format.double.infinity) :
    orderKey (doubleOfBits (Binary.signed Format.double negative magnitude)) =
      if negative then -(magnitude : Int) - 1 else magnitude := by
  rw [infinity_double] at hm
  cases negative with
  | false =>
    have hbits : (doubleOfBits magnitude).bits.toNat = magnitude :=
      toNat_bits_doubleOfBits (by omega)
    simp only [Binary.signed, orderKey, signBit_double, Bool.false_eq_true, if_false, hbits]
    exact if_neg (by omega)
  | true =>
    have hmod : (2 ^ 63 + magnitude) % 2 ^ 63 = magnitude := by omega
    have hbits : (doubleOfBits (2 ^ 63 + magnitude)).bits.toNat = 2 ^ 63 + magnitude :=
      toNat_bits_doubleOfBits (by omega)
    simp only [Binary.signed, orderKey, signBit_double, if_true, hbits, hmod]
    exact if_pos (by omega)

/-- Numbers with the same key are the same, NaN patterns included. -/
lemma orderKey_injective : Function.Injective orderKey := by
  rintro ⟨x⟩ ⟨y⟩ hkey
  have hx := x.toNat_lt
  have hy := y.toNat_lt
  refine congrArg Double.mk (UInt64.toNat_inj.mp ?_)
  simp only [orderKey, signBit_double] at hkey
  split at hkey <;> split at hkey <;> omega

end Patchbay.Number
