import Patchbay.Proofs.Number.Patterns

/-!
# Rounding keeps the order

Rounding an integer to the nearest number of a binary format is monotone: a greater integer may get
the same number, never a smaller one. Within one place this is so for rounded quotients, and a
greater place starts where the smaller one ends. The keys of 64-bit numbers follow.
-/

namespace Patchbay.Number

namespace Binary

variable {f : Format} {num den a b q : Nat}

/-! ## Rounded quotients -/

/-- A quotient is rounded up from above the half, and at the half if it is odd. -/
lemma roundQuotient_eq : roundQuotient num den =
    if 2 * (num % den) < den ∨ 2 * (num % den) = den ∧ num / den % 2 = 0 then num / den
    else num / den + 1 := by
  unfold roundQuotient
  dsimp only
  split
  · next h =>
    rw [Nat.compare_eq_lt] at h
    rw [if_pos (.inl h)]
  · next h =>
    rw [Nat.compare_eq_gt] at h
    rw [if_neg (by omega)]
  · next h =>
    rw [Nat.compare_eq_eq] at h
    by_cases heven : num / den % 2 = 0
    · rw [if_pos heven, if_pos (.inr ⟨h, heven⟩)]
    · rw [if_neg heven, if_neg (by omega)]

lemma le_roundQuotient (h : q * den ≤ num) (hden : 0 < den) : q ≤ roundQuotient num den := by
  have hq : q ≤ num / den := (Nat.le_div_iff_mul_le hden).mpr h
  rw [roundQuotient_eq]
  split <;> omega

lemma roundQuotient_le (h : num ≤ q * den) (hden : 0 < den) : roundQuotient num den ≤ q := by
  have hq : num / den ≤ q := (Nat.div_le_iff_le_mul_add_pred hden).mpr (by rw [Nat.mul_comm]; omega)
  have hsplit := Nat.div_add_mod num den
  rw [roundQuotient_eq]
  split
  · exact hq
  · next hup =>
    -- something is left over, so the quotient has not reached `q` yet
    have hrest : num % den ≠ 0 := by omega
    have hne : num / den ≠ q := by
      rintro rfl
      rw [Nat.mul_comm] at h
      omega
    omega

lemma roundQuotient_mono (h : a ≤ b) : roundQuotient a den ≤ roundQuotient b den := by
  rcases Nat.lt_or_eq_of_le (Nat.div_le_div_right (c := den) h) with hlt | heq
  · have hup : roundQuotient a den ≤ a / den + 1 := by
      rw [roundQuotient_eq]
      split <;> omega
    have hdown : b / den ≤ roundQuotient b den := by
      rw [roundQuotient_eq]
      split <;> omega
    omega
  · -- the same quotient before rounding, and no less of a rest
    have hrest : a % den ≤ b % den := by
      have ha := Nat.div_add_mod a den
      have hb := Nat.div_add_mod b den
      rw [heq] at ha
      omega
    rw [roundQuotient_eq, roundQuotient_eq, heq]
    split <;> split <;> omega

/-! ## Rounded integers -/

/-- The power of two of the last place that an integer is rounded to. -/
def lastPlace (f : Format) (num : Nat) : Int := max (num.log2 - f.fraction) f.leastPlace

/-- An integer in units of its last place, rounded. -/
def roundedUnits (f : Format) (num : Nat) : Nat :=
  roundQuotient (num * 2 ^ (-lastPlace f num).toNat) (2 ^ (lastPlace f num).toNat)

lemma nearestMagnitude_one (hnum : num ≠ 0) : nearestMagnitude f num 1 =
    min f.infinity ((lastPlace f num - f.leastPlace).toNat * 2 ^ f.fraction +
      roundedUnits f num) := by
  have hguess : 2 ^ num.log2 ≤ num * 2 ^ (-(num.log2 : Int)).toNat :=
    Nat.le_trans (Nat.log2_self_le hnum) (Nat.le_mul_of_pos_right _ (Nat.two_pow_pos _))
  have hone : Nat.log2 1 = 0 := by decide
  unfold nearestMagnitude
  simp only [if_neg hnum, hone, Nat.pow_eq, Nat.one_mul, Int.natCast_zero, Int.sub_zero,
    Int.toNat_natCast, if_pos hguess]
  rfl

lemma roundedUnits_le : roundedUnits f num ≤ 2 ^ (f.fraction + 1) := by
  refine roundQuotient_le ?_ (Nat.two_pow_pos _)
  have hnum : num < 2 ^ (num.log2 + 1) := Nat.lt_log2_self
  have hplace : (num.log2 : Int) - f.fraction ≤ lastPlace f num := Int.le_max_left _ _
  rw [← Nat.pow_add]
  calc num * 2 ^ (-lastPlace f num).toNat
      ≤ 2 ^ (num.log2 + 1) * 2 ^ (-lastPlace f num).toNat :=
    Nat.mul_le_mul_right _ (Nat.le_of_lt hnum)
    _ = 2 ^ (num.log2 + 1 + (-lastPlace f num).toNat) := (Nat.pow_add ..).symm
    _ ≤ 2 ^ (f.fraction + 1 + (lastPlace f num).toNat) :=
  Nat.pow_le_pow_right (by decide) (by omega)

/-- A number that fills the fraction. -/
lemma le_roundedUnits (hnum : num ≠ 0) (hplace : f.leastPlace < lastPlace f num) :
    2 ^ f.fraction ≤ roundedUnits f num := by
  refine le_roundQuotient ?_ (Nat.two_pow_pos _)
  have hself : 2 ^ num.log2 ≤ num := Nat.log2_self_le hnum
  have hexact : lastPlace f num = num.log2 - f.fraction := by
    unfold lastPlace at hplace ⊢
    omega
  rw [← Nat.pow_add]
  calc 2 ^ (f.fraction + (lastPlace f num).toNat)
      ≤ 2 ^ (num.log2 + (-lastPlace f num).toNat) := Nat.pow_le_pow_right (by decide) (by omega)
    _ = 2 ^ num.log2 * 2 ^ (-lastPlace f num).toNat := Nat.pow_add ..
    _ ≤ num * 2 ^ (-lastPlace f num).toNat := Nat.mul_le_mul_right _ hself

lemma lastPlace_mono (h : a ≤ b) (ha : a ≠ 0) : lastPlace f a ≤ lastPlace f b := by
  have hlog : a.log2 ≤ b.log2 := by
    rw [Nat.le_log2 (by omega)]
    exact Nat.le_trans (Nat.log2_self_le ha) h
  unfold lastPlace
  omega

lemma nearestMagnitude_mono (h : a ≤ b) : nearestMagnitude f a 1 ≤ nearestMagnitude f b 1 := by
  by_cases ha : a = 0
  · have hzero : nearestMagnitude f a 1 = 0 := if_pos ha
    rw [hzero]
    exact Nat.zero_le _
  · have hb : b ≠ 0 := by omega
    suffices hsum : (lastPlace f a - f.leastPlace).toNat * 2 ^ f.fraction + roundedUnits f a ≤
        (lastPlace f b - f.leastPlace).toNat * 2 ^ f.fraction + roundedUnits f b by
      rw [nearestMagnitude_one ha, nearestMagnitude_one hb]
      omega
    rcases Int.lt_or_eq_of_le (lastPlace_mono (f := f) h ha) with hlt | heq
    · -- the units of the smaller one fill two fractions at most, and the next place starts with one
      have hleast : f.leastPlace ≤ lastPlace f a := Int.le_max_right _ _
      have hunits : roundedUnits f a ≤ 2 ^ (f.fraction + 1) := roundedUnits_le
      have hfill := le_roundedUnits hb (Int.lt_of_le_of_lt hleast hlt)
      obtain ⟨i, hi⟩ := Int.eq_ofNat_of_zero_le (Int.sub_nonneg_of_le hleast)
      obtain ⟨j, hj⟩ :=
        Int.eq_ofNat_of_zero_le (Int.sub_nonneg_of_le (Int.le_trans hleast (Int.le_of_lt hlt)))
      have hij : i + 1 ≤ j := by omega
      have hstep : (i + 1) * 2 ^ f.fraction ≤ j * 2 ^ f.fraction := Nat.mul_le_mul_right _ hij
      rw [hi, hj, Int.toNat_natCast, Int.toNat_natCast]
      rw [Nat.pow_succ] at hunits
      rw [Nat.succ_mul] at hstep
      omega
    · unfold roundedUnits
      rw [heq]
      exact Nat.add_le_add_left (roundQuotient_mono (Nat.mul_le_mul_right _ h)) _

lemma nearestMagnitude_le : nearestMagnitude f a 1 ≤ f.infinity := by
  by_cases ha : a = 0
  · have hzero : nearestMagnitude f a 1 = 0 := if_pos ha
    rw [hzero]
    exact Nat.zero_le _
  · rw [nearestMagnitude_one ha]
    exact Nat.min_le_left _ _

end Binary

/-! ## Keys of rounded integers -/

variable {m n : Int}

lemma orderKey_doubleOfInt (n : Int) : orderKey (doubleOfInt n) =
    if n < 0 then -(Binary.nearestMagnitude Format.double n.natAbs 1 : Int) - 1
    else Binary.nearestMagnitude Format.double n.natAbs 1 := by
  have hnearest : Binary.nearest Format.double (decide (n < 0)) n.natAbs 0 =
      Binary.signed Format.double (decide (n < 0))
        (Binary.nearestMagnitude Format.double n.natAbs 1) := by
    simp [Binary.nearest]
  rw [doubleOfInt, hnearest, orderKey_signed Binary.nearestMagnitude_le]
  simp

/-- Rounding integers to 64-bit numbers keeps their order. -/
lemma orderKey_doubleOfInt_mono (h : m ≤ n) :
    orderKey (doubleOfInt m) ≤ orderKey (doubleOfInt n) := by
  rw [orderKey_doubleOfInt, orderKey_doubleOfInt]
  split
  · split
    · have hmono := Binary.nearestMagnitude_mono (f := Format.double) (a := n.natAbs)
          (b := m.natAbs) (by omega)
      omega
    · omega
  · have hmono := Binary.nearestMagnitude_mono (f := Format.double) (a := m.natAbs) (b := n.natAbs)
      (by omega)
    rw [if_neg (by omega)]
    omega

end Patchbay.Number
