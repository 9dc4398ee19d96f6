import Mathlib.Tactic.Common
import Patchbay.Proofs.Failures

/-!
# Operators on whole numbers

A truth value or an integer of any type is an operand with a mathematical number. Where the common
type of two such operands is an integer type, it holds both numbers, so converting the operands
loses nothing and the checked operation on them is the operation on the numbers: its result if the
common type holds it, and a failure that names the type if not. Comparisons need no common type to
be exact.
-/

namespace Patchbay

namespace BinaryOp

/-- The operation on integers that a ring operator stands for, and its name in messages. -/
def arithmetic? : BinaryOp → Option ((Int → Int → Int) × String)
  | add => some (fun m n => m + n, "addition")
  | sub => some (fun m n => m - n, "subtraction")
  | mul => some (fun m n => m * n, "multiplication")
  | _ => none

/-- The relation on integers that a comparison operator stands for. -/
def relation? : BinaryOp → Option (Int → Int → Bool)
  | eq => some fun m n => m = n
  | notEq => some fun m n => m ≠ n
  | lt => some fun m n => m < n
  | ltEq => some fun m n => m ≤ n
  | gt => some fun m n => n < m
  | gtEq => some fun m n => n ≤ m
  | _ => none

end BinaryOp

variable {a b : Primitive} {m n : Int} {s t : IntType} {op : BinaryOp} {f : Int → Int → Int}
  {R : Int → Int → Bool} {word : String}

/-- What a comparison operator says of the order of two integers is its relation between them. -/
lemma BinaryOp.holds_compare (hR : op.relation? = some R) : op.holds (compare m n) = R m n := by
  cases op <;> cases hR <;> rw [Bool.eq_iff_iff, decide_eq_true_iff]
  case eq | notEq => simp [holds]
  case lt => simp [holds, Int.compare_eq_lt]
  case ltEq => exact Std.isLE_compare
  case gt => simp [holds, Int.compare_eq_gt]
  case gtEq => exact Std.isGE_compare

lemma BinaryOp.isComparison_of_arithmetic (hf : op.arithmetic? = some (f, word)) :
    op.isComparison = false := by
  cases op <;> first | rfl | cases hf

lemma BinaryOp.isComparison_of_relation (hR : op.relation? = some R) : op.isComparison = true := by
  cases op <;> first | rfl | cases hR

/-! ## Quotients and remainders -/

namespace IntType

/-- A type with negative numbers is symmetric but for its least one. -/
lemma least_eq (t : IntType) : t.least = 0 ∨ t.least = -t.bound := by
  cases t <;> decide

lemma bound_pos (t : IntType) : 0 < t.bound := by
  cases t <;> decide

/-- A remainder lies between zero and the dividend. -/
lemma holds_remainder (hm : t.Holds m) : t.Holds (m - n * m.tdiv n) := by
  have hzero := t.holds_zero
  have habs : (m.tmod n).natAbs ≤ m.natAbs := by
    rw [Int.natAbs_tmod]
    exact Nat.mod_le _ _
  rw [← Int.tmod_def]
  unfold Holds at *
  rcases Int.le_total 0 m with hsign | hsign
  · have := Int.tmod_nonneg n hsign
    omega
  · have := Int.tmod_nonneg n (Int.neg_nonneg_of_nonpos hsign)
    rw [Int.neg_tmod] at this
    omega

/-- The least number divided by minus one is the only quotient that the type does not hold. -/
lemma holds_quotient (hm : t.Holds m) (hn : t.Holds n) (hn0 : n ≠ 0)
    (hcorner : ¬(m = t.least ∧ n = -1)) : t.Holds (m.tdiv n) := by
  have hleast := t.least_eq
  have hbound := t.bound_pos
  have habs := Int.natAbs_tdiv_le_natAbs m n
  unfold Holds at *
  by_cases hone : n = -1
  · -- the quotient is the negation of the dividend
    subst hone
    rw [Int.tdiv_neg, Int.tdiv_one]
    omega
  · rcases Int.lt_or_gt_of_ne hn0 with hneg | hpos
    · -- the divisor is at most minus two, so the quotient is at most half as large as the dividend
      have hhalf : (m.tdiv n).natAbs ≤ m.natAbs / 2 := by
        rw [Int.natAbs_tdiv]
        exact Nat.div_le_div_left (by omega) (by decide)
      omega
    · -- the quotient lies between zero and the dividend
      rcases Int.le_total 0 m with hsign | hsign
      · have := Int.tdiv_nonneg hsign (Int.le_of_lt hpos)
        omega
      · have := Int.tdiv_nonneg (Int.neg_nonneg_of_nonpos hsign) (Int.le_of_lt hpos)
        rw [Int.neg_tdiv] at this
        omega

end IntType

/-! ## Common types -/

namespace IntType

/-- Every number of the type `s` is one of the type `t`. -/
def Within (s t : IntType) : Prop := t.least ≤ s.least ∧ s.bound ≤ t.bound

instance (s t : IntType) : Decidable (s.Within t) := inferInstanceAs (Decidable (_ ∧ _))

lemma Within.holds (h : s.Within t) (hm : s.Holds m) : t.Holds m :=
  ⟨Int.le_trans h.1 hm.1, Int.lt_of_lt_of_le hm.2 h.2⟩

lemma Within.refl (t : IntType) : t.Within t := ⟨Int.le_refl _, Int.le_refl _⟩

end IntType

namespace PrimType

/-- Every number of the type is one of the integer type `t`; truth values count as zero and one. -/
def Within : PrimType → IntType → Prop
  | bool, _ => True
  | int s, t => s.Within t
  | _, _ => False

lemma common_comm (p q : PrimType) : p.common q = q.common p := by
  cases p with
  | int s =>
    cases q with
    | int t => cases s <;> cases t <;> rfl
    | _ => cases s <;> rfl
  | _ =>
    cases q with
    | int t => cases t <;> rfl
    | _ => rfl

/-- An integer type that two types have in common holds the numbers of the first. -/
lemma within_of_common {p q : PrimType} (h : p.common q = .int t) : p.Within t := by
  cases p with
  | bool => trivial
  | int s =>
    cases q with
    | int r =>
      -- the widths of all pairs: the wider of two types with a sign or of two without, and twice
      -- the width of the unsigned one if the signs differ
      cases s <;> cases r <;> cases h <;> exact ⟨by decide, by decide⟩
    | bool =>
      cases s <;> cases h <;> exact IntType.Within.refl _
    | _ => cases s <;> cases h
  | _ =>
    cases q with
    | int r => cases r <;> cases h
    | _ => cases h

end PrimType

/-! ## Operands -/

namespace Primitive

/-- The type of a whole number holds it. -/
lemma holds_of_within (ha : a.scalar? = some (.whole m)) (h : a.type.Within t) : t.Holds m := by
  cases a with
  | bool b =>
    cases ha
    cases b
    · exact t.holds_zero
    · exact t.holds_one
  | int s k =>
    cases ha
    exact IntType.Within.holds h k.holds
  | _ => cases ha

lemma holds_left (ha : a.scalar? = some (.whole m)) (ht : a.type.common b.type = .int t) :
    t.Holds m :=
  holds_of_within ha (PrimType.within_of_common ht)

lemma holds_right (hb : b.scalar? = some (.whole n)) (ht : a.type.common b.type = .int t) :
    t.Holds n :=
  holds_left hb (a := b) (b := a) (by rw [PrimType.common_comm, ht])

/-- A number that an integer type holds is converted to it unchanged. -/
lemma ofScalar_int (hm : t.Holds m) : ofScalar a (.whole m) (.int t) = .ok (.int t ⟨m, hm⟩) := by
  have hof : FixedInt.ofInt? t m = some ⟨m, hm⟩ := FixedInt.ofInt?_eq_some_iff.mpr rfl
  simp only [ofScalar, Scalar.whole?, Option.bind_some, hof]
  rfl

lemma cast_int (ha : a.scalar? = some (.whole m)) (hm : t.Holds m) :
    a.cast (.int t) = .ok (.int t ⟨m, hm⟩) := by
  cases a with
  | bool b =>
    cases ha
    exact ofScalar_int hm
  | int s k =>
    cases ha
    by_cases hs : s = t
    · cases hs
      exact if_pos rfl
    · exact (if_neg fun h => hs (PrimType.int.inj h)).trans (ofScalar_int hm)
  | _ => cases ha

/-! ## Operators -/

/-- Operators convert their operands to the common type, except that two integers are compared as
they are. -/
lemma binary_eq_binarySame (ha : a.scalar? = some (.whole m)) (hb : b.scalar? = some (.whole n))
    (hop : op.isComparison = true → a.type = .bool ∨ b.type = .bool) :
    ∃ invalid, a.binary op b = (do
      binarySame op (← a.cast (a.type.common b.type)) (← b.cast (a.type.common b.type))
        invalid) := by
  cases a <;> cases b <;> cases ha <;> cases hb <;> cases op <;> first
    | exact ⟨_, rfl⟩
    | exact absurd (hop rfl) (by simp [type])

/-- On operands whose common type is an integer type, an operator is the one of that type on their
numbers. -/
lemma binary_eq_binaryInt (ha : a.scalar? = some (.whole m)) (hb : b.scalar? = some (.whole n))
    (ht : a.type.common b.type = .int t)
    (hop : op.isComparison = true → a.type = .bool ∨ b.type = .bool) :
    a.binary op b =
      binaryInt op (⟨m, holds_left ha ht⟩ : FixedInt t) ⟨n, holds_right hb ht⟩ t.name := by
  obtain ⟨invalid, hbinary⟩ := binary_eq_binarySame ha hb hop
  rw [hbinary, ht, cast_int ha (holds_left ha ht), cast_int hb (holds_right hb ht)]
  exact dif_pos rfl

lemma binaryInt_of_comparison {k l : FixedInt t} (hop : op.isComparison = true) :
    binaryInt op k l word = .ok (.bool (op.holds (compare k.val l.val))) := by
  cases op <;> first | rfl | cases hop

lemma binaryInt_of_arithmetic {k l : FixedInt t} {typeName : String}
    (hf : op.arithmetic? = some (f, word)) :
    binaryInt op k l typeName =
      match FixedInt.ofInt? t (f k.val l.val) with
      | some r => .ok (.int t r)
      | none => .error (.of (.integerOverflow ".binaryOp" word typeName)) := by
  cases op <;> cases hf <;> rfl

section Division

variable {k l : FixedInt t} {typeName : String}

lemma binaryInt_div_of_holds (hl : l.val ≠ 0) (hq : t.Holds (k.val.tdiv l.val)) :
    binaryInt .div k l typeName = .ok (.int t ⟨k.val.tdiv l.val, hq⟩) := by
  simp only [binaryInt, FixedInt.div?, if_neg hl, FixedInt.ofInt?_val ⟨_, hq⟩]
  rfl

lemma binaryInt_div_of_not_holds (hl : l.val ≠ 0) (hq : ¬t.Holds (k.val.tdiv l.val)) :
    binaryInt .div k l typeName =
    .error (.of (.integerOverflow ".binaryOp" "division" typeName)) := by
  simp only [binaryInt, FixedInt.div?, if_neg hl, FixedInt.ofInt?_eq_none_iff.mpr hq]
  rfl

/-- The remainder is there if the quotient is. -/
lemma binaryInt_mod_of_holds (hl : l.val ≠ 0) (hq : t.Holds (k.val.tdiv l.val)) :
    binaryInt .mod k l typeName =
      .ok (.int t ⟨k.val - l.val * k.val.tdiv l.val, IntType.holds_remainder k.holds⟩) := by
  have hr : FixedInt.ofInt? t (k.val.tmod l.val) =
      some ⟨k.val - l.val * k.val.tdiv l.val, IntType.holds_remainder k.holds⟩ :=
    FixedInt.ofInt?_eq_some_iff.mpr (Int.tmod_def ..).symm
  simp only [binaryInt, FixedInt.mod?, FixedInt.div?, if_neg hl, FixedInt.ofInt?_val ⟨_, hq⟩,
    Option.bind_some, hr]
  rfl

lemma binaryInt_mod_of_not_holds (hl : l.val ≠ 0) (hq : ¬t.Holds (k.val.tdiv l.val)) :
    binaryInt .mod k l typeName =
    .error (.of (.integerOverflow ".binaryOp" "modulo" typeName)) := by
  simp only [binaryInt, FixedInt.mod?, FixedInt.div?, if_neg hl, FixedInt.ofInt?_eq_none_iff.mpr hq,
    Option.bind_none]
  rfl

end Division

/-- Whole numbers of any two types compare as numbers. -/
lemma binary_of_comparison (ha : a.scalar? = some (.whole m)) (hb : b.scalar? = some (.whole n))
    (hop : op.isComparison = true) : a.binary op b = .ok (.bool (op.holds (compare m n))) := by
  cases a with
  | bool x =>
    cases b with
    | bool y =>
      -- two booleans are compared as booleans, not as numbers
      cases ha
      cases hb
      cases op <;> cases x <;> cases y <;> first | rfl | cases hop
    | int t l =>
      have ht : PrimType.common .bool (.int t) = .int t := by cases t <;> rfl
      exact (binary_eq_binaryInt ha hb ht fun _ => .inl rfl).trans (binaryInt_of_comparison hop)
    | _ => cases hb
  | int t k =>
    cases b with
    | bool y =>
      have ht : PrimType.common (.int t) .bool = .int t := by cases t <;> rfl
      exact (binary_eq_binaryInt ha hb ht fun _ => .inr rfl).trans (binaryInt_of_comparison hop)
    | int t' l =>
      cases ha
      cases hb
      cases op <;> first | rfl | cases hop
    | _ => cases hb
  | _ => cases ha

end Primitive

/-! ## Exact operators -/

namespace Value

/-- The number `n` as the result of an operation in the type `t`: the number itself if the type
holds it, and otherwise an overflow that names the operation and the type. -/
def checked (t : IntType) (n : Int) (word : String) : Except EvalError Value :=
  if h : t.Holds n then .ok (.int t ⟨n, h⟩)
  else .error (.of (.integerOverflow ".binaryOp" word t.name))

lemma binary_prim : binary op (.prim a) (.prim b) = prim <$> a.binary op b := rfl

lemma checked_of_holds (h : t.Holds n) : checked t n word = .ok (.int t ⟨n, h⟩) := dif_pos h

lemma checked_of_not_holds (h : ¬t.Holds n) :
    checked t n word = .error (.of (.integerOverflow ".binaryOp" word t.name)) := dif_neg h

lemma binary_of_arithmetic (ha : a.scalar? = some (.whole m)) (hb : b.scalar? = some (.whole n))
    (ht : a.type.common b.type = .int t) (hf : op.arithmetic? = some (f, word)) :
    binary op (.prim a) (.prim b) = checked t (f m n) word := by
  have hop : op.isComparison = true → a.type = .bool ∨ b.type = .bool := by
    rw [BinaryOp.isComparison_of_arithmetic hf]
    exact nofun
  rw [binary_prim, Primitive.binary_eq_binaryInt ha hb ht hop, Primitive.binaryInt_of_arithmetic hf]
  by_cases hfits : t.Holds (f m n)
  · rw [checked_of_holds hfits, FixedInt.ofInt?_val (⟨f m n, hfits⟩ : FixedInt t)]
    rfl
  · rw [checked_of_not_holds hfits, FixedInt.ofInt?_eq_none_iff.mpr hfits]
    rfl

/-- For operands that are truth values or integers with the numbers `m` and `n`: in an integer type
that their types have in common, the three ring operators give the exact result or, if the type does
not hold it, an overflow that names the type, and `+` and `*` give the same for the operands in
either order. Comparisons compare the numbers, whatever the common type is. -/
theorem integer_operators_exact (ha : a.scalar? = some (.whole m))
    (hb : b.scalar? = some (.whole n)) : (∀ t, a.type.common b.type = .int t →
      (∀ op f word, op.arithmetic? = some (f, word) →
        binary op (.prim a) (.prim b) = checked t (f m n) word) ∧
      ∀ op, op = .add ∨ op = .mul →
        binary op (.prim a) (.prim b) = binary op (.prim b) (.prim a)) ∧
    ∀ op R, op.relation? = some R → binary op (.prim a) (.prim b) = .ok (.bool (R m n)) := by
  refine ⟨fun t ht => ⟨fun op f word hf => binary_of_arithmetic ha hb ht hf, fun op hop => ?_⟩,
    fun op R hR => ?_⟩
  · have ht' : b.type.common a.type = .int t := by rw [PrimType.common_comm, ht]
    rcases hop with rfl | rfl
    · rw [binary_of_arithmetic ha hb ht rfl, binary_of_arithmetic hb ha ht' rfl, Int.add_comm]
    · rw [binary_of_arithmetic ha hb ht rfl, binary_of_arithmetic hb ha ht' rfl, Int.mul_comm]
  · rw [← BinaryOp.holds_compare hR, binary_prim,
      Primitive.binary_of_comparison ha hb (BinaryOp.isComparison_of_relation hR)]
    rfl

/-- The operators on a 16-bit integer with a sign and an 8-bit one without: their common type holds
the sum but not the product. -/
theorem integer_operators_exact_mixed :
    (binary .add (.int .int16 ⟨-300, by decide⟩) (.int .uint8 ⟨200, by decide⟩) =
        .ok (.int .int16 ⟨-100, by decide⟩) ∧
      binary .mul (.int .int16 ⟨-300, by decide⟩) (.int .uint8 ⟨200, by decide⟩) =
        .error (.of (.integerOverflow ".binaryOp" "multiplication" "int16"))) ∧
    binary .lt (.int .int16 ⟨-300, by decide⟩) (.int .uint8 ⟨200, by decide⟩) =
    .ok (.bool true) := by
  have h := integer_operators_exact (a := .int .int16 ⟨-300, by decide⟩)
    (b := .int .uint8 ⟨200, by decide⟩) rfl rfl
  obtain ⟨hring, -⟩ := h.1 .int16 rfl
  exact ⟨⟨hring .add _ _ rfl, hring .mul _ _ rfl⟩, h.2 .lt _ rfl⟩

/-- Division of operands that are truth values or integers with the numbers `m` and `n`, in an
integer type that their types have in common. Division by zero is a failure of its own that names
the type. Otherwise let `q` be the quotient rounded toward zero. The type holds the remainder
`m - n * q` in any case. If it holds `q` too, `/` gives the quotient and `%` the remainder. If not,
then the least number of the type was divided by minus one, and both operators overflow. -/
theorem integer_division_euclidean (ha : a.scalar? = some (.whole m))
    (hb : b.scalar? = some (.whole n)) (ht : a.type.common b.type = .int t) :
    (n = 0 →
      binary .div (.prim a) (.prim b) = .error (.of (.divisionByZero ".binaryOp" t.name)) ∧
      binary .mod (.prim a) (.prim b) = .error (.of (.moduloByZero ".binaryOp" t.name))) ∧
    (n ≠ 0 → ∃ hr : t.Holds (m - n * m.tdiv n),
      (∀ hq : t.Holds (m.tdiv n),
        binary .div (.prim a) (.prim b) = .ok (.int t ⟨m.tdiv n, hq⟩) ∧
        binary .mod (.prim a) (.prim b) = .ok (.int t ⟨m - n * m.tdiv n, hr⟩)) ∧
      (¬t.Holds (m.tdiv n) → m = t.least ∧ n = -1 ∧
        binary .div (.prim a) (.prim b) =
          .error (.of (.integerOverflow ".binaryOp" "division" t.name)) ∧
        binary .mod (.prim a) (.prim b) =
          .error (.of (.integerOverflow ".binaryOp" "modulo" t.name)))) := by
  have hm := Primitive.holds_left ha ht
  have hn := Primitive.holds_right hb ht
  have hdiv : a.binary .div b = _ := Primitive.binary_eq_binaryInt ha hb ht nofun
  have hmod : a.binary .mod b = _ := Primitive.binary_eq_binaryInt ha hb ht nofun
  rw [binary_prim, binary_prim, hdiv, hmod]
  refine ⟨?_, fun hn0 => ⟨IntType.holds_remainder hm, fun hq => ?_, fun hq => ?_⟩⟩
  · rintro rfl
    exact ⟨rfl, rfl⟩
  · rw [Primitive.binaryInt_div_of_holds hn0 hq, Primitive.binaryInt_mod_of_holds hn0 hq]
    exact ⟨rfl, rfl⟩
  · -- the remainder is 0 here, but the machine does not come to it
    have hcorner : m = t.least ∧ n = -1 := by
      by_contra hc
      exact hq (IntType.holds_quotient hm hn hn0 hc)
    rw [Primitive.binaryInt_div_of_not_holds hn0 hq, Primitive.binaryInt_mod_of_not_holds hn0 hq]
    exact ⟨hcorner.1, hcorner.2, rfl, rfl⟩

/-- Minus seven of 8 bits with a sign divided by two of 8 bits without: both results have 16
bits. -/
theorem integer_division_euclidean_mixed :
    binary .div (.int .int8 ⟨-7, by decide⟩) (.int .uint8 ⟨2, by decide⟩) =
        .ok (.int .int16 ⟨-3, by decide⟩) ∧
      binary .mod (.int .int8 ⟨-7, by decide⟩) (.int .uint8 ⟨2, by decide⟩) =
        .ok (.int .int16 ⟨-1, by decide⟩) := by
  obtain ⟨_, hfits, -⟩ := (integer_division_euclidean (a := .int .int8 ⟨-7, by decide⟩)
    (b := .int .uint8 ⟨2, by decide⟩) (t := .int16) rfl rfl rfl).2 (by decide)
  exact hfits (by decide)

/-- A remainder that the type holds is refused nonetheless when the quotient does not fit: zero is
the remainder of the least 8-bit number divided by minus one. -/
theorem not_integer_remainder_total :
    ¬∀ (a b : Primitive) (m n : Int) (t : IntType),
      a.scalar? = some (.whole m) → b.scalar? = some (.whole n) → a.type.common b.type = .int t →
      n ≠ 0 → ∃ hr : t.Holds (m - n * m.tdiv n),
        binary .mod (.prim a) (.prim b) = .ok (.int t ⟨m - n * m.tdiv n, hr⟩) := by
  intro h
  obtain ⟨_, hmod⟩ := h (.int .int8 ⟨-128, by decide⟩) (.int .int8 ⟨-1, by decide⟩) (-128)
    (-1) .int8
    rfl rfl rfl (by decide)
  have hrefused : binary .mod (.int .int8 ⟨-128, by decide⟩) (.int .int8 ⟨-1, by decide⟩) =
      .error (.of (.integerOverflow ".binaryOp" "modulo" "int8")) := rfl
  rw [hrefused] at hmod
  cases hmod

end Value
end Patchbay
