import Mathlib.Tactic.Common
import Patchbay.Proofs.Number.Rounding
import Patchbay.Value.Order

/-!
# Laws of the order of values

Every value is equal to itself in the order, and comparing the other way round gives the opposite.
The order is transitive for texts, for handles and across the families. Among numbers it is
transitive but for one kind of triple: two integers compare exactly, and an integer and a
floating-point number compare after the integer was rounded, so two different integers may both be
equal to a floating-point number between them.
-/

namespace Patchbay

/-! ## Numbers -/

namespace Scalar

variable {a b c : Scalar}

/-- What a number compares by, unless both are integers. -/
def key (a : Scalar) : Int := Number.orderKey a.toDouble

/-- Two integers `a` and `c`, of which `a` is the greater, both rounded to the floating-point number
`b`. -/
def RoundTogether (a b c : Scalar) : Prop :=
  ∃ m n x, a = whole m ∧ b = real x ∧ c = whole n ∧ n < m ∧ Number.doubleOfInt m = x ∧
    Number.doubleOfInt n = x

lemma cmp_self (a : Scalar) : a.cmp a = .eq := by
  cases a <;> exact Std.ReflOrd.compare_self

lemma cmp_swap (a b : Scalar) : b.cmp a = (a.cmp b).swap := by
  cases a <;> cases b <;> exact Std.OrientedOrd.eq_swap

/-- A number that is not greater has no greater key, since rounding keeps the order of integers. -/
lemma key_le_of_cmp (h : a.cmp b ≠ .gt) : a.key ≤ b.key := by
  have hle := Ordering.isLE_iff_ne_gt.mpr h
  cases a with
  | whole m =>
    cases b with
    | whole n => exact Number.orderKey_doubleOfInt_mono (Std.isLE_compare.mp hle)
    | real y => exact Std.isLE_compare.mp hle
  | real x => cases b <;> exact Std.isLE_compare.mp hle

lemma cmp_whole_eq_gt {m n : Int} : (whole m).cmp (whole n) = .gt ↔ n < m := Int.compare_eq_gt

/-- The step from `a` to `c` across `b` fails for integers that `b` makes equal, and for nothing
else. -/
lemma cmp_eq_gt_iff (hab : a.cmp b ≠ .gt) (hbc : b.cmp c ≠ .gt) :
    a.cmp c = .gt ↔ RoundTogether a b c := by
  have hkab := key_le_of_cmp hab
  have hkbc := key_le_of_cmp hbc
  constructor
  · intro hac
    cases a with
    | real x =>
      -- compared by keys, which are in order
      have hkey : c.key < key (real x) := by cases c <;> exact Int.compare_eq_gt.mp hac
      omega
    | whole m =>
      cases c with
      | real z =>
        have hkey : key (real z) < key (whole m) := Int.compare_eq_gt.mp hac
        omega
      | whole n =>
        have hlt := cmp_whole_eq_gt.mp hac
        cases b with
        | whole k =>
          rw [ne_eq, cmp_whole_eq_gt] at hab hbc
          omega
        | real x =>
          -- the smaller integer has no greater key either, so all three keys are the same
          have hmono : key (whole n) ≤ key (whole m) :=
            Number.orderKey_doubleOfInt_mono (Int.le_of_lt hlt)
          exact ⟨m, n, x, rfl, rfl, rfl, hlt,
            Number.orderKey_injective (show key (whole m) = key (real x) by omega),
            Number.orderKey_injective (show key (whole n) = key (real x) by omega)⟩
  · rintro ⟨m, n, x, rfl, rfl, rfl, hlt, -, -⟩
    exact cmp_whole_eq_gt.mpr hlt

end Scalar

/-! ## Primitives -/

namespace Primitive

variable {p q r : Primitive}

lemma cmp_of_scalar {a b : Scalar} (ha : p.scalar? = some a) (hb : q.scalar? = some b) :
    p.cmp q = a.cmp b := by
  cases p <;> cases q <;> cases ha <;> cases hb <;> rfl

lemma cmp_scalar_text {a : Scalar} {t : String} (ha : p.scalar? = some a) :
    p.cmp (text t) = .lt := by
  cases p <;> cases ha <;> rfl

lemma cmp_text_scalar {a : Scalar} {s : String} (ha : p.scalar? = some a) :
    (text s).cmp p = .gt := by
  cases p <;> cases ha <;> rfl

/-- A primitive is a text or has a number. -/
lemma text_or_scalar (p : Primitive) : (∃ s, p = text s) ∨ ∃ a, p.scalar? = some a := by
  cases p with
  | text s => exact .inl ⟨s, rfl⟩
  | _ => exact .inr ⟨_, rfl⟩

lemma cmp_self (p : Primitive) : p.cmp p = .eq := by
  rcases p.text_or_scalar with ⟨s, rfl⟩ | ⟨a, ha⟩
  · exact Std.ReflOrd.compare_self
  · rw [cmp_of_scalar ha ha, Scalar.cmp_self]

lemma cmp_swap (p q : Primitive) : q.cmp p = (p.cmp q).swap := by
  rcases p.text_or_scalar with ⟨s, rfl⟩ | ⟨a, ha⟩ <;> rcases q.text_or_scalar with
    ⟨t, rfl⟩ | ⟨b, hb⟩
  · exact Std.OrientedOrd.eq_swap
  · rw [cmp_scalar_text hb, cmp_text_scalar hb]
    rfl
  · rw [cmp_scalar_text ha, cmp_text_scalar ha]
    rfl
  · rw [cmp_of_scalar ha hb, cmp_of_scalar hb ha, Scalar.cmp_swap]

/-- Two integers and a floating-point number that both are rounded to. -/
def RoundTogether (p q r : Primitive) : Prop :=
  ∃ a b c, p.scalar? = some a ∧ q.scalar? = some b ∧ r.scalar? = some c ∧ a.RoundTogether b c

lemma cmp_eq_gt_iff (hpq : p.cmp q ≠ .gt) (hqr : q.cmp r ≠ .gt) :
    p.cmp r = .gt ↔ RoundTogether p q r := by
  rcases r.text_or_scalar with ⟨u, rfl⟩ | ⟨c, hc⟩
  · -- nothing before a text comes after it
    have hle : p.cmp (text u) ≠ .gt := by
      rcases p.text_or_scalar with ⟨s, rfl⟩ | ⟨a, ha⟩
      · rcases q.text_or_scalar with ⟨t, rfl⟩ | ⟨b, hb⟩
        · exact Ordering.isLE_iff_ne_gt.mp (Std.TransOrd.isLE_trans
            (Ordering.isLE_iff_ne_gt.mpr hpq) (Ordering.isLE_iff_ne_gt.mpr hqr))
        · exact absurd (cmp_text_scalar hb) hpq
      · rw [cmp_scalar_text ha]
        decide
    exact ⟨fun h => absurd h hle, fun ⟨_, _, _, _, _, hc, _⟩ => nomatch hc⟩
  · rcases q.text_or_scalar with ⟨t, rfl⟩ | ⟨b, hb⟩
    · exact absurd (cmp_text_scalar hc) hqr
    · rcases p.text_or_scalar with ⟨s, rfl⟩ | ⟨a, ha⟩
      · exact absurd (cmp_text_scalar hb) hpq
      · rw [cmp_of_scalar ha hb] at hpq
        rw [cmp_of_scalar hb hc] at hqr
        rw [cmp_of_scalar ha hc, Scalar.cmp_eq_gt_iff hpq hqr]
        constructor
        · exact fun h => ⟨a, b, c, ha, hb, hc, h⟩
        · rintro ⟨a', b', c', ha', hb', hc', h⟩
          cases ha.symm.trans ha'
          cases hb.symm.trans hb'
          cases hc.symm.trans hc'
          exact h

end Primitive

/-! ## Values -/

namespace Value

variable {a b c : Value}

/-- Handles compare by one key after the other. -/
instance : Std.TransCmp cmpHandle :=
  inferInstanceAs (Std.TransCmp (compareLex (compareOn fun v : Value => v.tag.position)
    (compareLex (compareOn fun v => v.identity.1)
      (compareLex (compareOn fun v => v.identity.2.1) (compareOn fun v => v.identity.2.2)))))

/-- Two integers and a floating-point number that both are rounded to. -/
def RoundTogether (a b c : Value) : Prop :=
  ∃ p q r, a = prim p ∧ b = prim q ∧ c = prim r ∧ p.RoundTogether q r

lemma cmp_prim (p q : Primitive) : cmp (prim p) (prim q) = p.cmp q := by
  rcases p.text_or_scalar with ⟨s, rfl⟩ | ⟨x, hx⟩ <;> rcases q.text_or_scalar with
    ⟨t, rfl⟩ | ⟨y, hy⟩
  · rfl
  · rw [Primitive.cmp_text_scalar hy]
    cases q <;> cases hy <;> rfl
  · rw [Primitive.cmp_scalar_text hx]
    cases p <;> cases hx <;> rfl
  · cases p <;> cases hx <;> cases q <;> cases hy <;> rfl

lemma family_lt_two : a.family < 2 ↔ ∃ p, a = prim p := by
  constructor
  · intro h
    cases a with
    | prim p => exact ⟨p, rfl⟩
    | _ => exact absurd h (by simp [family])
  · rintro ⟨p, rfl⟩
    cases p <;> simp [family]

/-- Values that are not both primitives compare by family, and then as handles. -/
lemma cmp_of_not_prim (h : ¬((∃ p, a = prim p) ∧ ∃ q, b = prim q)) :
    a.cmp b = (compare a.family b.family).then (cmpHandle a b) := by
  unfold cmp
  split
  · next p q => exact absurd ⟨⟨p, rfl⟩, q, rfl⟩ h
  · rfl

lemma cmp_of_family_lt (h : a.family < b.family) : a.cmp b = .lt := by
  unfold cmp
  rw [Nat.compare_eq_lt.mpr h]
  rfl

lemma family_le_of_cmp (h : a.cmp b ≠ .gt) : a.family ≤ b.family := by
  by_contra hlt
  refine h ?_
  unfold cmp
  rw [Nat.compare_eq_gt.mpr (Nat.lt_of_not_le hlt)]
  rfl

/-- Within a family of handles. -/
lemma cmp_of_family_eq (ha : 2 ≤ a.family) (h : a.family = b.family) : a.cmp b = cmpHandle a b := by
  have hprim : ¬((∃ p, a = prim p) ∧ ∃ q, b = prim q) := by
    rw [← family_lt_two]
    omega
  rw [cmp_of_not_prim hprim, Nat.compare_eq_eq.mpr h]
  rfl

lemma cmp_self (a : Value) : a.cmp a = .eq := by
  by_cases ha : ∃ p, a = prim p
  · obtain ⟨p, rfl⟩ := ha
    rw [cmp_prim, Primitive.cmp_self]
  · have hfamily := mt family_lt_two.mp ha
    rw [cmp_of_family_eq (by omega) rfl]
    exact Std.ReflCmp.compare_self

lemma cmp_swap (a b : Value) : b.cmp a = (a.cmp b).swap := by
  by_cases hprim : (∃ p, a = prim p) ∧ ∃ q, b = prim q
  · obtain ⟨⟨p, rfl⟩, q, rfl⟩ := hprim
    rw [cmp_prim, cmp_prim, Primitive.cmp_swap]
  · have hhandle : cmpHandle b a = (cmpHandle a b).swap := Std.OrientedCmp.eq_swap
    rw [cmp_of_not_prim hprim, cmp_of_not_prim fun h => hprim ⟨h.2, h.1⟩, Ordering.swap_then,
      ← hhandle, ← Std.OrientedOrd.eq_swap]

lemma cmp_eq_gt_iff (hab : a.cmp b ≠ .gt) (hbc : b.cmp c ≠ .gt) :
    a.cmp c = .gt ↔ RoundTogether a b c := by
  by_cases hprim : (∃ p, a = prim p) ∧ (∃ q, b = prim q) ∧ ∃ r, c = prim r
  · obtain ⟨⟨p, rfl⟩, ⟨q, rfl⟩, r, rfl⟩ := hprim
    rw [cmp_prim] at hab hbc
    rw [cmp_prim, Primitive.cmp_eq_gt_iff hab hbc]
    constructor
    · exact fun h => ⟨p, q, r, rfl, rfl, rfl, h⟩
    · rintro ⟨_, _, _, hp, hq, hr, h⟩
      cases hp
      cases hq
      cases hr
      exact h
  · have hle : a.cmp c ≠ .gt := by
      have hfab := family_le_of_cmp hab
      have hfbc := family_le_of_cmp hbc
      rcases Nat.lt_or_eq_of_le (Nat.le_trans hfab hfbc) with hlt | heq
      · rw [cmp_of_family_lt hlt]
        decide
      · -- one family for all three, which is not one of the primitives
        have hfamily : 2 ≤ a.family := by
          by_contra hlt
          exact hprim ⟨family_lt_two.mp (by omega), family_lt_two.mp (by omega),
            family_lt_two.mp (by omega)⟩
        rw [cmp_of_family_eq (by omega) (by omega)] at hab hbc ⊢
        exact Ordering.isLE_iff_ne_gt.mp (Std.TransCmp.isLE_trans (Ordering.isLE_iff_ne_gt.mpr hab)
          (Ordering.isLE_iff_ne_gt.mpr hbc))
    refine ⟨fun h => absurd h hle, ?_⟩
    rintro ⟨p, q, r, rfl, rfl, rfl, -⟩
    exact absurd ⟨⟨p, rfl⟩, ⟨q, rfl⟩, r, rfl⟩ hprim

/-- The laws of the order of all values. A value is equal to itself; comparing the other way round
gives the opposite; and if `a` is not greater than `b`, and `b` not greater than `c`, then `a` is
not greater than `c` unless `a` and `c` are different integers which are both rounded to the
floating-point number `b` when they are compared with it. In that case, and only then, the order is
not transitive. -/
theorem cmp_preorder_unless_rounded (a b c : Value) :
    a.cmp a = .eq ∧ b.cmp a = (a.cmp b).swap ∧
      (a.cmp b ≠ .gt → b.cmp c ≠ .gt → (a.cmp c ≠ .gt ↔ ¬RoundTogether a b c)) :=
  ⟨cmp_self a, cmp_swap a b, fun hab hbc => not_congr (cmp_eq_gt_iff hab hbc)⟩

/-- Three numbers of three types in order, the second one in floating point: `3`, `3.5` and `4`. -/
theorem cmp_preorder_unless_rounded_mixed :
    cmp (.int .uint8 ⟨3, by decide⟩) (.double ⟨0x400c000000000000⟩) ≠ .gt ∧
      cmp (.double ⟨0x400c000000000000⟩) (.int .int64 ⟨4, by decide⟩) ≠ .gt ∧
      cmp (.int .uint8 ⟨3, by decide⟩) (.int .int64 ⟨4, by decide⟩) ≠ .gt := by
  have hab : cmp (.int .uint8 ⟨3, by decide⟩) (.double ⟨0x400c000000000000⟩) ≠ .gt := by decide
  have hbc : cmp (.double ⟨0x400c000000000000⟩) (.int .int64 ⟨4, by decide⟩) ≠ .gt := by decide
  obtain ⟨-, -, htrans⟩ := cmp_preorder_unless_rounded (.int .uint8 ⟨3, by decide⟩)
    (.double ⟨0x400c000000000000⟩) (.int .int64 ⟨4, by decide⟩)
  refine ⟨hab, hbc, (htrans hab hbc).mpr ?_⟩
  rintro ⟨_, _, _, hp, hq, hr, _, _, _, ha, hb, hc, m, n, x, hm, hx, hn, hlt, -⟩
  cases hp
  cases hr
  cases ha
  cases hc
  cases hm
  cases hn
  exact absurd hlt (by decide)

/-- The numbers `2 ^ 53 + 1` and `2 ^ 53` of 64 bits compare as they should, but both are equal to
`2 ^ 53` in floating point, which has the pattern `4340000000000000`. -/
theorem not_cmp_transitive :
    ¬∀ a b c : Value, a.cmp b ≠ .gt → b.cmp c ≠ .gt → a.cmp c ≠ .gt := by
  intro h
  have hab : cmp (.int .int64 ⟨9007199254740993, by decide⟩) (.double ⟨0x4340000000000000⟩) ≠ .gt :=
    by decide
  have hbc : cmp (.double ⟨0x4340000000000000⟩) (.int .int64 ⟨9007199254740992, by decide⟩) ≠ .gt :=
    by decide
  exact h _ _ _ hab hbc (by decide)

end Value
end Patchbay
