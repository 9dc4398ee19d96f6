import Patchbay.Proofs.Arithmetic

/-!
# Conversions of whole numbers

Converting an integer keeps its number wherever the target holds it. This is so directly and through
text, because reading undoes writing: the decimal digits of a number are read back as that number,
its sign is taken off again, and no blank is trimmed from either end.
-/

namespace Patchbay

variable {n : Int} {t : IntType} {k : FixedInt t}

/-! ## Reading undoes writing -/

namespace Number

variable {cs : List Char} {start : Nat}

lemma digit?_of_isDigit {c : Char} (hc : c.isDigit = true) :
    digit? c = some (c.toNat - '0'.toNat) := by
  rw [Char.isDigit_iff_toNat] at hc
  exact if_pos ⟨Char.le_def.mpr (UInt32.le_iff_toNat_le.mpr hc.1),
    Char.le_def.mpr (UInt32.le_iff_toNat_le.mpr hc.2)⟩

/-- Reading digits is their value in radix ten. -/
lemma digitsFrom?_eq (hcs : ∀ c ∈ cs, c.isDigit = true) :
    digitsFrom? start cs = some (Nat.ofDigitChars 10 cs start) := by
  induction cs generalizing start with
  | nil => simp [digitsFrom?]
  | cons c cs ih =>
    rw [digitsFrom?, digit?_of_isDigit (hcs c List.mem_cons_self), Option.bind_some,
      ih fun d hd => hcs d (List.mem_cons_of_mem c hd), Nat.ofDigitChars_cons]

lemma isDigit_toDigits {m : Nat} : ∀ c ∈ Nat.toDigits 10 m, c.isDigit = true :=
  fun _ hc => Nat.isDigit_of_mem_toDigits (by decide) (by decide) hc

lemma natural?_toDigits (m : Nat) : natural? (Nat.toDigits 10 m) = some m := by
  have hread : digitsFrom? 0 (Nat.toDigits 10 m) = _ := digitsFrom?_eq isDigit_toDigits
  rw [Nat.ofDigitChars_ten_toDigits] at hread
  unfold natural?
  split
  · next hnil => exact absurd hnil Nat.toDigits_ne_nil
  · exact hread

/-- A text that starts with a digit has no sign. -/
lemma takeSign_of_isDigit (hcs : ∀ c ∈ cs, c.isDigit = true) : takeSign cs = (false, cs) := by
  unfold takeSign
  split
  · next rest => exact absurd (hcs '-' List.mem_cons_self) (by decide)
  · next rest => exact absurd (hcs '+' List.mem_cons_self) (by decide)
  · rfl

lemma toList_toString_of_nonneg (hn : 0 ≤ n) : (toString n).toList = Nat.toDigits 10 n.toNat := by
  rw [Int.toString_eq_repr, Int.repr_eq_if, if_pos hn, Nat.toList_repr]

lemma toList_toString_of_neg (hn : n < 0) :
    (toString n).toList = '-' :: Nat.toDigits 10 (-n).toNat := by
  rw [Int.toString_eq_repr, Int.repr_eq_if, if_neg (by omega), String.toList_append,
    Nat.toList_repr]
  rfl

lemma integer?_digits (m : Nat) : integer? (Nat.toDigits 10 m) = some (m : Int) := by
  simp only [integer?, takeSign_of_isDigit isDigit_toDigits, natural?_toDigits]
  rfl

lemma integer?_negative_digits (m : Nat) :
    integer? ('-' :: Nat.toDigits 10 m) = some (-(m : Int)) := by
  simp only [integer?, takeSign, natural?_toDigits]
  rfl

lemma integer?_toString (n : Int) : integer? (toString n).toList = some n := by
  rcases Int.lt_or_le n 0 with hneg | hpos
  · rw [toList_toString_of_neg hneg, integer?_negative_digits, Int.toNat_of_nonneg (by omega),
      Int.neg_neg]
  · rw [toList_toString_of_nonneg hpos, integer?_digits, Int.toNat_of_nonneg hpos]

/-- The text of an integer has no blanks. -/
lemma isBlank_toString {c : Char} (hc : c ∈ (toString n).toList) : Text.isBlank c = false := by
  have hdigit : ∀ d : Char, d.isDigit = true → Text.isBlank d = false := by
    intro d hd
    rw [Char.isDigit_iff_toNat] at hd
    have hlow : 48 ≤ d.toNat := hd.1
    have hhigh : d.toNat ≤ 57 := hd.2
    simp [Text.isBlank, Text.blankRanges]
    omega
  rcases Int.lt_or_le n 0 with hneg | hpos
  · rw [toList_toString_of_neg hneg, List.mem_cons] at hc
    rcases hc with rfl | hc
    · decide
    · exact hdigit c (isDigit_toDigits c hc)
  · rw [toList_toString_of_nonneg hpos] at hc
    exact hdigit c (isDigit_toDigits c hc)

lemma trim_toString (n : Int) : Text.trim (toString n).toList = (toString n).toList :=
  Text.trim_eq_self (fun _ hc => isBlank_toString (List.mem_of_mem_head? hc))
    fun _ hc => isBlank_toString (List.mem_of_mem_getLast? hc)

end Number

namespace Primitive

/-- An integer is far from the limit of 128 bits for numbers in texts. -/
lemma parse_toString (k : FixedInt t) (target : PrimType) :
    parse (toString k.val) target = .ok (.whole k.val) := by
  have hwide : Number.wideInteger? 128 (toString k.val).toList = some k.val := by
    have hk := k.holds
    rw [Number.wideInteger?, Number.integer?_toString, Option.filter_eq_some_iff]
    refine ⟨rfl, decide_eq_true ?_⟩
    rw [Nat.pow_eq]
    cases t <;> simp only [IntType.Holds, IntType.least, IntType.bound, IntType.isSigned,
      IntType.bits, Nat.pow_eq] at hk <;> omega
  simp only [parse, Number.trim_toString, hwide]
  rfl

/-! ## Conversions of a number that is known -/

/-- A conversion uses its source for nothing but the text of it. -/
lemma ofScalar_congr {p q : Primitive} {x : Scalar} {target : PrimType}
    (h : p.display = q.display) : ofScalar p x target = ofScalar q x target := by
  simp only [ofScalar, h]

/-- An integer is converted by its number, also to the type that it has already. -/
lemma cast_eq_ofScalar (k : FixedInt t) (target : PrimType) :
    (int t k).cast target = ofScalar (int t k) (.whole k.val) target := by
  by_cases hsame : target = .int t
  · subst hsame
    exact (if_pos rfl).trans (ofScalar_int k.holds).symm
  · refine (if_neg (Ne.symm hsame)).trans ?_
    cases target <;> rfl

lemma cast_text_eq_ofScalar (k : FixedInt t) {target : PrimType} (htarget : target ≠ .bool) :
    (text (toString k.val)).cast target = ofScalar (text (toString k.val)) (.whole k.val)
      target := by
  have hread := parse_toString k target
  cases target with
  | bool => exact absurd rfl htarget
  | text => rfl
  | _ =>
    refine (if_neg nofun).trans ?_
    simp only [hread]
    rfl

lemma ofScalar_int_of_not_holds {p : Primitive} (hn : ¬t.Holds n) :
    ofScalar p (.whole n) (.int t) = .error (.of (.castOutOfRange p.display t.name)) := by
  simp only [ofScalar, Scalar.whole?, Option.bind_some, FixedInt.ofInt?_eq_none_iff.mpr hn]
  rfl

end Primitive

/-! ## Casts keep the number -/

namespace Value

lemma cast_prim {p : Primitive} (target : PrimType) :
    cast (.prim p) (.prim target) = prim <$> p.cast target := by
  by_cases hsame : p.type = target
  · have htag : (prim p).tag = .prim target := congrArg Tag.prim hsame
    have hcast : p.cast target = .ok p := if_pos hsame
    rw [cast, if_pos htag, hcast]
    rfl
  · exact if_neg fun h => hsame (Tag.prim.inj h)

lemma cast_int_eq (k : FixedInt t) (t' : IntType) :
    cast (.int t k) (.prim (.int t')) =
      if h : t'.Holds k.val then .ok (.int t' ⟨k.val, h⟩)
      else .error (.of (.castOutOfRange (toString k.val) t'.name)) := by
  rw [cast_prim, Primitive.cast_eq_ofScalar]
  split
  · next h =>
    rw [Primitive.ofScalar_int h]
    rfl
  · next h =>
    rw [Primitive.ofScalar_int_of_not_holds h]
    rfl

lemma cast_int_text (k : FixedInt t) :
    cast (.int t k) (.prim .text) = .ok (.text (toString k.val)) := by
  rw [cast_prim, Primitive.cast_eq_ofScalar]
  rfl

lemma cast_through_text (k : FixedInt t) {target : PrimType} (htarget : target ≠ .bool) :
    cast (.text (toString k.val)) (.prim target) = cast (.int t k) (.prim target) := by
  rw [cast_prim, cast_prim, Primitive.cast_text_eq_ofScalar k htarget, Primitive.cast_eq_ofScalar]
  rw [Primitive.ofScalar_congr (p := .text (toString k.val)) (q := .int t k) rfl]

/-- Casts of an integer `k` of any type. To an integer type, the result is the same number of that
type if it holds it, and otherwise the failure names the number and the type. To text, the result is
the number in decimal digits, and that text is cast to any type but truth values exactly as `k` is,
with the same failures. Hence `k` comes back from text, and from every integer type that holds its
number. -/
theorem integer_casts_keep_number (t : IntType) (k : FixedInt t) :
    (∀ t' : IntType, cast (.int t k) (.prim (.int t')) =
      if h : t'.Holds k.val then .ok (.int t' ⟨k.val, h⟩)
      else .error (.of (.castOutOfRange (toString k.val) t'.name))) ∧
    (cast (.int t k) (.prim .text) = .ok (.text (toString k.val)) ∧
      ∀ target : PrimType, target ≠ .bool →
        cast (.text (toString k.val)) (.prim target) = cast (.int t k) (.prim target)) ∧
    cast (.text (toString k.val)) (.prim (.int t)) = .ok (.int t k) ∧
    ∀ (t' : IntType) (h : t'.Holds k.val),
      cast (.int t k) (.prim (.int t')) = .ok (.int t' ⟨k.val, h⟩) ∧
      cast (.int t' ⟨k.val, h⟩) (.prim (.int t)) = .ok (.int t k) := by
  have hself : cast (.int t k) (.prim (.int t)) = .ok (.int t k) := if_pos rfl
  refine ⟨cast_int_eq k, ⟨cast_int_text k, fun target => cast_through_text k⟩, ?_,
    fun t' h => ⟨?_, ?_⟩⟩
  · rw [cast_through_text k (by simp), hself]
  · rw [cast_int_eq, dif_pos h]
  · rw [cast_int_eq, dif_pos k.holds]

/-- The least number of 64 bits is kept by its text, and no 32 bits hold it. -/
theorem integer_casts_keep_number_least :
    cast (.text "-9223372036854775808") (.prim (.int .int64)) =
        .ok (.int .int64 ⟨-9223372036854775808, by decide⟩) ∧
      cast (.text "-9223372036854775808") (.prim (.int .int32)) =
        .error (.of (.castOutOfRange "-9223372036854775808" "int32")) := by
  obtain ⟨hcasts, ⟨-, htext⟩, hback, -⟩ :=
    integer_casts_keep_number .int64 ⟨-9223372036854775808, by decide⟩
  exact ⟨hback, (htext (.int .int32) nofun).trans ((hcasts .int32).trans (dif_neg (by decide)))⟩

end Value
end Patchbay
