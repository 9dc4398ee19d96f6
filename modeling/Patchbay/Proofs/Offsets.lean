import Mathlib.Data.List.Lex
import Mathlib.Order.Fin.Basic
import Mathlib.Order.Hom.Set
import Patchbay.Proofs.Grids

/-!
# The order of offsets

In a grid with an element for each coordinate, coordinates in lexicographic order have their
elements one after the other: the offsets are an isomorphism of orders onto the places of the
elements. Other coordinates have no offset, and the failure names what is wrong with them.
-/

namespace Patchbay.Grid

variable {coords cs : List Int} {dims : List Nat} {g : Grid} {k : Nat}

/-- A coordinate that comes earlier has an earlier place. -/
lemma rowMajor_lt_rowMajor (hb : InBounds coords dims) (hb' : InBounds cs dims)
    (hlt : coords < cs) : rowMajor coords dims < rowMajor cs dims := by
  induction hb generalizing cs with
  | nil =>
    cases hb'
    exact absurd hlt (lt_irrefl _)
  | @cons c d coords dims hc hrest ih =>
    obtain _ | @⟨c', _, cs, _, hc', hrest'⟩ := hb'
    show c.toNat * dims.prod + rowMajor coords dims < c'.toNat * dims.prod + rowMajor cs dims
    obtain hfirst | ⟨rfl, hlater⟩ := List.cons_lt_cons_iff.mp hlt
    · -- the whole row of the earlier coordinate comes before the other row
      have hrow : c.toNat < c'.toNat := by omega
      exact Nat.lt_add_right _ (mul_add_lt hrow (rowMajor_lt hrest))
    · exact Nat.add_lt_add_left (ih hrest' hlater) _

/-- Each place below the number of the elements is that of a coordinate. -/
lemma exists_rowMajor_eq (hk : k < dims.prod) :
    ∃ coords, InBounds coords dims ∧ rowMajor coords dims = k := by
  induction dims generalizing k with
  | nil =>
    rw [List.prod_nil, Nat.lt_one_iff] at hk
    exact ⟨[], .nil, hk.symm⟩
  | cons d ds ih =>
    rw [List.prod_cons] at hk
    have hpos : 0 < ds.prod := Nat.pos_of_mul_pos_left (Nat.zero_lt_of_lt hk)
    have hrow : k / ds.prod < d := Nat.div_lt_of_lt_mul (by rwa [Nat.mul_comm])
    obtain ⟨coords, hb, hplace⟩ := ih (Nat.mod_lt k hpos)
    refine ⟨(k / ds.prod : Nat) :: coords,
      .cons ⟨Int.natCast_nonneg _, Int.ofNat_lt.mpr hrow⟩ hb, ?_⟩
    rw [rowMajor, hplace, Int.toNat_natCast, Nat.mul_comm, Nat.div_add_mod]

/-- Out of bounds, the failure is about the first coordinate that is not below its extent. -/
lemma offsetFrom_of_not_inBounds (hlength : coords.length = dims.length)
    (hb : ¬ InBounds coords dims)
    (n : Nat) : ∃ (i : Nat) (hc : i < coords.length) (hd : i < dims.length),
      InBounds (coords.take i) (dims.take i) ∧ ¬ (0 ≤ coords[i] ∧ coords[i] < dims[i]) ∧
      offsetFrom n coords dims = fail (.indexOutOfBounds coords[i] dims[i]) := by
  induction coords generalizing dims n with
  | nil =>
    obtain rfl := List.length_eq_zero_iff.mp hlength.symm
    exact absurd .nil hb
  | cons c coords ih =>
    cases dims with
    | nil => cases hlength
    | cons d ds =>
      by_cases hfirst : 0 ≤ c ∧ c < d
      · -- the first coordinate is in bounds, so the one to blame is among the others
        have hrest : ¬ InBounds coords ds := fun hrest => hb (.cons hfirst hrest)
        obtain ⟨i, hc, hd, hbefore, hat, hr⟩ :=
          ih (Nat.succ.inj hlength) hrest (wrapWord (n * d + c.toNat))
        refine ⟨i + 1, Nat.succ_lt_succ hc, Nat.succ_lt_succ hd, .cons hfirst hbefore, hat, ?_⟩
        rw [offsetFrom, if_pos hfirst, hr]
        rfl
      · refine ⟨0, Nat.succ_pos _, Nat.succ_pos _, .nil, hfirst, ?_⟩
        rw [offsetFrom, if_neg hfirst]
        rfl

namespace Exact

/-- The offset of a coordinate in bounds, as a place of an element. -/
def place (hg : g.Exact) (coords : {coords : List Int // InBounds coords g.dims}) : Fin g.size :=
  ⟨rowMajor coords g.dims, hg.rowMajor_lt coords.property⟩

lemma place_strictMono (hg : g.Exact) : StrictMono hg.place := fun coords cs hlt =>
  rowMajor_lt_rowMajor coords.property cs.property hlt

lemma place_surjective (hg : g.Exact) : Function.Surjective hg.place := by
  rintro ⟨k, hk⟩
  have hprod : k < g.dims.prod := hg.prod ▸ hk
  obtain ⟨coords, hb, hplace⟩ := exists_rowMajor_eq hprod
  exact ⟨⟨coords, hb⟩, Fin.ext hplace⟩

end Exact

/-- The offset is an isomorphism from the coordinates in bounds, in lexicographic order, to the
places of the elements. A coordinate with the wrong number of indices is refused for that, and one
that is out of bounds for its first index that is not below the extent of its dimension. -/
theorem offset_orderIso (hg : g.Exact) :
    (∃ place : {coords : List Int // InBounds coords g.dims} ≃o Fin g.size,
      ∀ coords, g.offset coords.val = .ok (place coords).val) ∧
    ∀ coords : List Int,
      (coords.length ≠ g.dims.length → g.offset coords =
        fail (.wrongOperandCount Builtin.index.reservedName g.dims.length coords.length)) ∧
      (coords.length = g.dims.length → ¬ InBounds coords g.dims →
        ∃ (i : Nat) (hc : i < coords.length) (hd : i < g.dims.length),
          InBounds (coords.take i) (g.dims.take i) ∧ ¬ (0 ≤ coords[i] ∧ coords[i] < g.dims[i]) ∧
          g.offset coords = fail (.indexOutOfBounds coords[i] g.dims[i])) := by
  refine ⟨⟨hg.place_strictMono.orderIsoOfSurjective _ hg.place_surjective, fun coords => ?_⟩,
    fun coords => ⟨fun hlength => ?_, fun hlength hb => ?_⟩⟩
  · exact hg.offset_eq_ok.mpr ⟨coords.property, rfl⟩
  · exact if_neg hlength
  · rw [offset, if_pos hlength]
    exact offsetFrom_of_not_inBounds hlength hb 0

theorem offset_orderIso_oblong :
    Exact ⟨[2, 3], Array.replicate 6 (.bool true)⟩ ∧
    offset ⟨[2, 3], Array.replicate 6 (.bool true)⟩ [1] =
      fail (.wrongOperandCount Builtin.index.reservedName 2 1) ∧
    ∃ coords : List Int, offset ⟨[2, 3], Array.replicate 6 (.bool true)⟩ coords = .ok 5 := by
  have hg : Exact ⟨[2, 3], Array.replicate 6 (.bool true)⟩ := ⟨rfl, by decide⟩
  obtain ⟨⟨place, hplace⟩, hrefused⟩ := offset_orderIso hg
  refine ⟨hg, (hrefused [1]).1 (by decide), (place.symm ⟨5, by decide⟩).val, ?_⟩
  rw [hplace, OrderIso.apply_symm_apply]

end Patchbay.Grid
