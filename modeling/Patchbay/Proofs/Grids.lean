import Mathlib.Algebra.BigOperators.Group.List.Basic
import Mathlib.Data.Nat.ModEq
import Mathlib.Data.Set.List
import Mathlib.Tactic.Ring
import Patchbay.Proofs.Failures

/-!
# Shapes and offsets

The number of elements that a shape asks for and the place of a coordinate among them, as numbers
without a bound and as the machine words that grids compute. The words are the remainders of the
numbers. So a grid has an element for each coordinate in its bounds as long as the number of its
elements is a word, and shapes beyond that are taken for smaller ones.
-/

namespace Patchbay

lemma exists_error_of_forall_ne {α : Type} {r : Except EvalError α} (hr : ∀ a, r ≠ .ok a) :
    ∃ e, r = .error e := by
  cases r with
  | ok a => exact absurd rfl (hr a)
  | error e => exact ⟨e, rfl⟩

/-- Taking back a function on each place of an array. -/
lemma array_mapM_eq_ok {α β : Type} {f : α → Except EvalError β} {g : β → α} {as : Array α}
    {bs : Array β} (hf : ∀ a b, f a = .ok b ↔ a = g b) : as.mapM f = .ok bs ↔ bs.map g = as := by
  have hrel : (fun a b => f a = .ok b) = fun a b => a = g b := by
    funext a b
    exact propext (hf a b)
  have hlist : ∀ l, as.toList.mapM f = .ok l ↔ as.toList = l.map g := by
    intro l
    rw [mapM_eq_ok, hrel, ← List.forall₂_eq_eq_eq, List.forall₂_map_right_iff]
  rw [Array.mapM_eq_mapM_toList, map_eq_ok]
  constructor
  · rintro ⟨l, hl, rfl⟩
    exact Array.ext' (by simp [(hlist l).mp hl])
  · rintro rfl
    exact ⟨bs.toList, (hlist bs.toList).mpr (by simp), Array.toArray_toList⟩

lemma wrapWord_modEq (n : Nat) : wrapWord n ≡ n [MOD 2 ^ 64] := Nat.mod_modEq n _

lemma wrapWord_of_lt {n : Nat} (hn : n < 2 ^ 64) : wrapWord n = n := Nat.mod_eq_of_lt hn

lemma wrapWord_congr {m n : Nat} (hmn : m ≡ n [MOD 2 ^ 64]) : wrapWord m = wrapWord n := hmn

lemma foldl_wrapWord (n : Nat) (dims : List Nat) :
    dims.foldl (fun size extent => wrapWord (size * extent)) (wrapWord n) =
    wrapWord (n * dims.prod) := by
  induction dims generalizing n with
  | nil => simp
  | cons d ds ih =>
    have hstep : wrapWord (wrapWord n * d) = wrapWord (n * d) :=
      wrapWord_congr ((wrapWord_modEq n).mul_right d)
    rw [List.foldl_cons, hstep, ih, List.prod_cons, Nat.mul_assoc]

/-- The size of a shape is the product of its extents, as a word. -/
lemma shapeSize_eq (dims : List Nat) : shapeSize dims = wrapWord dims.prod := by
  have hfold := foldl_wrapWord 1 dims
  rwa [Nat.one_mul] at hfold

namespace Grid

variable {coords cs : List Int} {dims : List Nat} {g g' : Grid} {values : Array Value}
  {p : Primitive} {v : Value} {n k : Nat}

/-! ## Coordinates -/

/-- There is one coordinate for each dimension, and each is below its extent. -/
def InBounds (coords : List Int) (dims : List Nat) : Prop :=
  List.Forall₂ (fun (c : Int) (extent : Nat) => 0 ≤ c ∧ c < extent) coords dims

/-- The place of a coordinate among the elements of a shape: the last dimension varies fastest. -/
def rowMajor : List Int → List Nat → Nat
  | c :: coords, _ :: dims => c.toNat * dims.prod + rowMajor coords dims
  | _, _ => 0

/-- The elements before a row of the first dimension, and the row itself, are within the shape. -/
lemma mul_add_lt {i d size rest : Nat} (hi : i < d) (hrest : rest < size) :
    i * size + rest < d * size :=
  calc i * size + rest < (i + 1) * size := by rw [Nat.succ_mul]; omega
    _ ≤ d * size := Nat.mul_le_mul_right size hi

lemma rowMajor_lt (hb : InBounds coords dims) : rowMajor coords dims < dims.prod := by
  induction hb with
  | nil => exact Nat.one_pos
  | @cons c d coords dims hc _ ih =>
    have hrow : c.toNat < d := by omega
    simpa only [rowMajor, List.prod_cons] using mul_add_lt hrow ih

/-- Different coordinates have different places. -/
lemma rowMajor_injective (hb : InBounds coords dims) (hb' : InBounds cs dims)
    (heq : rowMajor coords dims = rowMajor cs dims) : coords = cs := by
  induction hb generalizing cs with
  | nil =>
    cases hb'
    rfl
  | @cons c d coords dims hc hrest ih =>
    obtain _ | @⟨c', _, cs, _, hc', hrest'⟩ := hb'
    have hlt := rowMajor_lt hrest
    have hlt' := rowMajor_lt hrest'
    simp only [rowMajor] at heq
    -- the quotient by the size of a row is the first coordinate, the remainder the place in the row
    have hfirst : c.toNat = c'.toNat := by
      have hquot := congrArg (· / dims.prod) heq
      simpa [Nat.mul_add_div, Nat.mul_comm, Nat.div_eq_of_lt, hlt, hlt', Nat.zero_lt_of_lt hlt,
        Nat.add_div_of_dvd_right] using hquot
    have hplace : rowMajor coords dims = rowMajor cs dims := by
      rw [hfirst] at heq
      exact Nat.add_left_cancel heq
    have hcc : c = c' := by omega
    rw [hcc, ih hrest' hplace]

/-! ## Offsets -/

/-- In bounds, the offset is the place of the coordinate as a word. -/
lemma offsetFrom_of_inBounds (hb : InBounds coords dims) (n : Nat) :
    offsetFrom (wrapWord n) coords dims =
    .ok (wrapWord (n * dims.prod + rowMajor coords dims)) := by
  induction hb generalizing n with
  | nil => simp [offsetFrom, rowMajor, pure, Except.pure]
  | @cons c d coords dims hc hrest ih =>
    have hstep : wrapWord (wrapWord n * d + c.toNat) = wrapWord (n * d + c.toNat) :=
      wrapWord_congr (((wrapWord_modEq n).mul_right d).add_right _)
    rw [offsetFrom, if_pos hc, hstep, ih, List.prod_cons, rowMajor]
    congr 2
    ring

lemma inBounds_of_offsetFrom (hlength : coords.length = dims.length)
    (hr : offsetFrom n coords dims = .ok k) : InBounds coords dims := by
  induction coords generalizing dims n with
  | nil =>
    obtain rfl := List.length_eq_zero_iff.mp hlength.symm
    exact .nil
  | cons c coords ih =>
    cases dims with
    | nil => cases hlength
    | cons d dims =>
      rw [offsetFrom] at hr
      split at hr
      · next hc => exact .cons hc (ih (Nat.succ.inj hlength) hr)
      · cases hr

/-- There are offsets for the coordinates in bounds, and for no others. -/
lemma offset_eq_ok :
    g.offset coords = .ok k ↔ InBounds coords g.dims ∧ k = wrapWord (rowMajor coords g.dims) := by
  have hin : InBounds coords g.dims →
      g.offset coords = .ok (wrapWord (rowMajor coords g.dims)) := by
    intro hb
    have hfrom := offsetFrom_of_inBounds hb 0
    rw [Nat.zero_mul, Nat.zero_add] at hfrom
    rw [offset, if_pos (List.Forall₂.length_eq hb)]
    exact hfrom
  constructor
  · intro hr
    have hb : InBounds coords g.dims := by
      unfold offset at hr
      split at hr
      · next hlength => exact inBounds_of_offsetFrom hlength hr
      · cases hr
    rw [hin hb] at hr
    exact ⟨hb, (Except.ok.inj hr).symm⟩
  · rintro ⟨hb, rfl⟩
    exact hin hb

lemma get_eq_ok : g.get coords = .ok p ↔ ∃ k, g.offset coords = .ok k ∧ g.items[k]? = some p := by
  rw [get, bind_eq_ok]
  refine exists_congr fun k => and_congr_right fun _ => ?_
  cases g.items[k]? <;> simp [pure, Except.pure, fail_eq]

lemma set_eq_ok :
    g.set coords v = .ok g' ↔ ∃ p k, v = .prim p ∧ g.offset coords = .ok k ∧ k < g.size ∧
    g' = { g with items := g.items.setIfInBounds k p } := by
  cases v with
  | prim p =>
    rw [set, bind_eq_ok]
    constructor
    · rintro ⟨k, hk, hr⟩
      split at hr
      · next hlt =>
        cases hr
        exact ⟨p, k, rfl, hk, hlt, rfl⟩
      · cases hr
    · rintro ⟨_, k, hp, hk, hlt, rfl⟩
      cases hp
      exact ⟨k, hk, if_pos hlt⟩
  | _ => simp [set, fail_eq]

/-- What is written over was there. -/
lemma exists_get_of_set (hr : g.set coords v = .ok g') : ∃ p, g.get coords = .ok p := by
  obtain ⟨-, k, -, hk, hlt, -⟩ := set_eq_ok.mp hr
  exact ⟨g.items[k], get_eq_ok.mpr ⟨k, hk, Array.getElem?_eq_getElem hlt⟩⟩

/-! ## Building -/

lemma primitives_eq_ok {ps : Array Primitive} :
    primitives values = .ok ps ↔ ps.map Value.prim = values :=
  array_mapM_eq_ok fun v p => by cases v <;> simp [pure, Except.pure, fail_eq]

lemma exists_primitives :
    (∃ ps, primitives values = .ok ps) ↔ ∀ v ∈ values, v.isPrimitive = true := by
  simp only [primitives_eq_ok]
  constructor
  · rintro ⟨ps, rfl⟩ v hv
    obtain ⟨p, -, rfl⟩ := Array.mem_map.mp hv
    rfl
  · intro hall
    have hrange : values.toList ∈ Set.range (List.map Value.prim) := by
      rw [Set.range_list_map]
      intro v hv
      specialize hall v (Array.mem_toList_iff.mp hv)
      cases v with
      | prim p => exact ⟨p, rfl⟩
      | _ => cases hall
    obtain ⟨l, hl⟩ := hrange
    exact ⟨l.toArray, Array.ext' (by simpa using hl)⟩

/-- What is accepted as a grid. -/
lemma ofValues_eq_ok : ofValues dims values = .ok g ↔
    shapeSize dims = values.size ∧ g.dims = dims ∧ g.items.map Value.prim = values := by
  unfold ofValues
  split
  · next hne =>
    constructor
    · intro hr
      cases hr
    · exact fun hg => absurd hg.1 hne
  · next heq =>
    rw [not_not] at heq
    rw [bind_eq_ok]
    simp only [primitives_eq_ok]
    constructor
    · rintro ⟨ps, hps, hr⟩
      cases hr
      exact ⟨heq, rfl, hps⟩
    · rintro ⟨-, rfl, hitems⟩
      exact ⟨g.items, hitems, rfl⟩

/-! ## Grids with an element for each coordinate -/

/-- The extents multiply to the number of the elements, which is a word. -/
structure Exact (g : Grid) : Prop where
  prod : g.dims.prod = g.items.size
  word : g.items.size < 2 ^ 64

lemma exact_of_ofValues (hfits : dims.prod < 2 ^ 64) (hr : ofValues dims values = .ok g) :
    g.Exact := by
  obtain ⟨hsize, rfl, rfl⟩ := ofValues_eq_ok.mp hr
  rw [shapeSize_eq, wrapWord_of_lt hfits, Array.size_map] at hsize
  exact ⟨hsize, hsize ▸ hfits⟩

namespace Exact

lemma rowMajor_lt (hg : g.Exact) (hb : InBounds coords g.dims) :
    rowMajor coords g.dims < g.items.size :=
  hg.prod ▸ Grid.rowMajor_lt hb

lemma offset_eq_ok (hg : g.Exact) :
    g.offset coords = .ok k ↔ InBounds coords g.dims ∧ k = rowMajor coords g.dims := by
  rw [Grid.offset_eq_ok]
  refine and_congr_right fun hb => ?_
  rw [wrapWord_of_lt ((hg.rowMajor_lt hb).trans hg.word)]

lemma get_eq_ok (hg : g.Exact) :
    g.get coords = .ok p ↔ InBounds coords g.dims ∧ g.items[rowMajor coords g.dims]? = some p := by
  simp only [Grid.get_eq_ok, hg.offset_eq_ok]
  exact ⟨fun ⟨_, ⟨hb, hk⟩, hp⟩ => ⟨hb, hk ▸ hp⟩, fun ⟨hb, hp⟩ => ⟨_, ⟨hb, rfl⟩, hp⟩⟩

end Exact

/-- A shape with a number of elements that is a word is accepted for so many primitives and refused
for other values. The grid then has an element at each coordinate in its bounds and at no others,
and no offset is past the elements. If the leading extents have products that are words too, no
round of a loop wraps: the products and the offsets on the way are the numbers. -/
theorem safe_to_index (hfits : dims.prod < 2 ^ 64) :
    (dims.prod = values.size ∧ (∀ v ∈ values, v.isPrimitive = true) →
      ∃ g, ofValues dims values = .ok g) ∧
    (¬ (dims.prod = values.size ∧ ∀ v ∈ values, v.isPrimitive = true) →
      ∃ e, ofValues dims values = .error e) ∧
    (∀ g, ofValues dims values = .ok g →
      g.dims = dims ∧ g.items.map Value.prim = values ∧
      ∀ coords,
        (InBounds coords dims → ∃ hk : rowMajor coords dims < g.items.size,
          g.offset coords = .ok (rowMajor coords dims) ∧
            g.get coords = .ok g.items[rowMajor coords dims]) ∧
        (¬ InBounds coords dims →
          (∃ e, g.offset coords = .error e) ∧ ∃ e, g.get coords = .error e)) ∧
    ((∀ k, (dims.take k).prod < 2 ^ 64) →
      (∀ k, shapeSize (dims.take k) = (dims.take k).prod) ∧
      ∀ (coords : List Int) (k : Nat), InBounds (coords.take k) (dims.take k) →
        offsetFrom 0 (coords.take k) (dims.take k) =
          .ok (rowMajor (coords.take k) (dims.take k))) := by
  -- the product that is compared with the number of items does not wrap
  have hsize : shapeSize dims = dims.prod := by rw [shapeSize_eq, wrapWord_of_lt hfits]
  have hbuild : (∃ g, ofValues dims values = .ok g) ↔
      dims.prod = values.size ∧ ∀ v ∈ values, v.isPrimitive = true := by
    rw [← exists_primitives, ← hsize]
    simp only [ofValues_eq_ok, primitives_eq_ok]
    exact ⟨fun ⟨g, hg, _, hitems⟩ => ⟨hg, g.items, hitems⟩, fun ⟨hg, ps, hps⟩ =>
      ⟨⟨dims, ps⟩, hg, rfl, hps⟩⟩
  refine ⟨hbuild.mpr, fun hnot => ?_, fun g hg => ?_, fun hleading =>
    ⟨fun k => ?_, fun coords k hb => ?_⟩⟩
  · exact exists_error_of_forall_ne fun g hg => hnot (hbuild.mp ⟨g, hg⟩)
  · have hexact := exact_of_ofValues hfits hg
    obtain ⟨-, rfl, hitems⟩ := ofValues_eq_ok.mp hg
    refine ⟨rfl, hitems, fun coords => ⟨fun hb => ?_, fun hb => ⟨?_, ?_⟩⟩⟩
    · have hlt := hexact.rowMajor_lt hb
      exact ⟨hlt, hexact.offset_eq_ok.mpr ⟨hb, rfl⟩,
        hexact.get_eq_ok.mpr ⟨hb, Array.getElem?_eq_getElem hlt⟩⟩
    · exact exists_error_of_forall_ne fun k hk => hb (hexact.offset_eq_ok.mp hk).1
    · exact exists_error_of_forall_ne fun p hp => hb (hexact.get_eq_ok.mp hp).1
  · rw [shapeSize_eq, wrapWord_of_lt (hleading k)]
  · have hfrom := offsetFrom_of_inBounds hb 0
    rwa [Nat.zero_mul, Nat.zero_add, wrapWord_of_lt ((rowMajor_lt hb).trans (hleading k))] at hfrom

theorem safe_to_index_square :
    [2, 2].prod < 2 ^ 64 ∧
      ∃ g, ofValues [2, 2] #[.bool false, .bool false, .bool true, .bool false] = .ok g ∧
        g.get [1, 0] = .ok (.bool true) ∧ ∃ e, g.get [0, 2] = .error e := by
  have hfits : [2, 2].prod < 2 ^ 64 := by decide
  have hfull : [2, 2].prod = (#[.bool false, .bool false, .bool true, .bool false] : Array
      Value).size ∧
      ∀ v ∈ (#[.bool false, .bool false, .bool true, .bool false] : Array Value), v.isPrimitive =
      true := by
    decide
  obtain ⟨hbuild, -, hread, -⟩ := safe_to_index hfits
  obtain ⟨g, hg⟩ := hbuild hfull
  obtain ⟨-, hitems, hget⟩ := hread g hg
  obtain ⟨_, -, hp⟩ := (hget [1, 0]).1 (by simp [InBounds])
  refine ⟨hfits, g, hg, hp.trans (congrArg _ ?_), ((hget [0, 2]).2 (by simp [InBounds])).2⟩
  have hitem : g.items[2]?.map Value.prim = some (.bool true) := by
    rw [← Array.getElem?_map, hitems]
    rfl
  obtain ⟨p, hp, hval⟩ := Option.map_eq_some_iff.mp hitem
  cases hval
  exact (Array.getElem?_eq_some_iff.mp hp).2

/-- A shape with too many elements for a word is accepted without any element, and then there is
none at a coordinate in its bounds. -/
theorem not_safe_to_index :
    ¬ ∀ (dims : List Nat) (values : Array Value), (∀ d ∈ dims, d < 2 ^ 64) →
      ((∃ g, ofValues dims values = .ok g) ↔
        dims.prod = values.size ∧ ∀ v ∈ values, v.isPrimitive = true) := by
  intro hall
  have hwords : ∀ d ∈ [2 ^ 32, 2 ^ 32], d < 2 ^ 64 := by decide
  have hsize : shapeSize [2 ^ 32, 2 ^ 32] = (#[] : Array Value).size := by decide +kernel
  have hempty : ofValues [2 ^ 32, 2 ^ 32] #[] = .ok ⟨[2 ^ 32, 2 ^ 32], #[]⟩ :=
    ofValues_eq_ok.mpr ⟨hsize, rfl, Array.map_empty⟩
  exact absurd ((hall _ _ hwords).mp ⟨_, hempty⟩).1 (by decide)

end Grid
end Patchbay
