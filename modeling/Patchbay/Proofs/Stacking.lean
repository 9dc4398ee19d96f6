import Patchbay.Eval.Expression
import Patchbay.Proofs.Grids
import Patchbay.Proofs.Heap.Ends

/-!
# Stacking rows

Grids of one shape make a grid with one more dimension. The elements of the rows stand one row after
the other, and the offset of a coordinate is that of its row and of the place in the row: so the
grid has at each coordinate what the row has there. An array literal makes its grid so, unless all
its elements are primitives.
-/

namespace Patchbay

variable {H : HostTypes}

namespace Grid

variable {dims : List Nat} {cs : List Int} {g g' row : Grid} {rows : List Grid}
  {values : Array Value} {p : Primitive} {v : Value} {i k : Nat}

/-- The number of the elements is the one that the shape asks for, as a word. -/
def Made (g : Grid) : Prop := shapeSize g.dims = g.items.size

instance : Decidable g.Made := inferInstanceAs (Decidable (shapeSize g.dims = g.items.size))

/-- Primitives are accepted as the elements of the grids that are made. -/
lemma ofValues_prim_eq_ok {items : Array Primitive} :
    ofValues dims (items.map Value.prim) = .ok g ↔ g = ⟨dims, items⟩ ∧ g.Made := by
  rw [ofValues_eq_ok, Array.size_map]
  constructor
  · rintro ⟨hsize, rfl, hitems⟩
    obtain rfl : g.items = items :=
      Except.ok.inj ((primitives_eq_ok.mpr hitems).symm.trans (primitives_eq_ok.mpr rfl))
    exact ⟨rfl, hsize⟩
  · rintro ⟨rfl, hmade⟩
    exact ⟨hmade, rfl, rfl⟩

lemma Made.set (hg : g.Made) (hr : g.set cs v = .ok g') : g'.Made := by
  obtain ⟨p, k, -, -, -, rfl⟩ := set_eq_ok.mp hr
  simpa [Made] using hg

lemma Made.exact (hg : g.Made) (hfits : g.dims.prod < 2 ^ 64) : g.Exact :=
  exact_of_ofValues hfits (ofValues_prim_eq_ok.mpr ⟨rfl, hg⟩)

lemma Made.word (hg : g.Made) : g.items.size < 2 ^ 64 := by
  rw [← hg, shapeSize_eq]
  exact Nat.mod_lt _ (Nat.two_pow_pos 64)

lemma Exact.made (hg : g.Exact) : g.Made := by
  rw [Made, shapeSize_eq, hg.prod, wrapWord_of_lt hg.word]

/-! ## Rows -/

/-- Rows one after the other, along a new first dimension. -/
def stacked (dims : List Nat) (rows : List Grid) : Grid :=
  ⟨rows.length :: dims, (rows.flatMap fun row => row.items.toList).toArray⟩

/-- Rows of one shape, each with the elements that the shape asks for. -/
def Rows (dims : List Nat) (rows : List Grid) : Prop := ∀ row ∈ rows, row.Made ∧ row.dims = dims

lemma Rows.size_eq (hrows : Rows dims rows) (hrow : row ∈ rows) :
    row.items.size = shapeSize dims := by
  obtain ⟨hmade, rfl⟩ := hrows row hrow
  exact hmade.symm

lemma size_stacked (hrows : Rows dims rows) :
    (stacked dims rows).items.size = rows.length * shapeSize dims := by
  have hsizes : rows.map (fun row => row.items.size) = rows.map fun _ => shapeSize dims :=
    List.map_congr_left fun row hrow => hrows.size_eq hrow
  simp [stacked, List.length_flatMap, hsizes]

/-- The shape of a row has fewer elements. -/
lemma prod_lt_of_cons {n bound : Nat} (hn : 0 < n) (hfits : (n :: dims).prod < bound) :
    dims.prod < bound := by
  rw [List.prod_cons] at hfits
  exact (Nat.le_mul_of_pos_left dims.prod hn).trans_lt hfits

lemma Rows.size_stacked_lt (hrows : Rows dims rows) (hfits : (rows.length :: dims).prod < 2 ^ 64) :
    (stacked dims rows).items.size < 2 ^ 64 := by
  rw [size_stacked hrows]
  cases hlength : rows.length with
  | zero => omega
  | succ n =>
    rw [hlength] at hfits
    rwa [shapeSize_eq, wrapWord_of_lt (prod_lt_of_cons n.succ_pos hfits), ← List.prod_cons]

/-- The elements before a row are those of the rows before. -/
lemma getElem?_stacked (hrows : Rows dims rows) (hi : rows[i]? = some row)
    (hk : k < shapeSize dims) :
    (stacked dims rows).items[i * shapeSize dims + k]? = row.items[k]? := by
  show (rows.flatMap fun row => row.items.toList).toArray[i * shapeSize dims + k]? = _
  rw [List.getElem?_toArray, ← Array.getElem?_toList]
  induction rows generalizing i with
  | nil => cases hi
  | cons first rows ih =>
    -- all rows have the same number of items, so those of row i start behind i times as many
    have hsize : first.items.toList.length = shapeSize dims := hrows.size_eq List.mem_cons_self
    rw [List.flatMap_cons]
    cases i with
    | zero =>
      cases hi
      rw [Nat.zero_mul, Nat.zero_add, List.getElem?_append_left (hsize ▸ hk)]
    | succ i =>
      have hrest := ih (fun row hrow => hrows row (List.mem_cons_of_mem first hrow)) hi
      have hplace : (i + 1) * shapeSize dims + k - shapeSize dims = i * shapeSize dims + k := by
        rw [Nat.succ_mul]
        omega
      rw [List.getElem?_append_right (by rw [hsize, Nat.succ_mul]; omega), hsize, hplace]
      exact hrest

lemma Rows.made_stacked (hrows : Rows dims rows) (hword : (stacked dims rows).items.size < 2 ^ 64) :
    (stacked dims rows).Made := by
  have hprod : rows.length * shapeSize dims ≡ (rows.length :: dims).prod [MOD 2 ^ 64] := by
    rw [shapeSize_eq, List.prod_cons]
    exact (wrapWord_modEq dims.prod).mul_left rows.length
  show shapeSize (rows.length :: dims) = _
  rw [shapeSize_eq, ← wrapWord_congr hprod, ← size_stacked hrows, wrapWord_of_lt hword]

/-- What a row has at a coordinate, the stacked rows have at the coordinate behind the number of the
row. -/
lemma Rows.get_stacked (hrows : Rows dims rows) (hword : (stacked dims rows).items.size < 2 ^ 64)
    (hi : rows[i]? = some row) (hp : row.get cs = .ok p) :
    (stacked dims rows).get (i :: cs) = .ok p := by
  obtain ⟨k, hk, hitem⟩ := get_eq_ok.mp hp
  obtain ⟨hmade, hdims⟩ := hrows row (List.mem_of_getElem? hi)
  obtain ⟨hb, rfl⟩ := offset_eq_ok.mp hk
  rw [hdims] at hb hitem
  have hplace : wrapWord (rowMajor cs dims) < shapeSize dims := by
    rw [← hdims, hmade]
    exact (Array.getElem?_eq_some_iff.mp (hdims ▸ hitem)).1
  have hlength : i < rows.length := (List.getElem?_eq_some_iff.mp hi).1
  have hbounds : InBounds (i :: cs) (rows.length :: dims) := .cons ⟨by omega, by omega⟩ hb
  have hlt : i * shapeSize dims + wrapWord (rowMajor cs dims) < 2 ^ 64 :=
    (mul_add_lt hlength hplace).trans (size_stacked hrows ▸ hword)
  -- the offset is a word that differs from the place by whole words
  have hword' : wrapWord (rowMajor (i :: cs) (rows.length :: dims)) =
      i * shapeSize dims + wrapWord (rowMajor cs dims) := by
    rw [← wrapWord_of_lt hlt, rowMajor, Int.toNat_natCast, shapeSize_eq]
    exact wrapWord_congr (((wrapWord_modEq _).mul_left i).add (wrapWord_modEq _)).symm
  refine get_eq_ok.mpr ⟨_, offset_eq_ok.mpr ⟨hbounds, hword'.symm⟩, ?_⟩
  rw [getElem?_stacked hrows hi hplace, hitem]

/-- If the extents of the stacked rows multiply to a word, they have nothing else at such a
coordinate. -/
lemma Rows.get_stacked_iff (hrows : Rows dims rows) (hfits : (rows.length :: dims).prod < 2 ^ 64)
    (hi : rows[i]? = some row) :
    (stacked dims rows).get (i :: cs) = .ok p ↔ row.get cs = .ok p := by
  have hlength : i < rows.length := (List.getElem?_eq_some_iff.mp hi).1
  have hfit : dims.prod < 2 ^ 64 := prod_lt_of_cons (Nat.zero_lt_of_lt hlength) hfits
  have hword := hrows.size_stacked_lt hfits
  constructor
  · intro hp
    obtain ⟨_, hk, -⟩ := get_eq_ok.mp hp
    obtain ⟨hmade, hdims⟩ := hrows row (List.mem_of_getElem? hi)
    obtain ⟨_, hb⟩ := List.forall₂_cons.mp (offset_eq_ok.mp hk).1
    have hexact := hmade.exact (hdims ▸ hfit)
    have hlt := hexact.rowMajor_lt (hdims.symm ▸ hb)
    have hq : row.get cs = .ok row.items[rowMajor cs row.dims] :=
      hexact.get_eq_ok.mpr ⟨hdims.symm ▸ hb, Array.getElem?_eq_getElem hlt⟩
    rw [hrows.get_stacked hword hi hq] at hp
    rw [hq, hp]
  · exact hrows.get_stacked hword hi

/-- What is at the coordinates of stacked rows is at the coordinates of a row. -/
lemma Rows.get_stacked_eq_ok (hrows : Rows dims rows)
    (hfits : (rows.length :: dims).prod < 2 ^ 64) : (stacked dims rows).get cs = .ok p ↔
      ∃ (i : Nat) (row : Grid) (rest : List Int), cs = (i : Int) :: rest ∧ rows[i]? = some row ∧
        row.get rest = .ok p := by
  constructor
  · intro hp
    obtain ⟨_, hk, -⟩ := get_eq_ok.mp hp
    obtain _ | @⟨c, _, rest, _, hc, hb⟩ := (offset_eq_ok.mp hk).1
    obtain ⟨i, rfl⟩ := Int.eq_ofNat_of_zero_le hc.1
    have hi : i < rows.length := Int.ofNat_lt.mp hc.2
    have hrow : rows[i]? = some rows[i] := List.getElem?_eq_getElem hi
    exact ⟨i, rows[i], rest, rfl, hrow, (hrows.get_stacked_iff hfits hrow).mp hp⟩
  · rintro ⟨i, row, rest, rfl, hrow, hp⟩
    exact (hrows.get_stacked_iff hfits hrow).mpr hp

lemma made_vector {ps : List Primitive} (hcount : ps.length < 2 ^ 64) :
    Made ⟨[ps.length], ps.toArray⟩ := by
  show shapeSize [ps.length] = ps.toArray.size
  rw [shapeSize_eq, List.prod_singleton, wrapWord_of_lt hcount, List.size_toArray]

lemma get_vector_eq_ok {ps : List Primitive} (hcount : ps.length < 2 ^ 64) :
    get ⟨[ps.length], ps.toArray⟩ cs = .ok p ↔ ∃ i : Nat, cs = [(i : Int)] ∧ ps[i]? = some p := by
  have hexact : Exact ⟨[ps.length], ps.toArray⟩ :=
    (made_vector hcount).exact (by simpa using hcount)
  rw [hexact.get_eq_ok]
  constructor
  · rintro ⟨hb, hp⟩
    obtain _ | @⟨c, _, _, _, hc, hb⟩ := hb
    cases hb
    obtain ⟨i, rfl⟩ := Int.eq_ofNat_of_zero_le hc.1
    exact ⟨i, rfl, by simpa [rowMajor] using hp⟩
  · rintro ⟨i, rfl, hp⟩
    obtain ⟨hi, -⟩ := List.getElem?_eq_some_iff.mp hp
    exact ⟨.cons ⟨Int.natCast_nonneg i, Int.ofNat_lt.mpr hi⟩ .nil, by simpa [rowMajor] using hp⟩

end Grid

/-! ## The grid of a literal -/

variable {h : Heap H} {values : List Value} {rows : List Grid} {row g : Grid} {dims ds : List Nat}
  {items : List Primitive} {shape : Option (List Nat)} {id : ObjectId} {v : Value}

/-- The values are arrays on a heap, with these rows as their grids. -/
def RowsOn (h : Heap H) (values : List Value) (rows : List Grid) : Prop :=
  List.Forall₂ (fun v row => ∃ id, v = .array id ∧ h.object? id = some (.grid row)) values rows

lemma RowsOn.not_primitive (hrows : RowsOn h values rows) (hne : values ≠ [])
    (ps : List Primitive) : values ≠ ps.map Value.prim := by
  rintro rfl
  cases ps with
  | nil => exact hne rfl
  | cons p ps =>
    obtain _ | ⟨⟨id, hv, -⟩, -⟩ := hrows
    cases hv

/-- A first value is stacked if it is an array of the shape so far, and the others under its
shape. -/
lemma stackRows_cons_eq_ok : stackRows h shape (v :: values) = .ok (dims, items) ↔
    ∃ id row rest, v = .array id ∧ h.object? id = some (.grid row) ∧
      shape.getD row.dims = row.dims ∧
      stackRows h (some row.dims) values = .ok (dims, rest) ∧ items = row.items.toList ++ rest := by
  -- anything but an array makes the whole stack fail
  by_cases harray : ∃ id, v = .array id
  · obtain ⟨id, rfl⟩ := harray
    rw [stackRows, bind_eq_ok]
    constructor
    · rintro ⟨row, hrow, hr⟩
      dsimp only at hr
      split at hr
      · cases hr
      · next hshape =>
        rw [not_not] at hshape
        rw [hshape] at hr
        obtain ⟨⟨dims', rest⟩, hrest, hpure⟩ := bind_eq_ok.mp hr
        cases hpure
        exact ⟨id, row, rest, rfl, Heap.grid_eq_ok.mp hrow, hshape, hrest, rfl⟩
    · rintro ⟨_, row, rest, heq, hrow, hshape, hrest, rfl⟩
      cases heq
      refine ⟨row, Heap.grid_eq_ok.mpr hrow, ?_⟩
      dsimp only
      rw [hshape, if_neg (not_not.mpr rfl), bind_eq_ok]
      exact ⟨(dims, rest), hrest, rfl⟩
  · have hfails : ∃ e, stackRows h shape (v :: values) = .error e := by
      unfold stackRows
      split
      · next heq => cases heq
      · next id _ heq =>
        cases heq
        exact absurd ⟨id, rfl⟩ harray
      · exact ⟨_, rfl⟩
    obtain ⟨e, he⟩ := hfails
    rw [he]
    exact iff_of_false nofun fun ⟨id, _, _, hv, _⟩ => harray ⟨id, hv⟩

/-- Rows under a shape are stacked if all have the shape. -/
lemma stackRows_some_eq_ok : stackRows h (some ds) values = .ok (dims, items) ↔
    dims = ds ∧ ∃ rows, RowsOn h values rows ∧ (∀ row ∈ rows, row.dims = ds) ∧
      items = rows.flatMap fun row => row.items.toList := by
  induction values generalizing dims items with
  | nil =>
    have hr : stackRows h (some ds) [] = .ok (ds, []) := rfl
    rw [hr]
    constructor
    · intro heq
      cases heq
      exact ⟨rfl, [], .nil, nofun, rfl⟩
    · rintro ⟨rfl, _, hrows, -, rfl⟩
      cases hrows
      rfl
  | cons v values ih =>
    rw [stackRows_cons_eq_ok]
    constructor
    · rintro ⟨id, row, rest, rfl, hrow, hshape, hrest, rfl⟩
      obtain rfl : ds = row.dims := hshape
      obtain ⟨rfl, rows, hrows, hdims, rfl⟩ := ih.mp hrest
      exact ⟨rfl, row :: rows, .cons ⟨id, rfl, hrow⟩ hrows, List.forall_mem_cons.mpr ⟨rfl, hdims⟩,
        by rw [List.flatMap_cons]⟩
    · rintro ⟨rfl, _, hrows, hdims, rfl⟩
      obtain _ | ⟨⟨id, rfl, hrow⟩, hrows⟩ := hrows
      obtain ⟨rfl, hdims⟩ := List.forall_mem_cons.mp hdims
      exact ⟨id, _, _, rfl, hrow, rfl, ih.mpr ⟨rfl, _, hrows, hdims, rfl⟩, List.flatMap_cons⟩

/-- Without a shape, the first row gives it. -/
lemma stackRows_none_eq_ok (hne : values ≠ []) : stackRows h none values = .ok (dims, items) ↔
    ∃ rows, RowsOn h values rows ∧ (∀ row ∈ rows, row.dims = dims) ∧
      items = rows.flatMap fun row => row.items.toList := by
  cases values with
  | nil => exact absurd rfl hne
  | cons v values =>
    have hfirst : stackRows h none (v :: values) = .ok (dims, items) ↔
        stackRows h (some dims) (v :: values) = .ok (dims, items) := by
      rw [stackRows_cons_eq_ok, stackRows_cons_eq_ok]
      constructor
      · rintro ⟨id, row, rest, hv, hrow, -, hrest, hitems⟩
        exact ⟨id, row, rest, hv, hrow, (stackRows_some_eq_ok.mp hrest).1, hrest, hitems⟩
      · rintro ⟨id, row, rest, hv, hrow, -, hrest, hitems⟩
        exact ⟨id, row, rest, hv, hrow, rfl, hrest, hitems⟩
    rw [hfirst, stackRows_some_eq_ok]
    exact and_iff_right rfl

/-- Primitives make a grid of one dimension. -/
lemma literalGrid_primitives (ps : List Primitive) (hcount : ps.length < 2 ^ 64) :
    literalGrid h (ps.map Value.prim) = .ok ⟨[ps.length], ps.toArray⟩ := by
  have hall : (ps.map Value.prim).all Value.isPrimitive = true := by simp [Value.isPrimitive]
  rw [literalGrid, if_pos hall, Grid.vector, List.size_toArray, List.length_map, ← List.map_toArray]
  exact Grid.ofValues_prim_eq_ok.mpr ⟨rfl, Grid.made_vector hcount⟩

lemma exists_map_prim (hall : values.all Value.isPrimitive = true) :
    ∃ ps : List Primitive, values = ps.map Value.prim := by
  obtain ⟨ps, hps⟩ := Grid.exists_primitives.mpr fun v (hv : v ∈ values.toArray) =>
    List.all_eq_true.mp hall v (List.mem_toArray.mp hv)
  have hvalues := congrArg Array.toList (Grid.primitives_eq_ok.mp hps)
  rw [Array.toList_map] at hvalues
  exact ⟨ps.toList, hvalues.symm⟩

/-- Other values make a grid if they are arrays of one shape, by stacking them. -/
lemma literalGrid_eq_ok (hnot : ∀ ps : List Primitive, values ≠ ps.map Value.prim) :
    literalGrid h values = .ok g ↔ ∃ dims rows, RowsOn h values rows ∧
    (∀ row ∈ rows, row.dims = dims) ∧ g = Grid.stacked dims rows ∧ g.Made := by
  have hall : ¬ values.all Value.isPrimitive = true := fun hall =>
    (exists_map_prim hall).elim fun ps hps => hnot ps hps
  rw [literalGrid, if_neg hall, bind_eq_ok]
  simp only [Prod.exists, stackRows_none_eq_ok (hnot []), ← List.map_toArray,
    Grid.ofValues_prim_eq_ok]
  constructor
  · rintro ⟨dims, _, ⟨rows, hrows, hdims, rfl⟩, hg, hmade⟩
    rw [hrows.length_eq] at hg
    exact ⟨dims, rows, hrows, hdims, hg, hmade⟩
  · rintro ⟨dims, rows, hrows, hdims, rfl, hmade⟩
    refine ⟨dims, _, ⟨rows, hrows, hdims, rfl⟩, ?_, hmade⟩
    rw [hrows.length_eq]
    rfl

end Patchbay
