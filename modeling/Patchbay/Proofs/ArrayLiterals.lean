import Patchbay.Proofs.Evaluation.Limits
import Patchbay.Proofs.Heap.Slots
import Patchbay.Proofs.Lifting.Expressions
import Patchbay.Proofs.Stacking

/-!
# Array literals

An array literal evaluates its elements, makes a grid of their values and stores it. If the values
are arrays of one shape, the grid has at a coordinate what the row that its first index names has at
the others; so literals that are nested to any depth have at a coordinate the literal that is
written there.
-/

namespace Patchbay

variable {H : HostTypes} {env : Environment H} {c : Cursor} {s t : Session H} {fuel : Nat}
  {items : List Expr} {values : List Value} {loc : Location} {g : Grid}

/-- The session after a new array is stored. -/
def Session.withGrid (s : Session H) (g : Grid) : Session H :=
  { s with heap := (s.heap.alloc (.grid g)).2 }

lemma object?_withGrid (ht : t.heap.Tidy) :
    (t.withGrid g).heap.object? t.heap.nextId = some (.grid g) := by
  show (t.heap.alloc (.grid g)).2.object? t.heap.nextId = _
  rw [Heap.object?_alloc ht, if_pos rfl]

/-- An error of the rule for an expression gets the place of the expression. -/
lemma evalExpr_of_error {self : Runner H} {e : Expr} {x : EvalError}
    (hdepth : c.depth < env.config.maxDepth)
    (hkind : evalKind env self c.deeper e.kind e.loc (s.atDepth (c.depth + 1)) = .error x t) :
    evalExpr env self c e s = .error (x.locatedAt e.loc) (t.atDepth c.depth) := by
  have hnested : Eval.nested env c (fun c => evalKind env self c e.kind e.loc) s =
      .error x (t.atDepth c.depth) := by
    have hrestored : (evalKind env self c.deeper e.kind e.loc).andAlso (·.atDepth c.depth)
        (s.atDepth (c.depth + 1)) = .error x (t.atDepth c.depth) := by rw [Eval.andAlso, hkind]
    rw [Eval.nested, if_neg (Nat.not_le.mpr hdepth),
      Eval.bind_of_ok (show Eval.modify _ s = .ok () (s.atDepth (c.depth + 1)) from rfl)]
    exact hrestored
  rw [evalExpr, Eval.mapError, hnested]

section Stored

variable (hdepth : c.depth < env.config.maxDepth)
  (hvalues : evalAll (runner env fuel) c.deeper items (s.atDepth (c.depth + 1)) = .ok values t)

include hdepth hvalues

/-- When the elements have values with a grid, the literal stores the grid. -/
lemma evalArray_of_ok (hgrid : literalGrid t.heap values = .ok g) :
    (runner env (fuel + 1)).expr c ⟨.array items, loc⟩ s =
      .ok (.array t.heap.nextId) ((t.withGrid g).atDepth c.depth) := by
  have hstore : Eval.onHeap (HeapM.allocValue (.grid g)) t = .ok (.array t.heap.nextId)
      (t.withGrid g) := by
    rw [← Heap.alloc_fst (o := .grid g)]
    rfl
  have hkind : evalKind env (runner env fuel) c.deeper (.array items) loc
      (s.atDepth (c.depth + 1)) = .ok (.array t.heap.nextId) (t.withGrid g) := by
    rw [evalKind, Eval.bind_of_ok hvalues, Eval.bind_of_ok (Eval.readHeap_of_ok hgrid), hstore]
  exact evalExpr_eq_ok.mpr ⟨hdepth, _, hkind, rfl⟩

/-- When the elements have values without a grid, the literal fails and stores nothing. -/
lemma evalArray_of_error {x : EvalError} (hgrid : literalGrid t.heap values = .error x) :
    (runner env (fuel + 1)).expr c ⟨.array items, loc⟩ s = .error (x.locatedAt loc)
      (t.atDepth c.depth) := by
  have hkind : evalKind env (runner env fuel) c.deeper (.array items) loc
      (s.atDepth (c.depth + 1)) = .error x t := by
    rw [evalKind, Eval.bind_of_ok hvalues, Eval.bind_of_error (Eval.readHeap_of_error hgrid)]
  exact evalExpr_of_error hdepth hkind

end Stored

/-! ## Nested literals -/

/-- A literal, or a row of such literals in brackets, nested to a depth. -/
abbrev NestedLiteral : Nat → Type
  | 0 => Literal
  | depth + 1 => List (NestedLiteral depth)

namespace NestedLiteral

/-- The expression of a nested literal. -/
def expr (loc : Location) : (depth : Nat) → NestedLiteral depth → Expr
  | 0, l => ⟨.literal l, loc⟩
  | depth + 1, rows => ⟨.array (rows.map (expr loc depth)), loc⟩

/-- The rows have one shape, and there is a value in every place. Only the innermost rows may be
empty, since they tell the shape. -/
def Shaped : (depth : Nat) → NestedLiteral depth → List Nat → Prop
  | 0, l, dims => l ≠ .absent ∧ dims = []
  | depth + 1, rows, dims => (depth = 0 ∨ rows ≠ []) ∧
      ∃ ds, dims = rows.length :: ds ∧ ds.length = depth ∧ ∀ row ∈ rows, Shaped depth row ds

/-- What is written at a coordinate. -/
def Writes (names : Interner) : (depth : Nat) → NestedLiteral depth → List Int → Value → Prop
  | 0, l, cs, v => cs = [] ∧ v = l.value names
  | depth + 1, rows, cs, v => ∃ (i : Nat) (row : NestedLiteral depth) (rest : List Int),
      cs = (i : Int) :: rest ∧ rows[i]? = some row ∧ Writes names depth row rest v

/-- A value is what is written: the value of the literal itself, or an array with the shape of the
rows that has at each coordinate what is written there. -/
def Yields (names : Interner) (h : Heap H) (dims : List Nat) :
    (depth : Nat) → NestedLiteral depth → Value → Prop
  | 0, l, v => v = l.value names
  | depth + 1, rows, v =>
    ∃ id g, v = .array id ∧ h.object? id = some (.grid g) ∧ g.Made ∧ g.dims = dims ∧
      ∀ cs w, Value.prim <$> g.get cs = .ok w ↔ Writes names (depth + 1) rows cs w

end NestedLiteral

/-- Nothing but new objects came to the heap. -/
structure Session.Adds (s t : Session H) : Prop where
  tidy : t.heap.Tidy
  names : t.heap.names = s.heap.names
  objects : ∀ id o, s.heap.object? id = some o → t.heap.object? id = some o

namespace Session.Adds

lemma refl (hs : s.heap.Tidy) : Adds s s := ⟨hs, rfl, fun _ _ => id⟩

lemma trans {r : Session H} (h1 : Adds s t) (h2 : Adds t r) : Adds s r :=
  ⟨h2.tidy, h2.names.trans h1.names, fun id o ho => h2.objects id o (h1.objects id o ho)⟩

lemma atDepth (h : Adds s t) (depth : Nat) : Adds s (t.atDepth depth) :=
  ⟨h.tidy, h.names, h.objects⟩

lemma of_atDepth {depth : Nat} (h : Adds (s.atDepth depth) t) : Adds s t :=
  ⟨h.tidy, h.names, h.objects⟩

lemma withGrid (hs : s.heap.Tidy) (g : Grid) : Adds s (s.withGrid g) := by
  refine ⟨hs.alloc _, Heap.names_alloc, fun id o ho => ?_⟩
  show (s.heap.alloc (.grid g)).2.object? id = some o
  rw [Heap.object?_alloc_of_contains hs (Heap.contains_of_object? ho), ho]

end Session.Adds

/-- If each of some expressions yields, on any heap that only grew, what stays so while the heap
grows, then all of them one after the other do. -/
lemma evalAll_of_adds {α : Type} {self : Runner H} {make : α → Expr} {Q : Heap H → α → Value → Prop}
    (hQ : ∀ (s t : Session H) (a : α) (v : Value), s.Adds t → Q s.heap a v → Q t.heap a v)
    (as : List α)
    (hself : ∀ a ∈ as, ∀ t, s.Adds t → ∃ v t', self.expr c (make a) t = .ok v t' ∧ t.Adds t' ∧
      Q t'.heap a v)
    (hs : s.heap.Tidy) :
    ∃ values t, evalAll self c (as.map make) s = .ok values t ∧ s.Adds t ∧
    List.Forall₂ (Q t.heap) as values := by
  induction as generalizing s with
  | nil => exact ⟨[], s, rfl, .refl hs, .nil⟩
  | cons a as ih =>
    obtain ⟨v, s', hv, hadds, hq⟩ := hself a List.mem_cons_self s (.refl hs)
    obtain ⟨values, t, hall, hadds', hqs⟩ := ih
      (fun b hb t ht => hself b (List.mem_cons_of_mem a hb) t (hadds.trans ht)) hadds.tidy
    exact ⟨v :: values, t, evalAll_cons_eq_ok.mpr ⟨v, s', values, hv, hall, rfl⟩,
      hadds.trans hadds', .cons (hQ s' t a v hadds' hq) hqs⟩

lemma exists_getElem?_of_forall₂ {α β : Type} {R : α → β → Prop} {as : List α} {bs : List β}
    {i : Nat} {a : α}
    (hall : List.Forall₂ R as bs) (ha : as[i]? = some a) : ∃ b, bs[i]? = some b ∧ R a b := by
  obtain ⟨hi, rfl⟩ := List.getElem?_eq_some_iff.mp ha
  have hi' : i < bs.length := hall.length_eq ▸ hi
  exact ⟨bs[i], List.getElem?_eq_getElem hi', hall.get hi hi'⟩

/-- Arrays with grids of a kind are rows of that kind. -/
lemma exists_rowsOn {α : Type} {h : Heap H} {P : α → Grid → Prop} {as : List α}
    (hall : List.Forall₂ (fun a v => ∃ id g, v = .array id ∧ h.object? id = some (.grid g) ∧ P a g)
      as values) :
    ∃ rows, RowsOn h values rows ∧ List.Forall₂ P as rows := by
  induction hall with
  | nil => exact ⟨[], .nil, .nil⟩
  | cons ha _ ih =>
    obtain ⟨id, g, hv, hg, hP⟩ := ha
    obtain ⟨rows, hrows, hPs⟩ := ih
    exact ⟨g :: rows, .cons ⟨id, hv, hg⟩ hrows, .cons hP hPs⟩

namespace NestedLiteral

variable {names : Interner} {h h' : Heap H} {dims : List Nat} {depth : Nat}

lemma Yields.mono {b : NestedLiteral depth} {v : Value} (hy : Yields names h dims depth b v)
    (hobjects : ∀ id o, h.object? id = some o → h'.object? id = some o) :
    Yields names h' dims depth b v := by
  cases depth with
  | zero => exact hy
  | succ depth =>
    obtain ⟨id, g, hv, hg, hread⟩ := hy
    exact ⟨id, g, hv, hobjects id _ hg, hread⟩

lemma isPrimitive_value {l : Literal} (hl : l ≠ .absent) : (l.value names).isPrimitive = true := by
  cases l with
  | absent => exact absurd rfl hl
  | _ => rfl

/-- A row of plain literals. -/
lemma literalGrid_plain {ls : NestedLiteral 1} (hshape : Shaped 1 ls dims)
    (hfits : dims.prod < 2 ^ 64)
    (hvalues : List.Forall₂ (fun l v => v = Literal.value l names) ls values) :
    ∃ g, literalGrid h values = .ok g ∧ g.Made ∧ g.dims = dims ∧
      ∀ cs w, Value.prim <$> g.get cs = .ok w ↔ Writes names 1 ls cs w := by
  obtain ⟨-, ds, rfl, hds, hplain⟩ := hshape
  obtain rfl := List.length_eq_zero_iff.mp hds
  obtain rfl : values = ls.map (Literal.value · names) := by
    rw [← List.forall₂_eq_eq_eq, List.forall₂_map_right_iff]
    exact hvalues.flip
  have hall : (ls.map (Literal.value · names)).all Value.isPrimitive = true := by
    rw [List.all_map, List.all_eq_true]
    exact fun l hl => isPrimitive_value (hplain l hl).1
  obtain ⟨ps, hps⟩ := exists_map_prim hall
  have hlength : ls.length = ps.length := by simpa using congrArg List.length hps
  have hcount : ps.length < 2 ^ 64 := by rwa [List.prod_singleton, hlength] at hfits
  have hat : ∀ i : Nat, ls[i]?.map (Literal.value · names) = ps[i]?.map Value.prim := fun i => by
    rw [← List.getElem?_map, hps, List.getElem?_map]
  rw [hps, literalGrid_primitives ps hcount]
  refine ⟨_, rfl, Grid.made_vector hcount, by rw [hlength], fun cs w => ?_⟩
  simp only [map_eq_ok, Grid.get_vector_eq_ok hcount]
  constructor
  · rintro ⟨p, ⟨i, rfl, hp⟩, rfl⟩
    have hi := hat i
    rw [hp] at hi
    obtain ⟨l, hl, hvalue⟩ := Option.map_eq_some_iff.mp hi
    exact ⟨i, l, [], rfl, hl, rfl, hvalue.symm⟩
  · rintro ⟨i, l, _, rfl, hl, rfl, rfl⟩
    have hi := hat i
    rw [hl] at hi
    obtain ⟨p, hp, hvalue⟩ := Option.map_eq_some_iff.mp hi.symm
    exact ⟨p, ⟨i, rfl, hp⟩, hvalue⟩

/-- Rows that are nested themselves. -/
lemma literalGrid_nested {rows : NestedLiteral (depth + 2)} {ds : List Nat} (hne : rows ≠ [])
    (hfits : (rows.length :: ds).prod < 2 ^ 64)
    (hvalues : List.Forall₂ (Yields names h ds (depth + 1)) rows values) :
    ∃ g, literalGrid h values = .ok g ∧ g.Made ∧ g.dims = rows.length :: ds ∧
      ∀ cs w, Value.prim <$> g.get cs = .ok w ↔ Writes names (depth + 2) rows cs w := by
  obtain ⟨grids, hgrids, hread⟩ := exists_rowsOn (P := fun row g => g.Made ∧ g.dims = ds ∧
    ∀ cs w, Value.prim <$> g.get cs = .ok w ↔ Writes names (depth + 1) row cs w) hvalues
  rw [hread.length_eq] at hfits ⊢
  have hrows : Grid.Rows ds grids := by
    intro g hg
    obtain ⟨i, hi⟩ := List.mem_iff_getElem?.mp hg
    obtain ⟨_, -, hmade, hdims, -⟩ := exists_getElem?_of_forall₂ hread.flip hi
    exact ⟨hmade, hdims⟩
  have hnot : ∀ ps : List Primitive, values ≠ ps.map Value.prim :=
    hgrids.not_primitive fun hnil =>
      hne (List.length_eq_zero_iff.mp (hvalues.length_eq.trans (by simp [hnil])))
  have hmade : (Grid.stacked ds grids).Made := hrows.made_stacked (hrows.size_stacked_lt hfits)
  refine ⟨Grid.stacked ds grids, (literalGrid_eq_ok hnot).mpr
    ⟨ds, grids, hgrids, fun g hg => (hrows g hg).2, rfl, hmade⟩, hmade, rfl, fun cs w => ?_⟩
  simp only [map_eq_ok, hrows.get_stacked_eq_ok hfits]
  constructor
  · rintro ⟨p, ⟨i, g, rest, rfl, hg, hp⟩, rfl⟩
    obtain ⟨row, hrow, -, -, hat⟩ := exists_getElem?_of_forall₂ hread.flip hg
    exact ⟨i, row, rest, rfl, hrow, (hat rest _).mp (map_eq_ok.mpr ⟨p, hp, rfl⟩)⟩
  · rintro ⟨i, row, rest, rfl, hrow, hw⟩
    obtain ⟨g, hg, -, -, hat⟩ := exists_getElem?_of_forall₂ hread hrow
    obtain ⟨p, hp, rfl⟩ := map_eq_ok.mp ((hat rest w).mpr hw)
    exact ⟨p, ⟨i, g, rest, rfl, hg, hp⟩, rfl⟩

end NestedLiteral

/-- Evaluating a nested literal. -/
lemma evalNested (depth : Nat) {b : NestedLiteral depth} {dims : List Nat}
    (hshape : b.Shaped depth dims)
    (hfits : dims.prod < 2 ^ 64) (hs : s.heap.Tidy) (hdepth : c.depth + depth < env.config.maxDepth)
    (hfuel : depth < fuel) :
    ∃ v t, (runner env fuel).expr c (b.expr loc depth) s = .ok v t ∧ s.Adds t ∧
      b.Yields s.heap.names t.heap dims depth v := by
  induction depth generalizing dims c s fuel with
  | zero =>
    obtain ⟨fuel, rfl⟩ := Nat.exists_eq_succ_of_ne_zero (Nat.ne_of_gt hfuel)
    exact ⟨_, _, evalLiteral_eq_ok.mpr ⟨hdepth, rfl, rfl⟩,
      (Session.Adds.refl hs).atDepth c.depth, rfl⟩
  | succ depth ih =>
    obtain ⟨fuel, rfl⟩ := Nat.exists_eq_succ_of_ne_zero (Nat.ne_zero_of_lt hfuel)
    obtain ⟨hne, ds, rfl, hds, hrows⟩ := hshape
    have heach : ∀ row ∈ b, ∀ t, (s.atDepth (c.depth + 1)).Adds t → ∃ v t',
        (runner env fuel).expr c.deeper (NestedLiteral.expr loc depth row) t = .ok v t' ∧
        t.Adds t' ∧ NestedLiteral.Yields s.heap.names t'.heap ds depth row v := by
      intro row hrow t ht
      have hfit : ds.prod < 2 ^ 64 := Grid.prod_lt_of_cons (List.length_pos_of_mem hrow) hfits
      obtain ⟨v, t', hv, hadds, hy⟩ := ih (c := c.deeper) (hrows row hrow) hfit ht.tidy
        (by simp only [Cursor.deeper]; omega) (Nat.lt_of_succ_lt_succ hfuel)
      exact ⟨v, t', hv, hadds, ht.names ▸ hy⟩
    obtain ⟨values, t, hall, hadds, hyields⟩ := evalAll_of_adds
      (Q := fun h row v => NestedLiteral.Yields s.heap.names h ds depth row v)
      (fun s t a v hst hy => hy.mono hst.objects) b heach hs
    obtain ⟨g, hgrid, hmade, hdims, hread⟩ : ∃ g, literalGrid t.heap values = .ok g ∧ g.Made ∧
        g.dims = b.length :: ds ∧
        ∀ cs w, Value.prim <$> g.get cs = .ok w ↔
        NestedLiteral.Writes s.heap.names (depth + 1) b cs w := by
      cases depth with
      | zero => exact NestedLiteral.literalGrid_plain ⟨hne, ds, rfl, hds, hrows⟩ hfits hyields
      | succ depth =>
        exact NestedLiteral.literalGrid_nested (hne.resolve_left (Nat.succ_ne_zero depth))
          hfits hyields
    have hhere : c.depth < env.config.maxDepth := by omega
    exact ⟨_, _, evalArray_of_ok hhere hall hgrid,
      (hadds.of_atDepth.trans (.withGrid hadds.tidy g)).atDepth c.depth,
      t.heap.nextId, g, rfl, object?_withGrid hadds.tidy, hmade, hdims, hread⟩

/-! ## What array literals mean -/

/-- What an array literal means whose elements have the values `values`, in the session `t` that
evaluating them leaves. -/
structure LiteralMeans (env : Environment H) (fuel : Nat) (c : Cursor) (items : List Expr)
    (loc : Location) (s t : Session H) (values : List Value) : Prop where
  /-- Primitives become an array of one dimension. -/
  primitives : ∀ ps : List Primitive, values = ps.map Value.prim →
    (runner env (fuel + 1)).expr c ⟨.array items, loc⟩ s =
      .ok (.array t.heap.nextId) ((t.withGrid ⟨[items.length], ps.toArray⟩).atDepth c.depth)
  /-- Arrays of one shape become a new array with one more dimension in front, which has whatever
  the rows have at the coordinates behind their numbers, and nothing else there as long as its
  extents multiply to a word. -/
  rows : ∀ (dims : List Nat) (rows : List Grid), values ≠ [] → RowsOn t.heap values rows →
    Grid.Rows dims rows → (Grid.stacked dims rows).items.size < 2 ^ 64 →
    ∃ g, (runner env (fuel + 1)).expr c ⟨.array items, loc⟩ s =
        .ok (.array t.heap.nextId) ((t.withGrid g).atDepth c.depth) ∧
      g.Made ∧ g.dims = items.length :: dims ∧
      ∀ (i : Nat) (row : Grid), rows[i]? = some row → ∀ (cs : List Int) (p : Primitive),
        (row.get cs = .ok p → g.get (i :: cs) = .ok p) ∧
        (g.dims.prod < 2 ^ 64 → g.get (i :: cs) = .ok p → row.get cs = .ok p)
  /-- For other values the literal fails, and the heap is as the elements left it. -/
  otherwise : (∀ ps : List Primitive, values ≠ ps.map Value.prim) →
    (∀ (dims : List Nat) (rows : List Grid), RowsOn t.heap values rows →
      ¬ ∀ row ∈ rows, row.dims = dims) →
    ∃ e, (runner env (fuel + 1)).expr c ⟨.array items, loc⟩ s = .error e (t.atDepth c.depth)

/-- What array literals mean. -/
structure StacksArrays (env : Environment H) : Prop where
  /-- Their elements may be anything that has values; that their number is a word is what a machine
  has room for. -/
  literal : ∀ (fuel : Nat) (c : Cursor) (items : List Expr) (loc : Location) (s t : Session H)
    (values : List Value), c.depth < env.config.maxDepth → items.length < 2 ^ 64 →
    evalAll (runner env fuel) c.deeper items (s.atDepth (c.depth + 1)) = .ok values t →
    LiteralMeans env fuel c items loc s t values
  /-- The array is a new object. -/
  stored : ∀ (t : Session H) (g : Grid), t.heap.Tidy →
    t.heap.contains t.heap.nextId = false ∧
      (t.withGrid g).heap.object? t.heap.nextId = some (.grid g)
  /-- Literals that are nested to any depth become an array that has at each coordinate what is
  written there. -/
  nested : ∀ (depth fuel : Nat) (c : Cursor) (loc : Location) (s : Session H)
    (b : NestedLiteral (depth + 1))
    (dims : List Nat), b.Shaped (depth + 1) dims → dims.prod < 2 ^ 64 → s.heap.Tidy →
    c.depth + depth + 1 < env.config.maxDepth → depth + 1 < fuel →
    ∃ id t g, (runner env fuel).expr c (b.expr loc (depth + 1)) s = .ok (.array id) t ∧
      t.heap.object? id = some (.grid g) ∧ g.dims = dims ∧
      ∀ cs v, Value.prim <$> g.get cs = .ok v ↔ b.Writes s.heap.names (depth + 1) cs v

/-- Array literals stack what their elements are, in every environment. -/
theorem array_literals_stack (env : Environment H) : StacksArrays env := by
  refine ⟨fun fuel c items loc s t values hdepth hcount hvalues => ⟨fun ps hps => ?_,
    fun dims rows hne hon hrows hword => ?_, fun hnot hdiffer => ?_⟩, fun t g ht => ?_,
    fun depth fuel c loc s b dims hshape hfits hs hdepth hfuel => ?_⟩
  · -- primitives
    have hlength : items.length = ps.length := by
      rw [← length_evalAll hvalues, hps, List.length_map]
    have hgrid := literalGrid_primitives (h := t.heap) ps (hlength ▸ hcount)
    rw [hlength]
    exact evalArray_of_ok hdepth hvalues (hps ▸ hgrid)
  · -- rows of one shape
    have hmade := hrows.made_stacked hword
    have hlength : items.length = rows.length := (length_evalAll hvalues).symm.trans hon.length_eq
    have hgrid : literalGrid t.heap values = .ok (Grid.stacked dims rows) :=
      (literalGrid_eq_ok (hon.not_primitive hne)).mpr
        ⟨dims, rows, hon, fun row hrow => (hrows row hrow).2, rfl, hmade⟩
    refine ⟨Grid.stacked dims rows, evalArray_of_ok hdepth hvalues hgrid, hmade, ?_,
      fun i row hrow cs p => ⟨?_, ?_⟩⟩
    · rw [hlength]
      rfl
    · exact hrows.get_stacked hword hrow
    · exact fun hfits => (hrows.get_stacked_iff hfits hrow).mp
  · -- neither: if there was a grid, it would be made of rows of one shape
    have hfails : ∀ g, literalGrid t.heap values ≠ .ok g := by
      intro g hg
      obtain ⟨dims, rows, hon, hdims, -⟩ := (literalGrid_eq_ok hnot).mp hg
      exact hdiffer dims rows hon hdims
    obtain ⟨e, he⟩ := exists_error_of_forall_ne hfails
    exact ⟨_, evalArray_of_error hdepth hvalues he⟩
  · exact ⟨Heap.contains_nextId ht, object?_withGrid ht⟩
  · obtain ⟨_, t, hrun, -, id, g, rfl, hg, -, hdims, hread⟩ :=
      evalNested (depth + 1) hshape hfits hs hdepth hfuel
    exact ⟨id, t, g, hrun, hg, hdims, hread⟩

/-- Two rows of two. -/
def squareLiteral : NestedLiteral 2 :=
  [[Literal.bool true, Literal.bool false], [Literal.bool false, Literal.bool true]]

theorem array_literals_stack_square :
    squareLiteral.Shaped 2 [2, 2] ∧ [2, 2].prod < 2 ^ 64 ∧ bareSession.heap.Tidy ∧
    ∃ id t g, (runner (bareEnvironment 8) 3).expr ⟨⟨0, 0⟩, 0⟩ (squareLiteral.expr .builtin 2)
      bareSession = .ok (.array id) t ∧
      t.heap.object? id = some (.grid g) ∧ Value.prim <$> g.get [1, 0] = .ok (.bool false) := by
  have hshape : squareLiteral.Shaped 2 [2, 2] := by
    simp [squareLiteral, NestedLiteral.Shaped]
  have htidy : bareSession.heap.Tidy := (Heap.counted_new _ 100).tidy.alloc _
  have hdepth : (⟨⟨0, 0⟩, 0⟩ : Cursor).depth + 1 + 1 <
      (bareEnvironment 8).config.maxDepth := by decide
  obtain ⟨id, t, g, hrun, hg, -, hread⟩ := (array_literals_stack (bareEnvironment 8)).nested 1 3
    ⟨⟨0, 0⟩, 0⟩
    .builtin bareSession squareLiteral [2, 2] hshape (by decide) htidy hdepth (by decide)
  refine ⟨hshape, by decide, htidy, id, t, g, hrun, hg, (hread _ _).mpr ?_⟩
  exact ⟨1, [Literal.bool false, Literal.bool true], [0], rfl, rfl, 0, Literal.bool false, [], rfl,
    rfl, rfl, rfl⟩

/-- Two arrays of one element, under extents that multiply to a word and one more. -/
def wideRows : Heap Stock.types :=
  (((Heap.new .new 100).alloc (.grid ⟨[274177, 67280421310721], #[.bool true]⟩)).2.alloc
    (.grid ⟨[274177, 67280421310721], #[.bool false]⟩)).2

/-- The elements of the second row are found at coordinates of the first one, where that row has
nothing. -/
theorem not_array_literals_stack :
    ¬ ∀ (h : Heap Stock.types) (values : List Value) (dims : List Nat) (rows : List Grid)
      (g : Grid),
      values ≠ [] → RowsOn h values rows → Grid.Rows dims rows → literalGrid h values = .ok g →
      ∀ (i : Nat) (row : Grid), rows[i]? = some row → ∀ (cs : List Int) (p : Primitive),
        g.get (i :: cs) = .ok p ↔ row.get cs = .ok p := by
  intro hall
  let first : Grid := ⟨[274177, 67280421310721], #[.bool true]⟩
  let second : Grid := ⟨[274177, 67280421310721], #[.bool false]⟩
  have hon : RowsOn wideRows [.array ⟨0, 0⟩, .array ⟨1, 0⟩] [first, second] :=
    .cons ⟨⟨0, 0⟩, rfl, rfl⟩ (.cons ⟨⟨1, 0⟩, rfl, rfl⟩ .nil)
  -- the product of the extents is 2^64 + 1, which passes for the 1 item that each row has
  have hmade : first.Made ∧ second.Made := by decide +kernel
  have hrows : Grid.Rows [274177, 67280421310721] [first, second] := by
    simp [Grid.Rows, hmade.1, hmade.2, first, second]
  have hstacked := hrows.made_stacked (by decide)
  have hgrid := (literalGrid_eq_ok (hon.not_primitive (List.cons_ne_nil _ _))).mpr
    ⟨_, _, hon, fun row hrow => (hrows row hrow).2, rfl, hstacked⟩
  have hat : (Grid.stacked [274177, 67280421310721] [first, second]).get [0, 0, 1] =
      .ok (.bool false) := by
    decide +kernel
  have hrow :=
    (hall _ _ _ _ _ (List.cons_ne_nil _ _) hon hrows hgrid 0 first rfl [0, 1] (.bool false)).mp hat
  have hnothing : first.get [0, 1] ≠ .ok (.bool false) := by decide +kernel
  exact hnothing hrow

end Patchbay
