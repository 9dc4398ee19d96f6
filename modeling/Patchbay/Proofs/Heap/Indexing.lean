import Patchbay.Host.Stock
import Patchbay.Proofs.Grids
import Patchbay.Proofs.Heap.Naming

/-!
# Storing by index

Index assignment writes to a cell: an item of a sequence, an element of an array, a binding of a
frame or the content of a reference cell. Which cell it is follows from the target and the indices
alone. What was written is read back, and nothing else changes: other cells keep what they have, and
objects keep their layout, except that a frame gets a binding for a key that it had none for.
-/

namespace Patchbay

variable {H : HostTypes}

/-! ## Cells -/

/-- A place within an object that index assignment writes to. -/
inductive Place where
  | item (position : Int)
  | element (coords : List Int)
  | binding (key : String)
  | content
deriving DecidableEq

/-- A place in an object of the heap. -/
structure Cell where
  object : ObjectId
  place : Place
deriving DecidableEq

/-- The cell that a target and its indices name. An index may be of any integer type. Ports of nodes
and characters of texts are no cells. -/
def Value.cell? : Value → List Value → Option Cell
  | .sequence id, [index] => index.asIndex.map fun i => ⟨id, .item i⟩
  | .array id, indices => (Heap.coordinates? indices).map fun coords => ⟨id, .element coords⟩
  | .frame id, [.text key] => some ⟨id, .binding key⟩
  | .ref id, [] => some ⟨id, .content⟩
  | _, _ => none

lemma Value.cell?_binding {t : Value} {js : List Value} {id : ObjectId} {key : String} :
    t.cell? js = some ⟨id, .binding key⟩ ↔ t = .frame id ∧ js = [.text key] := by
  constructor
  · intro hc
    unfold cell? at hc
    split at hc
    · simp at hc
    · simp at hc
    · simpa using hc
    · simp at hc
    · cases hc
  · rintro ⟨rfl, rfl⟩
    rfl

/-- What an object has at a place. The table gives keys their names. -/
def HeapObject.at? (names : Interner) : HeapObject H → Place → Option Value
  | sequence items, .item i => Heap.elementAt? items i
  | grid g, .element coords => (g.get coords).toOption.map Value.prim
  | frame f, .binding key => (names.get? key).bind f.get?
  | ref v, .content => some v
  | _, _ => none

/-- The value in a cell. -/
def Heap.valueAt? (h : Heap H) (c : Cell) : Option Value :=
  (h.object? c.object).bind fun o => o.at? h.names c.place

namespace Heap

variable {h h' : Heap H} {id x : ObjectId} {t target v w : Value} {js indices : List Value}
  {c : Cell}

/-- Reading an object of one kind and going on with what is in it. -/
lemma read_eq_ok {α : Type} {look : Except EvalError α} {make : α → HeapObject H}
    {k : α → Except EvalError Value} {at? : HeapObject H → Option Value}
    (hlook : ∀ a, look = .ok a ↔ h.object? id = some (make a))
    (hat : ∀ o, at? o = some w ↔ ∃ a, o = make a ∧ k a = .ok w) :
    (look >>= k) = .ok w ↔ (h.object? id).bind at? = some w := by
  rw [bind_eq_ok, Option.bind_eq_some_iff]
  constructor
  · rintro ⟨a, ha, hk⟩
    exact ⟨make a, (hlook a).mp ha, (hat _).mpr ⟨a, rfl, hk⟩⟩
  · rintro ⟨o, ho, hv⟩
    obtain ⟨a, rfl, hk⟩ := (hat o).mp hv
    exact ⟨a, (hlook a).mpr ho, hk⟩

/-- Reading by index reads the cell. -/
lemma index_eq_ok (hc : t.cell? js = some c) : h.index t js = .ok w ↔ h.valueAt? c = some w := by
  unfold Value.cell? at hc
  unfold index valueAt?
  split at hc
  · obtain ⟨i, hi, rfl⟩ := Option.map_eq_some_iff.mp hc
    simp only [hi]
    refine read_eq_ok (fun _ => sequence_eq_ok) fun o => ?_
    cases o with
    | sequence items =>
      cases hv : elementAt? items i <;> simp [HeapObject.at?, hv, pure, Except.pure, fail_eq]
    | _ => simp [HeapObject.at?]
  · obtain ⟨coords, hcoords, rfl⟩ := Option.map_eq_some_iff.mp hc
    simp only [hcoords]
    refine read_eq_ok (fun _ => grid_eq_ok) fun o => ?_
    cases o with
    | grid g =>
      cases hv : g.get coords <;> simp [HeapObject.at?, hv, Functor.map, Except.map,
        Except.toOption]
    | _ => simp [HeapObject.at?]
  · cases hc
    refine read_eq_ok (fun _ => frame_eq_ok) fun o => ?_
    next key =>
    cases o with
    | frame f =>
      cases hv : (h.names.get? key).bind f.get? <;>
        simp [HeapObject.at?, hv, pure, Except.pure, fail_eq]
    | _ => simp [HeapObject.at?]
  · next id =>
    cases hc
    rw [refValue_eq_ok]
    cases h.object? id with
    | none => simp
    | some o => cases o <;> simp [HeapObject.at?]
  · cases hc

/-- What is no cell is read the same as long as the nodes stay. -/
lemma index_of_no_cell (hc : t.cell? js = none)
    (hnode : ∀ id n, h'.object? id = some (.node n) ↔ h.object? id = some (.node n)) :
    h'.index t js = .ok w ↔ h.index t js = .ok w := by
  unfold Value.cell? at hc
  unfold index
  split
  · simp only [Option.map_eq_none_iff] at hc
    simp [hc, bind_eq_ok, fail_eq]
  · simp only [Option.map_eq_none_iff] at hc
    simp [hc, fail_eq]
  · cases hc
  · next id key => simp only [bind_eq_ok, node_eq_ok, hnode]
  · cases hc
  · rfl
  · simp [fail_eq]

end Heap

/-! ## Objects with one place written -/

namespace HeapObject

variable {names : Interner} {o o' : HeapObject H} {p q : Place} {v : Value}

/-- A value was written to a place of the object, and its other places keep what they have. -/
structure Stores (names : Interner) (p : Place) (v : Value) (o o' : HeapObject H) : Prop where
  here : o'.at? names p = some v
  others : ∀ q, q ≠ p → o'.at? names q = o.at? names q

lemma stores_sequence {items : Array Value} {i : Int} {old : Value}
    (hold : Heap.elementAt? items i = some old) :
    (sequence items : HeapObject H).Stores names (.item i) v
    (.sequence (items.setIfInBounds i.toNat v)) := by
  unfold Heap.elementAt? at hold
  split at hold
  · cases hold
  · next hi =>
    have hlt := (Array.getElem?_eq_some_iff.mp hold).1
    refine ⟨?_, fun q hq => ?_⟩
    · simp [at?, Heap.elementAt?, hi, hlt]
    · cases q with
      | item j =>
        have hne : j ≠ i := fun hji => hq (congrArg _ hji)
        simp only [at?, Heap.elementAt?]
        split
        · rfl
        · next hj => rw [Array.getElem?_setIfInBounds_ne (by omega)]
      | _ => rfl

lemma at?_grid {g : Grid} {coords : List Int} :
    (grid g : HeapObject H).at? names (.element coords) = some v ↔ ∃ p, g.get coords = .ok p ∧
    v = .prim p := by
  cases hg : g.get coords <;> simp [at?, hg, Except.toOption, eq_comm]

/-- Coordinates are read where they are written, since no two of them have the same offset. -/
lemma stores_grid {g g' : Grid} {coords : List Int} (hg : g.Exact)
    (hset : g.set coords v = .ok g') :
    (grid g : HeapObject H).Stores names (.element coords) v (.grid g') := by
  obtain ⟨p, k, rfl, hk, hlt, rfl⟩ := Grid.set_eq_ok.mp hset
  obtain ⟨hb, rfl⟩ := hg.offset_eq_ok.mp hk
  have hg' : Grid.Exact { g with items := g.items.setIfInBounds (Grid.rowMajor coords g.dims) p } :=
    ⟨by simpa using hg.prod, by simpa using hg.word⟩
  refine ⟨at?_grid.mpr ⟨p, hg'.get_eq_ok.mpr ⟨hb, ?_⟩, rfl⟩, fun q hq => ?_⟩
  · exact Array.getElem?_setIfInBounds_self_of_lt hlt
  · cases q with
    | element cs =>
      refine Option.ext fun w => ?_
      rw [at?_grid, at?_grid]
      simp only [hg'.get_eq_ok, hg.get_eq_ok]
      refine exists_congr fun r => and_congr_left fun _ => and_congr_right fun hcs => ?_
      have hne : Grid.rowMajor coords g.dims ≠ Grid.rowMajor cs g.dims := fun heq =>
        hq (congrArg _ (Grid.rowMajor_injective hb hcs heq).symm)
      rw [Array.getElem?_setIfInBounds_ne hne]
    | _ => rfl

lemma stores_frame {f f' : Frame} {key : String} {name : Name} (hs : names.Sound)
    (hname : names.get? key = some name) (hhere : f'.get? name = some v)
    (hothers : ∀ n, n ≠ name → f'.get? n = f.get? n) :
    (frame f : HeapObject H).Stores names (.binding key) v (.frame f') := by
  refine ⟨?_, fun q hq => ?_⟩
  · simp [at?, hname, hhere]
  · cases q with
    | binding other =>
      simp only [at?]
      cases ho : names.get? other with
      | none => rfl
      | some n =>
        refine hothers n ?_
        rintro rfl
        exact hq (congrArg _ (hs.get?_injective ho hname))
    | _ => rfl

lemma stores_ref {old : Value} : (ref old : HeapObject H).Stores names .content v (.ref v) := by
  refine ⟨rfl, fun q hq => ?_⟩
  cases q with
  | content => exact absurd rfl hq
  | _ => rfl

/-- A text that gets a name changes nothing that an object has. -/
lemma at?_intern (hf : ∀ f, o = .frame f → f.WellNamed names) (key : String) (p : Place) :
    o.at? (names.intern key).2 p = o.at? names p := by
  cases o with
  | frame f =>
    cases p with
    | binding other => exact (hf f rfl).lookup_intern key other
    | _ => rfl
  | _ => cases p <;> rfl

/-- The layout of an object: what it is and has places for. Frames get the names `created`. -/
inductive SameLayout : List Name → HeapObject H → HeapObject H → Prop where
  | frame {f f' : Frame} {created : List Name} : f.SamePlace f' →
      f'.boundNames = f.boundNames ++ created → SameLayout created (.frame f) (.frame f')
  | sequence {items items' : Array Value} : items'.size = items.size →
      SameLayout [] (.sequence items) (.sequence items')
  | grid {g g' : Grid} : g'.dims = g.dims → g'.size = g.size → SameLayout [] (.grid g) (.grid g')
  | ref (v w : Value) : SameLayout [] (.ref v) (.ref w)

lemma SameLayout.not_node {created : List Name} (hl : SameLayout created o o') (n : Node H) :
    o ≠ .node n ∧ o' ≠ .node n := by
  cases hl <;> exact ⟨nofun, nofun⟩

end HeapObject

/-! ## Heaps with one cell written -/

namespace Heap

variable {h h' : Heap H} {id x : ObjectId} {t target v w : Value} {js indices : List Value}
  {c c' : Cell} {name : Name} {key : String} {created : List Name}

/-- A value was written to a cell, and nothing else changed but that the names `created` got
bindings. -/
structure StoresAt (c : Cell) (v : Value) (created : List Name) (h h' : Heap H) : Prop where
  written : ∃ o o', h.object? c.object = some o ∧ h'.object? c.object = some o' ∧
    o.Stores h'.names c.place v o' ∧ o.SameLayout created o'
  others : ∀ x, x ≠ c.object → h'.object? x = h.object? x
  names : h'.names = h.names ∨ ∃ key, h'.names = (h.names.intern key).2
  created : (∃ old, h.valueAt? c = some old) ∧ created = [] ∨
    h.valueAt? c = none ∧
      ∃ key name, c.place = .binding key ∧ h'.names.get? key = some name ∧ created = [name]

namespace StoresAt

/-- Objects have at their places by the new names what they had by the old ones. -/
lemma at?_names (hs : StoresAt c v created h h') (hw : h.WellNamed) {o : HeapObject H}
    (ho : h.object? x = some o) (p : Place) : o.at? h'.names p = o.at? h.names p := by
  rcases hs.names with heq | ⟨key, heq⟩
  · rw [heq]
  · rw [heq]
    exact HeapObject.at?_intern (fun f hf => hw.frames x f (hf ▸ ho)) key p

/-- The cell has the value, and all others have what they had. -/
lemma valueAt? (hs : StoresAt c v created h h') (hw : h.WellNamed) (c' : Cell) :
    h'.valueAt? c' = if c' = c then some v else h.valueAt? c' := by
  obtain ⟨o, o', ho, ho', hstores, -⟩ := hs.written
  obtain ⟨x, p⟩ := c
  obtain ⟨y, q⟩ := c'
  by_cases hy : y = x
  · subst hy
    simp only [Heap.valueAt?, ho, ho', Option.bind_some, Cell.mk.injEq, true_and]
    split
    · next hq => rw [hq, hstores.here]
    · next hq => rw [hstores.others q hq, hs.at?_names hw ho]
  · rw [if_neg (fun heq => hy (congrArg Cell.object heq))]
    simp only [Heap.valueAt?, hs.others y hy]
    cases hobj : h.object? y with
    | none => rfl
    | some b => exact hs.at?_names hw hobj q

lemma node_iff (hs : StoresAt c v created h h') (id : ObjectId) (n : Node H) :
    h'.object? id = some (.node n) ↔ h.object? id = some (.node n) := by
  by_cases hid : id = c.object
  · subst hid
    obtain ⟨o, o', ho, ho', -, hlayout⟩ := hs.written
    have hnode := hlayout.not_node n
    simp [ho, ho', hnode]
  · rw [hs.others id hid]

/-- Reading after writing. -/
lemma index_eq_ok (hs : StoresAt c v created h h') (hw : h.WellNamed) :
    h'.index t js = .ok w ↔ if t.cell? js = some c then w = v else h.index t js = .ok w := by
  cases hc : t.cell? js with
  | none =>
    rw [if_neg nofun]
    exact index_of_no_cell hc hs.node_iff
  | some c' =>
    simp only [Heap.index_eq_ok hc, hs.valueAt? hw, Option.some.injEq]
    split <;> simp [eq_comm]

end StoresAt

/-! ## Index assignment -/

/-- An object is put in the place of another. -/
lemma object?_putObject {o o' : HeapObject H} (ho : h.object? id = some o) (y : ObjectId) :
    (h.modifyObject id fun _ => o').object? y = if y = id then some o' else h.object? y := by
  rw [object?_modifyObject]
  split
  · next hy => rw [hy, ho, Option.map_some]
  · rfl

lemma StoresAt.put {o o' : HeapObject H} {p : Place} (ho : h.object? id = some o)
    (hput : ∀ y, h'.object? y = if y = id then some o' else h.object? y)
    (hnames : h'.names = h.names)
    {old : Value} (hold : o.at? h.names p = some old) (hstores : o.Stores h.names p v o')
    (hlayout : o.SameLayout [] o') : StoresAt ⟨id, p⟩ v [] h h' where
  written := ⟨o, o', ho, (hput id).trans (if_pos rfl), hnames ▸ hstores, hlayout⟩
  others y hy := (hput y).trans (if_neg hy)
  names := .inl hnames
  created := .inl ⟨⟨old, by simp [Heap.valueAt?, ho, hold]⟩, rfl⟩

/-- How a binding is overwritten or added. -/
lemma ends_bind_frame :
    (bind id name v).Ends h
      (fun _ h' => h'.names = h.names ∧ ∃ f f', h.object? id = some (.frame f) ∧
        (∀ y, h'.object? y = if y = id then some (.frame f') else h.object? y) ∧
        ((∃ old, f.replace? name v = some (old, f')) ∨
          f.replace? name v = none ∧ f.insert? name v = some f'))
      fun _ _ => True := by
  have hassign : (assign id name v).Ends h
      (fun found h' => ∃ f, h.object? id = some (.frame f) ∧
        if found then h'.names = h.names ∧ ∃ old f', f.replace? name v = some (old, f') ∧
          ∀ y, h'.object? y = if y = id then some (.frame f') else h.object? y
        else h' = h ∧ f.replace? name v = none)
      fun _ _ => True := by
    refine HeapM.ends_read_bind (fun f hf => ?_) fun _ _ => trivial
    rw [frame_eq_ok] at hf
    split
    · next old f' hrep =>
      have hrelease : KeepsFrames (h.putFrame id f') ((h.putFrame id f').release old) := .release
      refine ⟨f, hf, hrelease.names, old, f', hrep, fun y => ?_⟩
      rw [object?_release]
      exact object?_putObject hf y
    · next hrep => exact ⟨f, hf, rfl, hrep⟩
  refine HeapM.Ends.bind hassign fun found h' hs => ?_
  obtain ⟨f, hf, hs⟩ := hs
  cases found with
  | true =>
    obtain ⟨hnames, old, f', hrep, hput⟩ := hs
    exact ⟨hnames, f, f', hf, hput, .inl ⟨old, hrep⟩⟩
  | false =>
    obtain ⟨rfl, hrep⟩ := hs
    refine HeapM.ends_read_bind (fun g hg => ?_) fun _ _ => trivial
    rw [frame_eq_ok, hf] at hg
    cases hg
    split
    · next f' hins => exact ⟨rfl, f, f', hf, object?_putObject hf, .inr ⟨hrep, hins⟩⟩
    · exact HeapM.ends_read.mpr ⟨nofun, fun _ _ => trivial⟩

/-- Writing to a binding by its key. -/
lemma storesAt_bind (hw : h.WellNamed) :
    (bind id (h.names.intern key).1 v).Ends { h with names := (h.names.intern key).2 }
      (fun _ h' => ∃ created, StoresAt ⟨id, .binding key⟩ v created h h') fun _ _ => True := by
  obtain ⟨name, hname⟩ : ∃ name, name = (h.names.intern key).1 := ⟨_, rfl⟩
  have hget : (h.names.intern key).2.get? key = some name := hname ▸ Interner.get?_intern
  rw [← hname]
  refine ends_bind_frame.mono (fun _ h' hb => ?_) fun _ _ _ => trivial
  obtain ⟨hnames, f, f', hf, hput, hwrite⟩ := hb
  have hframe : f.WellNamed (h.names.intern key).2 := (hw.internName key).frames id f hf
  -- before the write the key may have had no name, but then the frame had nothing under the new one
  have hold : h.valueAt? ⟨id, .binding key⟩ = f.get? name := by
    have hobj : h.object? id = some (.frame f) := hf
    have hlookup := (hw.frames id f hobj).lookup_intern key key
    rw [hget] at hlookup
    simp only [valueAt?, hobj, Option.bind_some, HeapObject.at?, ← hlookup]
  have hstores : f'.get? name = some v → (∀ n, n ≠ name → f'.get? n = f.get? n) →
      (HeapObject.frame f : HeapObject H).Stores h'.names (.binding key) v (.frame f') := by
    intro hhere hothers
    rw [hnames]
    exact HeapObject.stores_frame hw.names.intern hget hhere hothers
  have hkey : ∃ key, h'.names = (h.names.intern key).2 := ⟨key, hnames⟩
  rcases hwrite with ⟨old, hrep⟩ | ⟨hrep, hins⟩
  · refine ⟨[], ⟨_, _, hf, (hput id).trans (if_pos rfl), ?_, ?_⟩, fun y hy =>
      (hput y).trans (if_neg hy), .inr hkey, .inl ⟨⟨old, ?_⟩, rfl⟩⟩
    · exact hstores (Frame.get?_replace hrep) fun n hn => hframe.get?_replace_of_ne hrep hn
    · exact .frame (Frame.samePlace_replace hrep)
        ((Frame.boundNames_replace hrep).trans (List.append_nil _).symm)
    · exact hold.trans (Frame.get?_of_replace hrep)
  · refine ⟨[name], ⟨_, _, hf, (hput id).trans (if_pos rfl), ?_, ?_⟩, fun y hy =>
      (hput y).trans (if_neg hy), .inr hkey, .inr ⟨?_, key, name, rfl, hnames ▸ hget, rfl⟩⟩
    · exact hstores (Frame.get?_insert hins) fun n hn => Frame.get?_insert_of_ne hins hn
    · exact .frame (Frame.samePlace_insert hins) (Frame.boundNames_insert hins)
    · exact hold.trans (Frame.get?_eq_none_of_replace hrep)

lemma storesAt_setIndex (hw : h.WellNamed)
    (hexact : ∀ id g, target = .array id → h.object? id = some (.grid g) → g.Exact) :
    (setIndex target indices v).Ends h
      (fun _ h' => ∃ c created, target.cell? indices = some c ∧ StoresAt c v created h h')
        fun _ _ => True := by
  refine ends_setIndex (fun id index i items old htarget hindices hi hitems hold => ?_)
    (fun id coords g g' htarget hcoords hg hset => ?_) (fun id key htarget hindices => ?_)
    (fun id htarget hindices => ?_) fun _ _ => trivial
  · subst htarget hindices
    refine ⟨⟨id, .item i⟩, [], by simp [Value.cell?, hi], .put hitems (fun y => ?_) ?_ hold
      (HeapObject.stores_sequence hold) (.sequence (Array.size_setIfInBounds ..))⟩
    · rw [object?_release]
      exact object?_putObject hitems y
    · exact (KeepsFrames.release : KeepsFrames _ _).names
  -- an element of an array: the write succeeded, so the read at these coordinates did too
  · subst htarget
    obtain ⟨p, hp⟩ := Grid.exists_get_of_set hset
    refine ⟨⟨id, .element coords⟩, [], by simp [Value.cell?, hcoords],
      .put hg (object?_putObject hg) rfl
      (HeapObject.at?_grid.mpr ⟨p, hp, rfl⟩) (HeapObject.stores_grid (hexact id g rfl hg) hset) ?_⟩
    obtain ⟨_, _, -, -, -, rfl⟩ := Grid.set_eq_ok.mp hset
    exact .grid rfl (Array.size_setIfInBounds ..)
  · subst htarget hindices
    exact (storesAt_bind hw).mono (fun _ _ ⟨created, hs⟩ => ⟨_, created, rfl, hs⟩)
      fun _ _ _ => trivial
  · subst htarget hindices
    refine HeapM.ends_read_bind (fun old hold => ?_) fun _ _ => trivial
    rw [refValue_eq_ok] at hold
    refine ⟨⟨id, .content⟩, [], rfl, .put hold (fun y => ?_) ?_ rfl HeapObject.stores_ref
      (.ref old v)⟩
    · rw [object?_release]
      exact object?_putObject hold y
    · exact (KeepsFrames.release : KeepsFrames _ _).names

/-- What a value that was stored in the cell `c` by index does to the heap. -/
structure StoredByIndex (h h' : Heap H) (target : Value) (indices : List Value) (v : Value)
    (c : Cell) : Prop where
  cell : target.cell? indices = some c
  /-- The value is read back. -/
  read : h'.index target indices = .ok v
  /-- Everything else that could be read is read as before, unless it is the same cell under another
  index. -/
  kept : ∀ t js w, h.index t js = .ok w → h'.index t js = .ok (if t.cell? js = some c then v else w)
  /-- What could not be read still cannot, unless it is a key that got its binding now. -/
  unread : ∀ t js e, h.index t js = .error e → (∃ e', h'.index t js = .error e') ∨
    t = target ∧ js = indices ∧ ∃ id key, target = .frame id ∧ indices = [.text key]
  /-- The object with the cell keeps its layout, but for that binding. -/
  layout : ∃ o o' created, h.object? c.object = some o ∧ h'.object? c.object = some o' ∧
    o.SameLayout created o' ∧
    ((∃ w, h.index target indices = .ok w) ∧ created = [] ∨
      (∃ e, h.index target indices = .error e) ∧ ∃ key name, indices = [.text key] ∧
        h'.names.get? key = some name ∧ created = [name])
  others : ∀ x, x ≠ c.object → h'.object? x = h.object? x

/-- A value that was stored by index is read back, and nothing else is read in another way. Of an
array it is asked that its extents multiply to the number of its elements. -/
theorem setIndex_stores (hw : h.WellNamed)
    (hexact : ∀ id g, target = .array id → h.object? id = some (.grid g) → g.Exact)
    (hset : setIndex target indices v h = .ok () h') :
    ∃ c, StoredByIndex h h' target indices v c := by
  obtain ⟨c, created, hc, hs⟩ := (storesAt_setIndex hw hexact).of_ok hset
  have hread : ∀ t js w, h'.index t js = .ok w ↔ if t.cell? js = some c then w =
      v else h.index t js = .ok w :=
    fun t js w => hs.index_eq_ok hw
  refine ⟨c, hc, (hread target indices v).mpr (by rw [if_pos hc]), fun t js w hw' =>
    ?_, fun t js e he => ?_, ?_, hs.others⟩
  · refine (hread t js _).mpr ?_
    split
    · rfl
    · exact hw'
  · by_cases hct : t.cell? js = some c
    · -- the cell itself could not be read: it is a binding, and its key is the only index for it
      rcases hs.created with ⟨⟨old, hold⟩, -⟩ | ⟨-, key, -, hplace, -, -⟩
      · rw [(index_eq_ok hct).mpr hold] at he
        cases he
      · obtain ⟨id, p⟩ := c
        obtain rfl : p = .binding key := hplace
        obtain ⟨rfl, rfl⟩ := Value.cell?_binding.mp hct
        obtain ⟨rfl, rfl⟩ := Value.cell?_binding.mp hc
        exact .inr ⟨rfl, rfl, id, key, rfl, rfl⟩
    · refine .inl (exists_error_of_forall_ne fun w hok => ?_)
      have hold := (hread t js w).mp hok
      rw [if_neg hct, he] at hold
      cases hold
  · obtain ⟨o, o', ho, ho', -, hlayout⟩ := hs.written
    refine ⟨o, o', created, ho, ho', hlayout, ?_⟩
    rcases hs.created with ⟨⟨old, hold⟩, hnone⟩ | ⟨hnone, key, name, hplace, hname, hsome⟩
    · exact .inl ⟨⟨old, (index_eq_ok hc).mpr hold⟩, hnone⟩
    · obtain ⟨id, p⟩ := c
      obtain rfl : p = .binding key := hplace
      refine .inr ⟨exists_error_of_forall_ne fun w hok => ?_, key, name,
        (Value.cell?_binding.mp hc).2, hname, hsome⟩
      rw [index_eq_ok hc, hnone] at hok
      cases hok

/-- A heap with one array. -/
def gridHeap (g : Grid) : Heap Stock.types :=
  [Operation.alloc (.grid g)].foldl (fun h op => op.after Stock.kernels h) (Heap.new Interner.new 1)

lemma wellNamed_gridHeap (g : Grid) : (gridHeap g).WellNamed :=
  (WellNamed.new Interner.sound_new 1).run ⟨nofun, trivial⟩

/-- The array is the only one. -/
lemma eq_of_gridHeap {g g' : Grid} (hg : (gridHeap g).object? x = some (.grid g')) : g' = g := by
  have halloc : (gridHeap g).object? x =
      (Heap.alloc (Heap.new Interner.new 1) (.grid g)).2.object? x := rfl
  rw [halloc, object?_alloc (counted_new Interner.new 1).tidy] at hg
  split at hg
  · cases hg
    rfl
  · simp [object?, entry?, Heap.new] at hg

/-- Whole numbers as indices of a type. -/
def wholeIndices (t : IntType) (ns : List Int) : List Value := ns.map fun n => .int t (.wrap t n)

/-- The value in a cell after a write by indices to the array. -/
def valueAfter (g : Grid) (indices : List Value) (v : Value) (coords : List Int) : Option Value :=
  match setIndex (.array ⟨0, 0⟩) indices v (gridHeap g) with
  | .ok _ h => h.valueAt? ⟨⟨0, 0⟩, .element coords⟩
  | .error _ _ => none

/-- Two rows of two elements. -/
def squareGrid : Grid := ⟨[2, 2], #[.bool true, .bool true, .bool true, .bool true]⟩

/-- The second row is written with indices of one type and read with indices of another. -/
theorem setIndex_stores_square :
    ∃ h', setIndex (.array ⟨0, 0⟩) (wholeIndices .uint8 [1, 0]) (.bool false)
      (gridHeap squareGrid) = .ok () h' ∧
      h'.index (.array ⟨0, 0⟩) (wholeIndices .int64 [1, 0]) = .ok (.bool false) ∧
      h'.index (.array ⟨0, 0⟩) (wholeIndices .int64 [1, 1]) = .ok (.bool true) := by
  have hexact : ∀ id g, Value.array ⟨0, 0⟩ = .array id →
      (gridHeap squareGrid).object? id = some (.grid g) → g.Exact := by
    intro id g _ hg
    rw [eq_of_gridHeap hg]
    exact ⟨rfl, by decide⟩
  obtain ⟨h', hset⟩ : ∃ h', setIndex (.array ⟨0, 0⟩) (wholeIndices .uint8 [1, 0]) (.bool false)
      (gridHeap squareGrid) = .ok () h' := ⟨_, rfl⟩
  obtain ⟨c, hs⟩ := setIndex_stores (wellNamed_gridHeap squareGrid) hexact hset
  obtain rfl : ⟨⟨0, 0⟩, .element [1, 0]⟩ = c := Option.some.inj hs.cell
  exact ⟨h', hset, hs.kept _ (wholeIndices .int64 [1, 0]) (.bool true) rfl,
    hs.kept _ (wholeIndices .int64 [1, 1]) _ rfl⟩

/-- One element, though the extents multiply to one more than `2 ^ 64`. -/
def wrappedGrid : Grid := ⟨[274177, 67280421310721], #[.bool true]⟩

/-- In an array whose shape is larger than a word, a write can change what is read at other
coordinates. -/
theorem not_setIndex_stores :
    ¬ ∀ (h h' : Heap Stock.types) (target v t w : Value) (indices js : List Value) (c : Cell),
    h.WellNamed →
      (∀ id g, h.object? id = some (.grid g) → ∃ values, Grid.ofValues g.dims values = .ok g) →
      setIndex target indices v h = .ok () h' → target.cell? indices = some c →
      t.cell? js ≠ some c → h.index t js = .ok w → h'.index t js = .ok w := by
  intro hall
  have hbuilt : ∀ id g, (gridHeap wrappedGrid).object? id = some (.grid g) →
      ∃ values, Grid.ofValues g.dims values = .ok g := by
    intro id g hg
    rw [eq_of_gridHeap hg]
    exact ⟨_, Grid.ofValues_eq_ok.mpr ⟨by decide +kernel, rfl, rfl⟩⟩
  -- the offset of the far corner is 2 ^ 64, which wraps round to that of the origin
  have hafter : valueAfter wrappedGrid (wholeIndices .int64 [0, 0]) (.bool false)
      [274176, 67280421310720] = some (.bool false) := by decide +kernel
  unfold valueAfter at hafter
  have hfar : (Value.array ⟨0, 0⟩).cell? (wholeIndices .int64 [274176, 67280421310720]) =
      some ⟨⟨0, 0⟩, .element [274176, 67280421310720]⟩ := by decide +kernel
  cases hset : setIndex (.array ⟨0, 0⟩) (wholeIndices .int64 [0, 0]) (.bool false)
    (gridHeap wrappedGrid) with
  | error e h => simp [hset] at hafter
  | ok _ h' =>
    rw [hset] at hafter
    have hbefore : (gridHeap wrappedGrid).index (.array ⟨0, 0⟩)
        (wholeIndices .int64 [274176, 67280421310720]) =
        .ok (.bool true) := (index_eq_ok hfar).mpr (by decide +kernel)
    have hread := hall _ h' _ _ _ _ _ _ ⟨⟨0, 0⟩, .element [0, 0]⟩ (wellNamed_gridHeap wrappedGrid)
      hbuilt hset (by decide +kernel) (by decide +kernel) hbefore
    have hsame := ((index_eq_ok hfar).mp hread).symm.trans hafter
    cases hsame

end Heap
end Patchbay
