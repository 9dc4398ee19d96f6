import Patchbay.Heap.Scope
import Patchbay.Heap.Tick
import Patchbay.Proofs.Frames
import Patchbay.Proofs.Heap.Ends

/-!
# Writing

Most operations on the heap change objects in place: nothing comes or goes, no pin is set or taken,
and an age is at most set back to zero. The relation `Touched R` says so, where `R` bounds what
happens to an object. Each operation that writes gets one lemma, about its success and its failure.
-/

namespace Patchbay

variable {H : HostTypes}

/-- The node while its kernel runs. -/
def Node.busy (n : Node H) : Node H := { n with kernel := none }

/-- What a write may do to an entry. -/
structure Entry.Touched (R : HeapObject H → HeapObject H → Prop) (e e' : Entry H) : Prop where
  object : R e.object e'.object
  pins : e'.pins = e.pins
  age : e'.age = e.age ∨ e'.age = 0

namespace Heap

variable {R : HeapObject H → HeapObject H → Prop} {h h' h'' : Heap H} {id x : ObjectId}
  {P : Value → Prop} {K : H.Kernel → Prop} {v : Value}

/-- `h'` is `h` after writes to objects, each within `R`. -/
structure Touched (R : HeapObject H → HeapObject H → Prop) (h h' : Heap H) : Prop where
  stamp : ∀ i, h'.stampAt i = h.stampAt i
  free : h'.free = h.free
  live : h'.live = h.live
  held : h'.held = h.held
  entry : ∀ id, Option.Rel (Entry.Touched R) (h.entry? id) (Heap.entry? h' id)

namespace Touched

lemma refl (hR : ∀ o, R o o) (h : Heap H) : Touched R h h where
  stamp _ := rfl
  free := rfl
  live := rfl
  held := rfl
  entry id := by
    cases h.entry? id with
    | none => exact .none
    | some e => exact .some ⟨hR _, rfl, .inl rfl⟩

lemma trans (hR : ∀ o o' o'', R o o' → R o' o'' → R o o'') (h1 : Touched R h h')
    (h2 : Touched R h' h'') : Touched R h h'' where
  stamp i := (h2.stamp i).trans (h1.stamp i)
  free := h2.free.trans h1.free
  live := h2.live.trans h1.live
  held := h2.held.trans h1.held
  entry id := by
    have r1 := h1.entry id
    have r2 := h2.entry id
    cases he : h.entry? id with
    | none =>
      rw [he] at r1
      generalize Heap.entry? h' id = x at r1 r2
      cases r1
      exact r2
    | some e =>
      rw [he] at r1
      generalize Heap.entry? h' id = x at r1 r2
      generalize Heap.entry? h'' id = y at r2
      cases r1 with
      | some t1 =>
        cases r2 with
        | some t2 =>
          refine .some ⟨hR _ _ _ t1.object t2.object, t2.pins.trans t1.pins, ?_⟩
          -- an age is kept or reset; a reset after anything is a reset
          rcases t2.age with heq | hzero
          · rw [heq]
            exact t1.age
          · exact .inr hzero

lemma mono {R' : HeapObject H → HeapObject H → Prop} (ht : Touched R h h')
    (hR : ∀ o o', R o o' → R' o o') : Touched R' h h' where
  stamp := ht.stamp
  free := ht.free
  live := ht.live
  held := ht.held
  entry id := by
    have r := ht.entry id
    generalize h.entry? id = x at r ⊢
    generalize Heap.entry? h' id = y at r ⊢
    cases r with
    | none => exact .none
    | some t => exact .some ⟨hR _ _ t.object, t.pins, t.age⟩

lemma contains (ht : Touched R h h') : h'.contains id = h.contains id := by
  have r := ht.entry id
  unfold Heap.contains
  generalize h.entry? id = x at r ⊢
  generalize Heap.entry? h' id = y at r ⊢
  cases r <;> rfl

/-- What became of an object. -/
lemma object (ht : Touched R h h') {o : HeapObject H} (ho : h.object? id = some o) :
    ∃ o', h'.object? id = some o' ∧ R o o' := by
  obtain ⟨e, he, rfl⟩ := object?_eq_some.mp ho
  have r := ht.entry id
  rw [he] at r
  cases hy : Heap.entry? h' id with
  | none =>
    rw [hy] at r
    cases r
  | some e' =>
    rw [hy] at r
    cases r with
    | some t => exact ⟨e'.object, object?_eq_some.mpr ⟨e', hy, rfl⟩, t.object⟩

/-- Where an object comes from. -/
lemma object_from (ht : Touched R h h') {o' : HeapObject H} (ho : h'.object? id = some o') :
    ∃ o, h.object? id = some o ∧ R o o' := by
  have hc : h.contains id = true := by rw [← ht.contains, contains_of_object? ho]
  obtain ⟨o, hobj⟩ := exists_object? hc
  obtain ⟨o'', ho'', hR⟩ := ht.object hobj
  rw [ho] at ho''
  cases ho''
  exact ⟨o, hobj, hR⟩

end Touched

lemma touched_modifyEntry {f : Entry H → Entry H} (hrefl : ∀ o, R o o)
    (hf : ∀ e, h.entry? id = some e → Entry.Touched R e (f e)) :
    Touched R h (h.modifyEntry id f) where
  stamp _ := by simp
  free := rfl
  live := rfl
  held := rfl
  entry x := by
    rw [entry?_modifyEntry]
    by_cases hx : x = id
    · subst hx
      rw [if_pos rfl]
      cases he : h.entry? x with
      | none => exact .none
      | some e => exact .some (hf e he)
    · rw [if_neg hx]
      exact (Touched.refl hrefl h).entry x

lemma touched_modifyObject {f : HeapObject H → HeapObject H} (hrefl : ∀ o, R o o)
    (hf : ∀ o, h.object? id = some o → R o (f o)) : Touched R h (h.modifyObject id f) :=
  touched_modifyEntry hrefl fun e he =>
    ⟨hf _ (object?_eq_some.mpr ⟨e, he, rfl⟩), rfl, .inl rfl⟩

lemma touched_resetAge (hrefl : ∀ o, R o o) : Touched R h (h.resetAge id) :=
  touched_modifyEntry hrefl fun _ _ => ⟨hrefl _, rfl, .inr rfl⟩

lemma touched_release (hrefl : ∀ o, R o o) : Touched R h (h.release v) := by
  unfold release
  cases v.referent with
  | none => exact .refl hrefl h
  | some id => exact touched_resetAge hrefl

/-! ## Values that are written -/

/-- A write of values that satisfy `P`, and of host kernel states that satisfy `K`. Wires stay. -/
abbrev Stored (P : Value → Prop) (K : H.Kernel → Prop) : Heap H → Heap H → Prop :=
  Touched fun o o' => o.Rewritten P K o' ∧ o.SameWires o'

namespace Stored

lemma refl (h : Heap H) : Stored P K h h := Touched.refl (fun o => ⟨.refl o, .refl o⟩) h

lemma trans (h1 : Stored P K h h') (h2 : Stored P K h' h'') : Stored P K h h'' :=
  Touched.trans (fun _ _ _ r1 r2 => ⟨r1.1.trans r2.1, r1.2.trans r2.2⟩) h1 h2

lemma modifyObject {f : HeapObject H → HeapObject H}
    (hf : ∀ o, h.object? id = some o → o.Rewritten P K (f o) ∧ o.SameWires (f o)) :
    Stored P K h (h.modifyObject id f) :=
  touched_modifyObject (fun o => ⟨.refl o, .refl o⟩) hf

/-- A known object is rewritten where it stands. -/
lemma rewrite {o : HeapObject H} {f : HeapObject H → HeapObject H} (ho : h.object? id = some o)
    (hf : o.Rewritten P K (f o) ∧ o.SameWires (f o)) : Stored P K h (h.modifyObject id f) := by
  refine .modifyObject fun o' ho' => ?_
  rw [ho] at ho'
  cases ho'
  exact hf

lemma release : Stored P K h (h.release v) := touched_release fun o => ⟨.refl o, .refl o⟩

lemma releaseAll (olds : List Value) (h : Heap H) : Stored P K h (olds.foldl Heap.release h) := by
  induction olds generalizing h with
  | nil => exact .refl h
  | cons v rest ih => exact (release (v := v)).trans (ih _)

end Stored

/-! ## Containers -/

section Containers

variable {f f' : Frame} {name : Name}

lemma mem_values_insert (hf : f.insert? name v = some f') {w : Value} (hw : w ∈ f'.values) :
    w ∈ f.values ∨ w = v := by
  obtain ⟨hbindings, -, -⟩ := Frame.of_insert hf
  simpa [Frame.values, hbindings, or_comm] using hw

lemma mem_values_replace {old : Value} (hf : f.replace? name v = some (old, f')) {w : Value}
    (hw : w ∈ f'.values) : w ∈ f.values ∨ w = v := by
  obtain ⟨i, bound, -, -, hbindings, -, -⟩ := Frame.of_replace hf
  obtain ⟨b, hb, rfl⟩ := List.mem_map.mp hw
  rw [hbindings, Array.toList_setIfInBounds] at hb
  rcases List.mem_or_eq_of_mem_set hb with hmem | rfl
  · exact .inl (List.mem_map.mpr ⟨b, hmem, rfl⟩)
  · exact .inr rfl

/-- A frame in the place of one with the same parent. -/
lemma Stored.putFrame (ho : h.object? id = some (.frame f)) (hparent : f'.parent = f.parent)
    (hval : ∀ w ∈ f'.values, w ∈ f.values ∨ P w) : Stored P K h (h.putFrame id f') :=
  .rewrite ho ⟨⟨rfl, hparent, rfl, rfl, hval, fun _ => .inl⟩, ⟨fun _ => rfl, fun _ => rfl⟩⟩

/-- How an operation that writes values satisfying `P` ends. If all is well, as `fine` says, it does
not report a dead handle. -/
abbrev Writes {α : Type} (P : Value → Prop) (K : H.Kernel → Prop) (fine : Prop) (m : HeapM H α)
    (h : Heap H) : Prop :=
  m.Ends h (fun _ h' => Stored P K h h') fun e h' => Stored P K h h' ∧ (fine → e.isDead = false)

lemma writes_define (hv : P v) : Writes P K (h.contains id = true) (define id name v) h := by
  refine HeapM.ends_read_bind (fun f hf => ?_) fun e he =>
    ⟨.refl h, fun hc => plain_frame.quiet hc e he⟩
  rw [frame_eq_ok] at hf
  split
  · next f' hins =>
    refine Stored.putFrame hf (Frame.samePlace_insert hins).parent fun w hw => ?_
    rcases mem_values_insert hins hw with hold | rfl
    · exact .inl hold
    · exact .inr hv
  · refine HeapM.ends_read.mpr ⟨fun _ hok => ?_, fun e he => ⟨.refl h, fun _ => ?_⟩⟩
    · cases hok
    · cases he
      rfl

lemma writes_assign (hv : P v) : Writes P K (h.contains id = true) (assign id name v) h := by
  refine HeapM.ends_read_bind (fun f hf => ?_) fun e he =>
    ⟨.refl h, fun hc => plain_frame.quiet hc e he⟩
  rw [frame_eq_ok] at hf
  split
  · next old f' hrep =>
    refine Stored.trans (Stored.putFrame hf (Frame.samePlace_replace hrep).parent fun w hw => ?_)
      .release
    rcases mem_values_replace hrep hw with hold | rfl
    · exact .inl hold
    · exact .inr hv
  · exact Stored.refl h

lemma writes_bind (hv : P v) : Writes P K (h.contains id = true) (bind id name v) h := by
  refine HeapM.Ends.bind (writes_assign (K := K) hv) fun found h' hs => ?_
  split
  · exact hs
  · refine (writes_define hv).mono (fun _ _ hd => hs.trans hd) fun e _ he => ⟨hs.trans he.1, ?_⟩
    rw [← hs.contains]
    exact he.2

/-- Assigning to the nearest binding. Which frames it comes across is not looked at, so nothing is
said of dead handles. -/
lemma writes_assignNearest (hv : P v) {frames : List ObjectId} :
    Writes P K False (assignNearest name v frames) h := by
  induction frames with
  | nil => exact Stored.refl h
  | cons frame rest ih =>
    refine HeapM.ends_read_bind (fun f _ => ?_) fun e _ => ⟨.refl h, nofun⟩
    split
    · have hassign : Writes P K False (assign frame name v) h :=
        (writes_assign hv).mono (fun _ _ hs => hs) fun _ _ he => ⟨he.1, nofun⟩
      exact HeapM.Ends.bind hassign.discard fun _ _ hs => hs
    · exact ih

lemma writes_setVariable (hv : P v) : Writes P K False (setVariable id name v) h := by
  refine HeapM.ends_read_bind (fun frames _ => ?_) fun e _ => ⟨.refl h, nofun⟩
  refine HeapM.Ends.bind (writes_assignNearest hv) fun found h' hs => ?_
  split
  · exact hs
  · exact (writes_define hv).mono (fun _ _ hd => hs.trans hd) fun _ _ he => ⟨hs.trans he.1, nofun⟩

lemma writes_pushElement (hv : P v) : Writes P K (h.contains id = true) (pushElement id v) h := by
  refine HeapM.ends_check_bind (fun items hitems => ?_) fun e he =>
    ⟨.refl h, fun hc => plain_sequence.quiet hc e he⟩
  rw [sequence_eq_ok] at hitems
  refine Stored.rewrite hitems
    ⟨⟨rfl, rfl, rfl, rfl, fun w hw => ?_, fun _ => .inl⟩, ⟨fun _ => rfl, fun _ => rfl⟩⟩
  rcases (by simpa [HeapObject.values] using hw : w ∈ items ∨ w = v) with hold | rfl
  · exact .inl (by simpa [HeapObject.values] using hold)
  · exact .inr hv

lemma writes_setRef (hv : P v) : Writes P K (h.contains id = true) (setRef id v) h := by
  refine HeapM.ends_read_bind (fun old hold => ?_) fun e he =>
    ⟨.refl h, fun hc => plain_refValue.quiet hc e he⟩
  rw [refValue_eq_ok] at hold
  refine Stored.trans (.rewrite hold
    ⟨⟨rfl, rfl, rfl, rfl, fun w hw => ?_, fun _ => .inl⟩, ⟨fun _ => rfl, fun _ => rfl⟩⟩) .release
  rw [HeapObject.values, List.mem_singleton] at hw
  exact .inr (hw ▸ hv)

lemma Stored.names {names : Interner} : Stored P K h { h with names := names } where
  stamp _ := rfl
  free := rfl
  live := rfl
  held := rfl
  entry := (Stored.refl h).entry

lemma writes_internName {s : String} : Writes P K True (internName s) h :=
  Stored.names

/-- Writing by index puts another sequence or array in the place of the one that is there, binds a
name of a frame after taking it into the table, or fills a cell. Any other failure comes before a
change, and tells of a dead handle only if the target is one. -/
lemma ends_setIndex {target : Value} {indices : List Value} {ok : Unit → Heap H → Prop}
    {err : EvalError → Heap H → Prop}
    (hsequence : ∀ id index i items old, target = .sequence id → indices = [index] →
      index.asIndex = some i →
      h.object? id = some (.sequence items) → elementAt? items i = some old →
      ok () ((h.modifyObject id fun _ => .sequence (items.setIfInBounds i.toNat v)).release old))
    (hgrid : ∀ id coords g g', target = .array id → coordinates? indices = some coords →
      h.object? id = some (.grid g) → g.set coords v = .ok g' →
        ok () (h.modifyObject id fun _ => .grid g'))
    (hframe : ∀ id key, target = .frame id → indices = [.text key] →
      (bind id (h.names.intern key).1 v).Ends { h with names := (h.names.intern key).2 } ok err)
    (hcell : ∀ id, target = .ref id → indices = [] → (setRef id v).Ends h ok err)
    (hfail : ∀ e, ((∀ id, target.referent = some id → h.contains id = true) → e.isDead = false) →
      err e h) :
    (setIndex target indices v).Ends h ok err := by
  unfold setIndex
  split
  · next id index =>
    split
    · exact hfail _ fun _ => rfl
    · next i hi =>
      refine HeapM.ends_read_bind (fun items hitems => ?_) fun e he =>
        hfail e fun hc => plain_sequence.quiet (hc id rfl) e he
      split
      · exact hfail _ fun _ => rfl
      · next old hold =>
          exact hsequence id index i items old rfl rfl hi (sequence_eq_ok.mp hitems) hold
  · next indices id =>
    split
    · exact hfail _ fun _ => rfl
    · next coords hcoords =>
      refine HeapM.ends_read_bind (fun g hg => ?_) fun e he =>
        hfail e fun hc => plain_grid.quiet (hc id rfl) e he
      refine HeapM.ends_read_bind (fun g' hset => ?_) fun e he => hfail e fun _ =>
        Grid.plain_set.quiet e he
      exact hgrid id coords g g' rfl hcoords (grid_eq_ok.mp hg) hset
  · next id key => exact hframe id key rfl rfl
  · next id => exact hcell id rfl rfl
  · exact hfail _ fun _ => rfl
  · exact hfail _ fun _ => rfl

/-- Writing an element keeps the shape and the number of elements. -/
lemma of_set {g g' : Grid} {coords : List Int} (hset : g.set coords v = .ok g') :
    g'.dims = g.dims ∧ g'.size = g.size := by
  unfold Grid.set at hset
  split at hset
  · obtain ⟨offset, -, hset⟩ := bind_eq_ok.mp hset
    split at hset
    · cases hset
      exact ⟨rfl, Array.size_setIfInBounds ..⟩
    · cases hset
  · cases hset

lemma writes_setIndex {target : Value} {indices : List Value} (hv : P v) :
    Writes P K (∀ id, target.referent = some id → h.contains id = true)
      (setIndex target indices v) h := by
  refine ends_setIndex (fun id index i items old _ _ _ hitems _ => ?_)
    (fun id coords g g' _ _ hg hset => ?_)
    (fun id key htarget _ => ?_) (fun id htarget _ => ?_) fun e he => ⟨.refl h, he⟩
  · refine Stored.trans (.rewrite hitems
      ⟨⟨rfl, rfl, rfl, rfl, fun w hw => ?_, fun _ => .inl⟩, ⟨fun _ => rfl, fun _ => rfl⟩⟩) .release
    rw [HeapObject.values, Array.toList_setIfInBounds] at hw
    rcases List.mem_or_eq_of_mem_set hw with hold | rfl
    · exact .inl hold
    · exact .inr hv
  · obtain ⟨hdims, hsize⟩ := of_set hset
    exact Stored.rewrite hg
      ⟨⟨rfl, rfl, by rw [HeapObject.extents?, HeapObject.extents?, hdims, hsize], rfl,
        fun _ => .inl, fun _ => .inl⟩, ⟨fun _ => rfl, fun _ => rfl⟩⟩
  · have hnames : Stored P K h { h with names := (h.names.intern key).2 } := Stored.names
    refine (writes_bind hv).mono (fun _ _ hd => hnames.trans hd) fun e _ he =>
      ⟨hnames.trans he.1, fun hc => he.2 ?_⟩
    rw [hnames.contains]
    exact hc id (htarget ▸ rfl)
  · exact (writes_setRef hv).mono (fun _ _ hs => hs) fun _ _ he =>
      ⟨he.1, fun hc => he.2 (hc id (htarget ▸ rfl))⟩

end Containers

/-! ## Nodes -/

section Nodes

variable {host : KernelHost H} {f : Node H → Node H}

lemma Stored.modifyNode (hf : ∀ n, h.object? id = some (.node n) →
      (HeapObject.node n).Rewritten P K (.node (f n)) ∧
        (HeapObject.node n).SameWires (.node (f n))) :
    Stored P K h (h.modifyNode id f) := by
  refine .modifyObject fun o ho => ?_
  cases o with
  | node n => exact hf n ho
  | _ => exact ⟨.refl _, .refl _⟩

/-- What is in an array after a change at one place. -/
lemma mem_modify {α : Type} {xs : Array α} {i : Nat} {g : α → α} {y : α} (hy : y ∈ xs.modify i g) :
    y ∈ xs ∨ ∃ x ∈ xs, y = g x := by
  obtain ⟨j, hj⟩ := Array.mem_iff_getElem?.mp hy
  rw [Array.getElem?_modify] at hj
  split at hj
  · obtain ⟨x, hx, rfl⟩ := Option.map_eq_some_iff.mp hj
    exact .inr ⟨x, Array.mem_of_getElem? hx, rfl⟩
  · exact .inl (Array.mem_of_getElem? hj)

lemma map_modify {γ δ : Type} {xs : Array γ} {i : Nat} {f : γ → δ} {g : γ → γ}
    (hg : ∀ a, f (g a) = f a) : (xs.modify i g).map f = xs.map f := by
  apply Array.ext_getElem?
  intro j
  simp only [Array.getElem?_map, Array.getElem?_modify]
  split
  · cases xs[j]? <;> simp [hg]
  · rfl

lemma writes_setParam {param : PortRef} (hv : P v) :
    Writes P K (h.contains param.node = true ∧
        ∀ n name, h.object? param.node = some (.node n) →
          Quiet (n.checkParam host name v))
      (setParam host param v) h := by
  refine HeapM.ends_read_bind (fun n hn => ?_) fun e he =>
    ⟨.refl h, fun hc => plain_node.quiet hc.1 e he⟩
  rw [node_eq_ok] at hn
  split
  · refine HeapM.ends_read.mpr ⟨fun _ hok => ?_, fun e he => ⟨.refl h, fun _ => ?_⟩⟩
    · cases hok
    · cases he
      rfl
  · next port _ =>
    refine HeapM.ends_read_bind (fun _ _ => ?_) fun e he => ⟨.refl h, fun hc => hc.2 n _ hn e he⟩
    refine Stored.trans (.modifyNode fun n' hn' => ?_) .release
    refine ⟨⟨by simp [HeapObject.shape], rfl, rfl, rfl, fun w hw => ?_, fun _ => .inl⟩,
      ⟨fun _ => rfl, fun _ => rfl⟩⟩
    simp only [HeapObject.values, List.mem_append, List.mem_map, Array.mem_toList_iff] at hw ⊢
    rcases hw with ⟨p, hp, rfl⟩ | hw
    · rcases mem_modify hp with hold | ⟨x, -, rfl⟩
      · exact .inl (.inl ⟨p, hold, rfl⟩)
      · exact .inr hv
    · exact .inl (.inr hw)

lemma writes_setParamNamed {name : String} (hv : P v) :
    Writes P K (h.contains id = true ∧
        ∀ n name, h.object? id = some (.node n) → Quiet (n.checkParam host name v))
      (setParamNamed host id name v) h := by
  refine HeapM.ends_read_bind (fun n hn => ?_) fun e he =>
    ⟨.refl h, fun hc => plain_node.quiet hc.1 e he⟩
  split
  · exact writes_setParam hv
  · exact ⟨.refl h, fun _ => rfl⟩

lemma Stored.setOutput {output : PortRef} (hv : P v) : Stored P K h (h.setOutput output v) := by
  refine .modifyNode fun n _ =>
    ⟨⟨by simp [HeapObject.shape], rfl, rfl, rfl, fun w hw => ?_, fun _ => .inl⟩,
    ⟨fun _ => rfl, fun j => ?_⟩⟩
  · simp only [HeapObject.values, List.mem_append, List.mem_filterMap, Array.mem_toList_iff] at hw ⊢
    rcases hw with hw | ⟨p, hp, hw⟩
    · exact .inl (.inl hw)
    · rcases mem_modify hp with hold | ⟨x, -, rfl⟩
      · exact .inl (.inr ⟨p, hold, hw⟩)
      · cases hw
        exact .inr hv
  · simp only [HeapObject.targetsAt, Array.getElem?_modify]
    split
    · cases n.outputs[j]? <;> rfl
    · rfl

lemma Stored.storeOutputs {values : List Value} (hvals : ∀ w ∈ values, P w) :
    Stored P K h (h.storeOutputs id values).2 := by
  refine List.foldlRecOn (motive := fun acc : List Value × Heap H => Stored P K h acc.2) _ _
    (.refl h) ?_
  rintro ⟨olds, h'⟩ hs ⟨i, w⟩ hmem
  dsimp only at hs ⊢
  split
  · exact hs.trans (.setOutput (hvals w (List.of_mem_zip hmem).2))
  · exact hs

/-! ## Ticks -/

/-- The heap while the kernel of a node runs. -/
def busy (h : Heap H) (id : ObjectId) : Heap H := h.setKernel id none

lemma setKernel_setKernel {kernel kernel' : Option (Kernel H.Kernel)} :
    (h.setKernel id kernel).setKernel id kernel' = h.setKernel id kernel' := by
  refine modifyEntry_modifyEntry.trans (modifyEntry_congr fun e _ => ?_)
  cases e.object <;> rfl

lemma object?_busy (hn : h.object? id = some (.node n)) :
    (h.busy id).object? id = some (.node n.busy) := by
  unfold busy setKernel modifyNode
  rw [object?_modifyObject, if_pos rfl, hn]
  rfl

lemma idleKernel_eq_ok {kernel : Kernel H.Kernel} :
    h.idleKernel id = .ok kernel ↔ ∃ n, h.object? id = some (.node n) ∧ n.kernel = some kernel := by
  constructor
  · intro hr
    obtain ⟨n, hn, hr⟩ := bind_eq_ok.mp hr
    refine ⟨n, node_eq_ok.mp hn, ?_⟩
    split at hr
    · next hk =>
      cases hr
      exact hk
    · cases hr
  · rintro ⟨n, hn, hk⟩
    simp only [idleKernel, node_eq_ok.mpr hn, Bind.bind, Except.bind, hk]
    rfl

lemma quiet_idleKernel (hc : h.contains id = true) : Quiet (h.idleKernel id) := by
  refine (plain_node.quiet hc).bind fun n _ => ?_
  split
  · exact .pure
  · exact .fail rfl

/-- What a tick does. If an input has no value, or the kernel is taken out already, then nothing.
Otherwise the kernel runs while it is taken out, and is put back before the tick goes on. -/
lemma ends_tickNode {ok : Unit → Heap H → Prop} {err : EvalError → Heap H → Prop}
    (hinputs : ∀ e, h.inputValues id = .error e → err e h)
    (hkernel : ∀ e inputs, h.inputValues id = .ok inputs → h.idleKernel id = .error e → err e h)
    (hran : ∀ inputs n kernel result kernel', h.inputValues id = .ok inputs →
      h.object? id = some (.node n) →
      n.kernel = some kernel → kernel.run host (h.busy id) n.busy inputs = (result, kernel') →
      (HeapM.read (fun _ => result) >>= publish id n.busy).Ends (h.setKernel id (some kernel'))
        ok err) :
    (tickNode host id).Ends h ok err := by
  refine HeapM.ends_read_bind (fun inputs hin => ?_) hinputs
  rw [takeKernel, bind_assoc]
  refine HeapM.ends_read_bind (fun kernel hk => ?_) fun e => hkernel e inputs hin
  obtain ⟨n, hn, hk⟩ := idleKernel_eq_ok.mp hk
  rw [bind_assoc]
  refine HeapM.ends_change_bind ?_
  have hbusy : (h.busy id).node id = .ok n.busy := node_eq_ok.mpr (object?_busy hn)
  refine HeapM.ends_read_bind (fun n' hn' => ?_) fun e he => ?_
  · cases hbusy.symm.trans hn'
    refine HeapM.ends_read_bind (fun r hr => ?_) fun e he => by cases he
    cases hr
    refine HeapM.ends_change_bind ?_
    rw [setKernel_setKernel]
    exact hran inputs n kernel _ _ hin hn hk rfl
  · cases hbusy.symm.trans he

/-- A tick writes what the kernel sends. -/
lemma writes_tickNode
    (hsent : ∀ n kernel inputs, h.object? id = some (.node n) → n.kernel = some kernel →
      h.inputValues id = .ok inputs →
      (∀ vs, (kernel.run host (h.busy id) n.busy inputs).1 = .ok vs → ∀ w ∈ vs, P w) ∧
        ∀ k, (kernel.run host (h.busy id) n.busy inputs).2 = .host k → K k) :
    Writes P K (h.contains id = true ∧ Quiet (h.inputValues id) ∧
        ∀ n kernel inputs, h.object? id = some (.node n) → n.kernel = some kernel →
          h.inputValues id = .ok inputs → Quiet (kernel.run host (h.busy id) n.busy inputs).1)
      (tickNode host id) h := by
  refine ends_tickNode (fun e he => ⟨.refl h, fun hc => hc.2.1 e he⟩)
    (fun e _ _ he => ⟨.refl h, fun hc => quiet_idleKernel hc.1 e he⟩)
    fun inputs n kernel result kernel' hin hn hk hr => ?_
  obtain ⟨hvals, hkernel⟩ := hsent n kernel inputs hn hk hin
  rw [hr] at hvals hkernel
  have hstate : Stored P K h (h.setKernel id (some kernel')) := by
    refine .modifyNode fun n' _ =>
      ⟨⟨rfl, rfl, rfl, rfl, fun _ => .inl, fun k hk => .inr (hkernel k ?_)⟩,
      ⟨fun _ => rfl, fun _ => rfl⟩⟩
    simp only [HeapObject.hostKernel?] at hk
    split at hk
    · next hrun =>
      cases hk
      exact Option.some.inj hrun
    · cases hk
  -- the state is written back even where the kernel failed
  refine HeapM.ends_read_bind (fun vs hvs => ?_) fun e he =>
    ⟨hstate, fun hc => hc.2.2 n kernel inputs hn hk hin e (by rw [hr]; exact he)⟩
  unfold publish
  split
  · exact ⟨hstate, fun _ => rfl⟩
  · exact (hstate.trans (.storeOutputs fun w hw => hvals vs hvs w (by simpa using hw))).trans
      (.releaseAll _ _)

end Nodes
end Heap
end Patchbay
