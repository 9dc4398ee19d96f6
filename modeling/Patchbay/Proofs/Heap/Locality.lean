import Patchbay.Proofs.Heap.Slots

/-!
# What an operation leaves alone

An operation that writes values has one object that it writes to, its subject; all other objects
stay as they are. Connecting, disconnecting and collecting change the wires of other nodes too, and
nothing else of them.
-/

namespace Patchbay

variable {H : HostTypes} {α β : Type}

namespace Operation

/-- The object that an operation writes to, wires apart. -/
def subject? : Operation H → Option ObjectId
  | define frame _ _ => some frame
  | assign frame _ _ => some frame
  | bind frame _ _ => some frame
  | pushElement sequence _ => some sequence
  | setRef cell _ => some cell
  | setIndex target _ _ => target.referent
  | setParam param _ => some param.node
  | setParamNamed node _ _ => some node
  | tick node => some node
  | _ => none

/-- Whether an operation changes the wires between nodes. -/
def Rewires : Operation H → Prop
  | connect _ _ => True
  | disconnect _ => True
  | collect _ _ => True
  | _ => False

/-- Whether an operation may take an object out of the heap. -/
def Discards (id : ObjectId) : Operation H → Prop
  | remove x => x = id
  | collect _ _ => True
  | _ => False

end Operation

/-- The object with nothing connected to its ports. -/
def HeapObject.unplugged : HeapObject H → HeapObject H
  | node n => node { n with
      inputs := n.inputs.map fun p => { p with source := none }
      outputs := n.outputs.map fun p => { p with targets := #[] } }
  | o => o

/-! ## Operations that do not touch an object -/

namespace HeapM

variable {m : HeapM H α} {f : α → HeapM H β} {x : ObjectId} {look : Heap H → Except EvalError α}

/-- Whatever the heap and however it ends, the operation leaves an object as it is. -/
def Spares (x : ObjectId) (m : HeapM H α) : Prop := ∀ h, (m.leaves h).object? x = h.object? x

lemma spares_pure {a : α} : Spares x (pure a : HeapM H α) := fun _ => rfl

lemma spares_fail {c : Cause} : Spares x (fail c : HeapM H α) := fun _ => rfl

lemma spares_read : Spares x (read look) := by
  intro h
  unfold leaves read
  cases look h <;> rfl

lemma spares_change {g : Heap H → Heap H} (hg : ∀ h, (g h).object? x = h.object? x) :
    Spares x (change g) := hg

lemma Spares.bind (hm : Spares x m) (hf : ∀ a, Spares x (f a)) : Spares x (m >>= f) := by
  intro h
  have hm := hm h
  simp only [leaves, Bind.bind, EStateM.bind] at hm ⊢
  cases hr : m h with
  | ok a h' =>
    rw [hr] at hm
    exact (hf a h').trans hm
  | error e h' =>
    rw [hr] at hm
    exact hm

lemma Spares.discard (hm : Spares x m) : Spares x (discard m) := by
  intro h
  have hm := hm h
  have hrun : Functor.discard m h = EStateM.map (fun _ => PUnit.unit) m h := rfl
  simp only [leaves, hrun, EStateM.map] at hm ⊢
  cases hr : m h <;> simpa [hr] using hm

end HeapM

namespace Heap

variable {h h' : Heap H} {id x : ObjectId} {host : KernelHost H} {op : Operation H} {v : Value}
  {o : HeapObject H} {name : Name}

section Spares

open HeapM

lemma object?_modifyObject_of_ne {f : HeapObject H → HeapObject H} (hx : x ≠ id) :
    (h.modifyObject id f).object? x = h.object? x := by
  rw [object?_modifyObject, if_neg hx]

lemma spares_define (hx : x ≠ id) : Spares x (define (H := H) id name v) := by
  refine spares_read.bind fun f => ?_
  split
  · exact spares_change fun h => object?_modifyObject_of_ne hx
  · exact spares_read

lemma spares_assign (hx : x ≠ id) : Spares x (assign (H := H) id name v) := by
  refine spares_read.bind fun f => ?_
  split
  · refine Spares.bind (spares_change fun h => ?_) fun _ => spares_pure
    rw [object?_release]
    exact object?_modifyObject_of_ne hx
  · exact spares_pure

lemma spares_bind (hx : x ≠ id) : Spares x (bind (H := H) id name v) := by
  refine (spares_assign hx).bind fun found => ?_
  split
  · exact spares_pure
  · exact spares_define hx

lemma spares_pushElement (hx : x ≠ id) : Spares x (pushElement (H := H) id v) :=
  spares_read.discard.bind fun _ => spares_change fun _ => object?_modifyObject_of_ne hx

lemma spares_setRef (hx : x ≠ id) : Spares x (setRef (H := H) id v) := by
  refine spares_read.bind fun old => spares_change fun h => ?_
  rw [object?_release]
  exact object?_modifyObject_of_ne hx

lemma spares_internName {s : String} : Spares x (internName (H := H) s) := fun _ => rfl

lemma spares_setIndex {target : Value} {indices : List Value} (hx : target.referent ≠ some x) :
    Spares x (setIndex (H := H) target indices v) := by
  have hne : ∀ id, target.referent = some id → x ≠ id := by
    rintro id hid rfl
    exact hx hid
  intro h
  refine HeapM.Ends.leaves (Q := fun h' => h'.object? x = h.object? x)
    (ends_setIndex (fun id index i items old htarget _ _ _ _ => ?_)
      (fun id coords g g' htarget _ _ _ => ?_)
      (fun id key htarget _ => ?_) (fun id htarget _ => ?_) fun _ _ => rfl)
  · rw [object?_release]
    exact object?_modifyObject_of_ne (hne id (htarget ▸ rfl))
  · exact object?_modifyObject_of_ne (hne id (htarget ▸ rfl))
  · exact ends_of_leaves (spares_bind (hne id (htarget ▸ rfl)) _)
  · exact ends_of_leaves (spares_setRef (hne id (htarget ▸ rfl)) h)

lemma spares_setParam {param : PortRef} (hx : x ≠ param.node) :
    Spares x (setParam host param v) := by
  refine spares_read.bind fun n => ?_
  split
  · exact spares_read
  · refine spares_read.bind fun _ => spares_change fun h => ?_
    rw [object?_release]
    exact object?_modifyObject_of_ne hx

lemma spares_setParamNamed {port : String} (hx : x ≠ id) :
    Spares x (setParamNamed host id port v) := by
  refine spares_read.bind fun n => ?_
  split
  · exact spares_setParam hx
  · exact spares_fail

lemma object?_storeOutputs {values : List Value} (hx : x ≠ id) :
    (h.storeOutputs id values).2.object? x = h.object? x := by
  refine List.foldlRecOn (motive := fun acc : List Value × Heap H => acc.2.object? x = h.object? x)
    _ _
    rfl ?_
  rintro ⟨olds, h'⟩ hs ⟨i, w⟩ -
  dsimp only at hs ⊢
  split
  · exact (object?_modifyObject_of_ne hx).trans hs
  · exact hs

lemma spares_tickNode (hx : x ≠ id) : Spares x (tickNode host id) := by
  have hset : ∀ kernel, Spares x (change fun h : Heap H => h.setKernel id kernel) := fun _ =>
    spares_change fun _ => object?_modifyObject_of_ne hx
  have htake : Spares x (takeKernel (H := H) id) :=
    spares_read.bind fun _ => (hset none).bind fun _ => spares_pure
  refine spares_read.bind fun inputs => htake.bind fun kernel => spares_read.bind fun n => ?_
  refine spares_read.bind fun r => Spares.bind (hset (some r.2)) fun _ => ?_
  refine spares_read.bind fun values => ?_
  unfold publish
  split
  · exact spares_fail
  · refine spares_change fun h => ?_
    rw [object?_releaseAll, object?_storeOutputs hx]

lemma spares_pin : Spares x (pin (H := H) id) :=
  spares_read.discard.bind fun _ => spares_change fun _ => object?_modifyEntry fun _ => rfl

end Spares

/-! ## Wires -/

/-- A live object with nothing connected to its ports. -/
def plain? (h : Heap H) (id : ObjectId) : Option (HeapObject H) :=
  (h.object? id).map HeapObject.unplugged

lemma plain?_modifyNode {f : Node H → Node H}
    (hf : ∀ n, (HeapObject.node (f n)).unplugged = (HeapObject.node n).unplugged) :
    (h.modifyNode id f).plain? x = h.plain? x := by
  rw [plain?, modifyNode, object?_modifyObject]
  split
  · rw [plain?, Option.map_map]
    refine congrFun (congrArg Option.map (funext fun o => ?_)) _
    cases o with
    | node n => exact hf n
    | _ => rfl
  · rfl

variable {input output : PortRef}

@[simp] lemma plain?_setSource {s : Option PortRef} : (h.setSource input s).plain? x = h.plain? x :=
  plain?_modifyNode fun n => by simp [HeapObject.unplugged, map_modify]

@[simp] lemma plain?_unlinkTarget : (h.unlinkTarget output input).plain? x = h.plain? x :=
  plain?_modifyNode fun n => by simp [HeapObject.unplugged, map_modify]

@[simp] lemma plain?_addTarget : (h.addTarget output input).plain? x = h.plain? x :=
  plain?_modifyNode fun n => by simp [HeapObject.unplugged, map_modify]

@[simp] lemma plain?_resetAge : (h.resetAge id).plain? x = h.plain? x := by
  rw [plain?, object?_resetAge, plain?]

@[simp] lemma plain?_unplug : (h.unplug input).plain? x = h.plain? x := by
  unfold unplug
  split <;> simp

@[simp] lemma plain?_plug : (h.plug input output).plain? x = h.plain? x := by simp [plug]

/-- What keeps the plain objects at every step keeps them all along. -/
lemma plain?_foldl {γ : Type} {step : Heap H → γ → Heap H}
    (hstep : ∀ h a, (step h a).plain? x = h.plain? x) (as : List γ) :
    (as.foldl step h).plain? x = h.plain? x :=
  List.foldlRecOn (motive := fun g : Heap H => g.plain? x = h.plain? x) _ _ rfl
    fun g hg a _ => (hstep g a).trans hg

lemma plain?_clearEdges : (h.clearEdges id o).plain? x = h.plain? x := by
  have hreset : (o.children.foldl resetAge h).plain? x = h.plain? x := plain?_foldl (by simp) _
  unfold clearEdges
  cases o with
  | node n =>
    simp only [unlinkOutputs, unlinkInputs, ← Array.foldl_toList]
    rw [plain?_foldl, plain?_foldl, hreset]
    · intro g port
      split <;> simp
    · intro g port
      exact plain?_foldl (by simp) _
  | _ => exact hreset

/-- A survivor of a collection is what it was, wires apart. -/
lemma plain?_collect {bound : UInt8} {extra : List ObjectId}
    (hc : (h.collect bound extra).2.contains x = true) :
    (h.collect bound extra).2.plain? x = h.plain? x := by
  have hnd : ((h.garbageOf bound extra).map fun d => d.1.index).Nodup := nodup_garbage
  obtain ⟨hentry, -⟩ := foldl_vacate _ hnd (h.cleared bound extra)
  -- vacating a slot drops its entry and writes none, so what is left was there before
  have hobj : (h.collect bound extra).2.object? x = (h.cleared bound extra).object? x := by
    obtain ⟨e, he⟩ := contains_iff.mp hc
    have hx := (hentry x).symm.trans he
    split at hx
    · cases hx
    · rw [object?, he, object?, hx]
  have hcleared : (h.cleared bound extra).plain? x = (h.detached bound extra).plain? x :=
    plain?_foldl (fun _ _ => plain?_clearEdges) _
  have hlive : (h.detached bound extra).contains x = true := by
    rw [← (rewired_cleared bound extra).contains, contains_eq_isSome_object?, ← hobj,
      ← contains_eq_isSome_object?]
    exact hc
  rw [plain?, hobj]
  refine hcleared.trans ?_
  rw [contains_eq_isSome_object?, object?_detached] at hlive
  rw [plain?, object?_detached, plain?]
  split at hlive
  · next hmark => rw [if_pos hmark]
  · cases hlive

/-! ## One operation -/

/-- What an operation may make of an object that outlives it: it stays, or only its wires change, or
it is written to as the subject. -/
def MayTurn (op : Operation H) (id : ObjectId) (o o' : HeapObject H) : Prop :=
  o' = o ∨ op.Rewires ∧ o'.unplugged = o.unplugged ∨ op.subject? = some id

lemma mayTurn_of_plain? {o' : HeapObject H} (hop : op.Rewires) (hp : h'.plain? x = h.plain? x)
    (ho : h.object? x = some o) (ho' : h'.object? x = some o') : MayTurn op x o o' := by
  rw [plain?, plain?, ho, ho'] at hp
  exact .inr (.inl ⟨hop, Option.some.inj hp⟩)

/-- An operation that leaves other objects than its subject as they are. -/
lemma mayTurn_of_spares {o' : HeapObject H}
    (hs : op.subject? ≠ some x → HeapM.Spares x (op.run host)) (ho : h.object? x = some o)
    (ho' : (op.after host h).object? x = some o') : MayTurn op x o o' := by
  by_cases hx : op.subject? = some x
  · exact .inr (.inr hx)
  · have hsame := hs hx h
    rw [← Operation.after, ho, ho'] at hsame
    exact .inl (Option.some.inj hsame)

lemma plain?_after_connect :
    ((Operation.connect input output).after host h).plain? x = h.plain? x := by
  refine leaves_connect (P := fun h' : Heap H => h'.plain? x = h.plain? x) rfl fun _ _ => ?_
  rw [plain?_plug, plain?_unplug]

lemma plain?_after_disconnect :
    ((Operation.disconnect input).after host h).plain? x = h.plain? x :=
  leaves_disconnect (P := fun h' : Heap H => h'.plain? x = h.plain? x) rfl fun _ => plain?_unplug

/-- Taking an object out does not change the others. -/
lemma object?_after_remove (hc : ((Operation.remove id).after host h).contains x = true) :
    ((Operation.remove id).after host h).object? x = h.object? x := by
  refine HeapM.Ends.leaves
    (Q := fun h' : Heap H => h'.contains x = true → h'.object? x = h.object? x) ?_ hc
  refine HeapM.Ends.discard (ends_remove.mono (fun o h' hr hc => ?_) fun _ h' he _ => by rw [he.1])
  rw [hr.2, contains_eq_isSome_object?, object?_without] at hc
  rw [hr.2, object?_without]
  split at hc
  · cases hc
  · next hx => rw [if_neg hx]

lemma after_alloc : (Operation.alloc o).after host h = (h.alloc o).2 := rfl

/-- Any operation leaves a live object alone, up to its wires, unless the object is its subject. -/
lemma mayTurn_after {o' : HeapObject H} (ht : Tidy h) (ho : h.object? x = some o)
    (ho' : (op.after host h).object? x = some o') : MayTurn op x o o' := by
  have hne : ∀ {y : ObjectId}, some y ≠ some x → x ≠ y := fun hy hx => hy (congrArg some hx.symm)
  -- an operation that does not have `x` for its subject spares it, or changes no more of it than
  -- its wires
  cases op with
  | alloc object =>
    rw [after_alloc, object?_alloc_of_contains ht (contains_of_object? ho), ho] at ho'
    exact .inl (Option.some.inj ho').symm
  | remove id =>
    rw [object?_after_remove (contains_of_object? ho'), ho] at ho'
    exact .inl (Option.some.inj ho').symm
  | define frame name value => exact mayTurn_of_spares (fun hx => spares_define (hne hx)) ho ho'
  | assign frame name value =>
    exact mayTurn_of_spares (fun hx => (spares_assign (hne hx)).discard) ho ho'
  | bind frame name value => exact mayTurn_of_spares (fun hx => spares_bind (hne hx)) ho ho'
  | pushElement sequence value =>
    exact mayTurn_of_spares (fun hx => spares_pushElement (hne hx)) ho ho'
  | setRef cell value => exact mayTurn_of_spares (fun hx => spares_setRef (hne hx)) ho ho'
  | setIndex target indices value => exact mayTurn_of_spares spares_setIndex ho ho'
  | connect input output => exact mayTurn_of_plain? trivial plain?_after_connect ho ho'
  | disconnect input => exact mayTurn_of_plain? trivial plain?_after_disconnect ho ho'
  | setParam param value => exact mayTurn_of_spares (fun hx => spares_setParam (hne hx)) ho ho'
  | setParamNamed node name value =>
    exact mayTurn_of_spares (fun hx => spares_setParamNamed (hne hx)) ho ho'
  | tick node => exact mayTurn_of_spares (fun hx => spares_tickNode (hne hx)) ho ho'
  | pin id => exact mayTurn_of_spares (fun _ => spares_pin) ho ho'
  | unpin id =>
    exact mayTurn_of_spares (fun _ => HeapM.spares_change fun _ => object?_modifyEntry fun _ => rfl)
      ho ho'
  | collect bound extra =>
    exact mayTurn_of_plain? trivial (plain?_collect (contains_of_object? ho')) ho ho'
  | intern s => exact mayTurn_of_spares (fun _ => spares_internName.discard) ho ho'

/-! ## Staying and going -/

/-- An object stays unless it is taken out, or a collection may take it. -/
lemma contains_after (ht : Tidy h) (hc : h.contains x = true) (hop : ¬ op.Discards x) :
    (op.after host h).contains x = true := by
  have he := effect_after host op h
  generalize op.after host h = h' at he ⊢
  cases he with
  | write hs => exact hs.contains.trans hc
  | alloc o h => exact (contains_alloc ht).mpr (.inr hc)
  | remove ho =>
    refine ((vacated_without ho).contains x).mpr ⟨hc, fun hmem => hop ?_⟩
    exact (eq_of_contains hc (contains_of_object? ho) (List.mem_singleton.mp hmem)).symm
  | unplug hp => exact rewired_unplug.contains.trans hc
  | connect hp ho => exact (rewired_unplug.trans rewired_plug).contains.trans hc
  | pin hlive => exact contains_modifyEntry.trans hc
  | unpin id h => exact contains_modifyEntry.trans hc
  | collect bound extra h => exact absurd trivial hop

/-- An object that is taken out is gone. -/
lemma contains_after_remove : ((Operation.remove x).after host h).contains x = false := by
  refine HeapM.Ends.leaves (Q := fun h' : Heap H => h'.contains x = false) ?_
  refine HeapM.Ends.discard (ends_remove.mono (fun o h' hr => ?_) fun _ h' he => by rw [he.1, he.2])
  rw [hr.2, contains_eq_isSome_object?, object?_without, if_pos rfl]
  rfl

end Heap
end Patchbay
