import Patchbay.Host.Stock
import Patchbay.Proofs.Heap.Sweep

/-!
# Sequences of heap operations

The operations on a heap as data, what each of them can do to it, and the heaps that sequences of
them lead to from an empty one. Failing operations are among the steps of a sequence: what they
leave behind is a heap that the next operation may find.
-/

namespace Patchbay

variable {H : HostTypes}

/-- An operation on the heap, with its operands. -/
inductive Operation (H : HostTypes) where
  | alloc (object : HeapObject H)
  | remove (id : ObjectId)
  | define (frame : ObjectId) (name : Name) (value : Value)
  | assign (frame : ObjectId) (name : Name) (value : Value)
  | bind (frame : ObjectId) (name : Name) (value : Value)
  | pushElement (sequence : ObjectId) (value : Value)
  | setRef (cell : ObjectId) (value : Value)
  | setIndex (target : Value) (indices : List Value) (value : Value)
  | connect (input output : PortRef)
  | disconnect (input : PortRef)
  | setParam (param : PortRef) (value : Value)
  | setParamNamed (node : ObjectId) (name : String) (value : Value)
  | tick (node : ObjectId)
  | pin (id : ObjectId)
  | unpin (id : ObjectId)
  | collect (bound : UInt8) (extra : List ObjectId)
  | intern (s : String)

namespace Operation

/-- Do an operation. -/
def run (host : KernelHost H) : Operation H → HeapM H Unit
  | alloc object => discard <| HeapM.alloc object
  | remove id => discard <| Heap.remove id
  | define frame name value => Heap.define frame name value
  | assign frame name value => discard <| Heap.assign frame name value
  | bind frame name value => Heap.bind frame name value
  | pushElement sequence value => Heap.pushElement sequence value
  | setRef cell value => Heap.setRef cell value
  | setIndex target indices value => Heap.setIndex target indices value
  | connect input output => Heap.connect input output
  | disconnect input => Heap.disconnect input
  | setParam param value => Heap.setParam host param value
  | setParamNamed node name value => Heap.setParamNamed host node name value
  | tick node => Heap.tickNode host node
  | pin id => Heap.pin id
  | unpin id => HeapM.change fun h => h.unpin id
  | collect bound extra => HeapM.change fun h => (h.collect bound extra).2
  | intern s => discard <| Heap.internName s

/-- The heap that an operation leaves behind. -/
def after (host : KernelHost H) (op : Operation H) (h : Heap H) : Heap H := (op.run host).leaves h

/-- Whether an operation stores no node that is wired already. -/
def StoresUnwired : Operation H → Prop
  | alloc object => object.Unwired
  | _ => True

end Operation

namespace Heap

variable {h h' : Heap H} {id : ObjectId} {host : KernelHost H} {op : Operation H}

/-! ## Effects -/

/-- The heap without an object. -/
def without (h : Heap H) (id : ObjectId) (o : HeapObject H) : Heap H :=
  o.children.foldl resetAge { h.vacate id.index with live := h.live - 1 }

lemma rewired_without {o : HeapObject H} :
    Rewired { h.vacate id.index with live := h.live - 1 } (h.without id o) :=
  rewired_foldl_resetAge _ _

/-- One more pin. -/
def pinned (h : Heap H) (id : ObjectId) : Heap H :=
  h.modifyEntry id fun e => { e with pins := e.pins + 1 }

lemma ends_remove :
    (remove id).Ends h (fun o h' => h.object? id = some o ∧ h' = h.without id o) fun _ h' =>
      h' = h ∧ h.contains id = false :=
  HeapM.ends_read_bind (fun _ ho => ⟨get_eq_ok_iff.mp ho, rfl⟩) fun _ he => ⟨rfl, get_eq_error he⟩

lemma ends_pin :
    (pin id).Ends h (fun _ h' => h.contains id = true ∧ h' = h.pinned id) fun e h' =>
      h' = h ∧ (h.contains id = true → e.isDead = false) := by
  refine HeapM.ends_check_bind (fun o ho => ⟨contains_of_object? (get_eq_ok_iff.mp ho), rfl⟩)
    fun e he => ⟨rfl, fun hc => ?_⟩
  have := get_eq_error he
  simp [this] at hc

/-- Pinning leaves the heap as it was, or it counts a pin. -/
lemma ends_pin_either {P : Heap H → Prop} (hsame : P h)
    (hpin : h.contains id = true → P (h.pinned id)) : (pin id).Ends h (fun _ => P) fun _ => P := by
  refine ends_pin.mono (fun _ h' hp => ?_) fun _ h' he => ?_
  · rw [hp.2]
    exact hpin hp.1
  · rw [he.1]
    exact hsame

lemma leaves_pin {P : Heap H → Prop} (hsame : P h) (hpin : h.contains id = true → P (h.pinned id)) :
    P ((pin id).leaves h) := (ends_pin_either hsame hpin).leaves

/-- A write of any values. -/
abbrev Overwritten : Heap H → Heap H → Prop := Stored (fun _ => True) fun _ => True

/-- Everything that an operation can do. -/
inductive Effect : Operation H → Heap H → Heap H → Prop where
  | write {op : Operation H} {h h' : Heap H} : Overwritten h h' → Effect op h h'
  | alloc (o : HeapObject H) (h : Heap H) : Effect (.alloc o) h (h.alloc o).2
  | remove {id : ObjectId} {h : Heap H} {o : HeapObject H} : h.object? id = some o →
      Effect (.remove id) h (h.without id o)
  | unplug {input : PortRef} {h : Heap H} : h.HasInput input →
      Effect (.disconnect input) h (h.unplug input)
  | connect {input output : PortRef} {h : Heap H} : h.HasInput input → h.HasOutput output →
      Effect (.connect input output) h ((h.unplug input).plug input output)
  | pin {id : ObjectId} {h : Heap H} : h.contains id = true → Effect (.pin id) h (h.pinned id)
  | unpin (id : ObjectId) (h : Heap H) : Effect (.unpin id) h (h.unpin id)
  | collect (bound : UInt8) (extra : List ObjectId) (h : Heap H) :
      Effect (.collect bound extra) h (h.collect bound extra).2

lemma Effect.same (heq : h' = h) : Effect op h h' := by
  subst heq
  exact .write (.refl _)

lemma effect_of_writes {α : Type} {m : HeapM H α} {fine : Prop}
    (hm : Writes (fun _ => True) (fun _ => True) fine m h) :
    m.Ends h (fun _ => Effect op h) fun _ => Effect op h :=
  hm.mono (fun _ _ hs => .write hs) fun _ _ he => .write he.1

/-- An operation does nothing but what `Effect` lists. -/
lemma effect_after (host : KernelHost H) (op : Operation H) (h : Heap H) :
    Effect op h (op.after host h) := by
  refine HeapM.Ends.leaves (Q := Effect op h) ?_
  cases op with
  | alloc o => exact .discard (.alloc o h)
  | remove id =>
    refine .discard (ends_remove.mono (fun o h' hr => ?_) fun _ _ he => Effect.same he.1)
    exact hr.2 ▸ .remove hr.1
  | define frame name value => exact effect_of_writes (writes_define trivial)
  | assign frame name value => exact .discard (effect_of_writes (writes_assign trivial))
  | bind frame name value => exact effect_of_writes (writes_bind trivial)
  | pushElement sequence value => exact effect_of_writes (writes_pushElement trivial)
  | setRef cell value => exact effect_of_writes (writes_setRef trivial)
  | setIndex target indices value => exact effect_of_writes (writes_setIndex trivial)
  | connect input output =>
    refine ends_connect.mono (fun _ h' hc => ?_) fun _ _ he => Effect.same he.1
    exact hc.2.2 ▸ .connect hc.1 hc.2.1
  | disconnect input =>
    refine ends_disconnect.mono (fun _ h' hd => ?_) fun _ _ he => Effect.same he.1
    exact hd.2 ▸ .unplug hd.1
  | setParam param value => exact effect_of_writes (writes_setParam trivial)
  | setParamNamed node name value => exact effect_of_writes (writes_setParamNamed trivial)
  | tick node =>
    exact effect_of_writes (writes_tickNode fun _ _ _ _ _ _ =>
      ⟨fun _ _ _ _ => trivial, fun _ _ => trivial⟩)
  | pin id =>
    refine ends_pin.mono (fun _ h' hp => ?_) fun _ _ he => Effect.same he.1
    exact hp.2 ▸ .pin hp.1
  | unpin id => exact .unpin id h
  | collect bound extra => exact .collect bound extra h
  | intern s => exact .discard (effect_of_writes writes_internName)

/-! ## Functions of the stock host -/

/-- The objects that functions of the stock host store. -/
inductive StockObject : HeapObject Stock.types → Prop where
  | sequence (items : Array Value) : StockObject (.sequence items)
  | ref (v : Value) : StockObject (.ref v)

/-- What a function of the stock host may do to the heap: it writes values, or it stores an
object. -/
inductive StockEffect (h : Heap Stock.types) : Heap Stock.types → Prop where
  | write {h' : Heap Stock.types} : Overwritten h h' → StockEffect h h'
  | alloc (o : HeapObject Stock.types) : StockObject o → StockEffect h (h.alloc o).2

lemma ends_stockCall (fn : Stock.Function) (args : List Value) (h : Heap Stock.types) :
    (Stock.call fn args).Ends h (fun _ => StockEffect h) fun _ => StockEffect h := by
  cases fn with
  | pack => exact .alloc _ (.sequence args.toArray)
  | cell => exact .alloc _ (.ref (args.head?.getD .absent))
  | tick =>
    unfold Stock.call
    cases args.head?.bind Value.referent with
    | none => exact .write (.refl h)
    | some id =>
      have htick : Writes (fun _ => True) (fun _ => True) _ (tickNode Stock.kernels id) h :=
        writes_tickNode fun _ _ _ _ _ _ => ⟨fun _ _ _ _ => trivial, fun _ _ => trivial⟩
      exact HeapM.Ends.bind (htick.mono (fun _ _ hs => hs) fun _ _ he => .write he.1)
        fun _ _ hs => .write hs
  | _ => exact .write (.refl h)

/-! ## Sequences -/

/-- How often each slot was vacated, after `h` became `h'`. -/
def countVacated (h h' : Heap H) (freed : Nat → Nat) (i : Nat) : Nat :=
  freed i + if h.occupied i && !h'.occupied i then 1 else 0

/-- The heaps that sequences of allowed operations lead to from an empty heap, with the number of
times that each slot was vacated on the way. -/
inductive Reached (host : KernelHost H) (Allowed : Heap H → Operation H → Prop) :
    Heap H → (Nat → Nat) → Prop where
  | new (names : Interner) (threshold : Nat) : Reached host Allowed (new names threshold) fun _ => 0
  | step {h : Heap H} {freed : Nat → Nat} {op : Operation H} : Reached host Allowed h freed →
      Allowed h op →
      Reached host Allowed (op.after host h) (countVacated h (op.after host h) freed)

/-- A sequence of operations vacates no slot more often than it has operations. -/
lemma Reached.sequence {Allowed : Heap H → Operation H → Prop} {freed : Nat → Nat}
    (hr : Reached host Allowed h freed) (ops : List (Operation H))
    (hops : ∀ op ∈ ops, ∀ h, Allowed h op) :
    ∃ freed', Reached host Allowed (ops.foldl (fun h op => op.after host h) h) freed' ∧
      ∀ i, freed' i ≤ freed i + ops.length := by
  induction ops generalizing h freed with
  | nil => exact ⟨freed, hr, fun _ => Nat.le_refl _⟩
  | cons op rest ih =>
    obtain ⟨freed', hr', hle⟩ := ih (hr.step (hops op List.mem_cons_self h))
      fun op hop => hops op (List.mem_cons_of_mem _ hop)
    refine ⟨freed', hr', fun i => (hle i).trans ?_⟩
    rw [countVacated, List.length_cons]
    split <;> omega

/-- What is kept by every operation holds on all heaps that operations lead to. -/
lemma Reached.induct {Allowed : Heap H → Operation H → Prop} {Inv : Heap H → Prop}
    (hnew : ∀ names threshold, Inv (Heap.new names threshold))
    (hstep : ∀ h op h', Inv h → Allowed h op → Effect op h h' → Inv h') {freed : Nat → Nat}
    (hr : Reached host Allowed h freed) : Inv h := by
  induction hr with
  | new names threshold => exact hnew names threshold
  | step _ ha ih => exact hstep _ _ _ ih ha (effect_after host _ _)

end Heap
end Patchbay
