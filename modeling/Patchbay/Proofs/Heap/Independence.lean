import Patchbay.Host.Stock
import Patchbay.Proofs.Heap.Operation
import Patchbay.Proofs.Lifting.Sketches

/-!
# Nodes that tick independently

A tick is split here in what it comes to, which is read off the heap at once, and the change that it
makes: one node is replaced, and some ages go back to zero. What the tick of a node comes to depends
on the node, on the nodes that its inputs come from and on what an index kernel looks at, none of
which another node touches when it ticks. The changes of two ticks can be made in either order. So
two nodes neither of which is a source of the other tick in either order, with the same ends and the
same heap.
-/

namespace Patchbay

variable {H : HostTypes}

/-- How an operation on the heap ends. -/
def HeapM.ending {α : Type} (m : HeapM H α) (h : Heap H) : Except EvalError α :=
  match m h with
  | .ok a _ => .ok a
  | .error e _ => .error e

/-- The kernel does not look around in the heap: it has its inputs, its node and its state. -/
def Kernel.ReadsOwn (host : KernelHost H) : Kernel H.Kernel → Prop
  | .host state => ∀ h h' n inputs, host.tick state h n inputs = host.tick state h' n inputs
  | _ => True

/-- What a tick comes to: how it ends, what its node becomes, and the values that it overwrites. -/
structure Tick (H : HostTypes) where
  result : Except EvalError Unit
  node : Node H
  replaced : List Value

namespace Node

variable {n n' n'' : Node H} {values : List Value}

/-- A node after ticks: its kernel may be in another state, and its outputs may have sent other
values. -/
def Ticked (n n' : Node H) : Prop := n.Alike { n' with kernel := n.kernel }

lemma Ticked.trans (h1 : n.Ticked n') (h2 : n'.Ticked n'') : n.Ticked n'' where
  name := h2.name.trans h1.name
  inputs := h2.inputs.trans h1.inputs
  params := h2.params.trans h1.params
  kernel := rfl
  outputs := h2.outputs.trans h1.outputs

lemma Ticked.portValue (ht : n.Ticked n') (id : ObjectId) (key : String) :
    n'.portValue? id key = n.portValue? id key := Alike.portValue ht id key

lemma ticked_kernel (kernel : Option (Kernel H.Kernel)) : n.Ticked { n with kernel := kernel } :=
  ⟨rfl, rfl, rfl, rfl, rfl⟩

/-- The node with a value on one of its outputs. -/
def emit (n : Node H) (i : Nat) (value : Value) : Node H :=
  { n with outputs := n.outputs.modify i fun p => { p with value := some value } }

lemma ticked_emit (i : Nat) (value : Value) : n.Ticked (n.emit i value) :=
  ⟨rfl, rfl, rfl, rfl, by simp [emit, Heap.map_modify]⟩

/-- Put values on the outputs of a node, in the order of its ports. The values that were there
before come back. -/
def send (n : Node H) (values : List Value) : List Value × Node H :=
  let store := fun ((olds, n) : List Value × Node H) ((i, value) : Nat × Value) =>
    match n.outputs[(portIndex i).toNat]? with
    | some p => (olds ++ p.value.toList, n.emit (portIndex i).toNat value)
    | none => (olds, n)
  ((List.range values.length).zip values).foldl store ([], n)

lemma ticked_send : n.Ticked (n.send values).2 := by
  refine List.foldlRecOn (motive := fun acc : List Value × Node H => n.Ticked acc.2) _ _
    (ticked_kernel n.kernel) ?_
  rintro ⟨olds, n'⟩ ht ⟨i, w⟩ -
  dsimp only at ht ⊢
  split
  · exact ht.trans (ticked_emit _ _)
  · exact ht

/-- What a tick of the node comes to, with its kernel taken out and with these values at its
inputs. -/
def tick (host : KernelHost H) (h : Heap H) (n : Node H) (kernel : Kernel H.Kernel)
    (inputs : Array Value) : Tick H :=
  let (result, kernel) := kernel.run host h n inputs
  let ran := { n with kernel := some kernel }
  match result with
  | .error e => ⟨.error e, ran, []⟩
  | .ok values =>
    if values.size ≠ n.outputs.size then
      ⟨fail (.custom ("node " ++ inTicks n.name ++ " produced " ++ toString values.size ++
        " values for " ++ toString n.outputs.size ++ " outputs")), ran, []⟩
    else
      let (olds, sent) := ran.send values.toList
      ⟨.ok (), sent, olds⟩

lemma ticked_tick {host : KernelHost H} {h : Heap H} {kernel : Kernel H.Kernel}
    {inputs : Array Value} : n.Ticked (n.tick host h kernel inputs).node := by
  unfold tick
  dsimp only
  split
  · exact ticked_kernel _
  · split
    · exact ticked_kernel _
    · exact (ticked_kernel _).trans ticked_send

end Node

namespace Heap

variable {h h' : Heap H} {id x y a b : ObjectId} {n n' : Node H} {host : KernelHost H}
  {t u : Tick H}

/-! ## A tick as one change -/

/-- Put a node in the place of another object. -/
def putNode (h : Heap H) (id : ObjectId) (n : Node H) : Heap H := h.modifyObject id fun _ => .node n

lemma modifyNode_putNode {f : Node H → Node H} :
    (h.putNode id n).modifyNode id f = h.putNode id (f n) :=
  modifyEntry_modifyEntry

lemma modifyNode_eq_putNode {f : Node H → Node H} (hn : h.object? id = some (.node n)) :
    h.modifyNode id f = h.putNode id (f n) := by
  refine modifyEntry_congr fun e he => ?_
  have hobj : e.object = .node n := by simpa [object?, he] using hn
  rw [hobj]

lemma object?_putNode_self (hc : h.contains id = true) :
    (h.putNode id n).object? id = some (.node n) := by
  obtain ⟨o, ho⟩ := exists_object? hc
  rw [putNode, object?_modifyObject, if_pos rfl, ho]
  rfl

/-- The outputs of a live node are set one by one. -/
lemma storeOutputs_putNode (hc : h.contains id = true) (values : List Value) :
    (h.putNode id n).storeOutputs id values =
    ((n.send values).1, h.putNode id (n.send values).2) := by
  refine @List.foldl_hom _ _ _ (fun r : List Value × Node H => (r.1, h.putNode id r.2)) _ _ _
    ([], n) ?_
  rintro ⟨olds, n⟩ ⟨i, w⟩
  have hport : ∀ p, (h.putNode id n).outputPort ⟨id, Node.portIndex i⟩ = .ok p ↔
      n.outputs[(Node.portIndex i).toNat]? = some p := by
    intro p
    rw [outputPort_eq_ok, object?_putNode_self hc]
    simp
  have hset : (h.putNode id n).setOutput ⟨id, Node.portIndex i⟩ w =
      h.putNode id (n.emit (Node.portIndex i).toNat w) := modifyNode_putNode
  dsimp only
  cases hp : n.outputs[(Node.portIndex i).toNat]? with
  | some p => rw [(hport p).mpr hp, hset]
  | none =>
    cases hout : (h.putNode id n).outputPort ⟨id, Node.portIndex i⟩ with
    | ok p =>
      rw [hport p, hp] at hout
      cases hout
    | error e => rfl

/-- The heap after a tick of a node. -/
def put (h : Heap H) (id : ObjectId) (t : Tick H) : Heap H :=
  t.replaced.foldl release (h.putNode id t.node)

/-- What a tick of a node comes to, if the node is there with its kernel and has values at its
inputs. -/
def tickOf (host : KernelHost H) (h : Heap H) (id : ObjectId) : Except EvalError (Tick H) := do
  let inputs ← h.inputValues id
  let kernel ← h.idleKernel id
  let n ← h.node id
  return n.busy.tick host (h.busy id) kernel inputs

lemma tickOf_of_ok {kernel : Kernel H.Kernel} {inputs : Array Value}
    (hin : h.inputValues id = .ok inputs)
    (hn : h.object? id = some (.node n)) (hk : n.kernel = some kernel) :
    h.tickOf host id = .ok (n.busy.tick host (h.busy id) kernel inputs) := by
  rw [tickOf, hin, idleKernel_eq_ok.mpr ⟨n, hn, hk⟩, node_eq_ok.mpr hn]
  rfl

lemma node_of_tickOf (ht : h.tickOf host id = .ok t) :
    ∃ n, h.object? id = some (.node n) ∧ n.Ticked t.node := by
  obtain ⟨inputs, -, ht⟩ := bind_eq_ok.mp ht
  obtain ⟨kernel, -, ht⟩ := bind_eq_ok.mp ht
  obtain ⟨n, hn, ht⟩ := bind_eq_ok.mp ht
  cases ht
  exact ⟨n, node_eq_ok.mp hn, (Node.ticked_kernel none).trans Node.ticked_tick⟩

/-- A tick that comes to nothing fails, and leaves the heap as it is. -/
lemma ends_tickNode_of_error {e : EvalError} (ht : h.tickOf host id = .error e) :
    (tickNode host id).Ends h (fun _ _ => False) fun e' h' => e' = e ∧ h' = h := by
  refine ends_tickNode (fun e' he => ?_) (fun e' inputs hin he => ?_)
    fun inputs n kernel _ _ hin hn hk _ => ?_
  · rw [tickOf, he] at ht
    cases ht
    exact ⟨rfl, rfl⟩
  · rw [tickOf, hin, he] at ht
    cases ht
    exact ⟨rfl, rfl⟩
  · rw [tickOf_of_ok hin hn hk] at ht
    cases ht

/-- A tick makes of the heap what it comes to, also if it fails. -/
lemma ends_tickNode_of_ok (ht : h.tickOf host id = .ok t) :
    (tickNode host id).Ends h (fun _ h' => t.result = .ok () ∧ h' = h.put id t)
      fun e h' => t.result = .error e ∧ h' = h.put id t := by
  refine ends_tickNode (fun e he => ?_) (fun e inputs hin he => ?_)
    fun inputs n kernel result kernel' hin hn hk hrun => ?_
  · rw [tickOf, he] at ht
    cases ht
  · rw [tickOf, hin, he] at ht
    cases ht
  · rw [tickOf_of_ok hin hn hk] at ht
    cases ht
    -- the kernel is put back first, whatever else becomes of the tick
    have hran : h.setKernel id (some kernel') = h.putNode id { n with kernel := some kernel' } :=
      modifyNode_eq_putNode hn
    rw [hran, Node.tick, hrun]
    refine HeapM.ends_read_bind (fun values hvalues => ?_) fun e he => ?_
    · subst hvalues
      unfold publish
      dsimp only
      by_cases hsize : values.size ≠ n.busy.outputs.size
      · rw [if_pos hsize, if_pos hsize]
        exact ⟨rfl, rfl⟩
      · rw [if_neg hsize, if_neg hsize]
        have hstore := storeOutputs_putNode (n := { n with kernel := some kernel' })
          (contains_of_object? hn) values.toList
        refine HeapM.ends_change.mpr ?_
        rw [hstore]
        exact ⟨rfl, rfl⟩
    · subst he
      exact ⟨rfl, rfl⟩

/-- The heap that a tick leaves behind is read off what it comes to. -/
lemma leaves_tickNode :
    (tickNode host id).leaves h =
      match h.tickOf host id with
      | .ok t => h.put id t
      | .error _ => h := by
  cases ht : h.tickOf host id with
  | error e =>
    exact ((ends_tickNode_of_error ht).mono (fun _ _ => False.elim) fun _ _ he => he.2).leaves
  | ok t => exact ((ends_tickNode_of_ok ht).mono (fun _ _ hr => hr.2) fun _ _ he => he.2).leaves

/-- How a tick ends is read off what it comes to. -/
lemma ending_tickNode :
    (tickNode host id).ending h = (h.tickOf host id).bind Tick.result := by
  unfold HeapM.ending
  cases ht : h.tickOf host id with
  | error e =>
    obtain ⟨_, _, -, hfalse⟩ | ⟨e', h', hrun, rfl, -⟩ := (ends_tickNode_of_error ht).ok_or_error
    · exact hfalse.elim
    · rw [hrun]
      rfl
  | ok t =>
    obtain ⟨_, h', hrun, hr, -⟩ | ⟨e, h', hrun, he, -⟩ := (ends_tickNode_of_ok ht).ok_or_error
    · rw [hrun]
      exact hr.symm
    · rw [hrun]
      exact he.symm

/-! ## What another tick leaves alone -/

/-- `h'` is `h` after ticks of one node: nothing but the state and the outputs of that node is
new. -/
structure TickedAt (id : ObjectId) (h h' : Heap H) : Prop where
  names : h'.names = h.names
  object : ∀ x, x ≠ id → h'.object? x = h.object? x
  node : ∃ n n', h.object? id = some (.node n) ∧ h'.object? id = some (.node n') ∧ n.Ticked n'

lemma tickedAt_put (ht : h.tickOf host id = .ok t) : TickedAt id h (h.put id t) where
  names := names_releaseAll _ _
  object x hx := by
    rw [put, object?_releaseAll, putNode, object?_modifyObject, if_neg hx]
  node := by
    obtain ⟨n, hn, hticked⟩ := node_of_tickOf ht
    refine ⟨n, t.node, hn, ?_, hticked⟩
    rw [put, object?_releaseAll, object?_putNode_self (contains_of_object? hn)]

/-- An object is found as before, or it is the node that ticked. -/
lemma TickedAt.get (hk : TickedAt id h h') (x : ObjectId) :
    h'.get x = h.get x ∨
      ∃ n n', h.get x = .ok (.node n) ∧ h'.get x = .ok (.node n') ∧ n.Ticked n' := by
  by_cases hx : x = id
  · subst hx
    obtain ⟨n, n', hn, hn', ht⟩ := hk.node
    exact .inr ⟨n, n', get_eq_ok_iff.mpr hn, get_eq_ok_iff.mpr hn', ht⟩
  · exact .inl (get_congr (hk.object x hx))

/-- Looking for an object that is no node does not tell two states of a node apart. -/
lemma TickedAt.take {α : Type} {take : HeapObject H → Except EvalError α} (hk : TickedAt id h h')
    (htake : ∀ n n', take (.node n) = take (.node n')) (x : ObjectId) :
    (h'.get x >>= take) = (h.get x >>= take) := by
  rcases hk.get x with heq | ⟨n, n', hn, hn', -⟩
  · rw [heq]
  · rw [hn, hn']
    exact htake n' n

/-- Indexing does not see what a tick changes. -/
lemma TickedAt.index (hk : TickedAt id h h') (target : Value) (indices : List Value) :
    h'.index target indices = h.index target indices := by
  unfold Heap.index
  -- sequences, grids, frames and cells are no nodes; of a node only its ports are looked up
  split
  · next x _ =>
    have hget : h'.sequence x = h.sequence x := hk.take (fun _ _ => rfl) x
    rw [hget]
  · next x =>
    have hget : h'.grid x = h.grid x := hk.take (fun _ _ => rfl) x
    rw [hget]
  · next x key =>
    have hget : h'.frame x = h.frame x := hk.take (fun _ _ => rfl) x
    rw [hget, hk.names]
  · next x key =>
    rcases hk.get x with heq | ⟨n, n', hn, hn', ht⟩
    · rw [Heap.node, Heap.node, heq]
    · have hnode : h.node x = .ok n := by rw [Heap.node, hn]; rfl
      have hnode' : h'.node x = .ok n' := by rw [Heap.node, hn']; rfl
      have hname : n'.name = n.name := ht.name
      rw [hnode, hnode']
      simp only [Bind.bind, Except.bind, ht.portValue, hname]
  · next x => exact hk.take (fun _ _ => rfl) x
  · rfl
  · rfl

/-- A kernel that does not look around computes the same after another node has ticked, and so does
an index kernel. -/
lemma TickedAt.run (hk : TickedAt id h h') {kernel : Kernel H.Kernel} (hown : kernel.ReadsOwn host)
    (n : Node H) (inputs : Array Value) :
    kernel.run host h' n inputs = kernel.run host h n inputs := by
  cases kernel with
  | host state => simp only [Kernel.run, hown h' h n inputs]
  | index => simp only [Kernel.run, Kernel.compute, hk.index]
  | _ => rfl

lemma object?_busy_of_ne (hx : x ≠ id) : (h.busy id).object? x = h.object? x := by
  rw [busy, setKernel, modifyNode, object?_modifyObject, if_neg hx]

/-- While a kernel runs, the heap is as after a tick of its node. -/
lemma tickedAt_busy (hn : h.object? id = some (.node n)) : TickedAt id h (h.busy id) where
  names := rfl
  object _ hx := object?_busy_of_ne hx
  node := ⟨n, n.busy, hn, object?_busy hn, Node.ticked_kernel none⟩

/-- What the kernels of the language compute does not depend on whether they are in their nodes. -/
lemma compute_busy (hn : h.object? id = some (.node n)) {kernel : Kernel H.Kernel}
    {inputs : List Value} :
    kernel.compute (h.busy id) n.busy inputs = kernel.compute h n inputs := by
  cases kernel with
  | index => simp only [Kernel.compute, (tickedAt_busy hn).index]
  | _ => rfl

/-- Taking a kernel out of another node. -/
lemma TickedAt.busy (hk : TickedAt y h h') (hne : x ≠ y) : TickedAt y (h.busy x) (h'.busy x) where
  names := hk.names
  object z hz := by
    rw [Heap.busy, Heap.busy, setKernel, setKernel, modifyNode, modifyNode, object?_modifyObject,
      object?_modifyObject, hk.object z hz]
  node := by
    obtain ⟨n, n', hn, hn', ht⟩ := hk.node
    exact ⟨n, n', (object?_busy_of_ne hne.symm).trans hn,
      (object?_busy_of_ne hne.symm).trans hn', ht⟩

/-- The outputs that the inputs of a node are connected to. -/
def sourcesOf (h : Heap H) (id : ObjectId) : List PortRef :=
  match h.object? id with
  | some (.node n) => n.inputs.toList.filterMap InputPort.source
  | _ => []

lemma node_congr (ho : h'.object? x = h.object? x) : h'.node x = h.node x := by
  rw [Heap.node, Heap.node, get_congr ho]

lemma outputValue_congr {p : PortRef} (ho : h'.object? p.node = h.object? p.node) :
    h'.outputValue p = h.outputValue p := by
  unfold outputValue outputPort noSuchPort
  rw [node_congr ho]

/-- The value of an input depends on the node and on the node that it comes from. -/
lemma inputValue_congr {p : PortRef} (ho : h'.object? p.node = h.object? p.node)
    (hs : ∀ source ∈ h.sourcesOf p.node, h'.object? source.node = h.object? source.node) :
    h'.inputValue p = h.inputValue p := by
  unfold inputValue inputPort noSuchPort
  rw [node_congr ho]
  cases hn : h.node p.node with
  | error e => rfl
  | ok n =>
    have hobj := node_eq_ok.mp hn
    simp only [Bind.bind, Except.bind]
    cases hport : n.inputs[p.index.toNat]? with
    | none => rfl
    | some port =>
      simp only [pure, Except.pure]
      cases hsource : port.source with
      | none => rfl
      | some source =>
        refine outputValue_congr (hs source ?_)
        rw [sourcesOf, hobj]
        exact List.mem_filterMap.mpr ⟨port, by simpa using Array.mem_of_getElem? hport, hsource⟩

/-- What a tick of a node comes to does not change when a node ticks that is none of its sources. -/
lemma TickedAt.tickOf (hk : TickedAt y h h') (hne : x ≠ y)
    (hown : ∀ n kernel, h.object? x = some (.node n) → n.kernel = some kernel →
      kernel.ReadsOwn host)
    (hs : ∀ source ∈ h.sourcesOf x, source.node ≠ y) :
    h'.tickOf host x = h.tickOf host x := by
  have hx := hk.object x hne
  have hin : h'.inputValues x = h.inputValues x := by
    unfold inputValues
    have hvalue : ∀ i, h'.inputValue ⟨x, Node.portIndex i⟩ = h.inputValue ⟨x, Node.portIndex i⟩ :=
      fun i => inputValue_congr hx fun source hsource => hk.object _ (hs source hsource)
    simp only [hvalue, node_congr hx]
  have hidle : h'.idleKernel x = h.idleKernel x := by rw [idleKernel, node_congr hx, idleKernel]
  unfold Heap.tickOf
  rw [hin, hidle, node_congr hx]
  refine bind_congr fun inputs => ?_
  cases hkernel : h.idleKernel x with
  | error e => rfl
  | ok kernel =>
    obtain ⟨n, hn, hkn⟩ := idleKernel_eq_ok.mp hkernel
    have hrun := (hk.busy hne).run (hown n kernel hn hkn) n.busy inputs
    simp only [Bind.bind, Except.bind, node_eq_ok.mpr hn, Node.tick, hrun]

lemma tickOf_leaves (hne : x ≠ y)
    (hown : ∀ n kernel, h.object? x = some (.node n) → n.kernel = some kernel →
      kernel.ReadsOwn host)
    (hs : ∀ source ∈ h.sourcesOf x, source.node ≠ y) :
    ((tickNode host y).leaves h).tickOf host x = h.tickOf host x := by
  rw [leaves_tickNode]
  cases hy : h.tickOf host y with
  | error e => rfl
  | ok t => exact (tickedAt_put hy).tickOf hne hown hs

/-! ## Two ticks -/

lemma resetAge_putNode : (h.putNode x n).resetAge y = (h.resetAge y).putNode x n :=
  modifyEntry_comm fun _ _ => rfl

lemma release_putNode {v : Value} : (h.putNode x n).release v = (h.release v).putNode x n := by
  unfold release
  cases v.referent with
  | none => rfl
  | some y => exact resetAge_putNode

lemma release_comm {v w : Value} : (h.release v).release w = (h.release w).release v := by
  unfold release
  cases v.referent with
  | none => rfl
  | some x =>
    cases w.referent with
    | none => rfl
    | some y => exact modifyEntry_comm fun _ _ => rfl

lemma releaseAll_putNode (olds : List Value) (h : Heap H) :
    olds.foldl release (h.putNode x n) = (olds.foldl release h).putNode x n :=
  List.foldl_hom (fun h : Heap H => h.putNode x n) fun _ _ => release_putNode

lemma releaseAll_comm (olds olds' : List Value) (h : Heap H) :
    olds'.foldl release (olds.foldl release h) = olds.foldl release (olds'.foldl release h) := by
  induction olds generalizing h with
  | nil => rfl
  | cons v rest ih =>
    have hfirst : olds'.foldl release (h.release v) = (olds'.foldl release h).release v :=
      List.foldl_hom (fun h : Heap H => h.release v) fun _ _ => release_comm
    rw [List.foldl_cons, List.foldl_cons, ih, hfirst]

/-- The changes of two ticks can be made in either order. -/
lemma put_comm (hne : a ≠ b) : (h.put a t).put b u = (h.put b u).put a t := by
  have hnodes : (h.putNode a t.node).putNode b u.node = (h.putNode b u.node).putNode a t.node :=
    modifyEntry_comm fun hba => absurd hba.symm hne
  -- both nodes are put first, and then the ages are set back
  unfold put
  rw [← releaseAll_putNode, ← releaseAll_putNode, releaseAll_comm, hnodes]

/-- Independent nodes tick in any order. If neither of two nodes has an input from the other, and
their kernels do not look around in the heap, then ticking one after the other makes the same heap
in both orders, and each tick ends as it would without the other. -/
theorem independent_ticks_commute (hne : a ≠ b)
    (ha : ∀ n kernel, h.object? a = some (.node n) → n.kernel = some kernel → kernel.ReadsOwn host)
    (hb : ∀ n kernel, h.object? b = some (.node n) → n.kernel = some kernel → kernel.ReadsOwn host)
    (hab : ∀ source ∈ h.sourcesOf a, source.node ≠ b)
    (hba : ∀ source ∈ h.sourcesOf b, source.node ≠ a) :
    let afterA := (tickNode host a).leaves h
    let afterB := (tickNode host b).leaves h
    (tickNode host b).leaves afterA = (tickNode host a).leaves afterB ∧
      (tickNode host a).ending afterB = (tickNode host a).ending h ∧
      (tickNode host b).ending afterA = (tickNode host b).ending h := by
  intro afterA afterB
  have htickA : afterB.tickOf host a = h.tickOf host a := tickOf_leaves hne ha hab
  have htickB : afterA.tickOf host b = h.tickOf host b := tickOf_leaves hne.symm hb hba
  refine ⟨?_, ?_, ?_⟩
  · -- a node that cannot tick changes nothing, so only two changes are left to swap
    rw [leaves_tickNode, leaves_tickNode, htickA, htickB]
    simp only [afterA, afterB, leaves_tickNode]
    cases h.tickOf host a with
    | error _ => rfl
    | ok t =>
      cases h.tickOf host b with
      | error _ => rfl
      | ok u => exact put_comm hne
  · rw [ending_tickNode, ending_tickNode, htickA]
  · rw [ending_tickNode, ending_tickNode, htickB]

/-- No kernel of the stock host looks around. -/
lemma readsOwn_stock (kernel : Kernel Stock.types.Kernel) : kernel.ReadsOwn Stock.kernels := by
  cases kernel with
  | host state => exact fun _ _ _ _ => rfl
  | _ => trivial

/-- An index node at 3 and a counter at 4, both behind a node that sends a sequence. -/
def sharedSource : Heap Stock.types :=
  let seven : Value := .int .int64 (.wrap .int64 7)
  let ops : List (Operation Stock.types) :=
    [.alloc (.sequence #[seven]), .alloc (.node (.constant "items" (.object .sequence ⟨0, 0⟩))),
      .alloc (.node (.constant "place" (.int .int64 (.wrap .int64 0)))),
      .alloc (.node (.index "pick" 1)),
      .alloc (.node (((Node.new "tally" "counter" (.host (Stock.KernelState.counter 0))).withInput
        "in").withOutput "out")),
      .connect ⟨⟨3, 0⟩, 0⟩ ⟨⟨1, 0⟩, 0⟩, .connect ⟨⟨3, 0⟩, 1⟩ ⟨⟨2, 0⟩, 0⟩,
      .connect ⟨⟨4, 0⟩, 0⟩ ⟨⟨1, 0⟩, 0⟩]
  ops.foldl (fun h op => op.after Stock.kernels h) (Heap.new .new 100)

/-- The index node and the counter tick, and both succeed in either order. -/
theorem independent_ticks_commute_shared :
    let a : ObjectId := ⟨3, 0⟩
    let b : ObjectId := ⟨4, 0⟩
    let afterA := (tickNode Stock.kernels a).leaves sharedSource
    let afterB := (tickNode Stock.kernels b).leaves sharedSource
    (tickNode Stock.kernels b).leaves afterA = (tickNode Stock.kernels a).leaves afterB ∧
      (tickNode Stock.kernels a).ending afterB = .ok () ∧
      (tickNode Stock.kernels b).ending afterA = .ok () := by
  intro a b afterA afterB
  have hticks : (tickNode Stock.kernels a).ending sharedSource = .ok () ∧
      (tickNode Stock.kernels b).ending sharedSource = .ok () := by
    decide +kernel
  obtain ⟨hheap, hendA, hendB⟩ := independent_ticks_commute (h := sharedSource) (a := a) (b := b)
    (by decide)
    (fun _ _ _ _ => readsOwn_stock _) (fun _ _ _ _ => readsOwn_stock _) (by decide +kernel)
      (by decide +kernel)
  exact ⟨hheap, hendA.trans hticks.1, hendB.trans hticks.2⟩

end Heap
end Patchbay
