import Patchbay.Proofs.Heap.Independence
import Patchbay.Proofs.Lifting.Growth

/-!
# Ticking operator nodes

A tick of an operator node puts what its kernel computes on its output and changes nothing else that
a sketch or another node shows. It fails if the kernel does. Ticking nodes in a row does one tick
after the other.
-/

namespace Patchbay

variable {H : HostTypes}

/-- Whether a kernel computes an operator of the language. -/
def Kernel.isOperator {K : Type} : Kernel K → Bool
  | .binaryOp | .unaryOp | .index | .cast => true
  | .constant | .host _ => false

lemma Kernel.run_operator {host : KernelHost H} {kernel : Kernel H.Kernel}
    (hop : kernel.isOperator = true) {h : Heap H} {n : Node H} {inputs : Array Value} :
    kernel.run host h n inputs = (List.toArray <$> kernel.compute h n inputs.toList, kernel) := by
  cases kernel with
  | host state => cases hop
  | _ => rfl

/-- Whether the kernel of a node computes an operator of the language. -/
def Node.isOperator (n : Node H) : Bool := n.kernel.any Kernel.isOperator

namespace Heap

variable {h h' h'' : Heap H} {id x : ObjectId} {n : Node H} {i : Nat} {w : Value}
  {inputs : Array Value} {host : KernelHost H} {moved : ObjectId → Prop}

/-- Whether a handle leads to an operator node. -/
def isOperator (h : Heap H) (id : ObjectId) : Bool :=
  match h.object? id with
  | some (.node n) => n.isOperator
  | _ => false

lemma isOperator_of_node (hn : h.object? id = some (.node n)) :
    h.isOperator id = n.isOperator := by
  unfold isOperator
  rw [hn]

lemma Keeps.isOperator (hk : Keeps moved h h') (hc : h.contains id = true) :
    h'.isOperator id = h.isOperator id := by
  obtain ⟨o, ho⟩ := exists_object? hc
  unfold Heap.isOperator
  cases o with
  | node n =>
    obtain ⟨n', hn', ha⟩ := hk.node ho
    rw [ho, hn']
    simp only [Node.isOperator, ha.kernel]
  | _ => rw [ho, hk.object ho nofun]

/-! ## One tick -/

lemma sentAt_releaseAll (olds : List Value) (h : Heap H) :
    (olds.foldl release h).sentAt x i = h.sentAt x i := by
  unfold sentAt
  rw [object?_releaseAll]

lemma Keeps.releaseAll (hk : Keeps moved h h') (olds : List Value) :
    Keeps moved h (olds.foldl release h') :=
  hk.objects (names_releaseAll olds h') fun _ => object?_releaseAll olds h'

/-- The heap in which an operator node has sent a value. -/
def sending (h : Heap H) (id : ObjectId) (n : Node H) (w : Value) : Heap H :=
  (h.setKernel id n.kernel).setOutput ⟨id, 0⟩ w

lemma object?_sending (hn : h.object? id = some (.node n)) :
    (h.sending id n w).object? x =
      if x = id then
        some (.node { n with outputs := n.outputs.modify 0 fun p => { p with value := some w } })
      else h.object? x := by
  unfold sending setKernel setOutput
  rw [object?_modifyNode, object?_modifyNode]
  by_cases hx : x = id
  · subst hx
    rw [if_pos rfl, if_pos rfl, if_pos rfl, hn]
    rfl
  · rw [if_neg hx, if_neg hx, if_neg hx]

lemma keeps_sending (hn : h.object? id = some (.node n)) : Keeps (· = id) h (h.sending id n w) where
  names := rfl
  sketch x o ho := by
    rw [← ho]
    unfold sketch?
    rw [object?_sending hn]
    split
    · next hx =>
      rw [hx, hn]
      exact congrArg some (sketch_outputs fun _ => rfl)
    · rfl
  sent x _ hx i := by
    unfold sentAt
    rw [object?_sending hn, if_neg hx]

lemma sentAt_sending (hn : h.object? id = some (.node n)) (hout : n.outputs.size = 1) :
    (h.sending id n w).sentAt id 0 = some w := by
  unfold sentAt
  rw [object?_sending hn, if_pos rfl]
  simp [HeapObject.sentAt, hout, Array.getElem_modify]

lemma storeOutputs_single {p : OutputPort} (hp : h.outputPort ⟨id, 0⟩ = .ok p) :
    h.storeOutputs id [w] = (p.value.toList, h.setOutput ⟨id, 0⟩ w) := by
  have hindex : Node.portIndex 0 = 0 := rfl
  simp [storeOutputs, hindex, hp]

/-- A node of one output sends what its kernel computes. -/
lemma ends_tickNode_ok {kernel : Kernel H.Kernel} (hn : h.object? id = some (.node n))
    (hk : n.kernel = some kernel) (hop : kernel.isOperator = true) (hout : n.outputs.size = 1)
    (hin : h.inputValues id = .ok inputs) (hc : kernel.compute h n inputs.toList = .ok [w]) :
    (tickNode host id).Ends h (fun _ h' => Keeps (· = id) h h' ∧ h'.sentAt id 0 = some w)
      fun _ _ => False := by
  refine ends_tickNode (fun e he => ?_) (fun e inputs' _ he => ?_)
    fun inputs' n' kernel' result after hin' hn' hk' hrun => ?_
  · rw [hin] at he
    cases he
  · rw [idleKernel_eq_ok.mpr ⟨n, hn, hk⟩] at he
    cases he
  · cases hin.symm.trans hin'
    cases hn.symm.trans hn'
    cases hk.symm.trans hk'
    -- the tick is that of an operator: it computes one value and has no state
    rw [Kernel.run_operator hop, compute_busy hn, hc] at hrun
    cases hrun
    refine HeapM.ends_read_bind (fun vs hvs => ?_) fun e he => by cases he
    cases hvs
    unfold publish
    rw [if_neg (by simp [Node.busy, hout])]
    obtain ⟨p, hp⟩ : ∃ p, (h.setKernel id (some kernel)).outputPort ⟨id, 0⟩ = .ok p := by
      refine ⟨n.outputs[0], outputPort_eq_ok.mpr ⟨{ n with kernel := some kernel }, ?_,
        Array.getElem?_eq_getElem _⟩⟩
      rw [setKernel, object?_modifyNode, if_pos rfl, hn]
      rfl
    have hstore := storeOutputs_single (w := w) hp
    refine HeapM.ends_change.mpr ?_
    rw [hstore, ← hk]
    exact ⟨(keeps_sending hn).releaseAll _, by rw [sentAt_releaseAll]; exact sentAt_sending hn hout⟩

/-- A tick fails if the kernel does. -/
lemma ends_tickNode_error {kernel : Kernel H.Kernel} (hn : h.object? id = some (.node n))
    (hk : n.kernel = some kernel) (hop : kernel.isOperator = true)
    (hin : h.inputValues id = .ok inputs)
    {e : EvalError} (hc : kernel.compute h n inputs.toList = .error e) :
    (tickNode host id).Ends h (fun _ _ => False) fun _ _ => True := by
  refine ends_tickNode (fun _ _ => trivial) (fun _ _ _ _ => trivial)
    fun inputs' n' kernel' result after hin' hn' hk' hrun => ?_
  cases hin.symm.trans hin'
  cases hn.symm.trans hn'
  cases hk.symm.trans hk'
  rw [Kernel.run_operator hop, compute_busy hn, hc] at hrun
  cases hrun
  exact HeapM.ends_read_bind (fun vs hvs => by cases hvs) fun _ _ => trivial

/-! ## Ticks in a row -/

/-- Tick nodes in order. -/
def tickAll (host : KernelHost H) : List ObjectId → HeapM H Unit
  | [] => return ()
  | id :: rest => do
    tickNode host id
    tickAll host rest

lemma tickAll_append (first second : List ObjectId) :
    tickAll host (first ++ second) = (do tickAll host first; tickAll host second) := by
  induction first with
  | nil => rfl
  | cons id rest ih =>
    rw [List.cons_append, tickAll, tickAll, ih, bind_assoc]

lemma tickAll_single : tickAll host [id] = tickNode host id := by
  rw [tickAll, tickAll]
  exact bind_pure_unit

/-! ## The values of inputs -/

/-- Handles tell ports apart up to the last position that they can have. -/
lemma toNat_portIndex_of_lt {i : Nat} (hi : i < UInt16.size) : (Node.portIndex i).toNat = i := by
  unfold Node.portIndex Node.portIndex?
  rw [if_pos hi, Option.getD_some]
  exact UInt16.toNat_ofNat_of_lt hi

/-- The inputs of a node are read one after the other. -/
lemma inputValues_eq (hn : h.object? id = some (.node n)) :
    h.inputValues id =
      List.toArray <$> (List.range n.inputs.size).mapM fun i =>
        h.inputValue ⟨id, Node.portIndex i⟩ := by
  unfold inputValues
  rw [node_eq_ok.mpr hn, ← Array.toList_range, ← Array.mapM_eq_mapM_toList]
  rfl

/-- The inputs of a node with as many ports as handles can tell apart. -/
lemma inputValues_eq_ok {ws : List Value} (hn : h.object? id = some (.node n))
    (hsize : n.inputs.size = ws.length) (hlimit : ws.length ≤ UInt16.size)
    (hin : ∀ i w, ws[i]? = some w → ∃ p, h.sourceAt id i = some p ∧ h.outputValue p = .ok w) :
    h.inputValues id = .ok ws.toArray := by
  rw [inputValues_eq hn, map_eq_ok]
  refine ⟨ws, mapM_eq_ok.mpr (List.forall₂_iff_get.mpr ⟨by rw [List.length_range, hsize], ?_⟩), rfl⟩
  intro i hi hi'
  obtain ⟨p, hp, hv⟩ := hin i ws[i] (List.getElem?_eq_getElem hi')
  refine inputValue_eq_ok.mpr ⟨p, ?_, hv⟩
  have hindex : (Node.portIndex i).toNat = i := toNat_portIndex_of_lt (by omega)
  simpa [hindex] using hp

end Heap
end Patchbay
