import Patchbay.Host.Stock
import Patchbay.Proofs.Heap.Operation

/-!
# Failing operations

An operation on the heap that fails has not happened: all its checks come before its first write,
but for the kernel that a tick takes out of its node, and that one is put back however the run goes.
Two things are not taken back. A name that was looked for stays among the names of the heap, and a
kernel of the host keeps the state that it reached when it ran.
-/

namespace Patchbay

variable {H : HostTypes} {α β : Type}

namespace HeapM

variable {m : HeapM H α} {h : Heap H} {look : Heap H → Except EvalError α} {k : α → HeapM H β}

/-- If the operation fails on this heap, it leaves the heap as it was. -/
def Atomic (m : HeapM H α) (h : Heap H) : Prop := m.Ends h (fun _ _ => True) fun _ h' => h' = h

lemma atomic_fail {c : Cause} : Atomic (fail c : HeapM H α) h := rfl

lemma atomic_change {g : Heap H → Heap H} : Atomic (change g) h := trivial

lemma atomic_read : Atomic (read look) h := ends_read.mpr ⟨fun _ _ => trivial, fun _ _ => rfl⟩

/-- Reading comes before writing. -/
lemma atomic_read_bind (hk : ∀ a, look h = .ok a → (k a).Atomic h) : Atomic (read look >>= k) h :=
  ends_read_bind hk fun _ _ => rfl

lemma atomic_check_bind {next : HeapM H β} (hn : ∀ a, look h = .ok a → next.Atomic h) :
    Atomic (do Functor.discard (read look); next) h :=
  ends_check_bind hn fun _ _ => rfl

lemma Atomic.discard (hm : m.Atomic h) : Atomic (Functor.discard m) h := Ends.discard hm

end HeapM

namespace Heap

variable {h h' : Heap H} {id : ObjectId} {name : Name} {v : Value} {host : KernelHost H}
  {e : EvalError} {op : Operation H}

open HeapM

/-! ## Containers -/

lemma atomic_define : (define id name v).Atomic h := by
  refine atomic_read_bind fun f _ => ?_
  split
  · exact atomic_change
  · exact atomic_read

/-- Overwriting a binding that is not there does not change the heap either. -/
lemma ends_assign_unchanged :
    (assign id name v).Ends h (fun found h' => found = false → h' = h) fun _ h' => h' = h := by
  refine ends_read_bind (fun f _ => ?_) fun _ _ => rfl
  split
  · exact nofun
  · exact fun _ => rfl

lemma atomic_assign : (assign id name v).Atomic h :=
  ends_assign_unchanged.mono (fun _ _ _ => trivial) fun _ _ heq => heq

lemma atomic_bind : (bind id name v).Atomic h := by
  -- binding assigns first and defines only if there was nothing to assign to
  refine ends_assign_unchanged.bind fun found h' hfound => ?_
  cases found with
  | true => exact trivial
  | false =>
    rw [hfound rfl]
    exact atomic_define

lemma atomic_pushElement : (pushElement id v).Atomic h := atomic_check_bind fun _ _ => atomic_change

lemma atomic_setRef : (setRef id v).Atomic h := atomic_read_bind fun _ _ => atomic_change

/-! ## Nodes -/

lemma atomic_setParam {param : PortRef} : (setParam host param v).Atomic h := by
  refine atomic_read_bind fun n _ => ?_
  split
  · exact atomic_read
  · exact atomic_read_bind fun _ _ => atomic_change

lemma atomic_setParamNamed {port : String} : (setParamNamed host id port v).Atomic h := by
  refine atomic_read_bind fun n _ => ?_
  split
  · exact atomic_setParam
  · exact atomic_fail

lemma atomic_connect {input output : PortRef} : (connect (H := H) input output).Atomic h :=
  ends_connect.mono (fun _ _ _ => trivial) fun _ _ he => he.1

lemma atomic_disconnect {input : PortRef} : (disconnect (H := H) input).Atomic h :=
  ends_disconnect.mono (fun _ _ _ => trivial) fun _ _ he => he.1

/-! ## Any operation -/

/-- The heap with the private state of a host kernel replaced. -/
def withState (h : Heap H) (id : ObjectId) (state : H.Kernel) : Heap H :=
  h.setKernel id (some (.host state))

/-- What a failing operation leaves of a heap: nothing has changed, apart from the names or the
private state of the kernel that ran. -/
inductive Remains (host : KernelHost H) : Operation H → Heap H → Heap H → Prop where
  | unchanged {op : Operation H} {h : Heap H} : Remains host op h h
  | named (frame : ObjectId) (key : String) (v : Value) (h : Heap H) :
      Remains host (.setIndex (.frame frame) [.text key] v) h
        { h with names := (h.names.intern key).2 }
  | ran {id : ObjectId} {h : Heap H} {n : Node H} {inputs : Array Value} {state : H.Kernel} :
      h.object? id = some (.node n) → n.kernel = some (.host state) →
      h.inputValues id = .ok inputs →
      Remains host (.tick id) h (h.withState id (host.tick state (h.busy id) n.busy inputs).2)

lemma ends_remains_of_atomic {m : HeapM H Unit} (hm : m.Atomic h) :
    m.Ends h (fun _ _ => True) fun _ h' => Remains host op h h' :=
  hm.mono (fun _ _ _ => trivial) fun _ _ he => he ▸ .unchanged

lemma ends_setIndex_remains {target : Value} {indices : List Value} :
    (setIndex target indices v).Ends h (fun _ _ => True) fun _ h' =>
      Remains host (.setIndex target indices v) h h' := by
  refine ends_setIndex (by intros; trivial) (by intros; trivial)
    (fun frame key htarget hindices => ?_)
    (fun _ _ _ => ends_remains_of_atomic atomic_setRef) fun _ _ => .unchanged
  -- the name is interned before it is known that the frame can be written to
  subst htarget hindices
  exact atomic_bind.mono (fun _ _ _ => trivial) fun _ _ he => he ▸ .named frame key v h

/-- Putting back the kernel that a node has is no change. -/
lemma setKernel_eq_self {n : Node H} (hn : h.object? id = some (.node n)) :
    h.setKernel id n.kernel = h := by
  refine modifyEntry_eq_self fun e he => ?_
  have hobj : e.object = .node n := by simpa [object?, he] using hn
  obtain ⟨object, age, pins⟩ := e
  subst hobj
  rfl

/-- A kernel of the language has no state. -/
lemma run_language {kernel : Kernel H.Kernel} (hk : ∀ state, kernel ≠ .host state) {n : Node H}
    {inputs : Array Value} : (kernel.run host h n inputs).2 = kernel := by
  cases kernel with
  | host state => exact (hk state rfl).elim
  | _ => rfl

/-- Only a kernel of the host is different when it is put back. -/
lemma remains_restored {n : Node H} {kernel kernel' : Kernel H.Kernel} {inputs : Array Value}
    {result : Except EvalError (Array Value)} (hin : h.inputValues id = .ok inputs)
    (hn : h.object? id = some (.node n)) (hk : n.kernel = some kernel)
    (hrun : kernel.run host (h.busy id) n.busy inputs = (result, kernel')) :
    Remains host (.tick id) h (h.setKernel id (some kernel')) := by
  by_cases hhost : ∃ state, kernel = .host state
  · obtain ⟨state, rfl⟩ := hhost
    cases hrun
    exact .ran hn hk hin
  · -- any other kernel has no state, so the node is as it was before
    obtain rfl : kernel = kernel' := by
      rw [← run_language (not_exists.mp hhost), hrun]
    rw [← hk, setKernel_eq_self hn]
    exact .unchanged

lemma ends_tickNode_remains :
    (tickNode host id).Ends h (fun _ _ => True) fun _ h' => Remains host (.tick id) h h' := by
  refine ends_tickNode (fun _ _ => .unchanged) (fun _ _ _ _ => .unchanged)
    fun inputs n kernel result kernel' hin hn hk hrun => ?_
  have hran : Remains host (.tick id) h (h.setKernel id (some kernel')) :=
    remains_restored hin hn hk hrun
  refine ends_read_bind (fun values _ => ?_) fun _ _ => hran
  -- the kernel may have sent the wrong number of values, and nothing is on the outputs yet
  unfold publish
  split
  · exact hran
  · exact trivial

/-- Whichever operation fails, the heap remains. -/
lemma ends_remains : (op.run host).Ends h (fun _ _ => True) fun _ h' => Remains host op h h' := by
  cases op with
  | alloc o => exact ends_remains_of_atomic trivial
  | remove id =>
    exact .discard (ends_remove.mono (fun _ _ _ => trivial) fun _ _ he => he.1 ▸ .unchanged)
  | define frame name value => exact ends_remains_of_atomic atomic_define
  | assign frame name value => exact ends_remains_of_atomic atomic_assign.discard
  | bind frame name value => exact ends_remains_of_atomic atomic_bind
  | pushElement sequence value => exact ends_remains_of_atomic atomic_pushElement
  | setRef cell value => exact ends_remains_of_atomic atomic_setRef
  | setIndex target indices value => exact ends_setIndex_remains
  | connect input output => exact ends_remains_of_atomic atomic_connect
  | disconnect input => exact ends_remains_of_atomic atomic_disconnect
  | setParam param value => exact ends_remains_of_atomic atomic_setParam
  | setParamNamed node name value => exact ends_remains_of_atomic atomic_setParamNamed
  | tick node => exact ends_tickNode_remains
  | pin id => exact ends_pin.mono (fun _ _ _ => trivial) fun _ _ he => he.1 ▸ .unchanged
  | unpin id => exact ends_remains_of_atomic trivial
  | collect bound extra => exact ends_remains_of_atomic trivial
  | intern s => exact ends_remains_of_atomic trivial

/-- A failing operation changes nothing: every object with its contents, wires, age and pins is as
it was before, and so are the slots and all counters. Only a looked for name and the private state
of a kernel that ran stay behind. -/
theorem failing_operation_changes_nothing (hrun : op.run host h = .error e h') :
    Remains host op h h' := by
  have hends : (op.run host).Ends h (fun _ _ => True) fun _ h' => Remains host op h h' :=
    ends_remains
  exact hends.of_error hrun

/-- A counter that has no output counts its ticks all the same, and keeps the count. -/
theorem failing_operation_changes_nothing_counter :
    let h :=
  (Operation.alloc (.node (.new "tally" "counter" (.host (Stock.KernelState.counter 0))))).after
      Stock.kernels (Heap.new .new 100)
    let h' := h.withState ⟨0, 0⟩ (Stock.KernelState.counter 1)
    (∃ e, (Operation.tick ⟨0, 0⟩).run Stock.kernels h = .error e h') ∧
      Remains Stock.kernels (.tick ⟨0, 0⟩) h h' := by
  intro h h'
  have hin : h.inputValues ⟨0, 0⟩ = .ok #[] := by decide +kernel
  obtain ⟨e, he⟩ : ∃ e, (Operation.tick ⟨0, 0⟩).run Stock.kernels h = .error e h' :=
    ⟨_, read_bind_of_ok hin⟩
  exact ⟨⟨e, he⟩, failing_operation_changes_nothing he⟩

end Heap
end Patchbay
