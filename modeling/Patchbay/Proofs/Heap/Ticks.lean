import Patchbay.Proofs.Heap.Independence
import Patchbay.Proofs.Lifting.Ticking

/-!
# What a tick pulls and sends

A tick that succeeds has pulled a value at every input, and has put the results of the kernel on the
outputs in the order of the ports. This holds of nodes with as many ports as handles can tell apart.
The position of a port in a handle has 16 bits, and later ports are taken for the last one that a
handle can name: a tick pulls that port once more in their place, and puts their results there.
-/

namespace Patchbay

variable {H : HostTypes} {h h' : Heap H} {id : ObjectId} {n : Node H} {host : KernelHost H}
  {kernel : Kernel H.Kernel} {inputs : Array Value} {values : List Value} {v : Value} {i : Nat}

/-! ## Pulling -/

namespace Heap

/-- An input is connected to an output that has sent the value. -/
def Delivers (h : Heap H) (p : InputPort) (v : Value) : Prop :=
  ∃ source, p.source = some source ∧ h.outputValue source = .ok v

/-- Every input of the node is delivered a value, and these are the values, in the order of the
ports. -/
structure Pulls (h : Heap H) (n : Node H) (inputs : Array Value) : Prop where
  size : inputs.size = n.inputs.size
  delivered : ∀ (i : Nat) p v, n.inputs[i]? = some p → inputs[i]? = some v → h.Delivers p v

lemma inputValue_eq_ok_iff (hn : h.object? id = some (.node n)) (hi : i < UInt16.size)
    {p : InputPort} (hp : n.inputs[i]? = some p) :
    h.inputValue ⟨id, Node.portIndex i⟩ = .ok v ↔ h.Delivers p v := by
  rw [inputValue_eq_ok]
  simp [sourceAt, hn, HeapObject.sourceAt, toNat_portIndex_of_lt hi, hp, Delivers]

/-- The inputs of a node come to what they are delivered, as long as handles tell them apart. -/
lemma inputValues_eq_ok_iff (hn : h.object? id = some (.node n))
    (hin : n.inputs.size ≤ UInt16.size) : h.inputValues id = .ok inputs ↔ h.Pulls n inputs := by
  rw [inputValues_eq hn, map_eq_ok]
  constructor
  · rintro ⟨values, hr, rfl⟩
    obtain ⟨hlength, hget⟩ := List.forall₂_iff_get.mp (mapM_eq_ok.mp hr)
    rw [List.length_range] at hlength
    refine ⟨by simp [hlength], fun i p v hp hv => ?_⟩
    rw [List.getElem?_toArray] at hv
    obtain ⟨hi, rfl⟩ := List.getElem?_eq_some_iff.mp hv
    have hvalue := hget i (by rw [List.length_range]; omega) hi
    rw [List.get_eq_getElem, List.getElem_range] at hvalue
    exact (inputValue_eq_ok_iff hn (by omega) hp).mp hvalue
  · intro hp
    refine ⟨inputs.toList, mapM_eq_ok.mpr (List.forall₂_iff_get.mpr ⟨by simp [hp.size], ?_⟩), rfl⟩
    intro i hi hi'
    rw [List.length_range] at hi
    rw [List.get_eq_getElem, List.getElem_range]
    exact (inputValue_eq_ok_iff hn (by omega) (Array.getElem?_eq_getElem hi)).mpr
      (hp.delivered i _ _ (Array.getElem?_eq_getElem hi) (by simp))

end Heap

/-! ## Sending -/

namespace Node

/-- The last value is sent after the others. -/
lemma send_append : (n.send (values ++ [v])).2 =
    (n.send values).2.emit (portIndex values.length).toNat v := by
  unfold send
  rw [List.length_append, List.length_singleton, List.range_succ,
    List.zip_append (by rw [List.length_range]), List.foldl_append]
  generalize ((List.range values.length).zip values).foldl _ _ = sent
  obtain ⟨olds, n'⟩ := sent
  simp only [List.zip_cons_cons, List.zip_nil_right, List.foldl_cons, List.foldl_nil]
  split
  · rfl
  · next hnone =>
    -- there is no such output, so that sending to it changes nothing
    have hsame : n'.outputs.modify (portIndex values.length).toNat
        (fun p => { p with value := some v }) = n'.outputs := by
      refine Array.ext_getElem? fun k => ?_
      rw [Array.getElem?_modify]
      split
      · next hk => rw [← hk, hnone, Option.map_none]
      · rfl
    rw [emit, hsame]

/-- Values reach the outputs at their positions, as long as handles tell those apart. -/
lemma send_eq (hvalues : values.length ≤ UInt16.size) :
    (n.send values).2 =
      { n with
        outputs := n.outputs.mapIdx fun k p => { p with value := values[k]?.or p.value } } := by
  induction values using List.reverseRecOn with
  | nil =>
    have hsame : (n.outputs.mapIdx fun k p =>
        { p with value := ([] : List Value)[k]?.or p.value }) = n.outputs := by
      refine Array.ext_getElem? fun k => ?_
      rw [Array.getElem?_mapIdx]
      exact Option.map_id'
    rw [hsame]
    rfl
  | append_singleton values v ih =>
    rw [List.length_append, List.length_singleton] at hvalues
    rw [send_append, ih (by omega), emit, Heap.toNat_portIndex_of_lt (by omega)]
    congr 1
    refine Array.ext_getElem? fun k => ?_
    rw [Array.getElem?_modify, Array.getElem?_mapIdx, Array.getElem?_mapIdx]
    -- port `k` has its value already, gets it now, or gets none
    rcases Nat.lt_trichotomy k values.length with hk | rfl | hk
    · rw [if_neg hk.ne', List.getElem?_append_left hk]
    · simp
    · have hlast : (values ++ [v])[k]? = none := List.getElem?_eq_none (by simp; omega)
      rw [if_neg hk.ne, List.getElem?_eq_none hk.le, hlast]

/-- If there are more values than handles tell apart, the last of them ends up on the last output
that a handle can name. -/
lemma value_send_last (hlimit : UInt16.size < values.length) (hout : UInt16.size ≤ n.outputs.size) :
    (n.send values).2.outputs[UInt16.size - 1]?.bind OutputPort.value = values.getLast? := by
  obtain rfl | ⟨before, v, rfl⟩ := List.eq_nil_or_concat' values
  · simp at hlimit
  · rw [List.length_append, List.length_singleton] at hlimit
    have hindex : (portIndex before.length).toNat = UInt16.size - 1 := by
      rw [portIndex, portIndex?, if_neg (by omega)]
      rfl
    have hlast : UInt16.size - 1 < (n.send before).2.outputs.size := by
      rw [(ticked_send (n := n)).size_outputs]
      exact Nat.lt_of_lt_of_le (by decide) hout
    rw [send_append, hindex, emit, Array.getElem?_modify, if_pos rfl,
      Array.getElem?_eq_getElem hlast, List.getLast?_concat]
    rfl

/-- What a tick comes to if the kernel has one value for every output. -/
lemma tick_of_ok {values : Array Value} (hrun : (kernel.run host h n inputs).1 = .ok values)
    (hsize : values.size = n.outputs.size) :
    n.tick host h kernel inputs =
      let sent := { n with kernel := some (kernel.run host h n inputs).2 }.send values.toList
      ⟨.ok (), sent.2, sent.1⟩ := by
  unfold tick
  dsimp only
  rw [hrun]
  dsimp only
  rw [if_neg (by simp [hsize])]

lemma tick_result_eq_ok : (n.tick host h kernel inputs).result = .ok () ↔
    ∃ values, (kernel.run host h n inputs).1 = .ok values ∧ values.size = n.outputs.size := by
  constructor
  · intro hok
    unfold tick at hok
    dsimp only at hok
    split at hok
    · cases hok
    · next values hrun =>
      refine ⟨values, hrun, ?_⟩
      by_contra hsize
      rw [if_pos hsize] at hok
      cases hok
  · rintro ⟨values, hrun, hsize⟩
    rw [tick_of_ok hrun hsize]

end Node

/-! ## Whole ticks -/

namespace Heap

lemma tickOf_of_error {e : EvalError} (hin : h.inputValues id = .error e) :
    h.tickOf host id = .error e := by
  rw [tickOf, hin]
  rfl

/-- A tick that fails before the kernel runs does nothing. -/
lemma tickNode_of_tickOf {e : EvalError} (ht : h.tickOf host id = .error e) :
    tickNode host id h = .error e h := by
  rcases (ends_tickNode_of_error ht).ok_or_error with ⟨_, _, -, hfalse⟩ | ⟨_, _, hrun, rfl, rfl⟩
  · exact hfalse.elim
  · exact hrun

/-- So does one that fails to read the inputs. -/
lemma tickNode_of_error {e : EvalError} (hin : h.inputValues id = .error e) :
    tickNode host id h = .error e h := tickNode_of_tickOf (tickOf_of_error hin)

/-- A tick succeeds if the inputs can be read, the kernel is there and it has one value for every
output. -/
lemma tickNode_eq_ok_iff (hn : h.object? id = some (.node n)) :
    tickNode host id h = .ok () h' ↔
      ∃ kernel inputs values, n.kernel = some kernel ∧ h.inputValues id = .ok inputs ∧
        (kernel.run host (h.busy id) n.busy inputs).1 = .ok values ∧ values.size = n.outputs.size ∧
        h' = h.put id (n.busy.tick host (h.busy id) kernel inputs) := by
  constructor
  · intro hrun
    cases ht : h.tickOf host id with
    | error e => exact ((ends_tickNode_of_error ht).of_ok hrun).elim
    | ok t =>
      obtain ⟨hok, rfl⟩ := (ends_tickNode_of_ok ht).of_ok hrun
      obtain ⟨inputs, hin, ht⟩ := bind_eq_ok.mp ht
      obtain ⟨kernel, hkernel, ht⟩ := bind_eq_ok.mp ht
      obtain ⟨n', hn', hk⟩ := idleKernel_eq_ok.mp hkernel
      cases hn.symm.trans hn'
      rw [node_eq_ok.mpr hn] at ht
      cases ht
      obtain ⟨values, hvalues, hsize⟩ := Node.tick_result_eq_ok.mp hok
      exact ⟨kernel, inputs, values, hk, hin, hvalues, hsize, rfl⟩
  · rintro ⟨kernel, inputs, values, hk, hin, hvalues, hsize, rfl⟩
    have hok : (n.busy.tick host (h.busy id) kernel inputs).result = .ok () :=
      Node.tick_result_eq_ok.mpr ⟨values, hvalues, hsize⟩
    rcases (ends_tickNode_of_ok (tickOf_of_ok hin hn hk)).ok_or_error with
      ⟨_, _, hrun, -, rfl⟩ | ⟨e, _, -, he, -⟩
    · exact hrun
    · rw [hok] at he
      cases he

/-- A node that is ticking already does not tick. -/
lemma tickNode_of_taken (hn : h.object? id = some (.node n)) (hk : n.kernel = none)
    (hin : h.inputValues id = .ok inputs) :
    tickNode host id h =
      (fail (.custom ("node " ++ id.display ++ " is already ticking")) : HeapM H Unit) h := by
  have hidle : h.idleKernel id = fail
      (.custom ("node " ++ id.display ++ " is already ticking")) := by
    rw [idleKernel, node_eq_ok.mpr hn]
    simp only [Bind.bind, Except.bind, hk]
  refine tickNode_of_tickOf ?_
  rw [tickOf, hin, hidle]
  rfl

lemma object?_put (hc : h.contains id = true) {t : Tick H} :
    (h.put id t).object? id = some (.node t.node) := by
  rw [put, object?_releaseAll, object?_putNode_self hc]

/-- What a complete tick of a node is: every input was delivered a value, the kernel ran on these
values while it was taken out, it had one value for every output, each of which is on its output
now, the kernel is back in its node, and no other object is different. -/
structure CompleteTick (host : KernelHost H) (h : Heap H) (id : ObjectId) (n : Node H)
    (kernel : Kernel H.Kernel) (inputs values : Array Value) (h' : Heap H) : Prop where
  pulled : h.Pulls n inputs
  taken : n.kernel = some kernel
  ran : (kernel.run host (h.busy id) n.busy inputs).1 = .ok values
  fits : values.size = n.outputs.size
  node : h'.object? id = some (.node { n with
    kernel := some (kernel.run host (h.busy id) n.busy inputs).2
    outputs := n.outputs.mapIdx fun k p => { p with value := values[k]? } })
  others : ∀ x, x ≠ id → h'.object? x = h.object? x

lemma CompleteTick.sentAt {values : Array Value}
    (hc : CompleteTick host h id n kernel inputs values h')
    (hi : i < n.outputs.size) : h'.sentAt id i = values[i]? := by
  rw [Heap.sentAt, hc.node, Option.bind_some, HeapObject.sentAt, Array.getElem?_mapIdx,
    Array.getElem?_eq_getElem hi]
  rfl

/-- A tick that succeeds is complete, and a tick fails before the kernel runs, and does nothing, if
one of the inputs is not connected or connected to an output that has not sent a value. Handles must
be able to tell the ports of the node apart. -/
theorem tick_complete (hn : h.object? id = some (.node n)) (hin : n.inputs.size ≤ UInt16.size)
    (hout : n.outputs.size ≤ UInt16.size) :
    (∀ h', tickNode host id h = .ok () h' →
        ∃ kernel inputs values, CompleteTick host h id n kernel inputs values h') ∧
      ((∃ p ∈ n.inputs, ∀ v, ¬ h.Delivers p v) →
        ∃ e, h.inputValues id = .error e ∧ ∀ host, tickNode host id h = .error e h) := by
  constructor
  · intro h' hrun
    obtain ⟨kernel, inputs, values, hk, hinputs, hvalues, hsize, rfl⟩ :=
      (tickNode_eq_ok_iff hn).mp hrun
    refine ⟨kernel, inputs, values, (inputValues_eq_ok_iff hn hin).mp hinputs, hk, hvalues,
      hsize, ?_, (tickedAt_put (tickOf_of_ok hinputs hn hk)).object⟩
    rw [object?_put (contains_of_object? hn), Node.tick_of_ok hvalues hsize]
    dsimp only
    rw [Node.send_eq (by rw [Array.length_toList]; omega)]
    -- there is a value for every output, so that no output keeps the one from before
    have houtputs : (n.outputs.mapIdx fun k p => { p with value := values.toList[k]?.or p.value }) =
        n.outputs.mapIdx fun k p => { p with value := values[k]? } := by
      refine Array.mapIdx_eq_mapIdx_iff.mpr fun k hk => ?_
      rw [Array.getElem?_toList, Array.getElem?_eq_getElem (hsize ▸ hk), Option.some_or]
    simp only [Node.busy, houtputs]
  · rintro ⟨p, hp, hnone⟩
    cases hinputs : h.inputValues id with
    | error e => exact ⟨e, rfl, fun host => tickNode_of_error hinputs⟩
    | ok inputs =>
      obtain ⟨i, hi⟩ := Array.mem_iff_getElem?.mp hp
      have hpulled := (inputValues_eq_ok_iff hn hin).mp hinputs
      obtain ⟨hlt, -⟩ := Array.getElem?_eq_some_iff.mp hi
      have hv := Array.getElem?_eq_getElem (hpulled.size ▸ hlt)
      exact (hnone _ (hpulled.delivered i p _ hi hv)).elim

/-- A node that hands its two values over to itself crosswise. -/
def crossedNode : Node Stock.types where
  name := "cross"
  kind := "pass"
  inputs := #[⟨"a", some ⟨⟨0, 0⟩, 1⟩⟩, ⟨"b", some ⟨⟨0, 0⟩, 0⟩⟩]
  outputs := #[⟨"p", some (.text "one"), #[⟨⟨0, 0⟩, 1⟩]⟩, ⟨"q", some (.text "two"), #[⟨⟨0, 0⟩, 0⟩]⟩]
  params := #[]
  kernel := some (.host .pass)
  library := none

def crossedHeap : Heap Stock.types := ((Heap.new .new 1).alloc (.node crossedNode)).2

/-- The values change places. -/
theorem tick_complete_crossed :
    ∃ h', tickNode Stock.kernels ⟨0, 0⟩ crossedHeap = .ok () h' ∧
      (∃ kernel inputs values,
        CompleteTick Stock.kernels crossedHeap ⟨0, 0⟩ crossedNode kernel inputs values h') ∧
      h'.sentAt ⟨0, 0⟩ 0 = some (.text "two") ∧ h'.sentAt ⟨0, 0⟩ 1 = some (.text "one") := by
  have hn : crossedHeap.object? ⟨0, 0⟩ = some (.node crossedNode) := rfl
  have hinputs : crossedHeap.inputValues ⟨0, 0⟩ = .ok #[.text "two", .text "one"] := by
    rw [inputValues_eq hn]
    rfl
  have hvalues : (Kernel.run Stock.kernels (.host .pass) (crossedHeap.busy ⟨0, 0⟩) crossedNode.busy
      #[.text "two", .text "one"]).1 = .ok #[.text "two", .text "one"] := rfl
  have hrun := (tickNode_eq_ok_iff hn).mpr ⟨_, _, _, rfl, hinputs, hvalues, rfl, rfl⟩
  obtain ⟨hcomplete, -⟩ := tick_complete hn (by decide) (by decide)
  exact ⟨_, hrun, hcomplete _ hrun, rfl, rfl⟩

/-- After a tick of a node with more outputs than handles tell apart, the last value of the kernel
is on the last output that a handle can name. -/
lemma sentAt_last_of_tick {g : Heap H} {values : Array Value} (hc : h.contains id = true)
    (hrun : (kernel.run host g n inputs).1 = .ok values) (hsize : values.size = n.outputs.size)
    (hlimit : UInt16.size < n.outputs.size) :
    (h.put id (n.tick host g kernel inputs)).sentAt id (UInt16.size - 1) =
    values.toList.getLast? := by
  rw [sentAt, object?_put hc, Node.tick_of_ok hrun hsize]
  exact Node.value_send_last (by rw [Array.length_toList]; omega) hlimit.le

/-- Values for one output more than handles tell apart: one for the last output, zero for the
others. -/
def wideValues : List Value := List.replicate UInt16.size (.text "zero") ++ [.text "one"]

def wideNode : Node Stock.types where
  name := "wide"
  kind := "fixed"
  inputs := #[]
  outputs := Array.replicate (UInt16.size + 1) ⟨"", none, #[]⟩
  params := #[]
  kernel := some (.host (.fixed wideValues))
  library := none

def wideHeap : Heap Stock.types := ((Heap.new .new 1).alloc (.node wideNode)).2

/-- A tick of a node with more ports than handles tell apart may succeed without being complete. -/
theorem not_tick_complete_unlimited :
    ¬ ∀ (h h' : Heap Stock.types) id n, h.object? id = some (.node n) →
      tickNode Stock.kernels id h = .ok () h' →
      ∃ kernel inputs values, CompleteTick Stock.kernels h id n kernel inputs values h' := by
  intro hall
  have hn : wideHeap.object? ⟨0, 0⟩ = some (.node wideNode) := rfl
  have hinputs : wideHeap.inputValues ⟨0, 0⟩ = .ok #[] := by
    rw [inputValues_eq hn]
    rfl
  have hvalues : (Kernel.run Stock.kernels (.host (.fixed wideValues)) (wideHeap.busy ⟨0, 0⟩)
      wideNode.busy #[]).1 = .ok wideValues.toArray := rfl
  have houtputs : wideNode.outputs.size = UInt16.size + 1 := Array.size_replicate
  have hsize : wideValues.toArray.size = wideNode.outputs.size := by simp [houtputs, wideValues]
  obtain ⟨kernel, inputs, values, hc⟩ := hall _ _ _ _ hn
    ((tickNode_eq_ok_iff hn).mpr ⟨_, _, _, rfl, hinputs, hvalues, hsize, rfl⟩)
  obtain rfl : .host (.fixed wideValues) = kernel := Option.some.inj hc.taken
  obtain rfl : wideValues.toArray = values := Except.ok.inj hc.ran
  have hlast := sentAt_last_of_tick (n := wideNode.busy) (contains_of_object? hn) hvalues hsize
    (by change UInt16.size < wideNode.outputs.size; omega)
  rw [hc.sentAt (by omega)] at hlast
  simp [wideValues] at hlast

end Heap
end Patchbay
