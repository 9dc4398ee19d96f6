import Patchbay.Proofs.Courses.Discretion
import Patchbay.Proofs.Heap.Extension
import Patchbay.Proofs.Heap.Independence
import Patchbay.Proofs.Heap.Locality

/-!
# Nodes that are fed by their operands

An operator node is fed if each of its inputs is connected to the port of its operand, or to a
constant node that holds the operand and has sent it. What the language and discreet host code do to
a heap leaves the feeding of nodes alone whose handles are not known.
-/

namespace Patchbay

variable {H : HostTypes}

namespace Heap

variable {h h' h'' : Heap H} {x id : ObjectId} {u : Value} {i : Nat} {n : Node H}
  {host : KernelHost H}

/-! ## Constant nodes -/

/-- The node holds one value, and its only output has sent it. -/
def Emits (h : Heap H) (x : ObjectId) (u : Value) : Prop :=
  ∃ n, h.object? x = some (.node n) ∧ n.kernel = some .constant ∧ n.param? "value" = some u ∧
    n.outputs.map OutputPort.value = #[some u]

/-- Whether a node emits a value does not depend on what it is connected to. -/
lemma emits_iff_plain :
    h.Emits x u ↔ ∃ n, h.plain? x = some (HeapObject.node n).unplugged ∧ n.kernel = some .constant ∧
      n.param? "value" = some u ∧ n.outputs.map OutputPort.value = #[some u] := by
  constructor
  · rintro ⟨n, hn, hrest⟩
    exact ⟨n, by rw [plain?, hn, Option.map_some], hrest⟩
  · rintro ⟨n, hn, hkernel, hparam, houtputs⟩
    obtain ⟨o, ho, heq⟩ := Option.map_eq_some_iff.mp hn
    cases o with
    | node m =>
      simp only [HeapObject.unplugged, HeapObject.node.injEq, Node.mk.injEq] at heq
      obtain ⟨-, -, -, hout, hparams, hk, -⟩ := heq
      have hvalues := congrArg (Array.map OutputPort.value) hout
      simp only [Array.map_map] at hvalues
      refine ⟨m, ho, hk.trans hkernel, ?_, Eq.trans hvalues houtputs⟩
      rw [← hparam, Node.param?, Node.param?, hparams]
    | _ => cases heq

lemma Emits.plain (he : h.Emits x u) (hp : h'.plain? x = h.plain? x) : h'.Emits x u := by
  rw [emits_iff_plain] at he ⊢
  rwa [hp]

/-- What a node emits is what its first output has sent, and it has no other output. -/
lemma Emits.sent (he : h.Emits x u) {v : Value} (hv : h.sentAt x i = some v) : i = 0 ∧ v = u := by
  obtain ⟨n, hn, -, -, houtputs⟩ := he
  rw [sentAt, hn, Option.bind_some, HeapObject.sentAt] at hv
  obtain ⟨port, hport, hval⟩ := Option.bind_eq_some_iff.mp hv
  have hget : (n.outputs.map OutputPort.value)[i]? = some (some v) := by
    rw [Array.getElem?_map, hport, Option.map_some, hval]
  rw [houtputs] at hget
  cases i with
  | zero => simpa [eq_comm] using hget
  | succ i => simp at hget

/-- A constant node sends its value again when it ticks. -/
lemma Emits.ticked (he : h.Emits x u) {t : Tick H} (ht : h.tickOf host x = .ok t) :
    (h.put x t).Emits x u := by
  obtain ⟨n, hn, hkernel, hparam, houtputs⟩ := he
  obtain ⟨inputs, -, ht⟩ := bind_eq_ok.mp ht
  rw [idleKernel_eq_ok.mpr ⟨n, hn, hkernel⟩, node_eq_ok.mpr hn] at ht
  cases ht
  obtain ⟨port, hport, hvalue⟩ : ∃ port, n.outputs = #[port] ∧ port.value = some u := by
    simpa [Array.map_eq_singleton_iff] using houtputs
  -- a constant sends its parameter again, so its one output port holds the same value as before
  have hnode : (n.busy.tick host (h.busy x) .constant inputs).node =
      { n with outputs := #[{ port with value := some u }] } := by
    have hheld := hparam
    unfold Node.param? at hheld
    simp [Node.tick, Kernel.run, Kernel.compute, Node.param?, hheld, hkernel, Node.busy, hport,
      Node.send, Node.emit,
      Node.portIndex, Node.portIndex?, UInt16.size, pure, Except.pure, Functor.map, Except.map,
      List.range_succ]
  refine ⟨(n.busy.tick host (h.busy x) .constant inputs).node, ?_, ?_, ?_, ?_⟩
  · rw [put, object?_releaseAll, object?_putNode_self (contains_of_object? hn)]
  · rw [hnode, hkernel]
  · rw [hnode, ← hparam]
    rfl
  · rw [hnode]
    simp

/-! ## Connecting -/

lemma sourceAt_plug_unplug {input output : PortRef} (hin : h.HasInput input) :
    ((h.unplug input).plug input output).sourceAt x i =
      if x = input.node ∧ i = input.index.toNat then some output else h.sourceAt x i := by
  rw [plug, sourceAt_addTarget, sourceAt_setSource (hin.rewired rewired_unplug),
    sourceAt_unplug hin]
  split
  · rfl
  · rfl

/-! ## Nodes that stay as they were fed -/

/-- A live node keeps its ports and its sources, and emits what it emitted. -/
structure Steady (h h' : Heap H) (x : ObjectId) : Prop where
  shape : ∀ s, h.shape? x = some s → h'.shape? x = some s
  source : ∀ i, h'.sourceAt x i = h.sourceAt x i
  emits : ∀ u, h.Emits x u → h'.Emits x u

namespace Steady

lemma trans (h1 : h.Steady h' x) (h2 : h'.Steady h'' x) : h.Steady h'' x :=
  ⟨fun s hs => h2.shape s (h1.shape s hs), fun i => (h2.source i).trans (h1.source i),
    fun u hu => h2.emits u (h1.emits u hu)⟩

lemma of_object (ho : h'.object? x = h.object? x) : h.Steady h' x where
  shape s hs := by rwa [shape?, ho]
  source i := by rw [sourceAt, ho, sourceAt]
  emits u hu := by rwa [Emits, ho]

lemma alloc (ht : h.Tidy) (hc : h.contains x = true) (o : HeapObject H) :
    h.Steady (h.alloc o).2 x :=
  of_object (object?_alloc_of_contains ht hc)

/-- An input of another node was connected. -/
lemma connect {input output : PortRef} (hin : h.HasInput input) (hne : input.node ≠ x) :
    h.Steady ((h.unplug input).plug input output) x where
  shape s hs := (rewired_unplug.trans rewired_plug).extends.shape x s hs
  source i := by
    rw [sourceAt_plug_unplug hin, if_neg fun heq => hne heq.1.symm]
  emits u hu := hu.plain (by rw [plain?_plug, plain?_unplug])

end Steady

/-- Adding to a sequence leaves nodes alone. -/
lemma node_pushElement {v : Value} (hn : h.object? x = some (.node n)) :
    ((pushElement id v).leaves h).object? x = h.object? x := by
  refine HeapM.Ends.leaves (Q := fun h' => h'.object? x = h.object? x)
    (HeapM.ends_check_bind (fun items hitems => ?_) fun _ _ => rfl)
  have hne : x ≠ id := by
    rintro rfl
    rw [sequence_eq_ok.mp hitems] at hn
    cases hn
  exact object?_modifyObject_of_ne hne

end Heap

/-! ## Tame operations -/

/-- The same host code is trusted in every heap. -/
def Trust.always (code : HostCode H → Prop) : Trust H where
  holds _ := code
  grown _ hcode := hcode
  unpinned _ hcode := hcode
  collected _ _ _ hcode := hcode

lemma Trust.body_always {code : HostCode H → Prop} {h : Heap H} {body : CallableBody H} :
    (Trust.always code).body h body ↔ body.Within code := by
  cases body <;> rfl

/-- Nothing is asked of host code. -/
abbrev Trust.any : Trust H := .always fun _ => True

lemma Trust.any_body {h : Heap H} {body : CallableBody H} : Trust.any.body h body := by
  cases body <;> trivial

namespace Heap

lemma pinCount_modifyEntry_of_ne {h : Heap H} {id x : ObjectId} {f : Entry H → Entry H}
    (hx : x ≠ id) : (h.modifyEntry id f).pinCount x = h.pinCount x := by
  rw [pinCount_eq, entry?_modifyEntry, if_neg hx, pinCount_eq]

end Heap

/-- The operations that may happen to a heap in which `root` is pinned: they store and send what is
known, connect and set known nodes only, and take no pin from `root`. -/
def Operation.Tame (host : KernelHost H) (code : HostCode H → Prop) (root : ObjectId) (h : Heap H)
    (l : Ledger) : Operation H → Prop
  | .alloc o => o.Unwired ∧ l.Holds code o
  | .define _ _ v | .assign _ _ v | .bind _ _ v | .pushElement _ v | .setRef _ v |
    .setIndex _ _ v => l.knows v
  | .setParam p v => l.knows (.node p.node) ∧ l.knows v
  | .connect input output => l.knows (.node input.node) ∧ l.knows (.output output)
  | .tick id => ∀ n kernel inputs vs, h.object? id = some (.node n) → n.kernel = some kernel →
      h.inputValues id = .ok inputs → (kernel.run host (h.busy id) n.busy inputs).1 = .ok vs →
      ∀ v ∈ vs, (l.after h (.tick id)).knows v
  | .pin id => id = root → h.pinCount id < h.pinCount id + 1
  | .unpin id => id ≠ root
  | .intern _ => True
  | .remove _ | .disconnect _ | .setParamNamed _ _ _ | .collect _ _ => False

/-- The operations that write values, and do nothing else. -/
def Operation.IsWrite : Operation H → Prop
  | .define _ _ _ | .assign _ _ _ | .bind _ _ _ | .pushElement _ _ | .setRef _ _ | .setIndex _ _ _
  | .setParam _ _ | .tick _ | .intern _ => True
  | _ => False

section Tame

open Heap

variable {host : KernelHost H} {code : HostCode H → Prop} {root x : ObjectId} {h : Heap H}
  {l : Ledger} {op : Operation H} {n : Node H}

/-- What the language does by itself is tame. -/
lemma Customs.Own.tame (ho : (Customs.discreet host code).Own root l op) :
    op.Tame host code root h l := by
  cases op with
  | alloc o =>
    refine ⟨?_, ho.1⟩
    by_cases hk : o.kind = .node
    · obtain ⟨name, v, rfl⟩ := ho.2 hk
      exact HeapObject.unwired_constant
    · exact HeapObject.unwired_of_kind hk
  | pin id => exact fun heq => absurd heq (ho.resolve_left fun hf => hf)
  | unpin id => exact ho.resolve_left fun hf => hf
  | define | assign | bind | setIndex | setParam | connect => exact ho
  | _ => exact ho.elim

/-- So is what discreet host code does. -/
lemma Customs.Covers.tame (hc : (Customs.discreet host code).Covers h l)
    (hop : (Customs.discreet host code).may h l op) : op.Tame host code root h l := by
  cases op with
  | tick id => exact fun n kernel inputs vs hn hk hin hr => hc.knows_tick hop hn hk hin hr
  | pin id => exact fun _ => hop
  | intern text => trivial
  | alloc | define | assign | bind | pushElement | setRef | setIndex => exact hop
  | _ => exact hop.elim

/-- Writes of known values store what is valid. -/
lemma Operation.Tame.stored {K : Customs H} (hop : op.Tame host code root h l) (hw : op.IsWrite)
    (hc : K.Covers h l) (hnot : ¬ K.trusting) :
    Stored (Value.ValidIn h) (fun _ => True) h (op.after host h) := by
  have hwrites : ∀ {α : Type} {m : HeapM H α} {fine : Prop},
      Writes (Value.ValidIn h) (fun _ => True) fine m h →
      Stored (Value.ValidIn h) (fun _ => True) h (m.leaves h) := fun hm =>
    HeapM.Ends.leaves (hm.mono (fun _ _ hs => hs) fun _ _ he => he.1)
  have hvalid := hc.valid hnot
  cases op with
  | define frame name v => exact hwrites (writes_define (hvalid v hop))
  | assign frame name v =>
    have hassign : Writes (Value.ValidIn h) (fun _ => True) _ (Heap.assign frame name v) h :=
      writes_assign (hvalid v hop)
    exact hwrites hassign.discard
  | bind frame name v => exact hwrites (writes_bind (hvalid v hop))
  | pushElement sequence v => exact hwrites (writes_pushElement (hvalid v hop))
  | setRef cell v => exact hwrites (writes_setRef (hvalid v hop))
  | setIndex target indices v => exact hwrites (writes_setIndex (hvalid v hop))
  | setParam p v => exact hwrites (writes_setParam (hvalid v hop.2))
  -- what a tick sends is known once the ports of the node are, and what is known is valid
  | tick id =>
    refine hwrites (writes_tickNode fun n kernel inputs hn hk hin =>
      ⟨fun vs hr v hv => ?_, fun _ _ => trivial⟩)
    exact (hc.learn_ports id).valid hnot v (hop n kernel inputs vs hn hk hin hr v hv)
  | intern text =>
    have hintern : Writes (Value.ValidIn h) (fun _ => True) _ (internName text) h :=
      writes_internName
    exact hwrites hintern.discard
  | _ => exact hw.elim

/-- A tame operation keeps the heap sound. -/
lemma Operation.Tame.sound {K : Customs H} (hop : op.Tame host code root h l) (hs : Sound .any h)
    (hc : K.Covers h l) (hnot : ¬ K.trusting) : Sound .any (op.after host h) := by
  cases op with
  | alloc o =>
    refine hs.alloc ⟨hop.1, fun v hv => hc.valid hnot v (hop.2.value v hv), fun y hy => ?_,
      fun c _ => Trust.any_body, fun _ _ => trivial⟩
    exact hc.valid hnot _ (hop.2.scope y hy)
  | connect input output => exact leaves_connect hs fun hin hout => hs.connect hin hout
  | pin id => exact leaves_pin hs fun _ => hs.modifyEntry (fun _ => rfl) fun _ _ => trivial
  | unpin id => exact hs.modifyEntry (fun _ => rfl) fun _ _ => trivial
  | define | assign | bind | pushElement | setRef | setIndex | setParam | tick | intern =>
    exact hs.stored (hop.stored trivial hc hnot)
  | _ => exact hop.elim

/-- It leaves the root frame pinned. -/
lemma Operation.Tame.pinned {K : Customs H} (hop : op.Tame host code root h l) (hs : Sound .any h)
    (hc : K.Covers h l) (hnot : ¬ K.trusting) (hpin : 0 < h.pinCount root) :
    0 < (op.after host h).pinCount root := by
  have hlater : ∀ {h' : Heap H}, Extends h h' → 0 < h'.pinCount root := fun he =>
    UInt32.lt_of_lt_of_le hpin (he.pins root)
  cases op with
  | alloc o => exact hlater (extends_alloc hs.tidy)
  | connect input output =>
    exact leaves_connect (P := fun h' => 0 < h'.pinCount root) hpin fun _ _ =>
      hlater (rewired_unplug.trans rewired_plug).extends
  | pin id =>
    refine leaves_pin (P := fun h' => 0 < h'.pinCount root) hpin fun _ => ?_
    by_cases heq : id = root
    · exact hlater (extends_pinned (hop heq))
    · rwa [pinned, pinCount_modifyEntry_of_ne (Ne.symm heq)]
  | unpin id =>
    show 0 < (h.unpin id).pinCount root
    rwa [Heap.unpin, pinCount_modifyEntry_of_ne (Ne.symm hop)]
  | define | assign | bind | pushElement | setRef | setIndex | setParam | tick | intern =>
    exact hlater (hop.stored trivial hc hnot).extends
  | _ => exact hop.elim

/-- It leaves nodes as they were fed whose handles are not known. -/
lemma Operation.Tame.steady {K : Customs H} (hop : op.Tame host code root h l) (hs : Sound .any h)
    (hc : K.Covers h l) (hnot : ¬ K.trusting) (hn : h.object? x = some (.node n))
    (hx : ¬ l.knows (.node x)) : h.Steady (op.after host h) x := by
  have hfilled : ∀ {h' : Heap H}, h.Filled h' → h.Steady h' x := fun hf =>
    .of_object (by rw [hf.node hn, hn])
  cases op with
  | alloc o => exact .alloc hs.tidy (contains_of_object? hn) o
  | define frame name v => exact hfilled (HeapM.Ends.leaves filled_define)
  | assign frame name v => exact hfilled (HeapM.Ends.leaves (HeapM.Ends.discard filled_assign))
  | bind frame name v => exact hfilled (HeapM.Ends.leaves filled_bind)
  | setRef cell v => exact hfilled (HeapM.Ends.leaves filled_setRef)
  | setIndex target indices v => exact hfilled (HeapM.Ends.leaves filled_setIndex)
  | pushElement sequence v => exact .of_object (node_pushElement hn)
  | setParam p v =>
    have hne : x ≠ p.node := by
      rintro rfl
      exact hx hop.1
    exact .of_object (spares_setParam hne h)
  | connect input output =>
    have hne : input.node ≠ x := by
      rintro rfl
      exact hx hop.1
    exact leaves_connect (P := fun h' => h.Steady h' x) (.of_object rfl) fun hin _ =>
      .connect hin hne
  | tick id =>
    have hstored := hop.stored trivial hc hnot
    refine ⟨fun s hshape => hstored.extends.shape x s hshape, fun i => sourceAt_congr hstored.wires,
      fun u hu => ?_⟩
    by_cases heq : x = id
    · -- the node itself is ticked: what it sends is computed from what feeds it
      subst heq
      show ((tickNode host x).leaves h).Emits x u
      rw [leaves_tickNode]
      split
      · next t ht => exact hu.ticked ht
      · exact hu
    · have hsame : h.Steady ((Operation.tick id).after host h) x :=
        .of_object (spares_tickNode heq h)
      exact hsame.emits u hu
  | pin id => exact .of_object (spares_pin h)
  | unpin id => exact .of_object (object?_modifyEntry fun _ => rfl)
  | intern text => exact .of_object (HeapM.Spares.discard spares_internName h)
  | _ => exact hop.elim

/-- It makes no input lead to a port that is not known. -/
lemma Operation.Tame.source {K : Customs H} (hop : op.Tame host code root h l) (hc : K.Covers h l)
    (hnot : ¬ K.trusting) {i : Nat} {p : PortRef} (hp : (op.after host h).sourceAt x i = some p) :
    h.sourceAt x i = some p ∨ l.knows (.output p) := by
  cases op with
  | alloc o =>
    obtain ⟨o', ho', hsource⟩ := Option.bind_eq_some_iff.mp hp
    rcases object?_alloc_or ho' with rfl | hold
    · rw [(hop.1 i).1] at hsource
      cases hsource
    · exact .inl (by rw [sourceAt, hold, Option.bind_some, hsource])
  -- the only operation that makes a wire, and it makes it from a port the ledger knows
  | connect input output =>
    revert hp
    refine leaves_connect (P := fun h' => h'.sourceAt x i = some p → _) .inl fun hin _ hp => ?_
    rw [sourceAt_plug_unplug hin] at hp
    split at hp
    · cases hp
      exact .inr hop.2
    · exact .inl hp
  | pin id =>
    have hsame : h.Steady ((Operation.pin id).after host h) x := .of_object (spares_pin h)
    exact .inl ((hsame.source i).symm.trans hp)
  | unpin id =>
    have hsame : h.Steady (h.unpin id) x := .of_object (object?_modifyEntry fun _ => rfl)
    exact .inl ((hsame.source i).symm.trans hp)
  | define | assign | bind | pushElement | setRef | setIndex | setParam | tick | intern =>
    exact .inl ((sourceAt_congr (hop.stored trivial hc hnot).wires).symm.trans hp)
  | _ => exact hop.elim

end Tame
end Patchbay
