import Patchbay.Proofs.Evaluation.Steps
import Patchbay.Proofs.Lifting.Ticking

/-!
# Building operator nodes

A builtin with a signal among its operands makes an operator node, and a constant node for every
operand that is no signal. Building succeeds if the signals lead to outputs of live nodes. Then
every input of the new node is fed by its operand, and the new node is the only operator among what
was made.
-/

namespace Patchbay

variable {H : HostTypes}

lemma HeapM.Ends.exists_ok {α : Type} {m : HeapM H α} {h : Heap H} {ok : α → Heap H → Prop}
    (hm : m.Ends h ok fun _ _ => False) : ∃ a h', m h = .ok a h' ∧ ok a h' := by
  unfold Ends at hm
  cases hr : m h with
  | ok a h' =>
    rw [hr] at hm
    exact ⟨a, h', rfl, hm⟩
  | error e h' =>
    rw [hr] at hm
    exact hm.elim

namespace Heap

variable {h h' h₀ : Heap H} {id x : ObjectId} {n : Node H} {i : Nat} {u : Value}
  {input output p : PortRef} {moved : ObjectId → Prop}

/-! ## Connecting -/

/-- Ports that exist can be connected. -/
lemma ends_connect_open (hin : h.HasInput input) (hout : h.HasOutput output)
    (hopen : h.sourceAt input.node input.index.toNat = none) :
    (connect input output).Ends h (fun _ h' => h' = h.plug input output) fun _ _ => False := by
  obtain ⟨n, hn, hlt⟩ := hin
  have hinput : h.inputPort input = .ok n.inputs[input.index.toNat] :=
    inputPort_eq_ok.mpr ⟨n, hn, Array.getElem?_eq_getElem hlt⟩
  obtain ⟨n', hn', hlt'⟩ := hout
  have houtput : h.outputPort output = .ok n'.outputs[output.index.toNat] :=
    outputPort_eq_ok.mpr ⟨n', hn', Array.getElem?_eq_getElem hlt'⟩
  refine HeapM.ends_check_bind (fun _ _ => ?_) fun e he => by rw [houtput] at he; cases he
  refine HeapM.ends_check_bind (fun _ _ => ?_) fun e he => by rw [hinput] at he; cases he
  have hdisconnect : (disconnect input).Ends h (fun _ h' => h' = h) fun _ _ => False := by
    refine HeapM.ends_read_bind (fun q hq => ?_) fun e he => by rw [hinput] at he; cases he
    obtain ⟨n'', hn'', hport⟩ := inputPort_eq_ok.mp hq
    rw [sourceAt, hn'', Option.bind_some, HeapObject.sourceAt, hport, Option.bind_some] at hopen
    rw [hopen]
    exact rfl
  exact hdisconnect.bind fun _ h' hd => by rw [hd]; exact rfl

/-- What a connection leaves of the node of its input. -/
lemma object?_plug (input output : PortRef) (hn : h.object? input.node = some (.node n)) :
    ∃ n', (h.plug input output).object? input.node = some (.node n') ∧ n'.params = n.params ∧
      n'.kernel = n.kernel ∧ n'.inputs.size = n.inputs.size ∧ n'.outputs.size = n.outputs.size := by
  unfold plug addTarget setSource
  rw [object?_modifyNode, object?_modifyNode, if_pos rfl, hn]
  split
  · exact ⟨_, rfl, rfl, rfl, by simp, by simp⟩
  · exact ⟨_, rfl, rfl, rfl, by simp, by simp⟩

lemma isOperator_modifyNode {f : Node H → Node H} (hf : ∀ n, (f n).kernel = n.kernel) :
    (h.modifyNode id f).isOperator x = h.isOperator x := by
  unfold isOperator
  rw [object?_modifyNode]
  by_cases hx : x = id
  · rw [if_pos hx]
    cases h.object? x with
    | none => rfl
    | some o =>
      cases o with
      | node n => exact congrArg (Option.any Kernel.isOperator) (hf n)
      | _ => rfl
  · rw [if_neg hx]

lemma isOperator_plug : (h.plug input output).isOperator x = h.isOperator x := by
  unfold plug addTarget setSource
  refine (isOperator_modifyNode ?_).trans (isOperator_modifyNode ?_)
  · exact fun _ => rfl
  · exact fun _ => rfl

lemma outputValue_plug : (h.plug input output).outputValue p = .ok u ↔ h.outputValue p = .ok u := by
  rw [outputValue_eq_ok, outputValue_eq_ok, sentAt_plug]

/-- A port carries an operand: the operand is the port itself, or a plain value that a node sends
which is not in `h₀`. -/
def Feeds (h₀ h : Heap H) (p : PortRef) (u : Value) : Prop :=
  u = .output p ∨ u.isOutput = false ∧ h₀.contains p.node = false ∧ h.outputValue p = .ok u

lemma Feeds.keeps (hf : Feeds h₀ h p u) (hk : Keeps noNode h h') : Feeds h₀ h' p u :=
  hf.imp_right fun hf => ⟨hf.1, hf.2.1, hk.outputValue not_false hf.2.2⟩

lemma Feeds.plug (hf : Feeds h₀ h p u) : Feeds h₀ (h.plug input output) p u :=
  hf.imp_right fun hf => ⟨hf.1, hf.2.1, outputValue_plug.mpr hf.2.2⟩

end Heap

/-! ## Making one node -/

/-- The operator nodes among those that were made between two sessions, in the order in which they
were made. -/
def Session.operators (s s' : Session H) : List ObjectId :=
  (s.created s').filter s'.heap.isOperator

/-- A session after one more node was made. -/
def Session.making (s : Session H) (n : Node H) : Session H :=
  { s with heap := (s.heap.alloc (.node n)).2, nodesNamed := s.nodesNamed + 1 }

namespace Session

variable {s s' s'' : Session H} {n : Node H} {x : ObjectId}

lemma grew_making (ht : s.heap.Tidy) : Grew s (s.making n) := by
  refine ⟨?_, Nat.le_succ _, rfl⟩
  have hone : (s.making n).nodesNamed - s.nodesNamed = 1 := Nat.add_sub_cancel_left ..
  rw [hone]
  exact Heap.grows_alloc ht

lemma created_making : s.created (s.making n) = [s.heap.nextId] := by
  have hone : (s.making n).nodesNamed - s.nodesNamed = 1 := Nat.add_sub_cancel_left ..
  rw [created, hone]
  rfl

lemma object?_making (ht : s.heap.Tidy) :
    (s.making n).heap.object? s.heap.nextId = some (.node n) := by
  rw [making, Heap.object?_alloc ht, if_pos rfl]

lemma operators_making (ht : s.heap.Tidy) :
    s.operators (s.making n) = if n.isOperator then [s.heap.nextId] else [] := by
  rw [operators, created_making, List.filter_singleton,
    Heap.isOperator_of_node (object?_making ht)]
  cases n.isOperator <;> rfl

lemma operators_trans (h1 : Grew s s') (h2 : Grew s' s'') :
    s.operators s'' = s.operators s' ++ s'.operators s'' := by
  rw [operators, h1.created_trans h2, List.filter_append]
  congr 1
  refine List.filter_congr fun x hx => ?_
  exact h2.heap.keeps.isOperator (h1.contains_created hx).2

lemma mem_operators (hx : x ∈ s.operators s') : x ∈ s.created s' := (List.mem_filter.mp hx).1

end Session

/-! ## Wiring -/

namespace Lift

open Session (Grew)

variable {s₀ s s' : Session H} {id : ObjectId} {n₀ : Node H} {fed rest : List Value} {u : Value}

/-- A node that was made after `s₀` as `n₀`, the first inputs of which are fed by operands. -/
structure Wiring (s₀ : Session H) (id : ObjectId) (n₀ : Node H) (fed : List Value) (s : Session H) :
    Prop where
  grew : Grew s₀ s
  operators : s₀.operators s = [id]
  node : ∃ n, s.heap.object? id = some (.node n) ∧ n.params = n₀.params ∧ n.kernel = n₀.kernel ∧
    n.inputs.size = n₀.inputs.size ∧ n.outputs.size = n₀.outputs.size
  unfed : ∀ i, fed.length ≤ i → s.heap.sourceAt id i = none
  feeds : ∀ i u, fed[i]? = some u →
    ∃ p, s.heap.sourceAt id i = some p ∧ s₀.heap.Feeds s.heap p u

lemma Wiring.fresh (hw : Wiring s₀ id n₀ fed s) : s₀.heap.contains id = false := by
  have hmem : id ∈ s₀.operators s := by
    rw [hw.operators]
    exact List.mem_singleton_self id
  exact (hw.grew.contains_created (Session.mem_operators hmem)).1

lemma Wiring.contains (hw : Wiring s₀ id n₀ fed s) : s.heap.contains id = true := by
  obtain ⟨n, hn, -⟩ := hw.node
  exact Heap.contains_of_object? hn

/-- Other nodes than operators may be made. -/
lemma Wiring.grow (hw : Wiring s₀ id n₀ fed s) (hg : Grew s s') (hnone : s.operators s' = []) :
    Wiring s₀ id n₀ fed s' where
  grew := hw.grew.trans hg
  operators := by rw [Session.operators_trans hw.grew hg, hw.operators, hnone, List.append_nil]
  node := by
    obtain ⟨n, hn, hparams, hkernel, hinputs, houtputs⟩ := hw.node
    obtain ⟨n', hn', ha⟩ := hg.heap.keeps.node hn
    exact ⟨n', hn', ha.params.trans hparams, ha.kernel.trans hkernel, by rw [ha.inputs, hinputs],
      by rw [ha.size_outputs, houtputs]⟩
  unfed i hi := by rw [hg.heap.keeps.sourceAt hw.contains, hw.unfed i hi]
  feeds i u hu := by
    obtain ⟨p, hp, hf⟩ := hw.feeds i u hu
    exact ⟨p, by rw [hg.heap.keeps.sourceAt hw.contains, hp], hf.keeps hg.heap.keeps⟩

/-- The next input is connected to a port that carries the next operand. -/
lemma Wiring.plug (hw : Wiring s₀ id n₀ fed s) {index : UInt16} (hindex : index.toNat = fed.length)
    (hsize : fed.length < n₀.inputs.size) {source : PortRef} (hf : s₀.heap.Feeds s.heap source u) :
    Wiring s₀ id n₀ (fed ++ [u]) { s with heap := s.heap.plug ⟨id, index⟩ source } := by
  obtain ⟨n, hn, hparams, hkernel, hinputs, houtputs⟩ := hw.node
  have hin : s.heap.HasInput ⟨id, index⟩ := ⟨n, hn, by rw [hinputs, hindex]; exact hsize⟩
  have hsource : ∀ i, (s.heap.plug ⟨id, index⟩ source).sourceAt id i =
      if i = fed.length then some source else s.heap.sourceAt id i := fun i => by
    rw [Heap.plug, Heap.sourceAt_addTarget, Heap.sourceAt_setSource hin, hindex]
    simp
  refine ⟨⟨hw.grew.heap.plug hw.fresh source, hw.grew.named, hw.grew.loading⟩, ?_, ?_,
    fun i hi => ?_, fun i u' hu' => ?_⟩
  · refine Eq.trans (List.filter_congr fun x _ => ?_) hw.operators
    exact Heap.isOperator_plug
  · obtain ⟨n', hn', hparams', hkernel', hinputs', houtputs'⟩ :=
      Heap.object?_plug ⟨id, index⟩ source hn
    exact ⟨n', hn', hparams'.trans hparams, hkernel'.trans hkernel, hinputs'.trans hinputs,
      houtputs'.trans houtputs⟩
  · rw [List.length_append, List.length_singleton] at hi
    rw [hsource, if_neg (by omega), hw.unfed i (by omega)]
  -- the input that is connected now, and those before it
  · by_cases hi : i = fed.length
    · rw [hi, List.getElem?_append_right (Nat.le_refl _), Nat.sub_self] at hu'
      cases hu'
      exact ⟨source, by rw [hsource, if_pos hi], hf.plug⟩
    · rw [hsource, if_neg hi]
      have hlt : i < fed.length := by
        have hlen := (List.getElem?_eq_some_iff.mp hu').1
        rw [List.length_append, List.length_singleton] at hlen
        omega
      rw [List.getElem?_append_left hlt] at hu'
      obtain ⟨p, hp, hfp⟩ := hw.feeds i u' hu'
      exact ⟨p, hp, hfp.plug⟩

/-- An operand is carried by its own port, or by that of a constant node which is made for it. -/
lemma sourcePort_cases (u : Value) (s : Session H) :
    (∃ p, u = .output p ∧ sourcePort u s = .ok p s) ∨
      ∃ name, u.isOutput = false ∧
        sourcePort u s = .ok ⟨s.heap.nextId, 0⟩ (s.making (.constant name u)) := by
  have hconstant : ∀ v : Value, ∃ name, (do
      let name ← Eval.nextNodeName "constant"
      let id ← Eval.onHeap (HeapM.alloc (.node (Node.constant name v)))
      return (⟨id, 0⟩ : PortRef)) s = .ok ⟨s.heap.nextId, 0⟩ (s.making (.constant name v)) := by
    intro v
    refine ⟨"constant" ++ "#" ++ toString (s.nodesNamed + 1), ?_⟩
    rw [← Heap.alloc_fst]
    rfl
  cases u with
  | port kind p =>
    cases kind with
    | output => exact .inl ⟨p, rfl, rfl⟩
    | input | param =>
      obtain ⟨name, hrun⟩ := hconstant (.port _ p)
      exact .inr ⟨name, rfl, hrun⟩
  | _ =>
    obtain ⟨name, hrun⟩ := hconstant _
    exact .inr ⟨name, rfl, hrun⟩

lemma operators_refl (s : Session H) : s.operators s = [] := by
  rw [Session.operators, Session.created, Nat.sub_self]
  rfl

/-- The port that carries an operand. No operator is made. -/
lemma sourcePort_eq_ok (hg : Grew s₀ s) (hu : ∀ p, u = .output p → s.heap.HasOutput p) :
    ∃ p s', sourcePort u s = .ok p s' ∧ Grew s s' ∧ s.operators s' = [] ∧
      s₀.heap.Feeds s'.heap p u ∧ s'.heap.HasOutput p := by
  have ht := hg.heap.tidy
  rcases sourcePort_cases u s with ⟨p, rfl, hrun⟩ | ⟨name, hout, hrun⟩
  · exact ⟨p, s, hrun, .refl ht, operators_refl s, .inl rfl, hu p rfl⟩
  · have hn := Session.object?_making (n := .constant name u) ht
    refine ⟨⟨s.heap.nextId, 0⟩, _, hrun, Session.grew_making ht, ?_, .inr ⟨hout, ?_, ?_⟩, _, hn,
      Nat.zero_lt_one⟩
    · rw [Session.operators_making ht]
      rfl
    · have hnew := Heap.contains_nextId ht
      rw [← Bool.not_eq_true] at hnew ⊢
      exact fun hc => hnew (hg.heap.keeps.contains hc)
    · rw [Heap.outputValue_eq_ok, Heap.sentAt, hn]
      rfl

lemma portIndex?_eq {i : Nat} (hi : i < UInt16.size) :
    ∃ index, Node.portIndex? i = some index ∧ index.toNat = i := by
  unfold Node.portIndex?
  rw [if_pos hi]
  exact ⟨_, rfl, UInt16.toNat_ofNat_of_lt hi⟩

/-- Wiring all operands that are left. -/
lemma wire_eq_ok (kind : String) (count : Nat) (hw : Wiring s₀ id n₀ fed s)
    (hsize : fed.length + rest.length ≤ n₀.inputs.size) (hlimit : n₀.inputs.size ≤ UInt16.size)
    (hports : ∀ p, .output p ∈ rest → s₀.heap.HasOutput p) :
    ∃ s', wire id kind count fed.length rest s = .ok () s' ∧ Wiring s₀ id n₀ (fed ++ rest) s' := by
  induction rest generalizing fed s with
  | nil => exact ⟨s, rfl, by rwa [List.append_nil]⟩
  | cons u rest ih =>
    rw [List.length_cons] at hsize
    obtain ⟨p, s1, hsource, hg, hnone, hf, hp⟩ := sourcePort_eq_ok hw.grew (u := u) fun p hu =>
      hw.grew.heap.keeps.hasOutput (hports p (hu ▸ List.mem_cons_self))
    have hw1 := hw.grow hg hnone
    obtain ⟨index, hindex, hnat⟩ := portIndex?_eq (i := fed.length) (by omega)
    have hw2 := hw1.plug hnat (by omega) hf
    obtain ⟨n, hn, -, -, hinputs, -⟩ := hw1.node
    -- the input has nothing plugged in yet, so `connect` has nothing to unlink
    have hin : s1.heap.HasInput ⟨id, index⟩ := ⟨n, hn, by rw [hinputs, hnat]; omega⟩
    obtain ⟨_, _, hconnect, rfl⟩ :=
      (Heap.ends_connect_open hin hp (hw1.unfed _ (by rw [hnat]))).exists_ok
    obtain ⟨s', hrest, hw'⟩ := ih hw2 (by rw [List.length_append, List.length_singleton]; omega)
      fun p hp => hports p (List.mem_cons_of_mem _ hp)
    rw [List.length_append, List.length_singleton] at hrest
    refine ⟨s', ?_, by rwa [List.append_assoc] at hw'⟩
    unfold wire
    rw [Eval.bind_of_ok hsource]
    simp only [hindex]
    rw [Eval.bind_of_ok (Eval.onHeap_of_ok hconnect), hrest]

/-- A node to be built, with an input for each of some operands. -/
structure Blank (n : Node H) (count : Nat) : Prop where
  unwired : (HeapObject.node n).Unwired
  inputs : n.inputs.size = count
  outputs : n.outputs.size = 1
  operator : n.isOperator = true

lemma build_eq {kind : String} {make : String → Node H} {us : List Value} :
    build kind make us s =
      (do wire s.heap.nextId kind us.length 0 us; return Value.output ⟨s.heap.nextId, 0⟩)
        (s.making (make (kind ++ "#" ++ toString (s.nodesNamed + 1)))) := by
  rw [← Heap.alloc_fst (o := .node (make (kind ++ "#" ++ toString (s.nodesNamed + 1))))]
  rfl

/-- Building succeeds, with the output of the new node as result. -/
lemma build_eq_ok (kind : String) {make : String → Node H} {us : List Value} (ht : s.heap.Tidy)
    (hblank : ∀ name, Blank (make name) us.length) (hlimit : us.length ≤ UInt16.size)
    (hports : ∀ p, .output p ∈ us → s.heap.HasOutput p) :
    ∃ s' name, build kind make us s = .ok (.output ⟨s.heap.nextId, 0⟩) s' ∧
      Wiring s s.heap.nextId (make name) us s' := by
  have hb := hblank (kind ++ "#" ++ toString (s.nodesNamed + 1))
  have hn := Session.object?_making (n := make (kind ++ "#" ++ toString (s.nodesNamed + 1))) ht
  have hw : Wiring s s.heap.nextId _ [] (s.making _) :=
    { grew := Session.grew_making ht
      operators := by rw [Session.operators_making ht, if_pos hb.operator]
      node := ⟨_, hn, rfl, rfl, rfl, rfl⟩
      unfed := fun i _ => by
        rw [Heap.sourceAt, hn]
        exact (hb.unwired i).1
      feeds := fun i u hu => by simp at hu }
  obtain ⟨s', hwire, hw'⟩ := wire_eq_ok kind us.length hw (by rw [hb.inputs]; simp)
    (by rw [hb.inputs]; exact hlimit) hports
  refine ⟨s', _, ?_, hw'⟩
  rw [build_eq]
  exact Eval.bind_of_ok hwire

/-! ## Building that succeeds -/

lemma grew_sourcePort {p : PortRef} (ht : s.heap.Tidy) (hrun : sourcePort u s = .ok p s') :
    Grew s s' := by
  rcases sourcePort_cases u s with ⟨q, -, hq⟩ | ⟨name, -, hq⟩
  · cases hq.symm.trans hrun
    exact .refl ht
  · cases hq.symm.trans hrun
    exact Session.grew_making ht

/-- Whatever ports are connected to the inputs of a new node, older nodes stay as they are. -/
lemma grew_wire {kind : String} {count i : Nat} (hg : Grew s₀ s)
    (hnew : s₀.heap.contains id = false)
    (hrun : wire id kind count i rest s = .ok () s') : Grew s₀ s' := by
  induction rest generalizing i s with
  | nil =>
    cases hrun
    exact hg
  | cons u rest ih =>
    unfold wire at hrun
    obtain ⟨source, s1, hsource, hrun⟩ := Eval.bind_eq_ok.mp hrun
    have hg1 := hg.trans (grew_sourcePort hg.heap.tidy hsource)
    cases hindex : Node.portIndex? i with
    | none =>
      rw [hindex] at hrun
      cases hrun
    | some index =>
      rw [hindex] at hrun
      obtain ⟨⟨⟩, s2, honheap, hrun⟩ := Eval.bind_eq_ok.mp hrun
      obtain ⟨h2, hconnect, rfl⟩ := Eval.onHeap_eq_ok.mp honheap
      obtain ⟨-, -, rfl⟩ := Heap.ends_connect.of_ok hconnect
      have hg2 : Grew s₀ { s1 with heap := (s1.heap.unplug ⟨id, index⟩).plug ⟨id, index⟩ source } :=
        ⟨(hg1.heap.unplug hnew).plug hnew source, hg1.named, hg1.loading⟩
      exact ih hg2 hrun

lemma grew_build {kind : String} {make : String → Node H} {us : List Value} {v : Value}
    (ht : s.heap.Tidy) (hrun : build kind make us s = .ok v s') : Grew s s' := by
  rw [build_eq] at hrun
  obtain ⟨⟨⟩, s1, hwire, hreturn⟩ := Eval.bind_eq_ok.mp hrun
  cases hreturn
  exact grew_wire (Session.grew_making ht) (Heap.contains_nextId ht) hwire

end Lift
end Patchbay
