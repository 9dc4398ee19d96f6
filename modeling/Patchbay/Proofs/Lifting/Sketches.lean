import Patchbay.Proofs.Safety.Reads

/-!
# What evaluations and ticks leave alone

Building nodes adds targets to outputs of older nodes, and a tick changes what its own node sent.
All else about an object is its sketch. A heap keeps another one if it has the sketches of its
objects, and has sent the same from all nodes but some that moved. Look-ups and indexing see
sketches only, so they come out the same in a heap that keeps the old one.
-/

namespace Patchbay

variable {H : HostTypes}

namespace HeapObject

variable {o : HeapObject H}

/-- The value that an output sent last. -/
def sentAt (o : HeapObject H) (i : Nat) : Option Value :=
  match o with
  | node n => n.outputs[i]?.bind OutputPort.value
  | _ => none

/-- The object without what its outputs sent, and without their targets. -/
def sketch : HeapObject H → HeapObject H
  | node n => node { n with outputs := n.outputs.map fun p => ⟨p.name, none, #[]⟩ }
  | o => o

lemma sketch_of_ne_node (ho : o.kind ≠ .node) : o.sketch = o := by
  cases o with
  | node n => exact absurd rfl ho
  | _ => rfl

@[simp] lemma kind_sketch : o.sketch.kind = o.kind := by
  cases o <;> rfl

end HeapObject

/-- Two nodes that differ in what their outputs sent and in their targets only. -/
structure Node.Alike (n n' : Node H) : Prop where
  name : n'.name = n.name
  inputs : n'.inputs = n.inputs
  params : n'.params = n.params
  kernel : n'.kernel = n.kernel
  outputs : n'.outputs.map OutputPort.name = n.outputs.map OutputPort.name

lemma Node.alike_of_sketch {n n' : Node H}
    (ho : (HeapObject.node n').sketch = (HeapObject.node n).sketch) : n.Alike n' := by
  simp only [HeapObject.sketch, HeapObject.node.injEq, Node.mk.injEq] at ho
  obtain ⟨hname, -, hinputs, houtputs, hparams, hkernel, -⟩ := ho
  refine ⟨hname, hinputs, hparams, hkernel, ?_⟩
  have hnames := congrArg (Array.map OutputPort.name) houtputs
  simpa [Array.map_map, Function.comp_def] using hnames

lemma Node.Alike.size_outputs {n n' : Node H} (ha : n.Alike n') :
    n'.outputs.size = n.outputs.size := by
  simpa using congrArg Array.size ha.outputs

/-- A port is found by its name. -/
lemma Node.Alike.portValue {n n' : Node H} (ha : n.Alike n') (id : ObjectId) (key : String) :
    n'.portValue? id key = n.portValue? id key := by
  have hfind : ∀ {α : Type} {name : α → String} (ports : Array α),
      (ports.findIdx? fun p => name p == key) = (ports.map name).findIdx? (· == key) := by
    intro α name ports
    rw [Array.findIdx?_map]
    rfl
  unfold Node.portValue? Node.findPort?
  rw [ha.inputs, ha.params, hfind n'.outputs, hfind n.outputs, ha.outputs]

namespace Heap

variable {h h' h'' : Heap H} {id x : ObjectId} {o : HeapObject H} {n : Node H} {i : Nat}
  {moved moved' : ObjectId → Prop} {p : PortRef} {v : Value}

/-- The sketch of a live object. -/
def sketch? (h : Heap H) (id : ObjectId) : Option (HeapObject H) :=
  (h.object? id).map HeapObject.sketch

/-- The value that an output of a node sent last. -/
def sentAt (h : Heap H) (id : ObjectId) (i : Nat) : Option Value :=
  (h.object? id).bind fun o => o.sentAt i

/-- `h'` has the objects of `h` in sketch, maybe among others. Only nodes that moved sent anything
new. -/
structure Keeps (moved : ObjectId → Prop) (h h' : Heap H) : Prop where
  names : h'.names = h.names
  sketch : ∀ id o, h.sketch? id = some o → h'.sketch? id = some o
  sent : ∀ id, h.contains id = true → ¬ moved id → ∀ i, h'.sentAt id i = h.sentAt id i

/-- No node. -/
abbrev noNode : ObjectId → Prop := fun _ => False

lemma contains_iff_sketch : h.contains id = true ↔ ∃ o, h.sketch? id = some o := by
  unfold sketch?
  constructor
  · intro hc
    obtain ⟨o, ho⟩ := exists_object? hc
    exact ⟨o.sketch, by rw [ho, Option.map_some]⟩
  · rintro ⟨o, ho⟩
    obtain ⟨o', ho', -⟩ := Option.map_eq_some_iff.mp ho
    exact contains_of_object? ho'

namespace Keeps

lemma refl (h : Heap H) : Keeps moved h h := ⟨rfl, fun _ _ => id, fun _ _ _ _ => rfl⟩

lemma contains (hk : Keeps moved h h') (hc : h.contains id = true) : h'.contains id = true := by
  obtain ⟨o, ho⟩ := contains_iff_sketch.mp hc
  exact contains_iff_sketch.mpr ⟨o, hk.sketch id o ho⟩

lemma trans (h1 : Keeps moved h h') (h2 : Keeps moved' h' h'') :
    Keeps (fun x => moved x ∨ moved' x) h h'' where
  names := h2.names.trans h1.names
  sketch id o ho := h2.sketch id o (h1.sketch id o ho)
  sent id hc hm i := by
    rw [not_or] at hm
    rw [h2.sent id (h1.contains hc) hm.2, h1.sent id hc hm.1]

/-- What moved matters for objects of the old heap only. -/
lemma mono (hk : Keeps moved h h') (hm : ∀ x, h.contains x = true → moved x → moved' x) :
    Keeps moved' h h' :=
  ⟨hk.names, hk.sketch, fun id hc hnot => hk.sent id hc fun hmoved => hnot (hm id hc hmoved)⟩

/-- Objects other than nodes are their own sketches. -/
lemma object (hk : Keeps moved h h') (ho : h.object? id = some o) (hne : o.kind ≠ .node) :
    h'.object? id = some o := by
  have hout : h'.sketch? id = some o.sketch := hk.sketch id _ (by rw [sketch?, ho, Option.map_some])
  obtain ⟨o', ho', heq⟩ := Option.map_eq_some_iff.mp hout
  have hkind : o'.kind ≠ .node := by
    rw [← HeapObject.kind_sketch, heq, HeapObject.kind_sketch]
    exact hne
  rw [HeapObject.sketch_of_ne_node hkind, HeapObject.sketch_of_ne_node hne] at heq
  rw [ho', heq]

lemma node (hk : Keeps moved h h') (hn : h.object? id = some (.node n)) :
    ∃ n', h'.object? id = some (.node n') ∧ n.Alike n' := by
  have hout : h'.sketch? id = some (HeapObject.node n).sketch :=
    hk.sketch id _ (by rw [sketch?, hn, Option.map_some])
  obtain ⟨o', ho', heq⟩ := Option.map_eq_some_iff.mp hout
  have hkind : o'.kind = .node := by
    rw [← HeapObject.kind_sketch, heq, HeapObject.kind_sketch]
    rfl
  cases o' with
  | node n' => exact ⟨n', ho', Node.alike_of_sketch heq⟩
  | _ => cases hkind

lemma sourceAt (hk : Keeps moved h h') (hc : h.contains id = true) :
    h'.sourceAt id i = h.sourceAt id i := by
  obtain ⟨o, ho⟩ := exists_object? hc
  unfold Heap.sourceAt
  cases o with
  | node n =>
    obtain ⟨n', hn', ha⟩ := hk.node ho
    rw [ho, hn', Option.bind_some, Option.bind_some, HeapObject.sourceAt, HeapObject.sourceAt,
      ha.inputs]
  | _ => rw [ho, hk.object ho (fun hkind => by cases hkind)]

lemma hasOutput (hk : Keeps moved h h') (hp : h.HasOutput p) : h'.HasOutput p := by
  obtain ⟨n, hn, hlt⟩ := hp
  obtain ⟨n', hn', ha⟩ := hk.node hn
  exact ⟨n', hn', by rwa [ha.size_outputs]⟩

end Keeps

/-! ## Reading -/

lemma outputValue_eq_ok : h.outputValue p = .ok v ↔ h.sentAt p.node p.index.toNat = some v := by
  unfold outputValue sentAt
  constructor
  · intro hr
    obtain ⟨n, hn, hr⟩ := bind_eq_ok.mp hr
    obtain ⟨port, hport, hr⟩ := bind_eq_ok.mp hr
    obtain ⟨n', hn', hport⟩ := outputPort_eq_ok.mp hport
    rw [hn', Option.bind_some, HeapObject.sentAt, hport, Option.bind_some]
    split at hr
    · next w hw =>
      cases hr
      exact hw
    · cases hr
  · intro hs
    obtain ⟨o, ho, hs⟩ := Option.bind_eq_some_iff.mp hs
    cases o with
    | node n =>
      obtain ⟨port, hport, hv⟩ := Option.bind_eq_some_iff.mp hs
      refine bind_eq_ok.mpr ⟨n, node_eq_ok.mpr ho, bind_eq_ok.mpr ⟨port, ?_, ?_⟩⟩
      · exact outputPort_eq_ok.mpr ⟨n, ho, hport⟩
      · rw [hv]
        rfl
    | _ => cases hs

lemma hasOutput_of_outputValue (hv : h.outputValue p = .ok v) : h.HasOutput p := by
  obtain ⟨o, ho, hs⟩ := Option.bind_eq_some_iff.mp (outputValue_eq_ok.mp hv)
  cases o with
  | node n =>
    obtain ⟨port, hport, -⟩ := Option.bind_eq_some_iff.mp hs
    exact ⟨n, ho, (Array.getElem?_eq_some_iff.mp hport).1⟩
  | _ => cases hs

lemma inputValue_eq_ok {input : PortRef} :
    h.inputValue input = .ok v ↔
      ∃ source, h.sourceAt input.node input.index.toNat = some source ∧
        h.outputValue source = .ok v := by
  unfold inputValue sourceAt
  constructor
  · intro hr
    obtain ⟨n, hn, hr⟩ := bind_eq_ok.mp hr
    obtain ⟨port, hport, hr⟩ := bind_eq_ok.mp hr
    obtain ⟨n', hn', hport⟩ := inputPort_eq_ok.mp hport
    split at hr
    · next source hsource =>
      refine ⟨source, ?_, hr⟩
      rw [hn', Option.bind_some, HeapObject.sourceAt, hport, Option.bind_some, hsource]
    · cases hr
  · rintro ⟨source, hs, hv⟩
    obtain ⟨o, ho, hs⟩ := Option.bind_eq_some_iff.mp hs
    cases o with
    | node n =>
      obtain ⟨port, hport, hsource⟩ := Option.bind_eq_some_iff.mp hs
      refine bind_eq_ok.mpr ⟨n, node_eq_ok.mpr ho, bind_eq_ok.mpr ⟨port, ?_, ?_⟩⟩
      · exact inputPort_eq_ok.mpr ⟨n, ho, hport⟩
      · rw [hsource]
        exact hv
    | _ => cases hs

lemma contains_of_sentAt (hs : h.sentAt id i = some v) : h.contains id = true := by
  obtain ⟨o, ho, -⟩ := Option.bind_eq_some_iff.mp hs
  exact contains_of_object? ho

lemma Keeps.outputValue (hk : Keeps moved h h') (hm : ¬ moved p.node)
    (hv : h.outputValue p = .ok v) : h'.outputValue p = .ok v := by
  rw [outputValue_eq_ok] at hv ⊢
  rw [hk.sent p.node (contains_of_sentAt hv) hm, hv]

lemma Keeps.get {kind : ObjectKind} (hk : Keeps moved h h') (hid : h.HasKind kind id)
    (hne : kind ≠ .node) : h'.get id = h.get id := by
  obtain ⟨o, ho, rfl⟩ := hid.object
  rw [get_eq_ok_iff.mpr ho, get_eq_ok_iff.mpr (hk.object ho hne)]

/-- Indexing sees the sketch of its target. -/
lemma Keeps.index (hk : Keeps moved h h') {target : Value} (hv : target.ValidIn h)
    (indices : List Value) : h'.index target indices = h.index target indices := by
  unfold Heap.index
  split
  · next id index =>
    have hget : h'.sequence id = h.sequence id := by
      unfold sequence
      rw [hk.get hv nofun]
    rw [hget]
  · next id =>
    have hget : h'.grid id = h.grid id := by
      unfold grid
      rw [hk.get hv nofun]
    rw [hget]
  · next id key =>
    have hget : h'.frame id = h.frame id := by
      unfold frame
      rw [hk.get hv nofun]
    rw [hget, hk.names]
  -- a node may have ticked, which leaves its name and its ports
  · next id key =>
    obtain ⟨o, ho, hkind⟩ := HasKind.object hv
    cases o with
    | node n =>
      obtain ⟨n', hn', ha⟩ := hk.node ho
      have hnode : h.node id = .ok n := node_eq_ok.mpr ho
      have hnode' : h'.node id = .ok n' := node_eq_ok.mpr hn'
      simp only [hnode, hnode', Bind.bind, Except.bind, ha.portValue, ha.name]
    | _ => cases hkind
  · next id =>
    unfold refValue
    rw [hk.get hv nofun]
  · rfl
  · rfl

end Heap
end Patchbay
