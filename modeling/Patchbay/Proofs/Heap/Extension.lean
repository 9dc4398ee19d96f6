import Patchbay.Proofs.Heap.Slots

/-!
# Heaps that only grow

What an object keeps while programs run, and the operations that let every object keep it: no object
goes away, bindings are only added or overwritten, containers keep their size, and nodes keep what
they are.
-/

namespace Patchbay

variable {H : HostTypes}

/-- What may become of an object. -/
inductive HeapObject.Evolves : HeapObject H → HeapObject H → Prop where
  /-- A frame stays where it is, and its bindings stay in their order. -/
  | frame {f f' : Frame} : f'.parent = f.parent → f'.path = f.path → f'.depth = f.depth →
      f'.isThis = f.isThis → f.boundNames <+: f'.boundNames → Evolves (.frame f) (.frame f')
  | callable (f : Callable H) : Evolves (.callable f) (.callable f)
  /-- A node stays what it is and keeps the names of its ports. -/
  | node {n n' : Node H} : n'.name = n.name → n'.kind = n.kind → n'.library = n.library →
      n'.inputs.map InputPort.name = n.inputs.map InputPort.name →
      n'.outputs.map OutputPort.name = n.outputs.map OutputPort.name →
      n'.params.map ParamPort.name = n.params.map ParamPort.name → n'.kernel = n.kernel →
      Evolves (.node n) (.node n')
  | sequence {items items' : Array Value} : items'.size = items.size →
      Evolves (.sequence items) (.sequence items')
  | grid {g g' : Grid} : g'.dims = g.dims → g'.size = g.size → Evolves (.grid g) (.grid g')
  | ref (v w : Value) : Evolves (.ref v) (.ref w)

namespace HeapObject.Evolves

variable {o o' o'' : HeapObject H}

lemma refl (o : HeapObject H) : o.Evolves o := by
  cases o with
  | frame f => exact .frame rfl rfl rfl rfl (List.prefix_refl _)
  | callable f => exact .callable f
  | node n => exact .node rfl rfl rfl rfl rfl rfl rfl
  | sequence items => exact .sequence rfl
  | grid g => exact .grid rfl rfl
  | ref v => exact .ref v v

lemma trans (h1 : o.Evolves o') (h2 : o'.Evolves o'') : o.Evolves o'' := by
  cases h1 with
  | frame hparent hpath hdepth hthis hnames =>
    cases h2 with
    | frame hparent' hpath' hdepth' hthis' hnames' =>
      exact .frame (hparent'.trans hparent) (hpath'.trans hpath) (hdepth'.trans hdepth)
        (hthis'.trans hthis) (hnames.trans hnames')
  | callable f => exact h2
  | node hname hkind hlibrary hinputs houtputs hparams hkernel =>
    cases h2 with
    | node hname' hkind' hlibrary' hinputs' houtputs' hparams' hkernel' =>
      exact .node (hname'.trans hname) (hkind'.trans hkind) (hlibrary'.trans hlibrary)
        (hinputs'.trans hinputs) (houtputs'.trans houtputs) (hparams'.trans hparams)
        (hkernel'.trans hkernel)
  | sequence hsize =>
    cases h2 with
    | sequence hsize' => exact .sequence (hsize'.trans hsize)
  | grid hdims hsize =>
    cases h2 with
    | grid hdims' hsize' => exact .grid (hdims'.trans hdims) (hsize'.trans hsize)
  | ref v w =>
    cases h2 with
    | ref _ u => exact .ref v u

/-! Changes of the ports of a node that leave their names alone. -/

section Ports

variable {n : Node H} {i : Nat}

lemma inputs {g : InputPort → InputPort} (hg : ∀ p, (g p).name = p.name) :
    (HeapObject.node n).Evolves (.node { n with inputs := n.inputs.modify i g }) :=
  .node rfl rfl rfl (Heap.map_modify hg) rfl rfl rfl

lemma outputs {g : OutputPort → OutputPort} (hg : ∀ p, (g p).name = p.name) :
    (HeapObject.node n).Evolves (.node { n with outputs := n.outputs.modify i g }) :=
  .node rfl rfl rfl rfl (Heap.map_modify hg) rfl rfl

lemma params {g : ParamPort → ParamPort} (hg : ∀ p, (g p).name = p.name) :
    (HeapObject.node n).Evolves (.node { n with params := n.params.modify i g }) :=
  .node rfl rfl rfl rfl rfl (Heap.map_modify hg) rfl

end Ports

end HeapObject.Evolves

/-- What a write to a container may make of an object. Nodes are no containers. -/
structure HeapObject.Filled (o o' : HeapObject H) : Prop where
  evolves : o.Evolves o'
  node : o.kind = .node → o' = o

namespace HeapObject.Filled

variable {o o' o'' : HeapObject H}

lemma refl (o : HeapObject H) : o.Filled o := ⟨.refl o, fun _ => rfl⟩

lemma trans (h1 : o.Filled o') (h2 : o'.Filled o'') : o.Filled o'' :=
  ⟨h1.evolves.trans h2.evolves, fun hk => by
    obtain rfl := h1.node hk
    exact h2.node hk⟩

end HeapObject.Filled

namespace Heap

variable {h h' h'' : Heap H} {id : ObjectId} {name : Name} {v : Value} {f f' : Frame}

/-- Every object of `h` is in `h'` under the same handle, and is still what it was. -/
def EvolvesTo (h h' : Heap H) : Prop :=
  ∀ id o, h.object? id = some o → ∃ o', h'.object? id = some o' ∧ o.Evolves o'

namespace EvolvesTo

lemma refl (h : Heap H) : h.EvolvesTo h := fun _ o ho => ⟨o, ho, .refl o⟩

lemma trans (h1 : h.EvolvesTo h') (h2 : h'.EvolvesTo h'') : h.EvolvesTo h'' := by
  intro id o ho
  obtain ⟨o', ho', he⟩ := h1 id o ho
  obtain ⟨o'', ho'', he'⟩ := h2 id o' ho'
  exact ⟨o'', ho'', he.trans he'⟩

/-- A new object comes into a vacant slot. -/
lemma alloc (ht : h.Tidy) (o : HeapObject H) : h.EvolvesTo (h.alloc o).2 := fun x o' ho => by
  refine ⟨o', ?_, .refl o'⟩
  rw [object?_alloc_of_contains ht (contains_of_object? ho), ho]

end EvolvesTo

/-! ## Writes -/

/-- A write that lets objects evolve. -/
abbrev Evolved : Heap H → Heap H → Prop := Touched HeapObject.Evolves

namespace Evolved

lemma refl (h : Heap H) : Evolved h h := Touched.refl .refl h

lemma trans (h1 : Evolved h h') (h2 : Evolved h' h'') : Evolved h h'' :=
  Touched.trans (fun _ _ _ => .trans) h1 h2

lemma evolvesTo (h1 : Evolved h h') : h.EvolvesTo h' := fun _ _ ho => h1.object ho

lemma modifyNode {g : Node H → Node H} (hg : ∀ n, (HeapObject.node n).Evolves (.node (g n))) :
    Evolved h (h.modifyNode id g) := by
  refine touched_modifyObject .refl fun o _ => ?_
  cases o with
  | node n => exact hg n
  | _ => exact .refl _

lemma unplug {input : PortRef} : Evolved h (h.unplug input) := by
  unfold Heap.unplug
  split
  · exact .refl h
  · refine Evolved.trans (Evolved.trans (.modifyNode fun n => ?_) (.modifyNode fun n => ?_))
      (touched_resetAge .refl)
    · exact .inputs fun _ => rfl
    · exact .outputs fun _ => rfl

lemma plug {input output : PortRef} : Evolved h (h.plug input output) := by
  refine Evolved.trans (.modifyNode fun n => ?_) (.modifyNode fun n => ?_)
  · exact .inputs fun _ => rfl
  · exact .outputs fun _ => rfl

end Evolved

/-- A write to a container. -/
abbrev Filled : Heap H → Heap H → Prop := Touched HeapObject.Filled

namespace Filled

lemma refl (h : Heap H) : Filled h h := Touched.refl .refl h

lemma trans (h1 : Filled h h') (h2 : Filled h' h'') : Filled h h'' :=
  Touched.trans (fun _ _ _ => .trans) h1 h2

lemma release : Filled h (h.release v) := touched_release .refl

/-- A container in the place of one that it evolved from. -/
lemma put {o o' : HeapObject H} (ho : h.object? id = some o) (hk : o.kind ≠ .node)
    (he : o.Evolves o') : Filled h (h.modifyObject id fun _ => o') := by
  refine touched_modifyObject .refl fun x hx => ?_
  rw [ho] at hx
  cases hx
  exact ⟨he, fun hnode => absurd hnode hk⟩

lemma evolved (h1 : Filled h h') : Evolved h h' := h1.mono fun _ _ ho => ho.evolves

/-- Nodes stay. -/
lemma node (h1 : Filled h h') {n : Node H} (hn : h.object? id = some (.node n)) :
    h'.object? id = some (.node n) := by
  obtain ⟨o, ho, hf⟩ := h1.object hn
  rw [ho, hf.node rfl]

end Filled

lemma evolves_of_samePlace (hplace : f.SamePlace f') (hnames : f.boundNames <+: f'.boundNames) :
    (HeapObject.frame f : HeapObject H).Evolves (.frame f') :=
  .frame hplace.parent hplace.path hplace.depth hplace.isThis hnames

lemma evolves_insert (hf : f.insert? name v = some f') :
    (HeapObject.frame f : HeapObject H).Evolves (.frame f') :=
  evolves_of_samePlace (Frame.samePlace_insert hf)
    (Frame.boundNames_insert hf ▸ List.prefix_append _ _)

lemma evolves_replace {old : Value} (hf : f.replace? name v = some (old, f')) :
    (HeapObject.frame f : HeapObject H).Evolves (.frame f') :=
  evolves_of_samePlace (Frame.samePlace_replace hf)
    (Frame.boundNames_replace hf ▸ List.prefix_refl _)

/-! ## Operations -/

/-- The operation does nothing but write to containers, however it ends. -/
abbrev LeavesFilled {α : Type} (m : HeapM H α) (h : Heap H) : Prop :=
  m.Ends h (fun _ => Filled h) fun _ => Filled h

/-- The operation lets every object evolve, however it ends. -/
abbrev LeavesEvolved {α : Type} (m : HeapM H α) (h : Heap H) : Prop :=
  m.Ends h (fun _ => Evolved h) fun _ => Evolved h

section Operations

variable {α β : Type}

lemma LeavesFilled.evolved {m : HeapM H α} (hm : LeavesFilled m h) : LeavesEvolved m h :=
  HeapM.Ends.mono hm (fun _ _ => Filled.evolved) fun _ _ => Filled.evolved

lemma filled_read_bind {look : Heap H → Except EvalError α} {g : α → HeapM H β}
    (hg : ∀ a, look h = .ok a → LeavesFilled (g a) h) : LeavesFilled (HeapM.read look >>= g) h :=
  HeapM.ends_read_bind hg fun _ _ => .refl h

lemma filled_define : LeavesFilled (define id name v) h := by
  refine filled_read_bind fun f hf => ?_
  split
  · next f' hinsert => exact Filled.put (frame_eq_ok.mp hf) nofun (evolves_insert hinsert)
  · exact HeapM.ends_read.mpr ⟨fun _ _ => .refl h, fun _ _ => .refl h⟩

lemma filled_assign : LeavesFilled (assign id name v) h := by
  refine filled_read_bind fun f hf => ?_
  split
  · next old f' hreplace =>
    exact (Filled.put (frame_eq_ok.mp hf) nofun (evolves_replace hreplace)).trans .release
  · exact Filled.refl h

lemma filled_bind : LeavesFilled (Heap.bind id name v) h := by
  refine HeapM.Ends.bind filled_assign fun found h' h1 => ?_
  split
  · exact h1
  · exact HeapM.Ends.mono filled_define (fun _ _ => h1.trans) fun _ _ => h1.trans

lemma filled_setRef : LeavesFilled (setRef id v) h :=
  filled_read_bind fun old hold =>
    (Filled.put (refValue_eq_ok.mp hold) nofun (.ref old v)).trans .release

lemma filled_setIndex {target : Value} {indices : List Value} :
    LeavesFilled (setIndex target indices v) h := by
  refine ends_setIndex (fun id index i items old _ _ _ hitems _ => ?_)
    (fun id coords g g' _ _ hg hset => ?_)
    (fun id key _ _ => ?_) (fun id _ _ => filled_setRef) fun _ _ => .refl h
  · refine Filled.trans (Filled.put hitems nofun ?_) .release
    exact .sequence (Array.size_setIfInBounds ..)
  · exact Filled.put hg nofun (.grid (of_set hset).1 (of_set hset).2)
  · have hnames : Filled h { h with names := (h.names.intern key).2 } :=
      ⟨fun _ => rfl, rfl, rfl, rfl, (Filled.refl h).entry⟩
    exact HeapM.Ends.mono filled_bind (fun _ _ => hnames.trans) fun _ _ => hnames.trans

lemma evolved_setParam {host : KernelHost H} {param : PortRef} :
    LeavesEvolved (setParam host param v) h := by
  refine HeapM.ends_read_bind (fun n _ => ?_) fun _ _ => .refl h
  split
  · exact HeapM.ends_read.mpr ⟨fun _ _ => .refl h, fun _ _ => .refl h⟩
  · refine HeapM.ends_read_bind (fun _ _ => ?_) fun _ _ => .refl h
    refine Evolved.trans (.modifyNode fun n => ?_) Filled.release.evolved
    exact .params fun _ => rfl

lemma evolved_connect {input output : PortRef} : LeavesEvolved (connect input output) h :=
  ends_connect_either (.refl h) fun _ _ => .trans .unplug .plug

lemma evolvesTo_modifyEntry {g : Entry H → Entry H} (hg : ∀ e, (g e).object = e.object) :
    h.EvolvesTo (h.modifyEntry id g) := fun x o ho => ⟨o, by rwa [object?_modifyEntry hg], .refl o⟩

lemma evolved_leaves {m : HeapM H α} (hm : LeavesEvolved m h) : h.EvolvesTo (m.leaves h) :=
  Evolved.evolvesTo (HeapM.Ends.leaves hm)

end Operations

end Heap
end Patchbay
