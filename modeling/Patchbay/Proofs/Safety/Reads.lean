import Patchbay.Heap.Scope
import Patchbay.Heap.Tick
import Patchbay.Proofs.Safety.Soundness

/-!
# Reading a sound heap

What is read off a sound heap through valid handles is valid, and the reading does not fail for a
dead object. Computations on primitives give primitives, which are always valid.
-/

namespace Patchbay

variable {H : HostTypes}

/-! ## Operators -/

namespace Value

variable {h : Heap H} {v w : Value} {indices : List Value}

lemma valid_prim {p : Primitive} : (Value.prim p).ValidIn h := trivial

lemma valid_of_exists_prim (hv : ∃ p, v = .prim p) : v.ValidIn h := by
  obtain ⟨p, rfl⟩ := hv
  exact valid_prim

lemma valid_binary {op : BinaryOp} {a b : Value} (hr : binary op a b = .ok v) : v.ValidIn h :=
  valid_of_exists_prim (exists_prim_of_binary hr)

lemma valid_unary {op : UnaryOp} {a : Value} (hr : unary op a = .ok v) : v.ValidIn h :=
  valid_of_exists_prim (exists_prim_of_unary hr)

lemma valid_cast {t : Tag} (hw : w.ValidIn h) (hr : w.cast t = .ok v) : v.ValidIn h := by
  rcases eq_or_exists_prim_of_cast hr with rfl | hprim
  · exact hw
  · exact valid_of_exists_prim hprim

end Value

namespace Heap

variable {T : Trust H} {h : Heap H} {id : ObjectId} {v target : Value} {indices : List Value}
  {n : Node H} {f : Frame} {p : PortRef}

/-! ## Ports -/

lemma toNat_portIndex {i : Nat} {k : UInt16} (hk : Node.portIndex? i = some k) : k.toNat = i := by
  unfold Node.portIndex? at hk
  split at hk
  · next hlt =>
    cases hk
    exact UInt16.toNat_ofNat_of_lt hlt
  · cases hk

/-- A port that is found by name is a port of the node. -/
lemma hasPort_of_find {key : String} {kind : PortKind} {index : UInt16}
    (hn : h.object? id = some (.node n)) (hp : n.findPort? key = some (kind, index)) :
    h.HasPort kind ⟨id, index⟩ := by
  rw [hasPort_iff]
  refine ⟨n, hn, rfl, ?_⟩
  have hlt : ∀ {α : Type} {ports : Array α} {test : α → Bool} {k : UInt16},
      (ports.findIdx? test).bind Node.portIndex? = some k → k.toNat < ports.size := by
    intro α ports test k hk
    obtain ⟨i, hi, hk⟩ := Option.bind_eq_some_iff.mp hk
    rw [toNat_portIndex hk]
    exact (Array.findIdx?_eq_some_iff_getElem.mp hi).1
  simp only [Node.findPort?, Option.orElse_eq_orElse, Option.orElse_eq_or, Option.or_eq_some_iff,
    Option.map_eq_some_iff, Option.map_eq_none_iff, Prod.mk.injEq] at hp
  rcases hp with ⟨k, hk, rfl, rfl⟩ | ⟨-, ⟨k, hk, rfl, rfl⟩ | ⟨-, k, hk, rfl, rfl⟩⟩
  · exact hlt hk
  · exact hlt hk
  · exact hlt hk

lemma valid_portValue {key : String} (hn : h.object? id = some (.node n))
    (hv : n.portValue? id key = some v) : v.ValidIn h := by
  obtain ⟨⟨kind, index⟩, hp, rfl⟩ := Option.map_eq_some_iff.mp hv
  exact hasPort_of_find hn hp

/-! ## Indexing -/

lemma mem_values_get {name : Name} (hv : f.get? name = some v) : v ∈ f.values := by
  obtain ⟨i, -, hb⟩ := Option.bind_eq_some_iff.mp hv
  obtain ⟨b, hmem, rfl⟩ := Option.map_eq_some_iff.mp hb
  exact List.mem_map.mpr ⟨b, Array.mem_toList_iff.mpr (Array.mem_of_getElem? hmem), rfl⟩

lemma valid_get (hs : Sound T h) (hf : h.object? id = some (.frame f)) {name : Name}
    (hv : f.get? name = some v) : v.ValidIn h := hs.value id _ hf v (mem_values_get hv)

/-- What indexing finds is stored in some object, or is a primitive, or is a port of a node. -/
lemma index_found (hr : h.index target indices = .ok v) :
    (∃ x o, h.object? x = some o ∧ v ∈ o.values) ∨ (∃ p, v = .prim p) ∨
      ∃ id key n, target = .node id ∧ h.object? id = some (.node n) ∧
        n.portValue? id key = some v := by
  unfold index at hr
  split at hr
  · next id index =>
    obtain ⟨items, hitems, hr⟩ := bind_eq_ok.mp hr
    rw [sequence_eq_ok] at hitems
    split at hr
    · cases hr
    · split at hr
      · next helem =>
        cases hr
        unfold elementAt? at helem
        split at helem
        · cases helem
        · exact .inl ⟨id, _, hitems, Array.mem_toList_iff.mpr (Array.mem_of_getElem? helem)⟩
      · cases hr
  · split at hr
    · cases hr
    · obtain ⟨g, -, hr⟩ := bind_eq_ok.mp hr
      exact .inr (.inl (Value.exists_prim_of_map hr))
  · next id key =>
    obtain ⟨f, hf, hr⟩ := bind_eq_ok.mp hr
    rw [frame_eq_ok] at hf
    split at hr
    · next hget =>
      cases hr
      obtain ⟨name, -, hget⟩ := Option.bind_eq_some_iff.mp hget
      exact .inl ⟨id, _, hf, mem_values_get hget⟩
    · cases hr
  -- a read makes the reference to a port up, it is not among the values of the node
  · next id key =>
    obtain ⟨n, hn, hr⟩ := bind_eq_ok.mp hr
    rw [node_eq_ok] at hn
    split at hr
    · next hport =>
      cases hr
      exact .inr (.inr ⟨id, key, n, rfl, hn, hport⟩)
    · cases hr
  · next id =>
    rw [refValue_eq_ok] at hr
    exact .inl ⟨id, _, hr, List.mem_cons_self⟩
  · exact .inr (.inl (Value.exists_prim_of_indexText hr))
  · cases hr

lemma valid_index (hs : Sound T h) (hr : h.index target indices = .ok v) : v.ValidIn h := by
  rcases index_found hr with ⟨x, o, ho, hv⟩ | hprim | ⟨id, key, n, -, hn, hport⟩
  · exact hs.value x o ho v hv
  · exact Value.valid_of_exists_prim hprim
  · exact valid_portValue hn hport

lemma plain_index : PlainIf (target.ValidIn h) (h.index target indices) := by
  unfold index
  split
  · refine (plain_sequence.imp fun hv => contains_of_validIn hv rfl).bind fun items _ => ?_
    split
    · exact PlainIf.fail rfl
    · split
      · exact .pure
      · exact PlainIf.fail rfl
  · split
    · exact PlainIf.fail rfl
    · refine (plain_grid.imp fun hv => contains_of_validIn hv rfl).bind fun g _ => ?_
      exact (PlainIf.of_plain Grid.plain_get).map
  · refine (plain_frame.imp fun hv => contains_of_validIn hv rfl).bind fun f _ => ?_
    split
    · exact .pure
    · exact PlainIf.fail rfl
  · refine (plain_node.imp fun hv => contains_of_validIn hv rfl).bind fun n _ => ?_
    split
    · exact .pure
    · exact PlainIf.fail rfl
  · exact plain_refValue.imp fun hv => contains_of_validIn hv rfl
  · exact PlainIf.of_plain Value.plain_indexText
  · exact PlainIf.fail rfl

/-! ## Frames around a frame -/

/-- The frames around a live frame are live. -/
lemma mem_lineage (hs : Sound T h) (hid : h.HasKind .frame id) {x : ObjectId}
    (hx : x ∈ h.lineage id) : h.HasKind .frame x := by
  refine forall_lineage (P := fun y => h.HasKind .frame y) (fun y p hp _ => ?_) hid hx
  obtain ⟨f, hf, hparent⟩ := parent?_eq_some.mp hp
  exact hs.scope y _ hf p hparent

lemma plain_nearestThis {ids : List ObjectId} :
    PlainIf (∀ x ∈ ids, h.HasKind .frame x) (h.nearestThis ids) := by
  induction ids with
  | nil => exact PlainIf.fail rfl
  | cons y rest ih =>
    refine (plain_frame.imp fun hids => (hids y List.mem_cons_self).contains).bind fun f _ => ?_
    split
    · exact .pure
    · exact ih.imp fun hids z hz => hids z (List.mem_cons_of_mem _ hz)

/-! ## Signals -/

/-- The value of an output is stored in its node. -/
lemma stored_outputValue (hr : h.outputValue p = .ok v) :
    ∃ o, h.object? p.node = some o ∧ v ∈ o.values := by
  obtain ⟨n, -, hr⟩ := bind_eq_ok.mp hr
  obtain ⟨port, hport, hr⟩ := bind_eq_ok.mp hr
  obtain ⟨n, hn, hport⟩ := outputPort_eq_ok.mp hport
  split at hr
  · next w hval =>
    cases hr
    refine ⟨_, hn, List.mem_append_right _ ?_⟩
    exact List.mem_filterMap.mpr ⟨port, Array.mem_toList_iff.mpr
      (Array.mem_of_getElem? hport), hval⟩
  · cases hr

lemma valid_outputValue (hs : Sound T h) (hr : h.outputValue p = .ok v) : v.ValidIn h := by
  obtain ⟨o, ho, hmem⟩ := stored_outputValue hr
  exact hs.value _ o ho v hmem

lemma quiet_outputValue (hc : h.contains p.node = true) : Quiet (h.outputValue p) := by
  refine (plain_node.quiet hc).bind fun n _ => (plain_outputPort.quiet hc).bind fun port _ => ?_
  split
  · exact .pure
  · exact .fail rfl

lemma stored_inputValue (hr : h.inputValue p = .ok v) :
    ∃ x o, h.object? x = some o ∧ v ∈ o.values := by
  obtain ⟨n, -, hr⟩ := bind_eq_ok.mp hr
  obtain ⟨port, -, hr⟩ := bind_eq_ok.mp hr
  split at hr
  · exact ⟨_, stored_outputValue hr⟩
  · cases hr

lemma quiet_inputValue (hs : Sound T h) (hc : h.contains p.node = true) :
    Quiet (h.inputValue p) := by
  refine (plain_node.quiet hc).bind fun n _ => (plain_inputPort.quiet hc).bind fun port hport => ?_
  obtain ⟨n', hn', hport⟩ := inputPort_eq_ok.mp hport
  split
  · next source hsource =>
    refine quiet_outputValue (hs.source p.node p.index.toNat source ?_).contains
    rw [sourceAt, hn', Option.bind_some, HeapObject.sourceAt, hport, Option.bind_some, hsource]
  · exact .fail rfl

/-- What the inputs of a node receive is stored in other nodes. -/
lemma stored_inputValues {inputs : Array Value} (hr : h.inputValues id = .ok inputs) :
    ∀ v ∈ inputs, ∃ x o, h.object? x = some o ∧ v ∈ o.values := by
  intro v hv
  obtain ⟨n, -, hr⟩ := bind_eq_ok.mp hr
  rw [Array.mapM_eq_mapM_toList] at hr
  obtain ⟨vs, hvs, rfl⟩ := map_eq_ok.mp hr
  obtain ⟨i, -, hi⟩ := exists_of_mapM hvs (by simpa using hv)
  exact stored_inputValue hi

lemma valid_inputValues (hs : Sound T h) {inputs : Array Value}
    (hr : h.inputValues id = .ok inputs) : ∀ v ∈ inputs, v.ValidIn h := by
  intro v hv
  obtain ⟨x, o, ho, hmem⟩ := stored_inputValues hr v hv
  exact hs.value x o ho v hmem

lemma quiet_inputValues (hs : Sound T h) (hc : h.contains id = true) : Quiet (h.inputValues id) :=
  (plain_node.quiet hc).bind fun _ _ => .array_mapM fun _ _ => quiet_inputValue hs hc

/-! ## Operator kernels -/

lemma mem_values_param {key : String} (hv : n.param? key = some v) :
    v ∈ (HeapObject.node n).values := by
  obtain ⟨port, hport, rfl⟩ := Option.map_eq_some_iff.mp hv
  refine List.mem_append_left _ ?_
  exact List.mem_map.mpr ⟨port, Array.mem_toList_iff.mpr (Array.mem_of_find?_eq_some hport), rfl⟩

end Heap

namespace Kernel

variable {T : Trust H} {h : Heap H} {id : ObjectId} {n : Node H} {inputs : List Value}
  {kernel : Kernel H.Kernel}

/-- A single result of an operator. -/
lemma forall_single {P : Value → Prop} {r : Except EvalError Value} {vs : List Value}
    (hr : (do return [← r]) = .ok vs) (hv : ∀ v, r = .ok v → P v) : ∀ v ∈ vs, P v := by
  obtain ⟨v, hres, hvs⟩ := bind_eq_ok.mp hr
  cases hvs
  intro w hw
  rw [List.mem_singleton.mp hw]
  exact hv v hres

/-- What an operator kernel sends: a value that needs no object, one that its node stores, and what
comes of its inputs by indexing or conversion. -/
lemma forall_compute {P : Value → Prop} (hplain : ∀ v, (∀ h : Heap H, v.ValidIn h) → P v)
    (hstored : ∀ v ∈ (HeapObject.node n).values, P v) (hin : ∀ v ∈ inputs, P v)
    (hindex : ∀ source ∈ inputs, ∀ indices v, h.index source indices = .ok v → P v)
    (hcast : ∀ v t w, P v → v.cast t = .ok w → P w) {vs : List Value}
    (hr : kernel.compute h n inputs = .ok vs) : ∀ v ∈ vs, P v := by
  cases kernel with
  | constant =>
    cases hr
    intro v hv
    rw [List.mem_singleton.mp hv]
    cases hp : n.param? "value" with
    | none => exact hplain _ fun _ => trivial
    | some w => exact hstored _ (Heap.mem_values_param hp)
  | binaryOp =>
    obtain ⟨symbol, -, hr⟩ := bind_eq_ok.mp hr
    split at hr
    · cases hr
    · exact forall_single hr fun v hv => hplain v fun _ => Value.valid_binary hv
    · cases hr
  | unaryOp =>
    obtain ⟨symbol, -, hr⟩ := bind_eq_ok.mp hr
    split at hr
    · cases hr
    · exact forall_single hr fun v hv => hplain v fun _ => Value.valid_unary hv
    · cases hr
  | index =>
    simp only [compute] at hr
    split at hr
    · exact forall_single hr fun v => hindex _ List.mem_cons_self _ v
    · cases hr
  | cast =>
    obtain ⟨type, -, hr⟩ := bind_eq_ok.mp hr
    split at hr
    · exact forall_single hr fun v => hcast _ _ v (hin _ List.mem_cons_self)
    · cases hr
  | host state =>
    cases hr
    intro v hv
    cases hv

lemma valid_compute (hs : Heap.Sound T h) (hn : h.object? id = some (.node n))
    (hin : ∀ v ∈ inputs, v.ValidIn h) {vs : List Value} (hr : kernel.compute h n inputs = .ok vs) :
    ∀ v ∈ vs, v.ValidIn h :=
  forall_compute (fun _ hv => hv h) (hs.value id _ hn) hin (fun _ _ _ _ => Heap.valid_index hs)
    (fun _ _ _ => Value.valid_cast) hr

lemma quiet_symbolParam {b : Builtin} : Quiet (symbolParam b n) := by
  unfold symbolParam
  split
  · exact .pure
  · exact .fail rfl
  · exact .fail rfl

lemma quiet_typeParam : Quiet (typeParam n) := by
  unfold typeParam
  split
  · split
    · exact .pure
    · exact .fail rfl
  · exact .fail rfl
  · exact .fail rfl

lemma quiet_compute (hin : ∀ v ∈ inputs, v.ValidIn h) : Quiet (kernel.compute h n inputs) := by
  cases kernel with
  | constant => exact .pure
  | binaryOp =>
    refine quiet_symbolParam.bind fun symbol _ => ?_
    split
    · exact .fail rfl
    · exact Value.plain_binary.quiet.bind fun _ _ => .pure
    · exact .fail rfl
  | unaryOp =>
    refine quiet_symbolParam.bind fun symbol _ => ?_
    split
    · exact .fail rfl
    · exact Value.plain_unary.quiet.bind fun _ _ => .pure
    · exact .fail rfl
  | index =>
    simp only [compute]
    split
    · exact (Heap.plain_index.quiet (hin _ List.mem_cons_self)).bind fun _ _ => .pure
    · exact .fail rfl
  | cast =>
    refine quiet_typeParam.bind fun type _ => ?_
    split
    · exact Value.plain_cast.quiet.bind fun _ _ => .pure
    · exact .fail rfl
  | host state => exact .pure

end Kernel
end Patchbay
