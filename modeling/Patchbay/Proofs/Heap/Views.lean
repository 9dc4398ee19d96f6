import Patchbay.Proofs.Heap.Entries

/-!
# What objects hold

An object holds values, may stand in the scope of a frame, and a node has wires at its inputs and
outputs. Every reference to another object is one of these. The relation `Rewritten` says what a
write may do to an object: some of its values become new ones, and all else stays.
-/

namespace Patchbay

variable {H : HostTypes}

/-- The kind of an object, with the numbers of ports of a node. No write changes it. -/
structure ObjectShape where
  kind : ObjectKind
  inputs : Nat
  outputs : Nat
  params : Nat
deriving DecidableEq

/-- Whether a node of this shape has a port. -/
def ObjectShape.HasPort (s : ObjectShape) (kind : PortKind) (index : Nat) : Prop :=
  s.kind = .node ∧
    match kind with
    | .input => index < s.inputs
    | .output => index < s.outputs
    | .param => index < s.params

namespace HeapObject

variable {o o' o'' : HeapObject H} {P : Value → Prop} {K : H.Kernel → Prop}

def shape : HeapObject H → ObjectShape
  | node n => ⟨.node, n.inputs.size, n.outputs.size, n.params.size⟩
  | o => ⟨o.kind, 0, 0, 0⟩

@[simp] lemma kind_shape : o.shape.kind = o.kind := by
  cases o <;> rfl

/-- The values that an object holds. -/
def values : HeapObject H → List Value
  | frame f => f.values
  | callable c => c.params.filterMap Parameter.default
  | node n =>
    n.params.toList.map ParamPort.value ++ n.outputs.toList.filterMap OutputPort.value
  | sequence items => items.toList
  | grid _ => []
  | ref v => [v]

/-- The frame around a frame, or around the body of a function. -/
def scope? : HeapObject H → Option ObjectId
  | frame f => f.parent
  | callable c => c.closure
  | _ => none

/-- The dimensions of an array, and the number of its elements. -/
def extents? : HeapObject H → Option (List Nat × Nat)
  | grid g => some (g.dims, g.size)
  | _ => none

/-- The source of an input. -/
def sourceAt (o : HeapObject H) (i : Nat) : Option PortRef :=
  match o with
  | node n => n.inputs[i]?.bind InputPort.source
  | _ => none

/-- The targets of an output. -/
def targetsAt (o : HeapObject H) (i : Nat) : List PortRef :=
  match o with
  | node n => (n.outputs[i]?.map fun p => p.targets.toList).getD []
  | _ => []

/-- The state of the kernel of a node, if it is one of the host. -/
def hostKernel? : HeapObject H → Option H.Kernel
  | node n =>
    match n.kernel with
    | some (.host state) => some state
    | _ => none
  | _ => none

def callable? : HeapObject H → Option (Callable H)
  | callable c => some c
  | _ => none

/-- Whether no port of the object is wired. -/
def Unwired (o : HeapObject H) : Prop := ∀ i, o.sourceAt i = none ∧ o.targetsAt i = []

/-- Every reference that a collection follows is a value, a scope or a source. -/
lemma mem_children {x : ObjectId} :
    x ∈ o.children ↔
      (∃ v ∈ o.values, v.referent = some x) ∨ o.scope? = some x ∨
        ∃ i p, o.sourceAt i = some p ∧ p.node = x := by
  cases o with
  | frame f =>
    simp only [children, Frame.children, values, scope?, sourceAt, List.mem_append,
      Option.mem_toList, List.mem_filterMap]
    simp [or_comm]
  | callable c =>
    simp only [children, Callable.children, values, scope?, sourceAt, List.mem_append,
      Option.mem_toList, List.mem_filterMap, Option.bind_eq_some_iff]
    constructor
    · rintro (hx | ⟨p, hp, v, hv, hx⟩)
      · exact .inr (.inl hx)
      · exact .inl ⟨v, ⟨p, hp, hv⟩, hx⟩
    · rintro (⟨v, ⟨p, hp, hv⟩, hx⟩ | hx | ⟨i, p, hp, -⟩)
      · exact .inr ⟨p, hp, v, hv, hx⟩
      · exact .inl hx
      · simp at hp
  | node n =>
    simp only [children, Node.children, values, scope?, sourceAt, List.mem_append,
      List.mem_filterMap, List.mem_map, Option.map_eq_some_iff, Option.bind_eq_some_iff]
    constructor
    · rintro ((⟨port, hport, p, hp, hx⟩ | ⟨port, hport, hx⟩) | ⟨port, hport, v, hv, hx⟩)
      · obtain ⟨i, hi⟩ := List.mem_iff_getElem?.mp hport
        exact .inr (.inr ⟨i, p, ⟨port, by simpa using hi, hp⟩, hx⟩)
      · exact .inl ⟨port.value, .inl ⟨port, hport, rfl⟩, hx⟩
      · exact .inl ⟨v, .inr ⟨port, hport, hv⟩, hx⟩
    · rintro (⟨v, ⟨port, hport, rfl⟩ | ⟨port, hport, hv⟩, hx⟩ | hx | ⟨i, p, ⟨port, hi, hp⟩, hx⟩)
      · exact .inl (.inr ⟨port, hport, hx⟩)
      · exact .inr ⟨port, hport, v, hv, hx⟩
      · simp at hx
      · refine .inl (.inl ⟨port, ?_, p, hp, hx⟩)
        exact List.mem_iff_getElem?.mpr ⟨i, by simpa using hi⟩
  | sequence items => simp [children, values, scope?, sourceAt]
  | grid g => simp [children, values, scope?, sourceAt]
  | ref v => simp [children, values, scope?, sourceAt]

/-! ## Objects without wires -/

lemma unwired_of_kind (ho : o.kind ≠ .node) : o.Unwired := by
  intro i
  cases o with
  | node n => exact absurd rfl ho
  | _ => exact ⟨rfl, rfl⟩

lemma unwired_node {n : Node H} (hin : ∀ p ∈ n.inputs, p.source = none)
    (hout : ∀ p ∈ n.outputs, p.targets = #[]) : (node n).Unwired := by
  intro i
  constructor
  · cases hp : n.inputs[i]? with
    | none => simp [sourceAt, hp]
    | some p => simp [sourceAt, hp, hin p (Array.mem_of_getElem? hp)]
  · cases hp : n.outputs[i]? with
    | none => simp [targetsAt, hp]
    | some p => simp [targetsAt, hp, hout p (Array.mem_of_getElem? hp)]

lemma unwired_constant {name : String} {v : Value} :
    (node (.constant name v) : HeapObject H).Unwired :=
  unwired_node (by simp [Node.constant, Node.withParam, Node.new]) (by simp [Node.constant])

/-- A constant node stores its value, and no other. -/
lemma eq_of_mem_values_constant {name : String} {v w : Value}
    (hw : w ∈ (node (.constant name v) : HeapObject H).values) : w = v := by
  simpa [values, Node.constant, Node.withParam, Node.new] using hw

lemma unwired_binaryOp {name : String} {op : BinaryOp} :
    (node (.binaryOp name op) : HeapObject H).Unwired :=
  unwired_node (by simp [Node.binaryOp, Node.withOutput, Node.withParam, Node.withInput, Node.new])
    (by simp [Node.binaryOp, Node.withOutput, Node.withParam, Node.withInput, Node.new])

lemma unwired_unaryOp {name : String} {op : UnaryOp} :
    (node (.unaryOp name op) : HeapObject H).Unwired :=
  unwired_node (by simp [Node.unaryOp, Node.withOutput, Node.withParam, Node.withInput, Node.new])
    (by simp [Node.unaryOp, Node.withOutput, Node.withParam, Node.withInput, Node.new])

lemma unwired_index {name : String} {count : Nat} :
    (node (.index name count) : HeapObject H).Unwired :=
  unwired_node (by simp [Node.index]) (by simp [Node.index, Node.withOutput, Node.new])

lemma unwired_cast {name : String} {type : PrimType} :
    (node (.cast name type) : HeapObject H).Unwired :=
  unwired_node (by simp [Node.cast, Node.withOutput, Node.withParam, Node.withInput, Node.new])
    (by simp [Node.cast, Node.withOutput, Node.withParam, Node.withInput, Node.new])

/-! ## Writes to an object -/

/-- A write replaces some values by ones that satisfy `P`, and the state of a host kernel by one
that satisfies `K`. -/
structure Rewritten (P : Value → Prop) (K : H.Kernel → Prop) (o o' : HeapObject H) : Prop where
  shape : o'.shape = o.shape
  scope : o'.scope? = o.scope?
  extents : o'.extents? = o.extents?
  callable : o'.callable? = o.callable?
  value : ∀ v ∈ o'.values, v ∈ o.values ∨ P v
  kernel : ∀ k, o'.hostKernel? = some k → o.hostKernel? = some k ∨ K k

/-- Two objects have the same wires. -/
structure SameWires (o o' : HeapObject H) : Prop where
  source : ∀ i, o'.sourceAt i = o.sourceAt i
  targets : ∀ i, o'.targetsAt i = o.targetsAt i

lemma Rewritten.refl (o : HeapObject H) : o.Rewritten P K o :=
  ⟨rfl, rfl, rfl, rfl, fun _ => .inl, fun _ => .inl⟩

lemma Rewritten.trans (h1 : o.Rewritten P K o') (h2 : o'.Rewritten P K o'') :
    o.Rewritten P K o'' where
  shape := h2.shape.trans h1.shape
  scope := h2.scope.trans h1.scope
  extents := h2.extents.trans h1.extents
  callable := h2.callable.trans h1.callable
  value v hv := (h2.value v hv).elim (h1.value v) .inr
  kernel k hk := (h2.kernel k hk).elim (h1.kernel k) .inr

lemma Rewritten.mono {P' : Value → Prop} {K' : H.Kernel → Prop} (hw : o.Rewritten P K o')
    (hP : ∀ v, P v → P' v) (hK : ∀ k, K k → K' k) : o.Rewritten P' K' o' where
  shape := hw.shape
  scope := hw.scope
  extents := hw.extents
  callable := hw.callable
  value v hv := (hw.value v hv).imp_right (hP v)
  kernel k hk := (hw.kernel k hk).imp_right (hK k)

lemma SameWires.refl (o : HeapObject H) : o.SameWires o := ⟨fun _ => rfl, fun _ => rfl⟩

lemma SameWires.trans (h1 : o.SameWires o') (h2 : o'.SameWires o'') : o.SameWires o'' where
  source i := (h2.source i).trans (h1.source i)
  targets i := (h2.targets i).trans (h1.targets i)

end HeapObject
end Patchbay
