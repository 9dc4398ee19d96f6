import Patchbay.Proofs.Courses.Feeding

/-!
# What building leaves behind

Building stores a new node and constant nodes, and connects the inputs of the new node, until it
ends or fails. Old nodes stay as they are, and nothing leads to the new nodes but inputs of the new
node. If building ends, the new node is fed by all of its operands.
-/

namespace Patchbay

variable {H : HostTypes}

/-- An operator node has one input for each operand, and each input is connected to the port of its
operand, or to a constant node of its own that emits the operand. -/
structure Heap.Fed (h : Heap H) (c : Construction) (id : ObjectId) : Prop where
  arity : ∃ n, h.object? id = some (.node n) ∧ n.inputs.size = c.operands.length
  operand : ∀ k u, c.operands[k]? = some u → ∃ p, h.sourceAt id k = some p ∧ h.HasOutput p ∧
    (u = .output p ∨ u.isOutput = false ∧ p.node ∈ c.made ∧ h.Emits p.node u)

/-- A node stays fed while it and its constant nodes stay as they are. -/
lemma Heap.Fed.later {h h' : Heap H} {c c' : Construction} {id : ObjectId} (hf : h.Fed c id)
    (hs : h'.Sound .any) (hoperands : c'.operands = c.operands) (hid : h.Steady h' id)
    (hmade : ∀ k p, h.sourceAt id k = some p → p.node ∈ c.made → p.node ∈ c'.made ∧
      h.Steady h' p.node) :
    h'.Fed c' id where
  arity := by
    obtain ⟨n, hn, hsize⟩ := hf.arity
    obtain ⟨o, ho, hshape⟩ := shape?_eq_some.mp (hid.shape _ (shape?_eq_some.mpr ⟨_, hn, rfl⟩))
    cases o with
    | node n' =>
      rw [HeapObject.shape, HeapObject.shape, ObjectShape.mk.injEq] at hshape
      exact ⟨n', ho, by rw [hoperands, ← hsize, hshape.2.1]⟩
    | _ => cases congrArg ObjectShape.kind hshape
  operand k u hu := by
    rw [hoperands] at hu
    obtain ⟨p, hp, -, hfrom⟩ := hf.operand k u hu
    have hp' := (hid.source k).trans hp
    refine ⟨p, hp', hasPort_output.mp (hs.source id k p hp'), hfrom.imp_right fun hconst => ?_⟩
    obtain ⟨hmem, hsteady⟩ := hmade k p hp hconst.2.1
    exact ⟨hconst.1, hmem, hsteady.emits u hconst.2.2⟩

/-! ## New nodes -/

lemma HeapObject.sentAt_unplugged {o : HeapObject H} {i : Nat} :
    o.unplugged.sentAt i = o.sentAt i := by
  cases o with
  | node n =>
    simp only [unplugged, sentAt, Array.getElem?_map]
    cases n.outputs[i]? <;> rfl
  | _ => rfl

/-- What a node has sent does not depend on what it is connected to. -/
lemma Heap.sentAt_of_plain {h : Heap H} {x : ObjectId} {o : HeapObject H} {i : Nat}
    (hp : h.plain? x = some o.unplugged) : h.sentAt x i = o.sentAt i := by
  obtain ⟨o', ho', heq⟩ := Option.map_eq_some_iff.mp hp
  rw [sentAt, ho', Option.bind_some, ← HeapObject.sentAt_unplugged, heq,
    HeapObject.sentAt_unplugged]

lemma Heap.emits_of_plain {h : Heap H} {x : ObjectId} {name : String} {u : Value}
    (hp : h.plain? x = some (HeapObject.node (.constant name u)).unplugged) : h.Emits x u :=
  emits_iff_plain.mpr ⟨_, hp, rfl, rfl, by simp [Node.constant]⟩

/-- A new operator node has sent nothing. -/
lemma Operator.unsent {make : String → Node H} {count : Nat} (ho : Operator make count)
    (name : String) (i : Nat) : (HeapObject.node (make name)).sentAt i = none := by
  rw [HeapObject.sentAt, ho.outputs]
  cases i <;> rfl

namespace Heap

/-- What building an operator node has made of a heap, however far it came. -/
structure Assembled (make : String → Node H) (operands : List Value) (h h' : Heap H) : Prop where
  sound : h'.Sound .any
  grown : h.Extends h'
  steady : ∀ x, h.contains x = true → h.Steady h' x
  plain : ∀ x, h.contains x = true → h'.plain? x = h.plain? x
  source : ∀ y i p, h'.sourceAt y i = some p → h.sourceAt y i = some p ∨
    h.contains y = false ∧ (.output p ∈ operands ∨ h.contains p.node = false)
  newcomer : ∀ x, h'.contains x = true → h.contains x = true ∨
    (∃ name, x = h.nextId ∧ h'.plain? x = some (HeapObject.node (make name)).unplugged) ∨
    ∃ name u, u ∈ operands ∧ u.isOutput = false ∧
      h'.plain? x = some (HeapObject.node (.constant name u)).unplugged

variable {h h' : Heap H} {make : String → Node H} {operands : List Value} {x : ObjectId}

namespace Assembled

/-- One more new node is stored. -/
lemma alloc {n : Node H} (ha : Assembled make operands h h') (hf : h'.Fits .any (.node n))
    (hnode : (∃ name, h'.nextId = h.nextId ∧ n = make name) ∨
      ∃ name u, u ∈ operands ∧ u.isOutput = false ∧ n = .constant name u) :
    Assembled make operands h (h'.alloc (.node n)).2 := by
  have ht := ha.sound.tidy
  have hgrown := ha.grown.trans (extends_alloc (o := .node n) ht)
  have hold : ∀ x, h'.contains x = true → h'.Steady (h'.alloc (.node n)).2 x := fun x hx =>
    .alloc ht hx _
  have hplain : ∀ y, (h'.alloc (.node n)).2.plain? y =
      if y = h'.nextId then some (HeapObject.node n).unplugged else h'.plain? y := fun y => by
    rw [plain?, object?_alloc ht]
    split
    · rfl
    · rfl
  have hne : ∀ x, h'.contains x = true → x ≠ h'.nextId := fun _ => ne_nextId ht
  refine ⟨ha.sound.alloc hf, hgrown, fun x hx => ?_, fun x hx => ?_, fun y i p hp => ?_,
    fun x hx => ?_⟩
  · exact (ha.steady x hx).trans (hold x (Persists.contains ha.grown.shape hx))
  · rw [hplain, if_neg (hne x (Persists.contains ha.grown.shape hx)), ha.plain x hx]
  -- what is allocated is unwired, so every wire was there before
  · obtain ⟨o, ho, hsource⟩ := Option.bind_eq_some_iff.mp hp
    rcases object?_alloc_or ho with rfl | hobj
    · rw [(hf.unwired i).1] at hsource
      cases hsource
    · exact ha.source y i p (by rw [sourceAt, hobj, Option.bind_some, hsource])
  · rw [hplain]
    rcases (contains_alloc ht).mp hx with rfl | hx
    · rw [if_pos rfl]
      rcases hnode with ⟨name, hid, rfl⟩ | ⟨name, u, hu, hout, rfl⟩
      · exact .inr (.inl ⟨name, hid, rfl⟩)
      · exact .inr (.inr ⟨name, u, hu, hout, rfl⟩)
    · rw [if_neg (hne x hx)]
      exact ha.newcomer x hx

/-- An input of the new node is connected. -/
lemma plug {input p : PortRef} (ha : Assembled make operands h h')
    (hnew : h.contains input.node = false) (hp : .output p ∈ operands ∨ h.contains p.node = false)
    (hin : h'.HasInput input) (hout : h'.HasOutput p) :
    Assembled make operands h ((h'.unplug input).plug input p) := by
  have hr : Rewired h' ((h'.unplug input).plug input p) := rewired_unplug.trans rewired_plug
  refine ⟨ha.sound.connect hin hout, ha.grown.trans hr.extends, fun x hx => ?_, fun x hx => ?_,
    fun y i q hq => ?_, fun x hx => ?_⟩
  · have hne : input.node ≠ x := by
      rintro rfl
      rw [hnew] at hx
      cases hx
    exact (ha.steady x hx).trans (.connect hin hne)
  · rw [plain?_plug, plain?_unplug, ha.plain x hx]
  -- the one new wire goes into the operator, which is new
  · rw [sourceAt_plug_unplug hin] at hq
    split at hq
    · next heq =>
      cases hq
      exact .inr ⟨heq.1 ▸ hnew, hp⟩
    · exact ha.source y i q hq
  · rw [hr.contains] at hx
    rw [plain?_plug, plain?_unplug]
    exact ha.newcomer x hx

/-- What building stores are nodes. -/
lemma node (ha : Assembled make operands h h') (hx : x ∈ h.newcomers h') : h'.HasKind .node x := by
  obtain ⟨hlive, hfresh⟩ := mem_newcomers.mp hx
  have hplain : ∃ n : Node H, h'.plain? x = some (HeapObject.node n).unplugged := by
    rcases ha.newcomer x hlive with hold | ⟨name, -, hp⟩ | ⟨name, u, -, -, hp⟩
    · rw [hfresh] at hold
      cases hold
    · exact ⟨_, hp⟩
    · exact ⟨_, hp⟩
  obtain ⟨n, hp⟩ := hplain
  obtain ⟨o, ho, heq⟩ := Option.map_eq_some_iff.mp hp
  have hkind : o.kind = .node := by
    cases o with
    | node n => rfl
    | _ => cases heq
  rw [← hkind]
  exact hasKind_of_object ho

/-- No frames are among them. -/
lemma frame (ha : Assembled make operands h h') (hx : h'.HasKind .frame x) :
    h.HasKind .frame x := by
  cases hc : h.contains x with
  | true =>
    obtain ⟨o, ho⟩ := exists_object? hc
    have hs : h.shape? x = some o.shape := shape?_eq_some.mpr ⟨o, ho, rfl⟩
    obtain ⟨s, hs', hkind⟩ := hx
    cases hs'.symm.trans ((ha.steady x hc).shape _ hs)
    exact ⟨_, hs, hkind⟩
  | false =>
    obtain ⟨s, hs, hnode⟩ := ha.node (mem_newcomers.mpr ⟨hx.contains, hc⟩)
    obtain ⟨s', hs', hframe⟩ := hx
    cases hs.symm.trans hs'
    cases hnode.symm.trans hframe

/-- Only new nodes lead to new nodes. -/
lemma closed (ha : Assembled make operands h h') (hs : h.Sound .any) {y : ObjectId} {i : Nat}
    {p : PortRef} (hp : h'.sourceAt y i = some p) (hmade : p.node ∈ h.newcomers h') :
    y ∈ h.newcomers h' := by
  obtain ⟨-, hfresh⟩ := mem_newcomers.mp hmade
  rcases ha.source y i p hp with hold | ⟨hy, -⟩
  · have hlive := (hs.source y i p hold).contains
    rw [hfresh] at hlive
    cases hlive
  · exact mem_newcomers.mpr ⟨contains_of_sourceAt hp, hy⟩

end Assembled

/-- Building from valid operands. -/
lemma leaves_assembled {s : Session H} (kind : String) (hs : s.heap.Sound .any)
    (ho : Operator make operands.length) (hvalid : ∀ v ∈ operands, v.ValidIn s.heap) :
    (Lift.build kind make operands s).Leaves fun s' => Assembled make operands s.heap s'.heap := by
  have ht := hs.tidy
  refine Lift.leaves_build (I := Assembled make operands s.heap)
    (Q := fun p => .output p ∈ operands ∨ s.heap.contains p.node = false)
    (fun name => ?_) (fun _ => .inl) (fun h name u ha hu hout => ⟨?_, .inr ?_⟩)
    fun h index p ha hp hin hout => ha.plug (contains_nextId ht) hp hin hout
  · have hrefl : Assembled make operands s.heap s.heap :=
      ⟨hs, .refl _, fun _ _ => .of_object rfl, fun _ _ => rfl, fun _ _ _ => .inl, fun _ => .inl⟩
    exact hrefl.alloc (fits_operator ho name) (.inl ⟨name, rfl, rfl⟩)
  · exact ha.alloc (fits_constant (ha.grown.valid (hvalid u hu))) (.inr ⟨name, u, hu, hout, rfl⟩)
  · have hnext := contains_nextId ha.sound.tidy
    rw [← Bool.not_eq_true] at hnext ⊢
    exact fun hc => hnext (Persists.contains ha.grown.shape hc)

end Heap

/-! ## Building that ends -/

namespace Lift

variable {s s' : Session H}

/-- Wiring ends only if there are handles for all positions. -/
lemma wire_fits {node : ObjectId} {kind : String} {count : Nat} (rest : List Value) {position : Nat}
    {s : Session H} (hrun : wire node kind count position rest s = .ok () s') {k : Nat}
    (hk : k < rest.length) : position + k < UInt16.size := by
  induction rest generalizing position s k with
  | nil => cases hk
  | cons u rest ih =>
    unfold wire at hrun
    obtain ⟨p, s1, -, hrun⟩ := Eval.bind_eq_ok.mp hrun
    cases hindex : Node.portIndex? position with
    | none =>
      rw [hindex] at hrun
      cases hrun
    | some index =>
      rw [hindex] at hrun
      obtain ⟨_, s2, -, hrest⟩ := Eval.bind_eq_ok.mp hrun
      have hlt : position < UInt16.size := by
        unfold Node.portIndex? at hindex
        split at hindex
        · assumption
        · cases hindex
      cases k with
      | zero => exact hlt
      | succ k =>
        have hnext := ih hrest (Nat.lt_of_succ_lt_succ hk)
        omega

/-- A node that was built is fed by its operands. -/
lemma fed_build {kind : String} {make : String → Node H} {operands : List Value} {v : Value}
    (hs : s.heap.Sound .any) (ho : Operator make operands.length)
    (hvalid : ∀ v ∈ operands, v.ValidIn s.heap) (hrun : build kind make operands s = .ok v s') :
    s'.heap.Fed ⟨operands, s.heap.newcomers s'.heap, some s.heap.nextId⟩ s.heap.nextId := by
  have hassembled := Heap.leaves_assembled (s := s) kind hs ho hvalid
  rw [hrun] at hassembled
  have hlimit : operands.length ≤ UInt16.size := by
    have hwire := hrun
    rw [build_eq] at hwire
    obtain ⟨_, _, hwire, -⟩ := Eval.bind_eq_ok.mp hwire
    cases hcount : operands.length with
    | zero => exact Nat.zero_le _
    | succ k =>
      have hlast := wire_fits operands hwire (k := k) (by omega)
      omega
  obtain ⟨s'', name, hrun', hw⟩ := build_eq_ok kind hs.tidy ho.blank hlimit fun p hp =>
    Heap.hasPort_output.mp (hvalid _ hp)
  rw [hrun] at hrun'
  cases hrun'
  obtain ⟨n, hn, -, -, hinputs, -⟩ := hw.node
  refine ⟨⟨n, hn, hinputs.trans (ho.blank name).inputs⟩, fun k u hu => ?_⟩
  obtain ⟨p, hp, hfeeds⟩ := hw.feeds k u hu
  refine ⟨p, hp, Heap.hasPort_output.mp (hassembled.sound.source _ _ _ hp), hfeeds.imp_right ?_⟩
  rintro ⟨hout, hfresh, hvalue⟩
  rw [Heap.outputValue_eq_ok] at hvalue
  have hlive := Heap.contains_of_sentAt hvalue
  refine ⟨hout, Heap.mem_newcomers.mpr ⟨hlive, hfresh⟩, ?_⟩
  -- the port carries a value, so its node is a constant one
  rcases hassembled.newcomer p.node hlive with hold | ⟨name', -, hplain⟩ | ⟨name', w, -, -, hplain⟩
  · rw [hfresh] at hold
    cases hold
  · rw [Heap.sentAt_of_plain hplain, ho.unsent] at hvalue
    cases hvalue
  · have hemits := Heap.emits_of_plain hplain
    obtain ⟨-, rfl⟩ := hemits.sent hvalue
    exact hemits

end Lift
end Patchbay
