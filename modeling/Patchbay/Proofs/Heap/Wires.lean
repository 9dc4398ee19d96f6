import Patchbay.Proofs.Heap.Writes

/-!
# Wires

A connection is recorded at both of its ends: the input names its source, and the output lists the
input among its targets. The invariant `Wired` says that the two records agree as long as both
nodes live. Connecting and disconnecting keep it, and so does everything that leaves wires alone.
-/

namespace Patchbay.Heap

variable {H : HostTypes} {h h' : Heap H} {id x : ObjectId} {i j : Nat} {input output o t : PortRef}

/-- The source of an input of a node. -/
def sourceAt (h : Heap H) (id : ObjectId) (i : Nat) : Option PortRef :=
  (h.object? id).bind fun o => o.sourceAt i

/-- The targets of an output of a node. -/
def targetsAt (h : Heap H) (id : ObjectId) (i : Nat) : List PortRef :=
  ((h.object? id).map fun o => o.targetsAt i).getD []

/-- The two ends of every connection between live nodes agree, and an input is listed once. -/
structure Wired (h : Heap H) : Prop where
  listed : ∀ id i o, h.sourceAt id i = some o → h.contains o.node = true →
    ∃ k : UInt16, k.toNat = i ∧ (h.targetsAt o.node o.index.toNat).count ⟨id, k⟩ = 1
  answered : ∀ id i t, t ∈ h.targetsAt id i → h.contains t.node = true →
    ∃ k : UInt16, k.toNat = i ∧ h.sourceAt t.node t.index.toNat = some ⟨id, k⟩

lemma contains_of_sourceAt (hs : h.sourceAt id i = some o) : h.contains id = true := by
  obtain ⟨obj, hobj, -⟩ := Option.bind_eq_some_iff.mp hs
  exact contains_of_object? hobj

lemma contains_of_mem_targetsAt (ht : t ∈ h.targetsAt id i) : h.contains id = true := by
  unfold targetsAt at ht
  cases hobj : h.object? id with
  | none => simp [hobj] at ht
  | some obj => exact contains_of_object? hobj

/-! ## Changes that leave wires alone -/

section Same

lemma sourceAt_congr (hobj : Option.Rel HeapObject.SameWires (h.object? id) (h'.object? id)) :
    h'.sourceAt id i = h.sourceAt id i := by
  unfold sourceAt
  generalize h.object? id = x at hobj
  generalize h'.object? id = y at hobj
  cases hobj with
  | none => rfl
  | some hs => exact hs.source i

lemma targetsAt_congr (hobj : Option.Rel HeapObject.SameWires (h.object? id) (h'.object? id)) :
    h'.targetsAt id i = h.targetsAt id i := by
  unfold targetsAt
  generalize h.object? id = x at hobj
  generalize h'.object? id = y at hobj
  cases hobj with
  | none => rfl
  | some hs => simp [hs.targets i]

lemma Wired.congr (hw : Wired h) (hc : ∀ id, h'.contains id = h.contains id)
    (hs : ∀ id i, h'.sourceAt id i = h.sourceAt id i)
    (ht : ∀ id i, h'.targetsAt id i = h.targetsAt id i) : Wired h' where
  listed id i o hsrc hlive := by
    rw [hs] at hsrc
    rw [hc] at hlive
    rw [ht]
    exact hw.listed id i o hsrc hlive
  answered id i t hmem hlive := by
    rw [ht] at hmem
    rw [hc] at hlive
    rw [hs]
    exact hw.answered id i t hmem hlive

lemma Touched.object_rel {R : HeapObject H → HeapObject H → Prop} (ht : Touched R h h') :
    Option.Rel R (h.object? id) (h'.object? id) := by
  have r := ht.entry id
  unfold object?
  generalize h.entry? id = x at r ⊢
  generalize Heap.entry? h' id = y at r ⊢
  cases r with
  | none => exact .none
  | some t => exact .some t.object

variable {P : Value → Prop} {K : H.Kernel → Prop}

lemma Stored.wires (hs : Stored P K h h') :
    Option.Rel HeapObject.SameWires (h.object? id) (h'.object? id) :=
  Touched.object_rel (hs.mono fun _ _ hr => hr.2)

lemma Wired.stored (hw : Wired h) (hs : Stored P K h h') : Wired h' :=
  hw.congr (fun _ => hs.contains) (fun _ _ => sourceAt_congr hs.wires)
    fun _ _ => targetsAt_congr hs.wires

lemma object?_modifyEntry {f : Entry H → Entry H} (hf : ∀ e, (f e).object = e.object) :
    (h.modifyEntry id f).object? x = h.object? x := by
  unfold object?
  rw [entry?_modifyEntry]
  split
  · cases h.entry? x <;> simp [hf]
  · rfl

@[simp] lemma object?_resetAge : (h.resetAge id).object? x = h.object? x :=
  object?_modifyEntry fun _ => rfl

@[simp] lemma object?_release {v : Value} : (h.release v).object? x = h.object? x := by
  unfold release
  cases v.referent <;> simp

lemma object?_releaseAll (olds : List Value) (h : Heap H) :
    (olds.foldl release h).object? x = h.object? x := by
  induction olds generalizing h with
  | nil => rfl
  | cons v rest ih => rw [List.foldl_cons, ih, object?_release]

lemma names_releaseAll (olds : List Value) (h : Heap H) :
    (olds.foldl release h).names = h.names := by
  induction olds generalizing h with
  | nil => rfl
  | cons v rest ih =>
    rw [List.foldl_cons, ih]
    unfold release
    cases v.referent <;> rfl

@[simp] lemma sourceAt_resetAge : (h.resetAge x).sourceAt id i = h.sourceAt id i := by
  simp [sourceAt]

@[simp] lemma targetsAt_resetAge : (h.resetAge x).targetsAt id i = h.targetsAt id i := by
  simp [targetsAt]

lemma Wired.modifyEntry (hw : Wired h) {f : Entry H → Entry H} (hf : ∀ e, (f e).object = e.object) :
    Wired (h.modifyEntry id f) :=
  hw.congr (fun _ => contains_modifyEntry)
    (fun _ _ => by unfold sourceAt; rw [object?_modifyEntry hf])
    fun _ _ => by unfold targetsAt; rw [object?_modifyEntry hf]

end Same

/-! ## Elementary rewiring -/

/-- Setting the source of an input that exists. -/
lemma sourceAt_setSource {s : Option PortRef}
    (hport : ∃ n, h.object? input.node = some (.node n) ∧ input.index.toNat < n.inputs.size) :
    (h.setSource input s).sourceAt id i =
      if id = input.node ∧ i = input.index.toNat then s else h.sourceAt id i := by
  obtain ⟨n, hn, hlt⟩ := hport
  unfold sourceAt setSource modifyNode
  rw [object?_modifyObject]
  by_cases hid : id = input.node
  · subst hid
    rw [if_pos rfl, hn]
    by_cases hi : i = input.index.toNat
    · subst hi
      simp [HeapObject.sourceAt, Array.getElem_modify, hlt]
    · simp [HeapObject.sourceAt, Array.getElem?_modify, hi, Ne.symm hi]
  · simp [hid]

@[simp] lemma targetsAt_setSource {s : Option PortRef} :
    (h.setSource input s).targetsAt id i = h.targetsAt id i := by
  unfold targetsAt setSource modifyNode
  rw [object?_modifyObject]
  split
  · cases h.object? id with
    | none => rfl
    | some o => cases o <;> rfl
  · rfl

@[simp] lemma sourceAt_unlinkTarget :
    (h.unlinkTarget output input).sourceAt id i = h.sourceAt id i := by
  unfold sourceAt unlinkTarget modifyNode
  rw [object?_modifyObject]
  split
  · cases h.object? id with
    | none => rfl
    | some o => cases o <;> rfl
  · rfl

lemma targetsAt_unlinkTarget :
    (h.unlinkTarget output input).targetsAt id i =
      if id = output.node ∧ i = output.index.toNat then (h.targetsAt id i).filter (· ≠ input)
      else h.targetsAt id i := by
  unfold targetsAt unlinkTarget modifyNode
  rw [object?_modifyObject]
  by_cases hid : id = output.node
  · subst hid
    rw [if_pos rfl]
    cases hobj : h.object? output.node with
    | none => simp
    | some obj =>
      cases obj with
      | node n =>
        by_cases hi : i = output.index.toNat
        · subst hi
          cases hp : n.outputs[output.index.toNat]? with
          | none => simp [HeapObject.targetsAt, Array.getElem?_modify, hp]
          | some p => simp [HeapObject.targetsAt, Array.getElem?_modify, hp]
        · simp [HeapObject.targetsAt, Array.getElem?_modify, hi, Ne.symm hi]
      | _ => simp [HeapObject.targetsAt]
  · simp [hid]

@[simp] lemma sourceAt_addTarget : (h.addTarget output input).sourceAt id i = h.sourceAt id i := by
  unfold sourceAt addTarget modifyNode
  rw [object?_modifyObject]
  split
  · cases h.object? id with
    | none => rfl
    | some o => cases o <;> rfl
  · rfl

/-- Adding a target to an output that exists. -/
lemma targetsAt_addTarget
    (hport : ∃ n, h.object? output.node = some (.node n) ∧ output.index.toNat < n.outputs.size) :
    (h.addTarget output input).targetsAt id i =
      if id = output.node ∧ i = output.index.toNat then h.targetsAt id i ++ [input]
      else h.targetsAt id i := by
  obtain ⟨n, hn, hlt⟩ := hport
  unfold targetsAt addTarget modifyNode
  rw [object?_modifyObject]
  by_cases hid : id = output.node
  · subst hid
    rw [if_pos rfl, hn]
    by_cases hi : i = output.index.toNat
    · subst hi
      simp [HeapObject.targetsAt, Array.getElem_modify, hlt]
    · simp [HeapObject.targetsAt, Array.getElem?_modify, hi, Ne.symm hi]
  · simp [hid]

/-! ## Connecting and disconnecting -/

/-- A write that at most rewires. -/
abbrev Rewired : Heap H → Heap H → Prop :=
  Touched (HeapObject.Rewritten (fun _ => False) fun _ => False)

namespace Rewired

lemma refl (h : Heap H) : Rewired h h := Touched.refl (fun o => .refl o) h

lemma trans {h'' : Heap H} (h1 : Rewired h h') (h2 : Rewired h' h'') : Rewired h h'' :=
  Touched.trans (fun _ _ _ r1 r2 => r1.trans r2) h1 h2

lemma modifyNode {f : Node H → Node H}
    (hf : ∀ n, (HeapObject.node n).Rewritten (fun _ => False) (fun _ => False) (.node (f n))) :
    Rewired h (h.modifyNode id f) := by
  refine touched_modifyObject (fun o => .refl o) fun o _ => ?_
  cases o with
  | node n => exact hf n
  | _ => exact .refl _

lemma setSource {s : Option PortRef} : Rewired h (h.setSource input s) :=
  modifyNode fun n => ⟨by simp [HeapObject.shape], rfl, rfl, rfl, fun _ => .inl, fun _ => .inl⟩

/-- The values that outputs hold stay when their targets change. -/
lemma outputs {n : Node H} {g : OutputPort → OutputPort} (hg : ∀ p, (g p).value = p.value) :
    (HeapObject.node n).Rewritten (fun _ => False) (fun _ => False)
      (.node { n with outputs := n.outputs.modify i g }) := by
  refine ⟨by simp [HeapObject.shape], rfl, rfl, rfl, fun v hv => .inl ?_, fun _ => .inl⟩
  simp only [HeapObject.values, List.mem_append, List.mem_filterMap, Array.mem_toList_iff] at hv ⊢
  rcases hv with hv | ⟨p, hp, hv⟩
  · exact .inl hv
  · rcases mem_modify hp with hold | ⟨q, hq, rfl⟩
    · exact .inr ⟨p, hold, hv⟩
    · exact .inr ⟨q, hq, (hg q).symm.trans hv⟩

lemma unlinkTarget : Rewired h (h.unlinkTarget output input) :=
  modifyNode fun _ => outputs fun _ => rfl

lemma addTarget : Rewired h (h.addTarget output input) := modifyNode fun _ => outputs fun _ => rfl

end Rewired

/-- Whether a live node has an input. -/
def HasInput (h : Heap H) (input : PortRef) : Prop :=
  ∃ n, h.object? input.node = some (.node n) ∧ input.index.toNat < n.inputs.size

/-- Whether a live node has an output. -/
def HasOutput (h : Heap H) (output : PortRef) : Prop :=
  ∃ n, h.object? output.node = some (.node n) ∧ output.index.toNat < n.outputs.size

lemma inputPort_eq_ok {p : InputPort} :
    h.inputPort input = .ok p ↔
      ∃ n, h.object? input.node = some (.node n) ∧ n.inputs[input.index.toNat]? = some p := by
  unfold inputPort
  rw [bind_eq_ok]
  constructor
  · rintro ⟨n, hn, hp⟩
    refine ⟨n, node_eq_ok.mp hn, ?_⟩
    cases hx : n.inputs[input.index.toNat]? with
    | none => simp [hx, fail_eq] at hp
    | some q => simpa [hx, pure, Except.pure] using hp
  · rintro ⟨n, hn, hp⟩
    refine ⟨n, node_eq_ok.mpr hn, ?_⟩
    simp [hp, pure, Except.pure]

lemma outputPort_eq_ok {p : OutputPort} :
    h.outputPort output = .ok p ↔
      ∃ n, h.object? output.node = some (.node n) ∧ n.outputs[output.index.toNat]? = some p := by
  unfold outputPort
  rw [bind_eq_ok]
  constructor
  · rintro ⟨n, hn, hp⟩
    refine ⟨n, node_eq_ok.mp hn, ?_⟩
    cases hx : n.outputs[output.index.toNat]? with
    | none => simp [hx, fail_eq] at hp
    | some q => simpa [hx, pure, Except.pure] using hp
  · rintro ⟨n, hn, hp⟩
    refine ⟨n, node_eq_ok.mpr hn, ?_⟩
    simp [hp, pure, Except.pure]

lemma plain_inputPort : PlainIf (h.contains input.node = true) (h.inputPort input) := by
  refine plain_node.bind fun n _ => ?_
  split
  · exact .pure
  · exact PlainIf.fail rfl

lemma plain_outputPort : PlainIf (h.contains output.node = true) (h.outputPort output) := by
  refine plain_node.bind fun n _ => ?_
  split
  · exact .pure
  · exact PlainIf.fail rfl

lemma HasInput.rewired (hp : h.HasInput input) (hr : Rewired h h') :
    h'.HasInput input := by
  obtain ⟨n, hn, hlt⟩ := hp
  obtain ⟨obj, hobj, hw⟩ := hr.object hn
  have hshape := hw.shape
  cases obj with
  | node n' =>
    simp only [HeapObject.shape, ObjectShape.mk.injEq] at hshape
    exact ⟨n', hobj, by omega⟩
  | _ => simp [HeapObject.shape, HeapObject.kind] at hshape

lemma HasOutput.rewired (hp : h.HasOutput output) (hr : Rewired h h') : h'.HasOutput output := by
  obtain ⟨n, hn, hlt⟩ := hp
  obtain ⟨obj, hobj, hw⟩ := hr.object hn
  have hshape := hw.shape
  cases obj with
  | node n' =>
    simp only [HeapObject.shape, ObjectShape.mk.injEq] at hshape
    exact ⟨n', hobj, by omega⟩
  | _ => simp [HeapObject.shape, HeapObject.kind] at hshape

/-- Detach an input from its source. -/
def unplug (h : Heap H) (input : PortRef) : Heap H :=
  match h.sourceAt input.node input.index.toNat with
  | none => h
  | some source => ((h.setSource input none).unlinkTarget source input).resetAge source.node

/-- Attach a detached input to a source. -/
def plug (h : Heap H) (input output : PortRef) : Heap H :=
  (h.setSource input (some output)).addTarget output input

lemma rewired_unplug : Rewired h (h.unplug input) := by
  unfold unplug
  split
  · exact .refl h
  · exact (Rewired.setSource.trans .unlinkTarget).trans (touched_resetAge fun o => .refl o)

lemma rewired_plug : Rewired h (h.plug input output) := Rewired.setSource.trans .addTarget

/-- Disconnecting fails if there is no such input, and then does nothing. -/
lemma ends_disconnect :
    (disconnect input).Ends h (fun _ h' => h.HasInput input ∧ h' = h.unplug input) fun e h' =>
      h' = h ∧ (h.contains input.node = true → e.isDead = false) := by
  refine HeapM.ends_read_bind (fun p hp => ?_) fun e he =>
    ⟨rfl, fun hc => plain_inputPort.quiet hc e he⟩
  obtain ⟨n, hn, hport⟩ := inputPort_eq_ok.mp hp
  have hhas : h.HasInput input := ⟨n, hn, (Array.getElem?_eq_some_iff.mp hport).1⟩
  have hsource : h.sourceAt input.node input.index.toNat = p.source := by
    simp [sourceAt, hn, HeapObject.sourceAt, hport]
  split
  · next hnone => exact ⟨hhas, by rw [unplug, hsource, hnone]⟩
  · next source hsome => exact ⟨hhas, by rw [unplug, hsource, hsome]⟩

/-- Connecting fails if one of the ports is missing, and then does nothing. -/
lemma ends_connect :
    (connect input output).Ends h
      (fun _ h' => h.HasInput input ∧ h.HasOutput output ∧ h' = (h.unplug input).plug input output)
      fun e h' =>
        h' = h ∧ (h.contains input.node = true → h.contains output.node = true →
          e.isDead = false) := by
  refine HeapM.ends_check_bind (fun q hq => ?_) fun e he =>
    ⟨rfl, fun _ hc => plain_outputPort.quiet hc e he⟩
  obtain ⟨n, hn, hport⟩ := outputPort_eq_ok.mp hq
  have hhas : h.HasOutput output := ⟨n, hn, (Array.getElem?_eq_some_iff.mp hport).1⟩
  refine HeapM.ends_check_bind (fun p hp => ?_) fun e he =>
    ⟨rfl, fun hc _ => plain_inputPort.quiet hc e he⟩
  refine HeapM.Ends.bind (ends_disconnect.mono (fun _ _ hd => hd) fun e _ he =>
    ⟨he.1, fun hc _ => he.2 hc⟩) fun _ h' hd => ?_
  exact ⟨hd.1, hhas, by rw [hd.2, plug]⟩

/-- Connecting leaves the heap as it was, or it moves the input. -/
lemma ends_connect_either {P : Heap H → Prop} (hsame : P h)
    (hplug : h.HasInput input → h.HasOutput output → P ((h.unplug input).plug input output)) :
    (connect input output).Ends h (fun _ => P) fun _ => P := by
  refine ends_connect.mono (fun _ h' hc => ?_) fun _ h' he => ?_
  · rw [hc.2.2]
    exact hplug hc.1 hc.2.1
  · rw [he.1]
    exact hsame

lemma leaves_connect {P : Heap H → Prop} (hsame : P h)
    (hplug : h.HasInput input → h.HasOutput output → P ((h.unplug input).plug input output)) :
    P ((connect input output).leaves h) := (ends_connect_either hsame hplug).leaves

lemma ends_disconnect_either {P : Heap H → Prop} (hsame : P h)
    (hunplug : h.HasInput input → P (h.unplug input)) :
    (disconnect input).Ends h (fun _ => P) fun _ => P := by
  refine ends_disconnect.mono (fun _ h' hd => ?_) fun _ h' he => ?_
  · rw [hd.2]
    exact hunplug hd.1
  · rw [he.1]
    exact hsame

lemma leaves_disconnect {P : Heap H → Prop} (hsame : P h)
    (hunplug : h.HasInput input → P (h.unplug input)) :
    P ((disconnect input).leaves h) := (ends_disconnect_either hsame hunplug).leaves

/-! ## The invariant -/

lemma sourceAt_unplug (hp : h.HasInput input) :
    (h.unplug input).sourceAt id i =
      if id = input.node ∧ i = input.index.toNat then none else h.sourceAt id i := by
  unfold unplug
  split
  · next hnone =>
    split
    · next hat => rw [hat.1, hat.2, hnone]
    · rfl
  · rw [sourceAt_resetAge, sourceAt_unlinkTarget, sourceAt_setSource hp]

lemma targetsAt_unplug {k : UInt16} :
    (h.unplug input).targetsAt id k.toNat =
      if h.sourceAt input.node input.index.toNat = some ⟨id, k⟩ then
        (h.targetsAt id k.toNat).filter (· ≠ input)
      else h.targetsAt id k.toNat := by
  unfold unplug
  split
  · next hnone => simp [hnone]
  · next source hsome =>
    rw [targetsAt_resetAge, targetsAt_unlinkTarget, targetsAt_setSource, hsome]
    have hiff : (id = source.node ∧ k.toNat = source.index.toNat) ↔ some source = some ⟨id, k⟩ := by
      rw [UInt16.toNat_inj]
      cases source
      simp [eq_comm]
    simp only [hiff]

lemma mem_targetsAt_unplug (ht : t ∈ (h.unplug input).targetsAt id i) : t ∈ h.targetsAt id i := by
  unfold unplug at ht
  split at ht
  · exact ht
  · rw [targetsAt_resetAge, targetsAt_unlinkTarget, targetsAt_setSource] at ht
    split at ht
    · exact List.mem_of_mem_filter ht
    · exact ht

/-- A detached input is nobody's target. -/
lemma Wired.not_mem_unplug (hw : Wired h) (hc : h.contains input.node = true) :
    input ∉ (h.unplug input).targetsAt id i := by
  intro ht
  obtain ⟨k, rfl, hsource⟩ := hw.answered id i input (mem_targetsAt_unplug ht) hc
  rw [targetsAt_unplug, if_pos hsource] at ht
  simp at ht

lemma HasInput.contains (hp : h.HasInput input) : h.contains input.node = true := by
  obtain ⟨n, hn, -⟩ := hp
  exact contains_of_object? hn

lemma HasOutput.contains (hp : h.HasOutput output) : h.contains output.node = true := by
  obtain ⟨n, hn, -⟩ := hp
  exact contains_of_object? hn

/-- Inputs are listed by position. -/
lemma PortRef.ext_toNat {p q : PortRef} (hnode : p.node = q.node)
    (hindex : p.index.toNat = q.index.toNat) : p = q := by
  cases p
  cases q
  simp_all [UInt16.toNat_inj]

lemma Wired.unplug (hw : Wired h) (hp : h.HasInput input) : Wired (h.unplug input) where
  listed id i o hs hc := by
    rw [sourceAt_unplug hp] at hs
    rw [rewired_unplug.contains] at hc
    split at hs
    · cases hs
    · next hne =>
      obtain ⟨k, rfl, hcount⟩ := hw.listed id i o hs hc
      refine ⟨k, rfl, ?_⟩
      -- a target other than the unplugged input is counted as before
      have hport : (⟨id, k⟩ : PortRef) ≠ input := fun heq => hne ⟨by rw [← heq], by rw [← heq]⟩
      rw [targetsAt_unplug]
      split
      · rw [List.count_filter (by simpa using hport)]
        exact hcount
      · exact hcount
  answered id i t ht hc := by
    rw [rewired_unplug.contains] at hc
    obtain ⟨k, rfl, hs⟩ := hw.answered id i t (mem_targetsAt_unplug ht) hc
    refine ⟨k, rfl, ?_⟩
    -- the unplugged input is no longer listed, so this target keeps its source
    rw [sourceAt_unplug hp, if_neg, hs]
    rintro ⟨hnode, hindex⟩
    exact hw.not_mem_unplug hp.contains (PortRef.ext_toNat hnode hindex ▸ ht)

lemma Wired.plug (hw : Wired h) (hp : h.HasInput input) (ho : h.HasOutput output)
    (hfree : ∀ id i, input ∉ h.targetsAt id i) : Wired (h.plug input output) where
  listed id i o hs hc := by
    rw [rewired_plug.contains] at hc
    unfold Heap.plug at hs ⊢
    rw [sourceAt_addTarget, sourceAt_setSource hp] at hs
    rw [targetsAt_addTarget (ho.rewired .setSource), targetsAt_setSource]
    split at hs
    · next hat =>
      cases hs
      obtain ⟨rfl, rfl⟩ := hat
      refine ⟨input.index, rfl, ?_⟩
      rw [if_pos ⟨rfl, rfl⟩, List.count_append, List.count_eq_zero.mpr (hfree _ _)]
      simp
    · next hne =>
      obtain ⟨k, rfl, hcount⟩ := hw.listed id i o hs hc
      refine ⟨k, rfl, ?_⟩
      have hport : input ≠ (⟨id, k⟩ : PortRef) := fun heq => hne ⟨by rw [heq], by rw [heq]⟩
      split
      · rw [List.count_append, hcount, List.count_singleton]
        simp [hport]
      · exact hcount
  answered id i t ht hc := by
    rw [rewired_plug.contains] at hc
    unfold Heap.plug at ht ⊢
    rw [sourceAt_addTarget, sourceAt_setSource hp]
    rw [targetsAt_addTarget (ho.rewired .setSource), targetsAt_setSource] at ht
    -- no target from before is the new input, so its source is what it was
    have hold : t ∈ h.targetsAt id i → ∃ k : UInt16, k.toNat = i ∧
        (if t.node = input.node ∧ t.index.toNat = input.index.toNat then some output
          else h.sourceAt t.node t.index.toNat) = some ⟨id, k⟩ := by
      intro hmem
      obtain ⟨k, rfl, hs⟩ := hw.answered id i t hmem hc
      refine ⟨k, rfl, ?_⟩
      rw [if_neg, hs]
      rintro ⟨hnode, hindex⟩
      exact hfree _ _ (PortRef.ext_toNat hnode hindex ▸ hmem)
    split at ht
    · next hat =>
      rcases List.mem_append.mp ht with hmem | hnew
      · exact hold hmem
      · obtain rfl := List.mem_singleton.mp hnew
        obtain ⟨rfl, rfl⟩ := hat
        exact ⟨output.index, rfl, by simp⟩
    · exact hold ht

/-- Connecting and disconnecting keep the two ends of every connection in agreement. -/
lemma Wired.connect (hw : Wired h) (hp : h.HasInput input) (ho : h.HasOutput output) :
    Wired ((h.unplug input).plug input output) :=
  (hw.unplug hp).plug (hp.rewired rewired_unplug) (ho.rewired rewired_unplug) fun _ _ =>
    hw.not_mem_unplug hp.contains

end Patchbay.Heap
