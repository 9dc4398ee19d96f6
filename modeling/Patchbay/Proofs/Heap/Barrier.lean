import Patchbay.Proofs.Heap.Collection
import Patchbay.Proofs.Heap.Independence

/-!
# Lost references

Whenever an object loses a reference, its age starts again, so that no bound keeps it as a root for
its age alone. The references of an object are counted: an operation that overwrites one of two
references to the same object takes one away. Operations that write lose at most references of the
values that they release, and a collection tells the survivors of everything that the garbage
referred to.
-/

namespace Patchbay

variable {H : HostTypes} {x : ObjectId} {v : Value}

/-! ## What an overwritten place takes away -/

section Lists

variable {α β : Type} [BEq β] {xs : List α} {get : α → Option β} {f : α → α} {i : Nat}
  {a b : α} {y : β}

lemma count_filterMap_cons :
    ((a :: xs).filterMap get).count y = (get a).toList.count y + (xs.filterMap get).count y := by
  cases hg : get a <;> simp [hg, List.count_cons, Nat.add_comm]

lemma count_filterMap_append_le {ys : List α} :
    (xs.filterMap get).count y ≤ ((xs ++ ys).filterMap get).count y := by
  rw [List.filterMap_append, List.count_append]
  exact Nat.le_add_right _ _

variable [LawfulBEq β]

lemma get_of_count_pos (hpos : 0 < (get a).toList.count y) : get a = some y :=
  Option.mem_toList.mp (List.count_pos_iff.mp hpos)

/-- What becomes less in a list by changing one place of it was read off that place. -/
lemma get_of_count_modify
    (hlost : ((xs.modify i f).filterMap get).count y < (xs.filterMap get).count y) :
    ∃ a, xs[i]? = some a ∧ get a = some y := by
  induction xs generalizing i with
  | nil => simp at hlost
  | cons c xs ih =>
    cases i with
    | zero =>
      rw [List.modify_zero_cons, count_filterMap_cons, count_filterMap_cons] at hlost
      exact ⟨c, rfl, get_of_count_pos (by omega)⟩
    | succ i =>
      rw [List.modify_succ_cons, count_filterMap_cons, count_filterMap_cons] at hlost
      exact ih (by omega)

/-- An overwritten place takes away what was read off it. -/
lemma get_of_count_set (hi : xs[i]? = some a)
    (hlost : ((xs.set i b).filterMap get).count y < (xs.filterMap get).count y) :
    get a = some y := by
  rw [List.set_eq_modify] at hlost
  obtain ⟨c, hc, hget⟩ := get_of_count_modify hlost
  rw [hi] at hc
  cases hc
  exact hget

end Lists

/-! ## What a write takes away -/

section Objects

variable {f f' : Frame} {name : Name} {n : Node H} {values : List Value} {i : Nat}

lemma Frame.count_children_insert (hins : f.insert? name v = some f') :
    f.children.count x ≤ f'.children.count x := by
  obtain ⟨hbindings, -, hplace⟩ := Frame.of_insert hins
  simp only [Frame.children, Frame.values, hbindings, hplace.parent, Array.toList_push,
    List.map_append, List.count_append]
  exact Nat.add_le_add_left count_filterMap_append_le _

lemma Frame.referent_of_replace {old : Value} (hrep : f.replace? name v = some (old, f'))
    (hlost : f'.children.count x < f.children.count x) : old.referent = some x := by
  obtain ⟨i, bound, -, hi, hbindings, -, hplace⟩ := Frame.of_replace hrep
  simp only [Frame.children, Frame.values, hbindings, hplace.parent, Array.toList_setIfInBounds,
    List.map_set, List.count_append] at hlost
  have hold : (f.bindings.toList.map Prod.snd)[i]? = some old := by simp [hi]
  exact get_of_count_set hold (Nat.lt_of_add_lt_add_left hlost)

/-- The references of a node are those of its three lists of ports. -/
lemma Node.count_children :
    n.children.count x =
      (n.inputs.toList.filterMap fun p => p.source.map PortRef.node).count x +
        (n.params.toList.filterMap fun p => p.value.referent).count x +
        (n.outputs.toList.filterMap fun p => p.value.bind Value.referent).count x := by
  rw [Node.children, List.count_append, List.count_append]

lemma Node.source_of_modify {g : InputPort → InputPort}
    (hlost : ({ n with inputs := n.inputs.modify i g } : Node H).children.count x <
      n.children.count x) :
    ∃ p, n.inputs[i]? = some p ∧ p.source.map PortRef.node = some x := by
  rw [Node.count_children, Node.count_children, Array.toList_modify] at hlost
  simpa using get_of_count_modify (Nat.lt_of_add_lt_add_right (Nat.lt_of_add_lt_add_right hlost))

lemma Node.param_of_modify {g : ParamPort → ParamPort}
    (hlost : ({ n with params := n.params.modify i g } : Node H).children.count x <
      n.children.count x) :
    ∃ p, n.params[i]? = some p ∧ p.value.referent = some x := by
  rw [Node.count_children, Node.count_children, Array.toList_modify] at hlost
  simpa using get_of_count_modify (Nat.lt_of_add_lt_add_left (Nat.lt_of_add_lt_add_right hlost))

lemma Node.output_of_emit {w : Value} (hlost : (n.emit i w).children.count x < n.children.count x) :
    ∃ p, n.outputs[i]? = some p ∧ p.value.bind Value.referent = some x := by
  rw [Node.count_children, Node.count_children, Node.emit, Array.toList_modify] at hlost
  simpa using get_of_count_modify (Nat.lt_of_add_lt_add_left hlost)

/-- The targets of an output are no references. -/
lemma Node.children_retarget {g : OutputPort → OutputPort} (hg : ∀ p, (g p).value = p.value) :
    ({ n with outputs := n.outputs.modify i g } : Node H).children = n.children := by
  have hvalues :
      (n.outputs.modify i g).toList.map OutputPort.value =
      n.outputs.toList.map OutputPort.value := by
    rw [← Array.toList_map, ← Array.toList_map, Heap.map_modify hg]
  have hsplit : ∀ ports : List OutputPort, (ports.filterMap fun p => p.value.bind Value.referent) =
      (ports.map OutputPort.value).filterMap fun v => v.bind Value.referent := fun ports => by
    rw [List.filterMap_map]
    rfl
  rw [Node.children, Node.children, hsplit, hsplit, hvalues]

/-- Sending values takes away references of the values that were there before. -/
lemma Node.referent_of_send (hlost : (n.send values).2.children.count x < n.children.count x) :
    ∃ v ∈ (n.send values).1, v.referent = some x := by
  revert hlost
  refine List.foldlRecOn (motive := fun acc : List Value × Node H =>
    acc.2.children.count x < n.children.count x → ∃ v ∈ acc.1, v.referent = some x) _ _
    (fun hlost => absurd hlost (Nat.lt_irrefl _)) ?_
  rintro ⟨olds, n'⟩ ih ⟨i, w⟩ -
  dsimp only at ih ⊢
  split
  · next p hp =>
    intro hlost
    by_cases hbefore : n'.children.count x < n.children.count x
    · obtain ⟨v, hv, hx⟩ := ih hbefore
      exact ⟨v, List.mem_append_left _ hv, hx⟩
    · -- the value of this very port was the reference
      obtain ⟨q, hq, hx⟩ := Node.output_of_emit (Nat.lt_of_lt_of_le hlost (Nat.not_lt.mp hbefore))
      rw [hp] at hq
      cases hq
      obtain ⟨v, hv, hx⟩ := Option.bind_eq_some_iff.mp hx
      exact ⟨v, List.mem_append_right _ (Option.mem_toList.mpr hv), hx⟩
  · exact ih

lemma Node.referent_of_tick {host : KernelHost H} {h : Heap H} {kernel : Kernel H.Kernel}
    {inputs : Array Value}
    (hlost : (n.tick host h kernel inputs).node.children.count x < n.children.count x) :
    ∃ v ∈ (n.tick host h kernel inputs).replaced, v.referent = some x := by
  revert hlost
  unfold Node.tick
  dsimp only
  split
  · exact fun hlost => absurd hlost (Nat.lt_irrefl _)
  · split
    · exact fun hlost => absurd hlost (Nat.lt_irrefl _)
    · exact Node.referent_of_send (n := { n with kernel := _ })

end Objects

namespace Heap

variable {h h' h'' g : Heap H} {id y : ObjectId} {host : KernelHost H} {freed : Nat → Nat}
  {op : Operation H} {o : HeapObject H}

/-! ## Noted losses -/

/-- The number of references from one object to another. An object that is gone has none. -/
def references (h : Heap H) (y x : ObjectId) : Nat :=
  ((h.object? y).map fun o => o.children.count x).getD 0

/-- Every object that lost a reference when `h` became `h'`, and that is still there, has the age
zero. -/
def LossNoted (h h' : Heap H) : Prop :=
  ∀ x y, h'.contains x = true → h'.references y x < h.references y x → h'.age? x = some 0

lemma lossNoted_of_le (hrefs : ∀ y x, h.references y x ≤ h'.references y x) : LossNoted h h' :=
  fun x y _ hlost => absurd hlost (Nat.not_lt.mpr (hrefs y x))

lemma LossNoted.refl (h : Heap H) : LossNoted h h := lossNoted_of_le fun _ _ => Nat.le_refl _

lemma references_congr (ho : h'.object? y = h.object? y) :
    h'.references y x = h.references y x := by
  rw [references, references, ho]

/-- The heap `g` has lost references, and the ages of what they led to start again. -/
lemma lossNoted_resetAll {ids : List ObjectId}
    (hlost : ∀ x y, g.references y x < h.references y x → x ∈ ids) :
    LossNoted h (ids.foldl resetAge g) := by
  intro x y hc hlt
  have hobj : (ids.foldl resetAge g).object? y = g.object? y :=
    List.foldlRecOn (motive := fun g' : Heap H => g'.object? y = g.object? y) _ _ rfl
      fun _ hg _ _ => by rw [object?_resetAge, hg]
  rw [references_congr hobj] at hlt
  obtain ⟨e, he⟩ := contains_iff.mp hc
  rw [entry?_foldl_resetAge] at he
  obtain ⟨e', he', -⟩ := Option.map_eq_some_iff.mp he
  rw [age?, entry?_foldl_resetAge, he', Option.map_some, if_pos (hlost x y hlt)]
  rfl

lemma lossNoted_releaseAll {olds : List Value}
    (hlost : ∀ x y, g.references y x < h.references y x → ∃ v ∈ olds, v.referent = some x) :
    LossNoted h (olds.foldl release g) := by
  have hids : olds.foldl release g = (olds.filterMap Value.referent).foldl resetAge g := by
    rw [List.foldl_filterMap]
    congr 1
    funext g v
    unfold release
    cases v.referent <;> rfl
  rw [hids]
  exact lossNoted_resetAll fun x y hlt => List.mem_filterMap.mpr (hlost x y hlt)

lemma lossNoted_release {old : Value}
    (hlost : ∀ x y, g.references y x < h.references y x → old.referent = some x) :
    LossNoted h (g.release old) := by
  have hn : LossNoted h ([old].foldl release g) :=
    lossNoted_releaseAll fun x y hlt => ⟨old, List.mem_singleton_self _, hlost x y hlt⟩
  exact hn

/-- Nothing more is lost while ages stay or fall to zero. -/
lemma LossNoted.later {R : HeapObject H → HeapObject H → Prop} (hn : LossNoted h h')
    (ht : Touched R h' h'') (hrefs : ∀ y x, h'.references y x ≤ h''.references y x) :
    LossNoted h h'' := by
  intro x y hc hlt
  rw [ht.contains] at hc
  have hage := hn x y hc (Nat.lt_of_le_of_lt (hrefs y x) hlt)
  obtain ⟨e, he, hzero⟩ := Option.map_eq_some_iff.mp hage
  have r := ht.entry x
  rw [he] at r
  rw [age?]
  generalize Heap.entry? h'' x = z at r ⊢
  cases r with
  | some t =>
    rw [Option.map_some]
    rcases t.age with heq | hnew
    · rw [heq, hzero]
    · rw [hnew]

/-- Only the object that is changed can lose references. -/
lemma lost_modifyObject {f : HeapObject H → HeapObject H}
    (hlt : (h.modifyObject id f).references y x < h.references y x) :
    ∃ o, h.object? id = some o ∧ (f o).children.count x < o.children.count x := by
  rw [references, object?_modifyObject] at hlt
  split at hlt
  · next hy =>
    subst hy
    rw [references] at hlt
    cases ho : h.object? y with
    | none => simp [ho] at hlt
    | some o =>
      rw [ho] at hlt
      exact ⟨o, rfl, hlt⟩
  · exact absurd hlt (Nat.lt_irrefl _)

/-- A known object that is rewritten loses what its new form has less of. -/
lemma lost_rewrite {o : HeapObject H} {f : HeapObject H → HeapObject H} (ho : h.object? id = some o)
    (hlt : (h.modifyObject id f).references y x < h.references y x) :
    (f o).children.count x < o.children.count x := by
  obtain ⟨o', ho', hlost⟩ := lost_modifyObject hlt
  rw [ho] at ho'
  cases ho'
  exact hlost

lemma lost_modifyNode {f : Node H → Node H}
    (hlt : (h.modifyNode id f).references y x < h.references y x) :
    ∃ n, h.object? id = some (.node n) ∧ (f n).children.count x < n.children.count x := by
  obtain ⟨o, ho, hlost⟩ := lost_modifyObject hlt
  cases o with
  | node n => exact ⟨n, ho, hlost⟩
  | _ => exact absurd hlost (Nat.lt_irrefl _)

/-! ## Writing to containers -/

section Writing

variable {name : Name}

/-- An operation that notes every loss, whether it succeeds or fails. -/
abbrev Notes {α : Type} (m : HeapM H α) (h : Heap H) : Prop :=
  m.Ends h (fun _ => LossNoted h) fun _ => LossNoted h

lemma notes_define : Notes (define id name v) h := by
  refine HeapM.ends_read_bind (fun f hf => ?_) fun _ _ => .refl h
  rw [frame_eq_ok] at hf
  split
  · next f' hins =>
    -- a binding is added and none is lost
    refine lossNoted_of_le fun y x => Nat.not_lt.mp fun hlt => ?_
    have hlost := lost_rewrite hf hlt
    exact absurd hlost (Nat.not_lt.mpr (Frame.count_children_insert hins))
  · exact HeapM.ends_read.mpr ⟨fun _ _ => .refl h, fun _ _ => .refl h⟩

lemma ends_assign_noted :
    (assign id name v).Ends h (fun found h' => LossNoted h h' ∧ (found = false → h' = h))
      fun _ h' => h' = h := by
  refine HeapM.ends_read_bind (fun f hf => ?_) fun _ _ => rfl
  rw [frame_eq_ok] at hf
  split
  · next old f' hrep =>
    refine ⟨lossNoted_release fun x y hlt => ?_, nofun⟩
    have hlost := lost_rewrite hf hlt
    exact Frame.referent_of_replace hrep hlost
  · exact ⟨.refl h, fun _ => rfl⟩

lemma notes_bind : Notes (bind id name v) h := by
  refine HeapM.Ends.bind (ends_assign_noted.mono (fun _ _ ha => ha) fun _ _ he => he ▸ .refl h)
    fun found h' ha => ?_
  cases found with
  | true => exact ha.1
  | false =>
    obtain rfl := ha.2 rfl
    exact notes_define

lemma notes_pushElement : Notes (pushElement id v) h := by
  refine HeapM.ends_check_bind (fun items hitems => ?_) fun _ _ => .refl h
  rw [sequence_eq_ok] at hitems
  refine lossNoted_of_le fun y x => Nat.not_lt.mp fun hlt => ?_
  have hlost := lost_rewrite hitems hlt
  refine absurd hlost (Nat.not_lt.mpr ?_)
  simp only [HeapObject.children, Array.toList_push]
  exact count_filterMap_append_le

lemma notes_setRef : Notes (setRef id v) h := by
  refine HeapM.ends_read_bind (fun old hold => ?_) fun _ _ => .refl h
  rw [refValue_eq_ok] at hold
  refine lossNoted_release fun x y hlt => ?_
  have hlost := lost_rewrite hold hlt
  exact get_of_count_pos (Nat.zero_lt_of_lt hlost)

lemma notes_setIndex {target : Value} {indices : List Value} :
    Notes (setIndex target indices v) h := by
  refine ends_setIndex (fun id index i items old _ _ _ hitems hold => ?_)
    (fun id coords g g' _ _ hg _ => ?_)
    (fun id key _ _ => ?_) (fun id _ _ => notes_setRef) fun _ _ => .refl h
  · refine lossNoted_release fun x y hlt => ?_
    have hlost := lost_rewrite hitems hlt
    have hat : items.toList[i.toNat]? = some old := by
      unfold elementAt? at hold
      split at hold
      · cases hold
      · simpa using hold
    simp only [HeapObject.children, Array.toList_setIfInBounds] at hlost
    exact get_of_count_set hat hlost
  · refine lossNoted_of_le fun y x => Nat.not_lt.mp fun hlt => ?_
    have hlost := lost_rewrite hg hlt
    exact absurd hlost (Nat.lt_irrefl _)
  · -- taking the key into the table changes the names only
    exact (notes_bind : Notes (bind id _ v) { h with names := (h.names.intern key).2 })

end Writing

/-! ## Nodes -/

section Nodes

variable {input output : PortRef}

lemma notes_setParam {param : PortRef} : Notes (setParam host param v) h := by
  refine HeapM.ends_read_bind (fun n hn => ?_) fun _ _ => .refl h
  rw [node_eq_ok] at hn
  split
  · exact HeapM.ends_read.mpr ⟨fun _ _ => .refl h, fun _ _ => .refl h⟩
  · next port hport =>
    refine HeapM.ends_read_bind (fun _ _ => ?_) fun _ _ => .refl h
    refine lossNoted_release fun x y hlt => ?_
    obtain ⟨n', hn', hlost⟩ := lost_modifyNode hlt
    rw [hn] at hn'
    cases hn'
    obtain ⟨p, hp, hx⟩ := Node.param_of_modify hlost
    rw [hport] at hp
    cases hp
    exact hx

lemma notes_setParamNamed {name : String} : Notes (setParamNamed host id name v) h := by
  refine HeapM.ends_read_bind (fun n hn => ?_) fun _ _ => .refl h
  split
  · exact notes_setParam
  · exact .refl h

/-- Setting a source loses at most the source that was there. -/
lemma source_of_lost {s : Option PortRef}
    (hlt : (h.setSource input s).references y x < h.references y x) :
    ∃ source, h.sourceAt input.node input.index.toNat = some source ∧ source.node = x := by
  obtain ⟨n, hn, hlost⟩ := lost_modifyNode hlt
  obtain ⟨p, hp, hx⟩ := Node.source_of_modify hlost
  obtain ⟨source, hsource, hnode⟩ := Option.map_eq_some_iff.mp hx
  refine ⟨source, ?_, hnode⟩
  simp [sourceAt, hn, HeapObject.sourceAt, hp, hsource]

/-- The targets of an output are no references. -/
lemma references_retarget {g : OutputPort → OutputPort} {i : Nat}
    (hg : ∀ p, (g p).value = p.value) :
    (h.modifyNode id fun n => { n with outputs := n.outputs.modify i g }).references y x =
      h.references y x := by
  rw [references, modifyNode, object?_modifyObject, references]
  split
  · cases h.object? y with
    | none => rfl
    | some o =>
      cases o with
      | node n => simp [HeapObject.children, Node.children_retarget hg]
      | _ => rfl
  · rfl

lemma references_unlinkTarget : (h.unlinkTarget output input).references y x = h.references y x :=
  references_retarget fun _ => rfl

lemma references_addTarget : (h.addTarget output input).references y x = h.references y x :=
  references_retarget fun _ => rfl

lemma lossNoted_unplug : LossNoted h (h.unplug input) := by
  unfold unplug
  split
  · exact .refl h
  · next source hsource =>
    have hn : LossNoted h
        ([source.node].foldl resetAge ((h.setSource input none).unlinkTarget source input)) := by
      refine lossNoted_resetAll fun x y hlt => ?_
      rw [references_unlinkTarget] at hlt
      obtain ⟨s, hs, rfl⟩ := source_of_lost hlt
      rw [hsource] at hs
      cases hs
      exact List.mem_singleton_self _
    exact hn

/-- Connecting loses what disconnecting loses, since the input has no source any more when it gets
its new one. -/
lemma lossNoted_connect (hp : h.HasInput input) :
    LossNoted h ((h.unplug input).plug input output) := by
  refine lossNoted_unplug.later rewired_plug fun y x => ?_
  rw [plug, references_addTarget]
  refine Nat.not_lt.mp fun hlt => ?_
  obtain ⟨s, hs, -⟩ := source_of_lost hlt
  rw [sourceAt_unplug hp, if_pos ⟨rfl, rfl⟩] at hs
  cases hs

lemma lossNoted_tick : LossNoted h ((tickNode host id).leaves h) := by
  rw [leaves_tickNode]
  cases ht : h.tickOf host id with
  | error e => exact .refl h
  | ok t =>
    obtain ⟨inputs, -, ht⟩ := bind_eq_ok.mp ht
    obtain ⟨kernel, -, ht⟩ := bind_eq_ok.mp ht
    obtain ⟨n, hn, ht⟩ := bind_eq_ok.mp ht
    cases ht
    refine lossNoted_releaseAll fun x y hlt => ?_
    obtain ⟨o, ho, hlost⟩ := lost_modifyObject hlt
    rw [node_eq_ok.mp hn] at ho
    cases ho
    exact Node.referent_of_tick (n := n.busy) hlost

end Nodes

/-! ## Objects that come and go -/

lemma lossNoted_modifyEntry {f : Entry H → Entry H} (hf : ∀ e, (f e).object = e.object) :
    LossNoted h (h.modifyEntry id f) :=
  lossNoted_of_le fun _ _ => (references_congr (object?_modifyEntry hf)).ge

lemma lossNoted_alloc (ht : Tidy h) : LossNoted h (h.alloc o).2 := by
  refine lossNoted_of_le fun y x => ?_
  rw [references, references, object?_alloc ht]
  split
  · next hy =>
    -- nothing was there before
    have hnone : h.object? y = none := by
      rw [hy, object?, entry?_eq_none_iff.mpr (contains_nextId ht)]
      rfl
    rw [hnone]
    exact Nat.zero_le _
  · exact Nat.le_refl _

lemma lossNoted_without (ho : h.object? id = some o) : LossNoted h (h.without id o) := by
  refine lossNoted_resetAll fun x y hlt => ?_
  have hobj : object? { h.vacate id.index with live := h.live - 1 } y =
      if y.index = id.index then none else h.object? y := by
    have hsame : object? { h.vacate id.index with live := h.live - 1 } y =
        (h.vacate id.index).object? y := rfl
    rw [hsame, object?, entry?_vacate]
    split <;> rfl
  rw [references, hobj] at hlt
  split at hlt
  · next hy =>
    rw [references] at hlt
    cases hoy : h.object? y with
    | none => simp [hoy] at hlt
    | some o' =>
      -- the object in the slot is the one that was taken out
      obtain rfl := eq_of_contains (contains_of_object? hoy) (contains_of_object? ho) hy
      rw [ho] at hoy
      cases hoy
      rw [ho] at hlt
      exact List.count_pos_iff.mp hlt
  · exact absurd hlt (Nat.lt_irrefl _)

/-- Survivors keep their references, so whatever lost one was told so when its holder went. -/
lemma lossNoted_collect (hw : Wired h) (bound : UInt8) (extra : List ObjectId) :
    LossNoted h (h.collect bound extra).2 := by
  have hcol := collected_collect hw bound extra
  intro x y hc hlt
  have hbefore : 0 < h.references y x := Nat.zero_lt_of_lt hlt
  cases hoy : h.object? y with
  | none => simp [references, hoy] at hbefore
  | some o =>
    have hcount : h.references y x = o.children.count x := by rw [references, hoy]; rfl
    -- a survivor keeps all it refers to, so what lost a reference to `x` was itself freed
    have hgone : h.goneIn (h.collect bound extra).2 y = true := by
      by_contra hnot
      have hcy : (h.collect bound extra).2.contains y = true := by
        simpa [goneIn, contains_of_object? hoy] using hnot
      obtain ⟨o', ho'⟩ := exists_object? hcy
      obtain ⟨o'', ho'', rfl⟩ := hcol.object ho'
      rw [hoy] at ho''
      cases ho''
      rw [references, ho', hcount] at hlt
      simp at hlt
    obtain ⟨e, he⟩ := contains_iff.mp (contains_hold.trans ((hcol.survives x).mp hc).contains)
    obtain ⟨e', he', -, -, hage⟩ := hcol.survivor he hc
    have hmem : x ∈ o.children := List.count_pos_iff.mp (hcount ▸ hbefore)
    rw [if_pos (hcol.mem_children.mpr ⟨y, o, hgone, hoy, hmem⟩)] at hage
    rw [age?, he', Option.map_some, hage]

/-! ## The barrier -/

/-- Every operation notes every loss. A collection relies on wires that agree. -/
lemma lossNoted_after (host : KernelHost H) (op : Operation H) (ht : Tidy h)
    (hw : (∃ bound extra, op = .collect bound extra) → Wired h) :
    LossNoted h (op.after host h) := by
  cases op with
  | alloc o => exact lossNoted_alloc ht
  | remove id =>
    refine HeapM.Ends.leaves (.discard (ends_remove.mono (fun o h' hr => ?_) fun _ _ he => ?_))
    · exact hr.2 ▸ lossNoted_without hr.1
    · exact he.1 ▸ .refl h
  | define frame name value => exact notes_define.leaves
  | assign frame name value =>
    refine HeapM.Ends.leaves
      (.discard (ends_assign_noted.mono (fun _ _ ha => ha.1) fun _ _ he => ?_))
    exact he ▸ .refl h
  | bind frame name value => exact notes_bind.leaves
  | pushElement sequence value => exact notes_pushElement.leaves
  | setRef cell value => exact notes_setRef.leaves
  | setIndex target indices value => exact notes_setIndex.leaves
  | connect input output =>
    exact leaves_connect (P := LossNoted h) (.refl h) fun hin _ => lossNoted_connect hin
  | disconnect input =>
    exact leaves_disconnect (P := LossNoted h) (.refl h) fun _ => lossNoted_unplug
  | setParam param value => exact notes_setParam.leaves
  | setParamNamed node name value => exact notes_setParamNamed.leaves
  | tick node => exact lossNoted_tick
  | pin id =>
    exact leaves_pin (P := LossNoted h) (.refl h) fun _ => lossNoted_modifyEntry fun _ => rfl
  | unpin id => exact lossNoted_modifyEntry fun _ => rfl
  | collect bound extra => exact lossNoted_collect (hw ⟨bound, extra, rfl⟩) bound extra
  | intern s => exact lossNoted_of_le fun _ _ => Nat.le_refl _

lemma age?_unpin_last (hpins : h.pinCount x = 1) : (h.unpin x).age? x = some 0 := by
  unfold pinCount at hpins
  cases he : h.entry? x with
  | none => simp [he] at hpins
  | some e =>
    rw [he] at hpins
    dsimp only at hpins
    rw [age?, entry?_unpin, if_pos rfl, he]
    simp [hpins]

/-- However an operation ends on a heap that operations lead to: if an object is live afterwards,
and some object, which may be gone by then, refers to it less often than before, then its age is
zero. This also holds of a root that the same collection made older. Taking back the last pin sets
the age to zero too. A collection clears the inputs that its garbage lists as targets, so that it
relies on no stamp having come round: a new node in an old slot could be taken for such a target. -/
theorem write_barrier_complete (hr : Reached host (fun _ op => op.StoresUnwired) h freed)
    (op : Operation H)
    (hfreed : (∃ bound extra, op = .collect bound extra) → ∀ i, freed i < 2 ^ 32) :
    (∀ x y, (op.after host h).contains x = true →
      (op.after host h).references y x < h.references y x → (op.after host h).age? x = some 0) ∧
    ∀ x, h.pinCount x = 1 → (h.unpin x).age? x = some 0 := by
  have ht : Tidy h :=
    hr.induct (fun names threshold => (counted_new names threshold).tidy) fun _ _ _ ht _ he =>
      ht.effect he
  exact ⟨lossNoted_after host op ht fun hcollect => (hr.intact (hfreed hcollect)).wired,
    fun x => age?_unpin_last⟩

/-- A pinned cell, and a sequence that nothing refers to, with the cell among its items. -/
def barrierSteps : List (Operation Stock.types) :=
  [.alloc (.ref .absent), .alloc (.sequence #[.ref ⟨0, 0⟩]), .pin ⟨0, 0⟩]

def barrierHeap : Heap Stock.types :=
  barrierSteps.foldl (fun h op => op.after Stock.kernels h) (Heap.new .new 1)

/-- The cell is a root of the collection that takes the sequence, and yet it does not grow older. -/
theorem write_barrier_complete_promoted :
    (barrierHeap.rootsOf 255 [] ⟨0, 0⟩ ∧ barrierHeap.references ⟨1, 0⟩ ⟨0, 0⟩ = 1) ∧
      (barrierHeap.collect 255 []).2.age? ⟨0, 0⟩ = some 0 := by
  have hunwired : ∀ op ∈ barrierSteps, ∀ _h : Heap Stock.types, op.StoresUnwired := by
    intro op hop _
    simp only [barrierSteps, List.mem_cons, List.not_mem_nil, or_false] at hop
    rcases hop with rfl | rfl | rfl
    · exact HeapObject.unwired_of_kind nofun
    · exact HeapObject.unwired_of_kind nofun
    · trivial
  have hnew : Reached Stock.kernels (fun _ op => op.StoresUnwired) _ _ := .new .new 1
  obtain ⟨freed, hr, hle⟩ := hnew.sequence barrierSteps hunwired
  have hfreed : ∀ i, freed i < 2 ^ 32 := fun i => by
    have := hle i
    simp [barrierSteps] at this
    omega
  obtain ⟨hnoted, -⟩ := write_barrier_complete hr (.collect 255 []) fun _ => hfreed
  refine ⟨by decide +kernel, hnoted ⟨0, 0⟩ ⟨1, 0⟩ ?_ ?_⟩ <;> decide +kernel

end Heap
end Patchbay
