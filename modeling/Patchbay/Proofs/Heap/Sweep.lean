import Patchbay.Proofs.Heap.Marking

/-!
# Sweeping

What each pass of a collection does to the entries of the heap, up to the effect of a whole
collection: `entry?_collect` says which objects are left and what has become of them.
-/

namespace Patchbay

variable {H : HostTypes}

/-- An entry that survived one more collection as a root. -/
def Entry.promoted (e : Entry H) : Entry H :=
  { e with age := if e.age = Heap.fullCollection then e.age else e.age + 1 }

/-- An entry after something that referred to it went, if `hit`. -/
def Entry.released (hit : Bool) (e : Entry H) : Entry H := if hit then { e with age := 0 } else e

lemma Entry.released_released {a b : Bool} {e : Entry H} :
    (e.released a).released b = e.released (a || b) := by
  cases a <;> cases b <;> rfl

namespace HeapObject

variable {o o' : HeapObject H} {i : Nat}

/-- The object without the targets that satisfy `gone`. -/
def dropTargets (gone : ObjectId → Bool) : HeapObject H → HeapObject H
  | node n => node { n with outputs := n.outputs.map fun p =>
      { p with targets := p.targets.filter fun t => !gone t.node } }
  | o => o

/-- The object without any targets. -/
def bare : HeapObject H → HeapObject H := dropTargets fun _ => true

@[simp] lemma bare_dropTargets {gone : ObjectId → Bool} : (o.dropTargets gone).bare = o.bare := by
  cases o <;> simp [bare, dropTargets]

@[simp] lemma targetsAt_dropTargets {gone : ObjectId → Bool} :
    (o.dropTargets gone).targetsAt i = (o.targetsAt i).filter fun t => !gone t.node := by
  cases o with
  | node n => cases hp : n.outputs[i]? <;> simp [dropTargets, targetsAt, hp]
  | _ => simp [dropTargets, targetsAt]

@[simp] lemma children_dropTargets {gone : ObjectId → Bool} :
    (o.dropTargets gone).children = o.children := by
  cases o with
  | node n =>
    simp [dropTargets, children, Node.children, List.filterMap_map]
  | _ => rfl

/-- Objects that differ in their targets only are equal once these agree. -/
lemma eq_of_bare (hb : o.bare = o'.bare) (ht : ∀ i, o.targetsAt i = o'.targetsAt i) : o = o' := by
  cases o with
  | node n =>
    cases o' with
    | node n' =>
      obtain ⟨name, kind, inputs, outputs, params, kernel, library⟩ := n
      obtain ⟨name', kind', inputs', outputs', params', kernel', library'⟩ := n'
      simp only [bare, dropTargets, node.injEq, Node.mk.injEq] at hb
      obtain ⟨rfl, rfl, rfl, hout, rfl, rfl, rfl⟩ := hb
      suffices outputs = outputs' by rw [this]
      apply Array.ext_getElem?
      intro i
      -- port by port: the names and values from `hb`, the targets from `ht`
      have hi := congrArg (fun ps : Array OutputPort => ps[i]?) hout
      have hti := ht i
      simp only [Array.getElem?_map] at hi
      simp only [targetsAt] at hti
      cases hp : outputs[i]? with
      | none =>
        cases hp' : outputs'[i]? with
        | none => rfl
        | some p' => simp [hp, hp'] at hi
      | some p =>
        cases hp' : outputs'[i]? with
        | none => simp [hp, hp'] at hi
        | some p' =>
          obtain ⟨name, value, targets⟩ := p
          obtain ⟨name', value', targets'⟩ := p'
          simp_all
    | _ => simp [bare, dropTargets] at hb
  | _ => cases o' <;> simp_all [bare, dropTargets]

end HeapObject

namespace Heap

variable {h h' : Heap H} {id x : ObjectId} {i j : Nat} {m : Marking} {extra : List ObjectId}

/-! ## Before the sweep -/

/-- Extra roots that were dropped, and that no pin holds, start their age again. -/
lemma entry?_hold (h : Heap H) (extra : List ObjectId) (x : ObjectId) :
    entry? (h.hold extra) x = (h.entry? x).map fun e =>
      if x ∈ h.held ∧ x ∉ extra ∧ e.pins = 0 then { e with age := 0 } else e := by
  have hsame : entry? { h with held := extra } x = h.entry? x := rfl
  unfold hold
  rw [entry?_foldl_resetAge, hsame]
  cases he : h.entry? x with
  | none => rfl
  | some e => simp [pinCount, he]

lemma foldl_promote {work : List Nat} (hnd : work.Nodup) (h : Heap H) :
    work.foldl promote h = { h with slots := h.slots.mapIdx fun i s =>
      if i ∈ work then { s with entry := s.entry.map Entry.promoted } else s } := by
  induction work generalizing h with
  | nil =>
    have hid : (h.slots.mapIdx fun _ s => s) = h.slots := by
      apply Array.ext_getElem?
      simp
    simp [hid]
  | cons k rest ih =>
    obtain ⟨hk, hnd⟩ := List.nodup_cons.mp hnd
    rw [List.foldl_cons, ih hnd]
    simp only [promote, Heap.mk.injEq, and_true]
    apply Array.ext_getElem?
    intro i
    simp only [Array.getElem?_mapIdx, Array.getElem?_modify]
    -- `k` is promoted now and, by `hk`, not a second time
    by_cases hi : k = i
    · subst hi
      cases h.slots[k]? with
      | none => simp
      | some s =>
        simp [hk]
        rfl
    · simp [hi, Ne.symm hi]

lemma entry?_foldl_promote {work : List Nat} (hnd : work.Nodup) :
    entry? (work.foldl promote h) x =
      (h.entry? x).map fun e => if x.index ∈ work then e.promoted else e := by
  rw [foldl_promote hnd]
  simp only [Array.getElem?_mapIdx, entry?]
  cases h.slots[x.index]? with
  | none => rfl
  | some s =>
    by_cases hs : s.stamp = x.stamp <;> by_cases hi : x.index ∈ work <;> simp [hs, hi]

/-! ## The passes of the sweep -/

lemma mem_garbage {o : HeapObject H} :
    (id, o) ∈ h.garbage m ↔ h.object? id = some o ∧ m.isMarked id.index = false := by
  simp only [garbage, List.mem_filterMap, List.mem_range]
  rw [object?_eq_some]
  constructor
  · rintro ⟨i, -, hi⟩
    split at hi
    · cases hi
    · next hm =>
      obtain ⟨s, hs, hmap⟩ := Option.bind_eq_some_iff.mp hi
      obtain ⟨e, he, heq⟩ := Option.map_eq_some_iff.mp hmap
      cases heq
      refine ⟨⟨e, entry?_eq_some.mpr ?_, rfl⟩, by simpa using hm⟩
      rw [hs, ← he]
  · rintro ⟨⟨e, he, rfl⟩, hm⟩
    have hs := entry?_eq_some.mp he
    refine ⟨id.index, Marking.index_lt (contains_of_entry he), ?_⟩
    simp [hm, hs]

/-- The slots of the garbage, in order. -/
lemma sublist_garbage :
    ((h.garbage m).map fun d => d.1.index).Sublist (List.range h.slots.size) := by
  unfold garbage
  induction List.range h.slots.size with
  | nil => exact List.Sublist.refl []
  | cons k rest ih =>
    rw [List.filterMap_cons]
    split
    · exact ih.cons k
    · next d hd =>
      split at hd
      · cases hd
      · obtain ⟨s, -, hmap⟩ := Option.bind_eq_some_iff.mp hd
        obtain ⟨e, -, heq⟩ := Option.map_eq_some_iff.mp hmap
        cases heq
        exact ih.cons_cons k

lemma nodup_garbage : ((h.garbage m).map fun d => d.1.index).Nodup :=
  sublist_garbage.nodup List.nodup_range

lemma entry?_detach :
    entry? (h.detach m) x = if m.isMarked x.index then h.entry? x else none := by
  simp only [detach, entry?, Array.getElem?_mapIdx]
  cases h.slots[x.index]? with
  | none => simp
  | some s =>
    by_cases hs : s.stamp = x.stamp <;> by_cases hm : m.isMarked x.index = true <;> simp [hs, hm]

/-! ## Clearing edges

Entries are compared in two parts: the targets of outputs, and the outline with all the rest. -/

/-- The entry of a live object without any targets. -/
def outline? (h : Heap H) (x : ObjectId) : Option (Entry H) :=
  (h.entry? x).map fun e => { e with object := e.object.bare }

section ClearEdges

variable {output input : PortRef} {n : Node H} {o : HeapObject H}

lemma outline?_foldl_resetAge {ids : List ObjectId} :
    (ids.foldl resetAge h).outline? x = (h.outline? x).map (Entry.released (ids.contains x)) := by
  unfold outline?
  rw [entry?_foldl_resetAge]
  cases h.entry? x with
  | none => rfl
  | some e => by_cases hx : x ∈ ids <;> simp [hx, Entry.released]

@[simp] lemma outline?_unlinkTarget : (h.unlinkTarget output input).outline? x = h.outline? x := by
  unfold outline? unlinkTarget modifyNode
  rw [entry?_modifyObject]
  split
  · rw [Option.map_map]
    refine congrArg (fun f => (h.entry? x).map f) (funext fun e => ?_)
    obtain ⟨o, age, pins⟩ := e
    cases o with
    | node n =>
      simp only [Function.comp_apply, HeapObject.bare, HeapObject.dropTargets, Entry.mk.injEq,
        HeapObject.node.injEq, Node.mk.injEq, true_and, and_true]
      apply Array.ext_getElem?
      intro i
      simp only [Array.getElem?_map, Array.getElem?_modify]
      split
      · cases n.outputs[i]? <;> simp
      · rfl
    | _ => rfl
  · rfl

lemma outline?_unlinkInputs : (h.unlinkInputs id n).outline? x = h.outline? x := by
  unfold unlinkInputs
  refine List.foldlRecOn (motive := fun g : Heap H => g.outline? x = h.outline? x) _ _ rfl ?_
  rintro g hg ⟨i, port⟩ -
  dsimp only
  split
  · rw [outline?_unlinkTarget, hg]
  · exact hg

/-- Taking the inputs of a node off the targets of their sources filters every list of targets. -/
lemma exists_keep_unlink (id x : ObjectId) (j : Nat) (ports : List (Nat × InputPort)) (h : Heap H) :
    ∃ keep : PortRef → Bool, (∀ t, t.node ≠ id → keep t = true) ∧
      (∀ d ∈ ports, ∀ k : UInt16, k.toNat = j → d.2.source = some ⟨x, k⟩ →
        keep ⟨id, Node.portIndex d.1⟩ = false) ∧
      targetsAt (ports.foldl (fun h (i, port) =>
        match port.source with
        | some source => h.unlinkTarget source ⟨id, Node.portIndex i⟩
        | none => h) h) x j = (h.targetsAt x j).filter keep := by
  induction ports generalizing h with
  | nil => exact ⟨fun _ => true, by simp, by simp, by simp⟩
  | cons d ports ih =>
    obtain ⟨i, port⟩ := d
    rw [List.foldl_cons]
    dsimp only
    cases hs : port.source with
    | none =>
      obtain ⟨keep, hother, hmine, heq⟩ := ih h
      refine ⟨keep, hother, fun d hd k hk hsrc => ?_, heq⟩
      rcases List.mem_cons.mp hd with rfl | hd
      · simp [hs] at hsrc
      · exact hmine d hd k hk hsrc
    | some source =>
      obtain ⟨keep, hother, hmine, heq⟩ := ih (h.unlinkTarget source ⟨id, Node.portIndex i⟩)
      dsimp only
      rw [heq, targetsAt_unlinkTarget]
      by_cases hat : x = source.node ∧ j = source.index.toNat
      · -- this port is on the list in question, and its input is filtered out too
        rw [if_pos hat, List.filter_filter]
        refine ⟨fun t => keep t && decide (t ≠ ⟨id, Node.portIndex i⟩), fun t ht => ?_,
          fun d hd k hk hsrc => ?_, rfl⟩
        · have : t ≠ ⟨id, Node.portIndex i⟩ := fun heq => ht (by rw [heq])
          simp [hother t ht, this]
        · rcases List.mem_cons.mp hd with rfl | hd
          · simp
          · simp [hmine d hd k hk hsrc]
      · rw [if_neg hat]
        refine ⟨keep, hother, fun d hd k hk hsrc => ?_, rfl⟩
        rcases List.mem_cons.mp hd with rfl | hd
        · rw [hs, Option.some.injEq] at hsrc
          exact absurd ⟨by rw [hsrc], by rw [hsrc, ← hk]⟩ hat
        · exact hmine d hd k hk hsrc

/-- Targets that belong to a node, and that the node knows of, are gone once its inputs are taken
off. -/
lemma targetsAt_unlinkInputs
    (hknown : ∀ t ∈ h.targetsAt x j, t.node = id →
      ∃ k : UInt16, k.toNat = j ∧ (HeapObject.node n).sourceAt t.index.toNat = some ⟨x, k⟩) :
    (h.unlinkInputs id n).targetsAt x j = (h.targetsAt x j).filter fun t => t.node ≠ id := by
  obtain ⟨keep, hother, hmine, heq⟩ :=
    exists_keep_unlink id x j ((List.range n.inputs.size).zip n.inputs.toList) h
  refine heq.trans (List.filter_congr fun t ht => ?_)
  by_cases hnode : t.node = id
  · obtain ⟨k, hk, hsource⟩ := hknown t ht hnode
    obtain ⟨port, hport, hsrc⟩ := Option.bind_eq_some_iff.mp hsource
    have hlt : t.index.toNat < n.inputs.size := (Array.getElem?_eq_some_iff.mp hport).1
    have hmem : (t.index.toNat, port) ∈ (List.range n.inputs.size).zip n.inputs.toList := by
      refine List.mem_iff_getElem?.mpr ⟨t.index.toNat, ?_⟩
      rw [List.getElem?_zip_eq_some]
      exact ⟨List.getElem?_range hlt, by simpa using hport⟩
    have hindex : Node.portIndex t.index.toNat = t.index := by
      simp [Node.portIndex, Node.portIndex?, t.index.toNat_lt]
    have hkeep := hmine _ hmem k hk hsrc
    rw [hindex, ← hnode] at hkeep
    simp [hkeep, hnode]
  · simp [hother t hnode, hnode]

/-- Nothing is cleared on nodes that are gone. -/
lemma unlinkOutputs_eq
    (hgone : ∀ i, ∀ t ∈ (HeapObject.node n).targetsAt i, h.contains t.node = false) :
    h.unlinkOutputs n = h := by
  have hset : ∀ t : PortRef, h.contains t.node = false → h.setSource t none = h := fun t ht =>
    modifyEntry_of_not_contains ht
  have hport : ∀ p ∈ n.outputs, (p.targets.foldl (fun h target => h.setSource target none) h) =
      h := by
    intro p hp
    obtain ⟨i, hi⟩ := Array.mem_iff_getElem?.mp hp
    rw [← Array.foldl_toList]
    refine List.foldlRecOn (motive := fun g => g = h) _ _ rfl ?_
    rintro g rfl t ht
    exact hset t (hgone i t (by simpa [HeapObject.targetsAt, hi] using ht))
  unfold unlinkOutputs
  rw [← Array.foldl_toList]
  refine List.foldlRecOn (motive := fun g => g = h) _ _ rfl ?_
  rintro g rfl p hp
  exact hport p (by simpa using hp)

lemma rewired_foldl_resetAge (ids : List ObjectId) (h : Heap H) :
    Rewired h (ids.foldl resetAge h) :=
  List.foldlRecOn (motive := fun g : Heap H => Rewired h g) _ _ (.refl h) fun _ hg _ _ =>
    hg.trans (touched_resetAge fun o => .refl o)

lemma targetsAt_foldl_resetAge (ids : List ObjectId) (h : Heap H) :
    (ids.foldl resetAge h).targetsAt x j = h.targetsAt x j :=
  List.foldlRecOn (motive := fun g : Heap H => g.targetsAt x j = h.targetsAt x j) _ _ rfl
    fun _ hg _ _ => by rw [targetsAt_resetAge, hg]

lemma rewired_unlinkInputs : Rewired h (h.unlinkInputs id n) := by
  refine List.foldlRecOn (motive := fun g : Heap H => Rewired h g) _ _ (.refl h) ?_
  rintro g hg ⟨i, port⟩ -
  dsimp only
  split
  · exact hg.trans .unlinkTarget
  · exact hg

lemma rewired_unlinkOutputs : Rewired h (h.unlinkOutputs n) := by
  unfold unlinkOutputs
  rw [← Array.foldl_toList]
  refine List.foldlRecOn (motive := fun g : Heap H => Rewired h g) _ _ (.refl h) fun g hg p _ => ?_
  rw [← Array.foldl_toList]
  exact List.foldlRecOn (motive := fun g : Heap H => Rewired h g) _ _ hg fun g hg t _ =>
    hg.trans .setSource

lemma rewired_clearEdges : Rewired h (h.clearEdges id o) := by
  have hreset := rewired_foldl_resetAge o.children h
  cases o with
  | node n => exact (hreset.trans rewired_unlinkInputs).trans rewired_unlinkOutputs
  | _ => exact hreset

/-- What is left of telling the survivors when no target of the garbage survives. -/
lemma clearEdges_eq (hgone : ∀ i, ∀ t ∈ o.targetsAt i, h.contains t.node = false) :
    h.clearEdges id o =
      match o with
      | .node n => (o.children.foldl resetAge h).unlinkInputs id n
      | _ => o.children.foldl resetAge h := by
  cases o with
  | node n =>
    refine unlinkOutputs_eq fun i t ht => ?_
    have hkept : Rewired h ((n.children.foldl resetAge h).unlinkInputs id n) :=
      (rewired_foldl_resetAge _ h).trans rewired_unlinkInputs
    exact hkept.contains.trans (hgone i t ht)
  | _ => rfl

lemma outline?_clearEdges (hgone : ∀ i, ∀ t ∈ o.targetsAt i, h.contains t.node = false) :
    (h.clearEdges id o).outline? x = (h.outline? x).map
      (Entry.released (o.children.contains x)) := by
  rw [clearEdges_eq hgone]
  cases o with
  | node n => exact outline?_unlinkInputs.trans outline?_foldl_resetAge
  | _ => exact outline?_foldl_resetAge

lemma targetsAt_clearEdges (hgone : ∀ i, ∀ t ∈ o.targetsAt i, h.contains t.node = false)
    (hknown : ∀ t ∈ h.targetsAt x j, t.node = id →
      ∃ k : UInt16, k.toNat = j ∧ o.sourceAt t.index.toNat = some ⟨x, k⟩) :
    (h.clearEdges id o).targetsAt x j = (h.targetsAt x j).filter fun t => t.node ≠ id := by
  rw [clearEdges_eq hgone]
  have hplain : (∀ i, o.sourceAt i = none) →
      h.targetsAt x j = (h.targetsAt x j).filter fun t => t.node ≠ id := by
    intro hnone
    refine (List.filter_eq_self.mpr fun t ht => ?_).symm
    refine decide_eq_true fun hnode => ?_
    obtain ⟨k, -, hsource⟩ := hknown t ht hnode
    simp [hnone] at hsource
  cases o with
  | node n =>
    dsimp only
    rw [targetsAt_unlinkInputs, targetsAt_foldl_resetAge]
    rw [targetsAt_foldl_resetAge]
    exact hknown
  | _ => exact (targetsAt_foldl_resetAge _ h).trans (hplain fun _ => rfl)

/-- No target of the garbage is live, and the garbage knows of every live output that lists it. -/
structure Severed (h : Heap H) (dead : List (ObjectId × HeapObject H)) : Prop where
  gone : ∀ d ∈ dead, ∀ i, ∀ t ∈ d.2.targetsAt i, h.contains t.node = false
  known : ∀ d ∈ dead, ∀ x j, ∀ t ∈ h.targetsAt x j, t.node = d.1 →
    ∃ k : UInt16, k.toNat = j ∧ d.2.sourceAt t.index.toNat = some ⟨x, k⟩

/-- Clearing the edges of all the garbage. -/
lemma Severed.clearAll {dead : List (ObjectId × HeapObject H)} (hs : Severed h dead) :
    let g := dead.foldl (fun h (id, object) => h.clearEdges id object) h
    Rewired h g ∧
      (∀ x, g.outline? x =
        (h.outline? x).map (Entry.released ((dead.flatMap fun d => d.2.children).contains x))) ∧
      ∀ x j, g.targetsAt x j = (h.targetsAt x j).filter fun t =>
        !(dead.map Prod.fst).contains t.node := by
  induction dead generalizing h with
  | nil =>
    refine ⟨.refl h, fun x => ?_, fun x j => by simp⟩
    rw [List.foldl_nil]
    cases h.outline? x <;> rfl
  | cons d rest ih =>
    obtain ⟨id, o⟩ := d
    have hgone := hs.gone (id, o) List.mem_cons_self
    have hknown := hs.known (id, o) List.mem_cons_self
    have hrew : Rewired h (h.clearEdges id o) := rewired_clearEdges
    -- clearing the edges of one object leaves the rest as it has to be
    have hrest : Severed (h.clearEdges id o) rest := by
      refine ⟨fun d hd i t ht => ?_, fun d hd x j t ht hnode => ?_⟩
      · rw [hrew.contains]
        exact hs.gone d (List.mem_cons_of_mem _ hd) i t ht
      · rw [targetsAt_clearEdges hgone (hknown x j)] at ht
        exact hs.known d (List.mem_cons_of_mem _ hd) x j t (List.mem_of_mem_filter ht) hnode
    obtain ⟨hrew', hout, htargets⟩ := ih hrest
    refine ⟨hrew.trans hrew', fun x => ?_, fun x j => ?_⟩
    · refine (hout x).trans ?_
      rw [outline?_clearEdges hgone, Option.map_map, List.flatMap_cons]
      refine congrArg (fun f => (h.outline? x).map f) (funext fun e => ?_)
      rw [Function.comp_apply, Entry.released_released]
      congr 1
      rw [Bool.eq_iff_iff, Bool.or_eq_true]
      simp only [List.contains_iff_mem, List.mem_append]
    · refine (htargets x j).trans ?_
      rw [targetsAt_clearEdges hgone (hknown x j), List.filter_filter]
      refine List.filter_congr fun t _ => ?_
      by_cases hnode : t.node = id <;> simp [hnode]

end ClearEdges
/-! ## Vacating -/

/-- Vacating several slots, each once. -/
lemma foldl_vacate (dead : List (ObjectId × HeapObject H))
    (hnd : (dead.map fun d => d.1.index).Nodup) (h : Heap H) :
    let g := dead.foldl (fun h (id, _) => h.vacate id.index) h
    let slots := dead.map fun d => d.1.index
    (∀ x, g.entry? x = if x.index ∈ slots then none else h.entry? x) ∧
      (∀ i, g.stampAt i = if i ∈ slots then (h.stampAt i).map (· + 1) else h.stampAt i) ∧
      g.free = slots.reverse ++ h.free ∧ g.live = h.live ∧ g.held = h.held := by
  induction dead generalizing h with
  | nil => simp
  | cons d rest ih =>
    obtain ⟨id, o⟩ := d
    obtain ⟨hnot, hnd⟩ := List.nodup_cons.mp hnd
    obtain ⟨hentry, hstamp, hfree, hlive, hheld⟩ := ih hnd (h.vacate id.index)
    refine ⟨fun x => ?_, fun i => ?_, ?_, hlive, hheld⟩
    · refine (hentry x).trans ?_
      rw [entry?_vacate]
      by_cases hx : x.index = id.index
      · simp [hx]
      · simp only [List.map_cons, List.mem_cons, hx, false_or, if_false]
    -- each slot is vacated once, so its stamp moves by one
    · refine (hstamp i).trans ?_
      rw [stampAt_vacate]
      by_cases hi : i = id.index
      · subst hi
        rw [if_neg hnot]
        simp
      · simp only [List.map_cons, List.mem_cons, hi, false_or, if_false]
    · refine hfree.trans ?_
      simp

/-! ## The whole collection -/

/-- The roots of a collection, once dropped extra roots have started their age again. -/
def rootsOf (h : Heap H) (bound : UInt8) (extra : List ObjectId) (id : ObjectId) : Prop :=
  Marking.isRoot (h.hold extra) bound extra id = true

instance {bound : UInt8} : DecidablePred (h.rootsOf bound extra) :=
  fun id => inferInstanceAs (Decidable (Marking.isRoot (h.hold extra) bound extra id = true))

/-- What a collection that reclaims the objects `dead` makes of a heap. -/
structure Collected (h : Heap H) (bound : UInt8) (extra : List ObjectId)
    (dead : List (ObjectId × HeapObject H)) (h' : Heap H) : Prop where
  nodup : (dead.map fun d => d.1.index).Nodup
  dead_iff : ∀ id o, (id, o) ∈ dead ↔
    h.object? id = some o ∧ ¬ Reachable h (h.rootsOf bound extra) id
  survives : ∀ id, h'.contains id = true ↔ Reachable h (h.rootsOf bound extra) id
  entry : ∀ id e, Heap.entry? (h.hold extra) id = some e → h'.contains id = true →
    Heap.entry? h' id = some
      { (if h.rootsOf bound extra id then e.promoted else e).released
          ((dead.flatMap fun d => d.2.children).contains id) with
        object := e.object.dropTargets (dead.map Prod.fst).contains }
  stamp : ∀ i, h'.stampAt i =
    if i ∈ dead.map fun d => d.1.index then (h.stampAt i).map (· + 1) else h.stampAt i
  free : h'.free = (dead.map fun d => d.1.index).reverse ++ h.free
  live : h'.live = h.live - dead.length
  held : h'.held = extra

section Collect

variable {bound : UInt8} {root : ObjectId → Prop}

lemma object?_hold (extra : List ObjectId) : (h.hold extra).object? x = h.object? x := by
  unfold object?
  rw [entry?_hold]
  cases h.entry? x with
  | none => rfl
  | some e =>
    simp only [Option.map_some]
    split <;> rfl

/-- Noting the extra roots sets back ages only. -/
lemma rewired_hold : Rewired { h with held := extra } (h.hold extra) := rewired_foldl_resetAge _ _

lemma object?_foldl_promote {work : List Nat} (hnd : work.Nodup) :
    (work.foldl promote h).object? x = h.object? x := by
  unfold object?
  rw [entry?_foldl_promote hnd]
  cases h.entry? x with
  | none => rfl
  | some e =>
    simp only [Option.map_some]
    split <;> rfl

/-- A marking is as good for a heap with the same objects in as many slots. -/
lemma Marking.Marks.congr (hm : Marking.Marks h root m) (hsize : h'.slots.size = h.slots.size)
    (ho : ∀ x, h'.object? x = h.object? x) : Marking.Marks h' root m := by
  have hc : ∀ x, h'.contains x = true → h.contains x = true := fun x hx => by
    obtain ⟨o, hobj⟩ := exists_object? hx
    exact contains_of_object? ((ho x).symm.trans hobj)
  refine ⟨hm.size.trans hsize.symm, hm.nodup, hm.work, fun i hi => ?_,
    fun id hlive hr => hm.roots id (hc id hlive) hr,
    fun x o hobj hx hnot y hy hlive => hm.closed x o ((ho x).symm.trans hobj) hx hnot y hy
      (hc y hlive)⟩
  obtain ⟨id, hid, hr⟩ := hm.sound i hi
  exact ⟨id, hid, hr.congr ho fun _ _ h => h⟩

/-- The heap after the roots of a collection grew older. -/
def grown (h : Heap H) (bound : UInt8) (extra : List ObjectId) : Heap H :=
  (Marking.ofRoots (h.hold extra) bound extra).work.foldl promote (h.hold extra)

/-- The marking that a collection sweeps by. -/
def marking (h : Heap H) (bound : UInt8) (extra : List ObjectId) : Marking :=
  Marking.spread (h.grown bound extra) (h.grown bound extra).slots.size
    (Marking.ofRoots (h.hold extra) bound extra)

lemma object?_grown (bound : UInt8) (extra : List ObjectId) :
    (h.grown bound extra).object? x = h.object? x :=
  (object?_foldl_promote (Marking.rootMarks_ofRoots _ _ _).nodup).trans (object?_hold extra)

/-- The garbage of a collection. -/
def garbageOf (h : Heap H) (bound : UInt8) (extra : List ObjectId) :
    List (ObjectId × HeapObject H) :=
  (h.grown bound extra).garbage (h.marking bound extra)

/-- The heap with the slots of the garbage emptied. -/
def detached (h : Heap H) (bound : UInt8) (extra : List ObjectId) : Heap H :=
  (h.grown bound extra).detach (h.marking bound extra)

/-- The heap once the survivors were told of the garbage. -/
def cleared (h : Heap H) (bound : UInt8) (extra : List ObjectId) : Heap H :=
  (h.garbageOf bound extra).foldl (fun h (id, object) => h.clearEdges id object)
    (h.detached bound extra)

/-- The heap once the slots of the garbage were vacated. -/
def swept (h : Heap H) (bound : UInt8) (extra : List ObjectId) : Heap H :=
  (h.garbageOf bound extra).foldl (fun h (id, _) => h.vacate id.index) (h.cleared bound extra)

/-- The passes of a collection. -/
lemma collect_eq :
    h.collect bound extra =
      (⟨bound, (Marking.ofRoots (h.hold extra) bound extra).work.length,
        (h.swept bound extra).live - (h.garbageOf bound extra).length,
        (h.garbageOf bound extra).length⟩,
      { h.swept bound extra with
        live := (h.swept bound extra).live - (h.garbageOf bound extra).length
        allocated := 0
        collections := (h.swept bound extra).collections + 1 }) := rfl

lemma isMarked_marking :
    (h.marking bound extra).isMarked i = true ↔
      ∃ id, id.index = i ∧ Reachable h (h.rootsOf bound extra) id := by
  have hroots : Marking.RootMarks (h.hold extra) (h.rootsOf bound extra) _ :=
    Marking.rootMarks_ofRoots _ _ _
  have hsize : (h.grown bound extra).slots.size = (h.hold extra).slots.size := by
    rw [grown, foldl_promote hroots.nodup]
    simp
  have hmarks := hroots.marks.congr hsize fun x =>
    (object?_foldl_promote hroots.nodup : (h.grown bound extra).object? x = _)
  have hfuel := hroots.fuel
  obtain ⟨hspread, hdone⟩ := hmarks.spread (hfuel.trans hsize.symm).le
  rw [marking, hspread.isMarked_iff hdone]
  have hiff : ∀ id, Reachable (h.grown bound extra) (h.rootsOf bound extra) id ↔
      Reachable h (h.rootsOf bound extra) id := fun id =>
    ⟨fun hr => hr.congr (fun _ => (object?_grown _ _).symm) fun _ _ hroot => hroot,
      fun hr => hr.congr (fun _ => object?_grown _ _) fun _ _ hroot => hroot⟩
  simp only [hiff]

lemma isMarked_of_contains (hc : h.contains id = true) :
    (h.marking bound extra).isMarked id.index = true ↔ Reachable h (h.rootsOf bound extra) id := by
  rw [isMarked_marking]
  constructor
  · rintro ⟨y, hy, hr⟩
    rwa [eq_of_contains hc hr.contains hy.symm]
  · exact fun hr => ⟨id, rfl, hr⟩

lemma mem_garbageOf {o : HeapObject H} :
    (id, o) ∈ h.garbageOf bound extra ↔
      h.object? id = some o ∧ ¬ Reachable h (h.rootsOf bound extra) id := by
  rw [garbageOf, mem_garbage, object?_grown]
  refine and_congr_right fun ho => ?_
  rw [← isMarked_of_contains (contains_of_object? ho), Bool.not_eq_true]

lemma object?_detached :
    (h.detached bound extra).object? x =
      if (h.marking bound extra).isMarked x.index then h.object? x else none := by
  rw [detached, object?, entry?_detach, ← object?_grown bound extra]
  split <;> rfl

lemma contains_detached :
    (h.detached bound extra).contains x = true ↔ Reachable h (h.rootsOf bound extra) x := by
  constructor
  · intro hx
    obtain ⟨o, ho⟩ := exists_object? hx
    rw [object?_detached] at ho
    split at ho
    · next hmark => exact (isMarked_of_contains (contains_of_object? ho)).mp hmark
    · cases ho
  · intro hr
    obtain ⟨o, ho⟩ := exists_object? hr.contains
    refine contains_of_object? (o := o) ?_
    rw [object?_detached, if_pos ((isMarked_of_contains hr.contains).mpr hr), ho]

lemma targetsAt_detached (hr : Reachable h (h.rootsOf bound extra) x) :
    (h.detached bound extra).targetsAt x j = h.targetsAt x j := by
  rw [targetsAt, object?_detached, if_pos ((isMarked_of_contains hr.contains).mpr hr), targetsAt]

/-- The garbage can be cleared from the survivors when wires agree. -/
lemma severed_detached (hw : Wired h) (bound : UInt8) (extra : List ObjectId) :
    Severed (h.detached bound extra) (h.garbageOf bound extra) := by
  refine ⟨?_, ?_⟩
  · rintro ⟨id, o⟩ hd i t ht
    obtain ⟨ho, hnot⟩ := mem_garbageOf.mp hd
    rw [← Bool.not_eq_true, contains_detached]
    -- A reachable target would lead to the garbage, by its source.
    intro hr
    obtain ⟨k, -, hsource⟩ := hw.answered id i t (by simpa [targetsAt, ho] using ht) hr.contains
    obtain ⟨obj, hobj, hs⟩ := Option.bind_eq_some_iff.mp hsource
    have hchild : id ∈ obj.children := HeapObject.mem_children.mpr (.inr (.inr ⟨_, _, hs, rfl⟩))
    exact hnot (.child hr hobj hchild (contains_of_object? ho))
  · rintro ⟨id, o⟩ hd x j t ht hnode
    obtain ⟨ho, -⟩ := mem_garbageOf.mp hd
    have hr := contains_detached.mp (contains_of_mem_targetsAt ht)
    rw [targetsAt_detached hr] at ht
    dsimp only at hnode
    obtain ⟨k, hk, hsource⟩ := hw.answered x j t ht (by rw [hnode]; exact contains_of_object? ho)
    exact ⟨k, hk, by simpa [sourceAt, hnode, ho] using hsource⟩

/-- An entry is known by its outline and its targets. -/
lemma entry?_of_outline {e : Entry H} {o : HeapObject H}
    (hout : h.outline? x = some { e with object := o.bare })
    (ht : ∀ j, h.targetsAt x j = o.targetsAt j) : h.entry? x = some { e with object := o } := by
  obtain ⟨e', he, heq⟩ := Option.map_eq_some_iff.mp hout
  obtain ⟨o', age, pins⟩ := e'
  simp only [Entry.mk.injEq] at heq
  obtain ⟨hbare, rfl, rfl⟩ := heq
  have hobj : o' = o := by
    refine HeapObject.eq_of_bare hbare fun j => ?_
    rw [← ht j]
    simp [targetsAt, object?, he]
  rw [he, hobj]

lemma contains_hold : (h.hold extra).contains x = h.contains x := by
  unfold contains
  rw [entry?_hold, Option.isSome_map]

/-- The handle of a root is in the work list that a marking starts with. -/
lemma mem_work_iff (hc : h.contains id = true) :
    id.index ∈ (Marking.ofRoots (h.hold extra) bound extra).work ↔ h.rootsOf bound extra id := by
  have hroots : Marking.RootMarks (h.hold extra) (h.rootsOf bound extra) _ :=
    Marking.rootMarks_ofRoots _ _ _
  rw [hroots.work, hroots.marked]
  constructor
  · rintro ⟨y, hy, hcy, hr⟩
    rw [contains_hold] at hcy
    rwa [eq_of_contains hc hcy hy.symm]
  · exact fun hr => ⟨id, rfl, contains_hold.trans hc, hr⟩

lemma entry?_grown {e : Entry H} (he : Heap.entry? (h.hold extra) id = some e) :
    Heap.entry? (h.grown bound extra) id =
      some (if h.rootsOf bound extra id then e.promoted else e) := by
  have hc : h.contains id = true := contains_hold.symm.trans (contains_of_entry he)
  rw [grown, entry?_foldl_promote (Marking.rootMarks_ofRoots _ _ _).nodup, he, Option.map_some]
  simp only [mem_work_iff hc]

/-- A survivor once it was told of the garbage. -/
lemma entry?_cleared (hw : Wired h) {e : Entry H} (he : Heap.entry? (h.hold extra) id = some e)
    (hr : Reachable h (h.rootsOf bound extra) id) :
    Heap.entry? (h.cleared bound extra) id = some
      { (if h.rootsOf bound extra id then e.promoted else e).released
          (((h.garbageOf bound extra).flatMap fun d => d.2.children).contains id) with
        object := e.object.dropTargets ((h.garbageOf bound extra).map Prod.fst).contains } := by
  obtain ⟨-, hout, htargets⟩ := (severed_detached hw bound extra).clearAll
  have hmark : (h.marking bound extra).isMarked id.index = true :=
    (isMarked_of_contains hr.contains).mpr hr
  have hobj : h.object? id = some e.object := by
    rw [← object?_hold extra]
    simp [object?, he]
  refine entry?_of_outline ?_ fun j => ?_
  · refine (hout id).trans ?_
    rw [outline?, detached, entry?_detach, if_pos hmark, entry?_grown he]
    by_cases hroot : h.rootsOf bound extra id <;>
      cases ((h.garbageOf bound extra).flatMap fun d => d.2.children).contains id <;>
        simp [hroot, Entry.released, Entry.promoted]
  · refine (htargets id j).trans ?_
    rw [targetsAt_detached hr, HeapObject.targetsAt_dropTargets]
    simp [targetsAt, hobj]

lemma stampAt_detached : (h.detached bound extra).stampAt i = h.stampAt i := by
  have hgrown : (h.grown bound extra).stampAt i = (h.hold extra).stampAt i := by
    rw [grown, foldl_promote (Marking.rootMarks_ofRoots _ _ _).nodup]
    simp only [stampAt, Array.getElem?_mapIdx]
    cases (h.hold extra).slots[i]? with
    | none => rfl
    | some s =>
      simp only [Option.map_some]
      split <;> rfl
  have hdetach : (h.detached bound extra).stampAt i = (h.grown bound extra).stampAt i := by
    simp only [detached, detach, stampAt, Array.getElem?_mapIdx]
    cases (h.grown bound extra).slots[i]? with
    | none => rfl
    | some s =>
      simp only [Option.map_some]
      split <;> rfl
  rw [hdetach, hgrown, rewired_hold.stamp]
  rfl

lemma counters_detached (h : Heap H) (bound : UInt8) (extra : List ObjectId) :
    (h.detached bound extra).free = h.free ∧ (h.detached bound extra).live = h.live ∧
      (h.detached bound extra).held = extra := by
  have hgrown := foldl_promote (Marking.rootMarks_ofRoots (h.hold extra) bound extra).nodup
    (h.hold extra)
  rw [← grown] at hgrown
  simp only [detached, detach, hgrown]
  exact ⟨rewired_hold.free, rewired_hold.live, rewired_hold.held⟩

lemma index_not_mem_garbageOf (hr : Reachable h (h.rootsOf bound extra) id) :
    id.index ∉ (h.garbageOf bound extra).map fun d => d.1.index := by
  intro hmem
  obtain ⟨⟨y, o⟩, hd, hindex⟩ := List.mem_map.mp hmem
  obtain ⟨ho, hnot⟩ := mem_garbageOf.mp hd
  have : y = id := eq_of_contains (contains_of_object? ho) hr.contains hindex
  exact hnot (this ▸ hr)

/-- The effect of a collection on a heap with its wires in order. -/
theorem collected_collect (hw : Wired h) (bound : UInt8) (extra : List ObjectId) :
    Collected h bound extra (h.garbageOf bound extra) (h.collect bound extra).2 := by
  have hnd : ((h.garbageOf bound extra).map fun d => d.1.index).Nodup := nodup_garbage
  have hrew : Rewired (h.detached bound extra) (h.cleared bound extra) :=
    (severed_detached hw bound extra).clearAll.1
  obtain ⟨hentry, hstamp, hfree, hlive, hheld⟩ := foldl_vacate _ hnd (h.cleared bound extra)
  obtain ⟨hfree', hlive', hheld'⟩ := counters_detached h bound extra
  -- reachable handles are not in the garbage, and vacating the garbage leaves their entries
  have hkept : ∀ id, Reachable h (h.rootsOf bound extra) id →
      Heap.entry? (h.collect bound extra).2 id = Heap.entry? (h.cleared bound extra) id :=
    fun id hr => (hentry id).trans (if_neg (index_not_mem_garbageOf hr))
  have hsurvives : ∀ id, (h.collect bound extra).2.contains id = true ↔
      Reachable h (h.rootsOf bound extra) id := by
    intro id
    constructor
    · intro hc
      obtain ⟨e, he⟩ := contains_iff.mp hc
      have hstep := (hentry id).symm.trans he
      split at hstep
      · cases hstep
      · rw [← contains_detached, ← hrew.contains]
        exact contains_of_entry hstep
    · intro hr
      rw [contains, hkept id hr, ← contains, hrew.contains, contains_detached]
      exact hr
  refine ⟨hnd, fun _ _ => mem_garbageOf, hsurvives, fun id e he hc => ?_, fun i => ?_, ?_, ?_, ?_⟩
  · have hr := (hsurvives id).mp hc
    rw [hkept id hr]
    exact entry?_cleared hw he hr
  · exact (hstamp i).trans (by rw [hrew.stamp, stampAt_detached])
  · exact hfree.trans (by rw [hrew.free, hfree'])
  · have hcount := hlive.trans (hrew.live.trans hlive')
    exact congrArg (· - (h.garbageOf bound extra).length) hcount
  · exact hheld.trans (hrew.held.trans hheld')

end Collect
end Heap
end Patchbay
