import Patchbay.Proofs.Heap.Slots

/-!
# Integrity

As long as no slot is vacated so often that its stamp comes round, the bookkeeping of a heap is in
order, wires lead to handles that were given out, and both ends of every connection agree. All this
is `Intact`, which every operation keeps if the nodes that are stored are not wired yet.
-/

namespace Patchbay.Heap

variable {H : HostTypes} {h h' : Heap H} {id x : ObjectId} {i : Nat} {gone : List Nat}
  {freed : Nat → Nat} {host : KernelHost H} {op : Operation H}

/-! ## Reclaimed slots -/

/-- The slots `gone` were vacated, and survivors lost at most targets that are no more. -/
structure Reclaimed (gone : List Nat) (h h' : Heap H) : Prop extends Vacated gone h h' where
  source : ∀ id i, h'.contains id = true → h'.sourceAt id i = h.sourceAt id i
  targets : ∀ id i, h'.contains id = true → ∃ keep : PortRef → Bool,
    h'.targetsAt id i = (h.targetsAt id i).filter keep ∧
      ∀ t, h'.contains t.node = true → keep t = true

lemma Reclaimed.wired (hr : Reclaimed gone h h') (hw : Wired h) : Wired h' where
  listed id i o hs hc := by
    have hid := contains_of_sourceAt hs
    rw [hr.source id i hid] at hs
    obtain ⟨k, hk, hcount⟩ := hw.listed id i o hs ((hr.contains _).mp hc).1
    refine ⟨k, hk, ?_⟩
    obtain ⟨keep, htargets, hkeep⟩ := hr.targets o.node o.index.toNat hc
    rw [htargets, List.count_filter (hkeep _ hid)]
    exact hcount
  answered id i t ht hc := by
    obtain ⟨keep, htargets, -⟩ := hr.targets id i (contains_of_mem_targetsAt ht)
    rw [htargets] at ht
    rw [hr.source _ _ hc]
    exact hw.answered id i t (List.mem_of_mem_filter ht) ((hr.contains _).mp hc).1

lemma reclaimed_without {o : HeapObject H} (ho : h.object? id = some o) :
    Reclaimed [id.index] h (h.without id o) := by
  have hobj : ∀ x, (h.without id o).contains x = true →
      (h.without id o).object? x = h.object? x := fun x hc => by
    rw [contains_eq_isSome_object?, object?_without] at hc
    rw [object?_without]
    split at hc
    · cases hc
    · next hne => rw [if_neg hne]
  refine ⟨vacated_without ho, fun x i hc => ?_, fun x i hc => ⟨fun _ => true, ?_, fun _ _ => rfl⟩⟩
  · rw [sourceAt, hobj x hc, sourceAt]
  · rw [targetsAt, hobj x hc, targetsAt, List.filter_true]

lemma reclaimed_collect (hw : Wired h) (bound : UInt8) (extra : List ObjectId) :
    Reclaimed ((h.garbageOf bound extra).map fun d => d.1.index) h (h.collect bound extra).2 := by
  have hcol := collected_collect hw bound extra
  -- a survivor is as before but for the targets that were freed
  have hobj : ∀ x, (h.collect bound extra).2.contains x = true → ∃ o, h.object? x = some o ∧
      (h.collect bound extra).2.object? x =
        some (o.dropTargets ((h.garbageOf bound extra).map Prod.fst).contains) := by
    intro x hc
    have hstart : (h.hold extra).contains x = true :=
      contains_hold.trans ((hcol.survives x).mp hc).contains
    obtain ⟨e, he⟩ := contains_iff.mp hstart
    refine ⟨e.object, ?_, ?_⟩
    · rw [← object?_hold extra, object?, he]
      rfl
    · rw [object?, hcol.entry x e he hc]
      rfl
  refine ⟨vacated_collect bound extra, fun x i hc => ?_, fun x i hc => ?_⟩
  · obtain ⟨o, ho, ho'⟩ := hobj x hc
    rw [sourceAt, ho', sourceAt, ho]
    cases o <;> rfl
  · obtain ⟨o, ho, ho'⟩ := hobj x hc
    refine ⟨fun t => !((h.garbageOf bound extra).map Prod.fst).contains t.node, ?_, fun t ht => ?_⟩
    · simp [targetsAt, ho, ho']
    · rw [Bool.not_eq_true', ← Bool.not_eq_true, List.contains_iff_mem]
      intro hmem
      obtain ⟨⟨y, o⟩, hd, hy⟩ := List.mem_map.mp hmem
      dsimp only at hy
      exact ((hcol.dead_iff y o).mp hd).2 (hy ▸ (hcol.survives _).mp ht)

/-! ## Stored objects -/

section Alloc

variable {o : HeapObject H}

/-- A stored object that is not wired, and that no wire leads to yet. -/
lemma Wired.alloc (hw : Wired h) (ht : Tidy h) (ho : o.Unwired)
    (hsource : ∀ id i s, h.sourceAt id i = some s → s.node ≠ h.nextId)
    (htarget : ∀ id i, ∀ t ∈ h.targetsAt id i, t.node ≠ h.nextId) : Wired (h.alloc o).2 := by
  have hs : ∀ id i, (h.alloc o).2.sourceAt id i = if id = h.nextId then none else h.sourceAt
      id i := by
    intro id i
    rw [sourceAt, object?_alloc ht]
    split
    · exact (ho i).1
    · rfl
  have htar : ∀ id i, (h.alloc o).2.targetsAt id i = if id = h.nextId then [] else h.targetsAt
      id i := by
    intro id i
    rw [targetsAt, object?_alloc ht]
    split
    · exact (ho i).2
    · rfl
  -- a dangling wire to the new handle would come alive here; `hsource` and `htarget` exclude it
  refine ⟨fun id i s hsrc hc => ?_, fun id i t hmem hc => ?_⟩
  · rw [hs] at hsrc
    split at hsrc
    · cases hsrc
    · have hne := hsource id i s hsrc
      obtain ⟨k, hk, hcount⟩ := hw.listed id i s hsrc (((contains_alloc ht).mp hc).resolve_left hne)
      exact ⟨k, hk, by rw [htar, if_neg hne, hcount]⟩
  · rw [htar] at hmem
    split at hmem
    · cases hmem
    · have hne := htarget id i t hmem
      obtain ⟨k, hk, hsrc⟩ := hw.answered id i t hmem (((contains_alloc ht).mp hc).resolve_left hne)
      exact ⟨k, hk, by rw [hs, if_neg hne, hsrc]⟩

end Alloc

/-! ## The invariant -/

/-- The bookkeeping is in order, wires lead to nodes that were there, and both ends of every
connection agree. -/
structure Intact (h : Heap H) (freed : Nat → Nat) : Prop extends Counted h freed where
  wired : Wired h
  source : ∀ id i s, h.sourceAt id i = some s → h.Issued s.node
  target : ∀ id i, ∀ t ∈ h.targetsAt id i, h.Issued t.node

lemma intact_new (names : Interner) (threshold : Nat) :
    Intact (Heap.new names threshold : Heap H) fun _ => 0 := by
  have hentry : ∀ x, Heap.entry? (Heap.new names threshold : Heap H) x = none := fun x => by
    simp [new, entry?]
  refine ⟨counted_new names threshold, ⟨fun id i o hs => ?_, fun id i t ht => ?_⟩,
    fun id i s hs => ?_, fun id i t ht => ?_⟩
  · simp [sourceAt, object?, hentry] at hs
  · simp [targetsAt, object?, hentry] at ht
  · simp [sourceAt, object?, hentry] at hs
  · simp [targetsAt, object?, hentry] at ht

/-- No object comes or goes, both ends of every connection agree, and new ends are at live nodes. -/
structure Reconnected (h h' : Heap H) : Prop where
  slots : SameSlots h h'
  wired : Wired h'
  source : ∀ id i s, h'.sourceAt id i = some s → h.sourceAt id i = some s ∨ h.contains s.node = true
  target : ∀ id i, ∀ t ∈ h'.targetsAt id i, t ∈ h.targetsAt id i ∨ h.contains t.node = true

lemma Wired.reconnected_modifyEntry (hw : Wired h) {f : Entry H → Entry H}
    (hf : ∀ e, (f e).object = e.object) : Reconnected h (h.modifyEntry id f) := by
  refine ⟨sameSlots_modifyEntry, hw.modifyEntry hf, fun x i s hs =>
    .inl ?_, fun x i t ht => .inl ?_⟩
  · rwa [sourceAt, object?_modifyEntry hf] at hs
  · rwa [targetsAt, object?_modifyEntry hf] at ht

lemma Wired.reconnected_unplug (hw : Wired h) {input : PortRef} (hp : h.HasInput input) :
    Reconnected h (h.unplug input) := by
  refine ⟨rewired_unplug.sameSlots, hw.unplug hp, fun id i s hsrc => .inl ?_,
    fun id i t ht => .inl (mem_targetsAt_unplug ht)⟩
  rw [sourceAt_unplug hp] at hsrc
  split at hsrc
  · cases hsrc
  · exact hsrc

lemma Wired.reconnected_connect (hw : Wired h) {input output : PortRef} (hp : h.HasInput input)
    (ho : h.HasOutput output) : Reconnected h ((h.unplug input).plug input output) := by
  refine ⟨(rewired_unplug.trans rewired_plug).sameSlots, hw.connect hp ho, fun id i s hsrc => ?_,
    fun id i t ht => ?_⟩
  · rw [Heap.plug, sourceAt_addTarget, sourceAt_setSource (hp.rewired rewired_unplug)] at hsrc
    split at hsrc
    · cases hsrc
      exact .inr ho.contains
    · exact (hw.reconnected_unplug hp).source id i s hsrc
  · rw [Heap.plug, targetsAt_addTarget ((ho.rewired rewired_unplug).rewired .setSource),
      targetsAt_setSource] at ht
    split at ht
    · rcases List.mem_append.mp ht with hold | hnew
      · exact .inl (mem_targetsAt_unplug hold)
      · rw [List.mem_singleton.mp hnew]
        exact .inr hp.contains
    · exact .inl (mem_targetsAt_unplug ht)

/-- What an operation does to the objects and their wires. -/
lemma Effect.wires (he : Effect op h h') (hw : Wired h) :
    Reconnected h h' ∨ (∃ o, op = .alloc o ∧ h' = (h.alloc o).2) ∨
      (∃ id o, op = .remove id ∧ h.object? id = some o ∧ h' = h.without id o) ∨
      ∃ bound extra, op = .collect bound extra ∧ h' = (h.collect bound extra).2 := by
  cases he with
  | write hs =>
    refine .inl ⟨hs.sameSlots, hw.stored hs, fun id i s hsrc => .inl ?_, fun id i t ht => .inl ?_⟩
    · rwa [sourceAt_congr hs.wires] at hsrc
    · rwa [targetsAt_congr hs.wires] at ht
  | alloc o h => exact .inr (.inl ⟨o, rfl, rfl⟩)
  | remove ho => exact .inr (.inr (.inl ⟨_, _, rfl, ho, rfl⟩))
  | unplug hp => exact .inl (hw.reconnected_unplug hp)
  | connect hp ho => exact .inl (hw.reconnected_connect hp ho)
  | pin hc => exact .inl (hw.reconnected_modifyEntry fun _ => rfl)
  | unpin id h => exact .inl (hw.reconnected_modifyEntry fun _ => rfl)
  | collect bound extra h => exact .inr (.inr (.inr ⟨bound, extra, rfl, rfl⟩))

lemma Intact.reconnected (hi : Intact h freed) (hr : Reconnected h h') :
    Intact h' (countVacated h h' freed) := by
  refine ⟨hi.toCounted.same hr.slots, hr.wired, fun id i s hsrc => ?_, fun id i t ht => ?_⟩
  · rcases hr.source id i s hsrc with hold | hc
    · exact (hi.source id i s hold).same hr.slots
    · exact (issued_of_contains hc).same hr.slots
  · rcases hr.target id i t ht with hold | hc
    · exact (hi.target id i t hold).same hr.slots
    · exact (issued_of_contains hc).same hr.slots

lemma Intact.alloc (hi : Intact h freed) {o : HeapObject H} (ho : o.Unwired) :
    Intact (h.alloc o).2 (countVacated h (h.alloc o).2 freed) := by
  refine ⟨hi.toCounted.alloc, hi.wired.alloc hi.tidy ho
      (fun id i s hs => (hi.source id i s hs).ne_nextId hi.tidy)
      fun id i t ht => (hi.target id i t ht).ne_nextId hi.tidy,
    fun id i s hs => ?_, fun id i t ht => ?_⟩
  · rw [sourceAt, object?_alloc hi.tidy] at hs
    split at hs
    · rw [Option.bind_some, (ho i).1] at hs
      cases hs
    · exact (hi.source id i s hs).alloc hi.tidy
  · rw [targetsAt, object?_alloc hi.tidy] at ht
    split at ht
    · rw [Option.map_some, (ho i).2] at ht
      cases ht
    · exact (hi.target id i t ht).alloc hi.tidy

lemma Intact.reclaimed (hi : Intact h freed) (hr : Reclaimed gone h h')
    (hcount : ∀ i, countVacated h h' freed i < 2 ^ 32) : Intact h' (countVacated h h' freed) := by
  have hroom := hi.room hr.toVacated hcount
  refine ⟨hi.toCounted.vacated hr.toVacated hcount, hr.wired hi.wired, fun id i s hs => ?_,
    fun id i t ht => ?_⟩
  · have hid := contains_of_sourceAt hs
    rw [hr.source id i hid] at hs
    exact (hi.source id i s hs).vacated hr.toVacated hroom
  · obtain ⟨keep, htargets, -⟩ := hr.targets id i (contains_of_mem_targetsAt ht)
    rw [htargets] at ht
    exact (hi.target id i t (List.mem_of_mem_filter ht)).vacated hr.toVacated hroom

/-- Every operation keeps a heap intact, unless it vacates a slot once too often. -/
lemma Intact.effect (hi : Intact h freed) (ha : op.StoresUnwired) (he : Effect op h h')
    (hcount : ∀ i, countVacated h h' freed i < 2 ^ 32) : Intact h' (countVacated h h' freed) := by
  rcases he.wires hi.wired with hr | ⟨o, rfl, rfl⟩ | ⟨id, o, -, ho, rfl⟩ | ⟨bound, extra, -, rfl⟩
  · exact hi.reconnected hr
  · exact hi.alloc ha
  · exact hi.reclaimed (reclaimed_without ho) hcount
  · exact hi.reclaimed (reclaimed_collect hi.wired bound extra) hcount

/-- Every heap that operations lead to is intact while no stamp has come round. -/
theorem Reached.intact (hr : Reached host (fun _ op => op.StoresUnwired) h freed)
    (hfreed : ∀ i, freed i < 2 ^ 32) : Intact h freed := by
  induction hr with
  | new names threshold => exact intact_new names threshold
  | step _ ha ih =>
    refine (ih fun i => ?_).effect ha (effect_after host _ _) hfreed
    exact Nat.lt_of_le_of_lt (Nat.le_add_right _ _) (hfreed i)

end Patchbay.Heap
