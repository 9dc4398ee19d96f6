import Patchbay.Proofs.Heap.Operation

/-!
# Slots

What operations do to slots, whatever is in them: either all objects stay where they are, or one is
stored, or some slots are vacated. As long as no slot is vacated so often that its stamp comes
round, the bookkeeping stays in order, a new object gets a handle that nobody knows, and a handle
whose object went stays dead.
-/

namespace Patchbay.Heap

variable {H : HostTypes} {h h' : Heap H} {id x : ObjectId} {i : Nat} {gone : List Nat}
  {freed : Nat → Nat} {op : Operation H} {o : HeapObject H}

/-! ## Changes that move nothing -/

/-- The same objects live in the same slots. -/
structure SameSlots (h h' : Heap H) : Prop where
  contains : ∀ id, h'.contains id = h.contains id
  stamp : ∀ i, h'.stampAt i = h.stampAt i
  free : h'.free = h.free
  live : h'.live = h.live

lemma Touched.sameSlots {R : HeapObject H → HeapObject H → Prop} (ht : Touched R h h') :
    SameSlots h h' := ⟨fun _ => ht.contains, ht.stamp, ht.free, ht.live⟩

lemma SameSlots.tidy (hs : SameSlots h h') (ht : Tidy h) : Tidy h' :=
  ht.congr hs.contains hs.stamp hs.free hs.live

lemma sameSlots_modifyEntry {f : Entry H → Entry H} : SameSlots h (h.modifyEntry id f) :=
  ⟨fun _ => contains_modifyEntry, fun _ => stampAt_modifyEntry, rfl, rfl⟩

/-! ## Stored objects -/

lemma object?_alloc (ht : Tidy h) :
    (h.alloc o).2.object? x = if x = h.nextId then some o else h.object? x := by
  rw [object?, entry?_alloc ht]
  split <;> rfl

lemma object?_alloc_of_contains (ht : Tidy h) (hc : h.contains x = true) :
    (h.alloc o).2.object? x = h.object? x := by
  rw [object?_alloc ht, if_neg (ne_nextId ht hc)]

/-! ## Vacated slots -/

/-- The slots `gone` were vacated, and the objects in all others live on. -/
structure Vacated (gone : List Nat) (h h' : Heap H) : Prop where
  nodup : gone.Nodup
  occupied : ∀ i ∈ gone, h.occupied i = true
  contains : ∀ x, h'.contains x = true ↔ h.contains x = true ∧ x.index ∉ gone
  stamp : ∀ i, h'.stampAt i = if i ∈ gone then (h.stampAt i).map (· + 1) else h.stampAt i
  free : h'.free = gone.reverse ++ h.free
  live : h'.live = h.live - gone.length

lemma Vacated.tidy (hv : Vacated gone h h') (ht : Tidy h) : Tidy h' := by
  refine ht.reclaim hv.nodup hv.occupied hv.contains (fun i => ?_) hv.free hv.live
  rw [hv.stamp]
  split <;> simp

lemma object?_without :
    (h.without id o).object? x = if x.index = id.index then none else h.object? x := by
  have hreset : ∀ g : Heap H, (o.children.foldl resetAge g).object? x = g.object? x := fun g =>
    List.foldlRecOn (motive := fun g' : Heap H => g'.object? x = g.object? x) _ _ rfl
      fun _ hg _ _ => by rw [object?_resetAge, hg]
  have hsame : object? { h.vacate id.index with live := h.live - 1 } x =
      (h.vacate id.index).object? x :=
    rfl
  rw [without, hreset, hsame, object?, entry?_vacate]
  split <;> rfl

lemma contains_eq_isSome_object? : h.contains x = (h.object? x).isSome := by
  rw [contains, object?, Option.isSome_map]

lemma vacated_without (ho : h.object? id = some o) : Vacated [id.index] h (h.without id o) := by
  refine ⟨List.nodup_singleton _, fun i hi => ?_, fun x => ?_, fun i => ?_, ?_, ?_⟩
  · rw [List.mem_singleton.mp hi]
    exact occupied_of_contains (contains_of_object? ho)
  · rw [contains_eq_isSome_object?, object?_without, contains_eq_isSome_object?]
    by_cases hx : x.index = id.index <;> simp [hx]
  · rw [rewired_without.stamp]
    exact stampAt_vacate.trans (by simp)
  · rw [rewired_without.free]
    rfl
  · rw [rewired_without.live]
    rfl

lemma rewired_cleared (bound : UInt8) (extra : List ObjectId) :
    Rewired (h.detached bound extra) (h.cleared bound extra) :=
  List.foldlRecOn (motive := fun g : Heap H => Rewired (h.detached bound extra) g) _ _ (.refl _)
    fun _ hg _ _ => hg.trans rewired_clearEdges

/-- A collection vacates the slots of the garbage, whatever the wires. -/
lemma vacated_collect (bound : UInt8) (extra : List ObjectId) :
    Vacated ((h.garbageOf bound extra).map fun d => d.1.index) h (h.collect bound extra).2 := by
  have hnd : ((h.garbageOf bound extra).map fun d => d.1.index).Nodup := nodup_garbage
  have hrew : Rewired (h.detached bound extra) (h.cleared bound extra) :=
    rewired_cleared bound extra
  obtain ⟨hentry, hstamp, hfree, hlive, -⟩ := foldl_vacate _ hnd (h.cleared bound extra)
  obtain ⟨hfree', hlive', -⟩ := counters_detached h bound extra
  have hslot : ∀ y, h.contains y = true → ¬ Reachable h (h.rootsOf bound extra) y →
      y.index ∈ (h.garbageOf bound extra).map fun d => d.1.index := by
    intro y hc hnot
    obtain ⟨o, ho⟩ := exists_object? hc
    exact List.mem_map.mpr ⟨(y, o), mem_garbageOf.mpr ⟨ho, hnot⟩, rfl⟩
  refine ⟨hnd, fun i hi => ?_, fun x => ?_, fun i =>
    ?_, hfree.trans (by rw [hrew.free, hfree']), ?_⟩
  · obtain ⟨⟨y, o⟩, hd, rfl⟩ := List.mem_map.mp hi
    exact occupied_of_contains (contains_of_object? (mem_garbageOf.mp hd).1)
  · -- a handle is live afterwards if it was before and its slot is not vacated
    have hstep : (h.collect bound extra).2.contains x = true ↔
        (h.detached bound extra).contains x = true ∧
          x.index ∉ (h.garbageOf bound extra).map fun d => d.1.index := by
      rw [← hrew.contains]
      simp only [contains_iff]
      constructor
      · rintro ⟨e, he⟩
        have hx := (hentry x).symm.trans he
        split at hx
        · cases hx
        · next hnot => exact ⟨⟨e, hx⟩, hnot⟩
      · rintro ⟨⟨e, he⟩, hnot⟩
        exact ⟨e, (hentry x).trans ((if_neg hnot).trans he)⟩
    rw [hstep, contains_detached]
    constructor
    · exact fun hr => ⟨hr.1.contains, hr.2⟩
    · rintro ⟨hc, hnot⟩
      exact ⟨by_contra fun hr => hnot (hslot x hc hr), hnot⟩
  · exact (hstamp i).trans (by rw [hrew.stamp, stampAt_detached])
  · have hcount := hlive.trans (hrew.live.trans hlive')
    rw [List.length_map]
    exact congrArg (· - (h.garbageOf bound extra).length) hcount

/-- What a collection leaves is what can be reached. -/
lemma contains_collect {bound : UInt8} {extra : List ObjectId} :
    (h.collect bound extra).2.contains x = true ↔ Reachable h (h.rootsOf bound extra) x := by
  rw [(vacated_collect bound extra).contains]
  constructor
  · rintro ⟨hc, hnot⟩
    obtain ⟨o, ho⟩ := exists_object? hc
    refine by_contra fun hr => hnot (List.mem_map.mpr ⟨(x, o), mem_garbageOf.mpr ⟨ho, hr⟩, rfl⟩)
  · refine fun hr => ⟨hr.contains, fun hmem => ?_⟩
    obtain ⟨⟨y, o⟩, hd, hindex⟩ := List.mem_map.mp hmem
    obtain ⟨ho, hnot⟩ := mem_garbageOf.mp hd
    exact hnot (eq_of_contains hr.contains (contains_of_object? ho) hindex.symm ▸ hr)

/-- What an operation does to the slots. -/
lemma Effect.slots (he : Effect op h h') :
    SameSlots h h' ∨ (∃ o, op = .alloc o ∧ h' = (h.alloc o).2) ∨ ∃ gone, Vacated gone h h' := by
  cases he with
  | write hs => exact .inl hs.sameSlots
  | alloc o h => exact .inr (.inl ⟨o, rfl, rfl⟩)
  | remove ho => exact .inr (.inr ⟨_, vacated_without ho⟩)
  | unplug hp => exact .inl rewired_unplug.sameSlots
  | connect hp ho => exact .inl (rewired_unplug.trans rewired_plug).sameSlots
  | pin hc => exact .inl sameSlots_modifyEntry
  | unpin id h => exact .inl sameSlots_modifyEntry
  | collect bound extra h => exact .inr (.inr ⟨_, vacated_collect bound extra⟩)

/-- Every operation leaves the bookkeeping in order. -/
lemma Tidy.effect (ht : Tidy h) (he : Effect op h h') : Tidy h' := by
  rcases he.slots with hs | ⟨o, -, rfl⟩ | ⟨gone, hv⟩
  · exact hs.tidy ht
  · exact ht.alloc o
  · exact hv.tidy ht

/-! ## Handles that were given out -/

/-- Whether a handle was given out: its object is live, or its slot was vacated since. -/
def Issued (h : Heap H) (id : ObjectId) : Prop :=
  ∃ stamp, h.stampAt id.index = some stamp ∧ (id.stamp.toNat < stamp.toNat ∨ h.contains id = true)

lemma issued_of_contains (hc : h.contains id = true) : h.Issued id :=
  ⟨id.stamp, stampAt_of_contains hc, .inr hc⟩

/-- A new object gets a handle that was not given out before. -/
lemma Issued.ne_nextId (hi : h.Issued id) (ht : Tidy h) : id ≠ h.nextId := by
  rintro rfl
  obtain ⟨stamp, hs, hlt | hc⟩ := hi
  -- its slot was vacated: but a new object gets a slot of its own, or the stamp that a vacant slot
  -- has now
  · cases hf : h.free with
    | nil =>
      rw [nextId_of_full hf, stampAt, Array.getElem?_eq_none (Nat.le_refl _)] at hs
      cases hs
    | cons j rest =>
      obtain ⟨stamp', hslot, hid⟩ := nextId_of_free ht hf
      rw [hid, stampAt, hslot] at hs
      cases hs
      rw [hid] at hlt
      exact Nat.lt_irrefl _ hlt
  · rw [contains_nextId ht] at hc
    cases hc

lemma Issued.same (hi : h.Issued id) (hs : SameSlots h h') : h'.Issued id := by
  obtain ⟨stamp, hstamp, hor⟩ := hi
  exact ⟨stamp, (hs.stamp _).trans hstamp, hor.imp_right fun hc => (hs.contains id).trans hc⟩

lemma Issued.alloc (hi : h.Issued id) (ht : Tidy h) : (h.alloc o).2.Issued id := by
  obtain ⟨stamp, hstamp, hor⟩ := hi
  refine ⟨stamp, ?_, hor.imp_right fun hc => (contains_alloc ht).mpr (.inr hc)⟩
  rw [stampAt_alloc ht]
  split
  -- the slot of the handle is used again, and keeps its stamp
  · next hindex =>
    cases hf : h.free with
    | nil =>
      rw [hindex, nextId_of_full hf, stampAt, Array.getElem?_eq_none (Nat.le_refl _)] at hstamp
      cases hstamp
    | cons j rest =>
      obtain ⟨stamp', hslot, hid⟩ := nextId_of_free ht hf
      rw [hindex, hid, stampAt, hslot] at hstamp
      rw [hid]
      exact hstamp
  · exact hstamp

lemma Issued.vacated (hi : h.Issued id) (hv : Vacated gone h h')
    (hroom : ∀ i ∈ gone, ∀ s, h.stampAt i = some s → s.toNat + 1 < UInt32.size) : h'.Issued id := by
  obtain ⟨stamp, hstamp, hor⟩ := hi
  by_cases hmem : id.index ∈ gone
  · have hlt := hroom _ hmem stamp hstamp
    have hnext : (stamp + 1).toNat = stamp.toNat + 1 := by
      rw [UInt32.toNat_add, UInt32.toNat_one]
      exact Nat.mod_eq_of_lt hlt
    refine ⟨stamp + 1, by rw [hv.stamp, if_pos hmem, hstamp]; rfl, .inl ?_⟩
    -- a stamp that was behind stays behind, and a live one falls behind now
    rcases hor with hold | hc
    · omega
    · rw [stampAt_of_contains hc, Option.some.injEq] at hstamp
      rw [hstamp]
      omega
  · refine ⟨stamp, by rw [hv.stamp, if_neg hmem, hstamp], hor.imp_right fun hc => ?_⟩
    exact (hv.contains id).mpr ⟨hc, hmem⟩

/-! ## Counting how often slots are vacated -/

lemma countVacated_eq (hsub : ∀ id, h.contains id = true → h'.contains id = true) :
    countVacated h h' freed = freed := by
  funext i
  rw [countVacated]
  cases ho : h.occupied i with
  | false => simp
  | true =>
    obtain ⟨stamp, hc⟩ := occupied_iff.mp ho
    simp [occupied_iff.mpr ⟨stamp, hsub _ hc⟩]

lemma countVacated_vacated (hv : Vacated gone h h') :
    countVacated h h' freed i = freed i + if i ∈ gone then 1 else 0 := by
  rw [countVacated]
  by_cases hi : i ∈ gone
  · have hvac : h'.occupied i = false := by
      rw [← Bool.not_eq_true, occupied_iff]
      rintro ⟨stamp, hc⟩
      exact ((hv.contains _).mp hc).2 hi
    simp [hi, hv.occupied i hi, hvac]
  · have hkept : h.occupied i = true → h'.occupied i = true := fun ho => by
      obtain ⟨stamp, hc⟩ := occupied_iff.mp ho
      exact occupied_iff.mpr ⟨stamp, (hv.contains _).mpr ⟨hc, hi⟩⟩
    cases ho : h.occupied i <;> simp_all

/-- The bookkeeping is in order, and stamps count how often slots were vacated. -/
structure Counted (h : Heap H) (freed : Nat → Nat) : Prop where
  tidy : Tidy h
  stamp : ∀ i s, h.stampAt i = some s → s.toNat = freed i
  fresh : ∀ i, h.stampAt i = none → freed i = 0

lemma counted_new (names : Interner) (threshold : Nat) :
    Counted (Heap.new names threshold : Heap H) fun _ => 0 := by
  have hentry : ∀ x, Heap.entry? (Heap.new names threshold : Heap H) x = none := fun x => by
    simp [new, entry?]
  have hstamp : ∀ i, (Heap.new names threshold : Heap H).stampAt i = none := fun i => by
    simp [new, stampAt]
  refine ⟨⟨List.nodup_nil, fun i => ?_, rfl⟩, fun i s hs => ?_, fun _ _ => rfl⟩
  · rw [hstamp]
    simp [new]
  · simp [hstamp] at hs

lemma Counted.same (hi : Counted h freed) (hs : SameSlots h h') :
    Counted h' (countVacated h h' freed) := by
  rw [countVacated_eq fun id hc => (hs.contains id).trans hc]
  refine ⟨hs.tidy hi.tidy, fun i s hst => ?_, fun i hst => ?_⟩
  · exact hi.stamp i s ((hs.stamp i).symm.trans hst)
  · exact hi.fresh i ((hs.stamp i).symm.trans hst)

lemma Counted.alloc (hi : Counted h freed) :
    Counted (h.alloc o).2 (countVacated h (h.alloc o).2 freed) := by
  rw [countVacated_eq fun id hc => (contains_alloc hi.tidy).mpr (.inr hc)]
  refine ⟨hi.tidy.alloc o, fun i s hs => ?_, fun i hs => ?_⟩
  · rw [stampAt_alloc hi.tidy] at hs
    split at hs
    · next hindex =>
      cases hs
      cases hf : h.free with
      | nil =>
        rw [hindex, nextId_of_full hf]
        exact (hi.fresh _ (by simp [stampAt])).symm
      | cons j rest =>
        obtain ⟨stamp, hslot, hid⟩ := nextId_of_free hi.tidy hf
        rw [hindex, hid]
        exact hi.stamp j stamp (by simp [stampAt, hslot])
    · exact hi.stamp i s hs
  · rw [stampAt_alloc hi.tidy] at hs
    split at hs
    · cases hs
    · exact hi.fresh i hs

/-- The stamps of vacated slots do not come round yet. -/
lemma Counted.room (hi : Counted h freed) (hv : Vacated gone h h')
    (hcount : ∀ i, countVacated h h' freed i < 2 ^ 32) :
    ∀ i ∈ gone, ∀ s, h.stampAt i = some s → s.toNat + 1 < UInt32.size := by
  intro i hmem s hs
  have hlt := hcount i
  rw [countVacated_vacated hv, if_pos hmem, ← hi.stamp i s hs] at hlt
  exact hlt

lemma Counted.vacated (hi : Counted h freed) (hv : Vacated gone h h')
    (hcount : ∀ i, countVacated h h' freed i < 2 ^ 32) : Counted h' (countVacated h h' freed) := by
  refine ⟨hv.tidy hi.tidy, fun i s hs => ?_, fun i hs => ?_⟩
  · rw [countVacated_vacated hv]
    rw [hv.stamp] at hs
    split at hs
    · next hmem =>
      obtain ⟨s', hs', rfl⟩ := Option.map_eq_some_iff.mp hs
      have hlt := hi.room hv hcount i hmem s' hs'
      rw [UInt32.toNat_add, UInt32.toNat_one, hi.stamp i s' hs', if_pos hmem]
      rw [hi.stamp i s' hs'] at hlt
      exact Nat.mod_eq_of_lt hlt
    · next hmem => rw [hi.stamp i s hs, if_neg hmem, Nat.add_zero]
  · rw [countVacated_vacated hv]
    rw [hv.stamp] at hs
    split at hs
    · next hmem =>
      obtain ⟨stamp, hc⟩ := occupied_iff.mp (hv.occupied i hmem)
      rw [stampAt_of_contains hc] at hs
      cases hs
    · next hmem => rw [hi.fresh i hs, if_neg hmem]

/-- Every operation keeps the books, unless it vacates a slot once too often. -/
lemma Counted.effect (hi : Counted h freed) (he : Effect op h h')
    (hcount : ∀ i, countVacated h h' freed i < 2 ^ 32) : Counted h' (countVacated h h' freed) := by
  rcases he.slots with hs | ⟨o, -, rfl⟩ | ⟨gone, hv⟩
  · exact hi.same hs
  · exact hi.alloc
  · exact hi.vacated hv hcount

/-- A handle that was given out stays so. -/
lemma Issued.effect (hi : h.Issued id) (hc : Counted h freed) (he : Effect op h h')
    (hcount : ∀ i, countVacated h h' freed i < 2 ^ 32) : h'.Issued id := by
  rcases he.slots with hs | ⟨o, -, rfl⟩ | ⟨gone, hv⟩
  · exact hi.same hs
  · exact hi.alloc hc.tidy
  · exact hi.vacated hv (hc.room hv hcount)

/-- An object that went does not come back. -/
lemma Issued.stays_dead (hi : h.Issued id) (ht : Tidy h) (he : Effect op h h')
    (hdead : h.contains id = false) : h'.contains id = false := by
  rcases he.slots with hs | ⟨o, -, rfl⟩ | ⟨gone, hv⟩
  · exact (hs.contains id).trans hdead
  · rw [← Bool.not_eq_true, contains_alloc ht, not_or, Bool.not_eq_true]
    exact ⟨hi.ne_nextId ht, hdead⟩
  · rw [← Bool.not_eq_true, hv.contains, hdead]
    simp

end Patchbay.Heap
