import Mathlib.Algebra.Group.Nat.Defs
import Mathlib.Tactic.Common
import Mathlib.Data.List.Nodup
import Patchbay.Heap.Collect

/-!
# Slots and entries

A heap is looked at through two functions: the stamp of each slot, and the entry of each handle.
This file says what every elementary change does to both, and when the bookkeeping of a heap is in
order: the free list names the vacant slots, each once, and the objects are counted.
-/

namespace Patchbay.Heap

variable {H : HostTypes} {h : Heap H} {id x y : ObjectId} {e : Entry H} {i : Nat}

/-- The stamp of a slot. -/
def stampAt (h : Heap H) (i : Nat) : Option UInt32 := h.slots[i]?.map Slot.stamp

lemma entry?_eq_some : h.entry? id = some e ↔ h.slots[id.index]? = some ⟨id.stamp, some e⟩ := by
  unfold entry?
  cases hs : h.slots[id.index]? with
  | none => simp
  | some s =>
    obtain ⟨stamp, entry⟩ := s
    by_cases heq : stamp = id.stamp
    · simp [heq]
    · simp [heq]

lemma contains_iff : h.contains id = true ↔ ∃ e, h.entry? id = some e := by
  simp [contains, Option.isSome_iff_exists]

lemma contains_of_entry (he : h.entry? id = some e) : h.contains id = true :=
  contains_iff.mpr ⟨e, he⟩

lemma entry?_eq_none_iff : h.entry? id = none ↔ h.contains id = false := by
  simp [contains]

lemma stampAt_of_contains (hc : h.contains id = true) : h.stampAt id.index = some id.stamp := by
  obtain ⟨e, he⟩ := contains_iff.mp hc
  simp [stampAt, entry?_eq_some.mp he]

/-- A slot holds at most one live object. -/
lemma eq_of_contains (hx : h.contains x = true) (hy : h.contains y = true)
    (heq : x.index = y.index) : x = y := by
  have h1 := stampAt_of_contains hx
  rw [heq, stampAt_of_contains hy] at h1
  cases x
  cases y
  simp_all

lemma get_eq_ok {o : HeapObject H} :
    h.get id = .ok o ↔ ∃ e, h.entry? id = some e ∧ e.object = o := by
  unfold get
  cases he : h.entry? id with
  | none => simp [fail, throw, throwThe, MonadExceptOf.throw]
  | some e => simp [pure, Except.pure]

lemma get_of_entry (he : h.entry? id = some e) : h.get id = .ok e.object :=
  get_eq_ok.mpr ⟨e, he, rfl⟩

/-! ## Changing one entry -/

section ModifyEntry

variable {f g : Entry H → Entry H}

lemma entry?_modifyEntry :
    entry? (h.modifyEntry id f) x = if x = id then (h.entry? x).map f else h.entry? x := by
  unfold modifyEntry entry?
  simp only [Array.getElem?_modify]
  -- another index is another slot; the same index with another stamp is a handle to a former tenant
  by_cases hi : id.index = x.index
  · rw [if_pos hi]
    cases hs : h.slots[x.index]? with
    | none => simp
    | some s =>
      obtain ⟨stamp, entry⟩ := s
      by_cases hx : x = id
      · subst hx
        by_cases hst : stamp = x.stamp <;> simp [hst]
      · have hne : id.stamp ≠ x.stamp := by
          intro hst
          apply hx
          cases x
          cases id
          simp_all
        by_cases hst : stamp = id.stamp
        · subst hst
          simp [hx, hne]
        · simp [hst, hx]
  · have hx : x ≠ id := fun hx => hi (by rw [hx])
    rw [if_neg hi, if_neg hx]

@[simp] lemma stampAt_modifyEntry : (h.modifyEntry id f).stampAt i = h.stampAt i := by
  unfold modifyEntry stampAt
  simp only [Array.getElem?_modify]
  by_cases hi : id.index = i
  · rw [if_pos hi]
    cases h.slots[i]? with
    | none => rfl
    | some s => by_cases hs : s.stamp = id.stamp <;> simp [hs]
  · rw [if_neg hi]

@[simp] lemma contains_modifyEntry : (h.modifyEntry id f).contains x = h.contains x := by
  unfold contains
  rw [entry?_modifyEntry]
  split <;> simp

/-- Two changes that do the same to the entry of the object. -/
lemma modifyEntry_congr (hfg : ∀ e, h.entry? id = some e → f e = g e) :
    h.modifyEntry id f = h.modifyEntry id g := by
  suffices hslots : (h.modifyEntry id f).slots = (h.modifyEntry id g).slots by
    simpa [modifyEntry] using hslots
  apply Array.ext_getElem?
  intro i
  simp only [modifyEntry, Array.getElem?_modify]
  by_cases hi : id.index = i
  · subst hi
    rw [if_pos rfl, if_pos rfl]
    cases hs : h.slots[id.index]? with
    | none => rfl
    | some s =>
      obtain ⟨stamp, entry⟩ := s
      by_cases hst : stamp = id.stamp
      · subst hst
        cases entry with
        | none => rfl
        | some e => simp [hfg e (entry?_eq_some.mpr hs)]
      · simp [hst]
  · rw [if_neg hi, if_neg hi]

/-- A change that keeps the entry of the object is no change. -/
lemma modifyEntry_eq_self (hf : ∀ e, h.entry? id = some e → f e = e) : h.modifyEntry id f = h := by
  refine (modifyEntry_congr hf).trans ?_
  suffices hslots : (h.modifyEntry id fun e => e).slots = h.slots by
    cases h
    simpa [modifyEntry] using hslots
  apply Array.ext_getElem?
  intro i
  simp [modifyEntry, Array.getElem?_modify]

/-- A change to a dead object is no change. -/
lemma modifyEntry_of_not_contains (hc : h.contains id = false) : h.modifyEntry id f = h := by
  refine modifyEntry_eq_self fun e he => ?_
  rw [entry?_eq_none_iff.mpr hc] at he
  cases he

/-- Two changes to one object make one change. -/
lemma modifyEntry_modifyEntry :
    (h.modifyEntry id f).modifyEntry id g = h.modifyEntry id fun e => g (f e) := by
  suffices hslots : ((h.modifyEntry id f).modifyEntry id g).slots =
      (h.modifyEntry id fun e => g (f e)).slots by
    simpa [modifyEntry] using hslots
  apply Array.ext_getElem?
  intro i
  simp only [modifyEntry, Array.getElem?_modify]
  by_cases hi : id.index = i
  · rw [if_pos hi, if_pos hi, if_pos hi]
    cases h.slots[i]? with
    | none => rfl
    | some s => by_cases hs : s.stamp = id.stamp <;> simp [hs, Function.comp_def]
  · rw [if_neg hi, if_neg hi, if_neg hi]

/-- Changes to different objects can be made in either order, and so can changes to one object that
do not interfere. -/
lemma modifyEntry_comm (hfg : x = y → ∀ e, f (g e) = g (f e)) :
    (h.modifyEntry y g).modifyEntry x f = (h.modifyEntry x f).modifyEntry y g := by
  suffices hslots : ((h.modifyEntry y g).modifyEntry x f).slots =
      ((h.modifyEntry x f).modifyEntry y g).slots by
    simpa [modifyEntry] using hslots
  apply Array.ext_getElem?
  intro i
  simp only [modifyEntry, Array.getElem?_modify]
  by_cases hx : x.index = i
  · by_cases hy : y.index = i
    · rw [if_pos hx, if_pos hy, if_pos hy, if_pos hx]
      cases h.slots[i]? with
      | none => rfl
      | some s =>
        obtain ⟨stamp, entry⟩ := s
        by_cases hxy : x = y
        · subst hxy
          by_cases hs : stamp = x.stamp <;> simp [hs, hfg rfl, Function.comp_def]
        · -- two handles to one slot, of which at most one is current
          have hne : x.stamp ≠ y.stamp := by
            intro hst
            apply hxy
            cases x
            cases y
            simp_all
          by_cases hs : stamp = x.stamp <;> by_cases hs' : stamp = y.stamp <;> simp_all
    · rw [if_pos hx, if_neg hy, if_neg hy, if_pos hx]
  · rw [if_neg hx, if_neg hx]

end ModifyEntry

lemma entry?_modifyObject {f : HeapObject H → HeapObject H} :
    entry? (h.modifyObject id f) x =
      if x = id then (h.entry? x).map fun e => { e with object := f e.object } else h.entry? x :=
  entry?_modifyEntry

lemma entry?_resetAge :
    entry? (h.resetAge id) x =
      if x = id then (h.entry? x).map fun e => { e with age := 0 } else h.entry? x :=
  entry?_modifyEntry

lemma entry?_unpin :
    entry? (h.unpin id) x =
      if x = id then (h.entry? x).map fun e =>
        let pins := if e.pins = 0 then 0 else e.pins - 1
        { e with pins := pins, age := if pins = 0 then 0 else e.age }
      else h.entry? x :=
  entry?_modifyEntry

/-- Setting back several ages. -/
lemma entry?_foldl_resetAge (ids : List ObjectId) (h : Heap H) :
    entry? (ids.foldl resetAge h) x =
      (h.entry? x).map fun e => if x ∈ ids then { e with age := 0 } else e := by
  induction ids generalizing h with
  | nil => simp
  | cons id rest ih =>
    rw [List.foldl_cons, ih, entry?_resetAge]
    by_cases hx : x = id
    · subst hx
      cases h.entry? x <;> simp
    · cases h.entry? x <;> simp [hx]

/-! ## Live handles -/

/-- The handles of the live objects, in the order of their slots. -/
def liveIds (h : Heap H) : List ObjectId :=
  (List.range h.slots.size).filterMap fun i =>
    h.slots[i]?.bind fun s => s.entry.map fun _ => ⟨i, s.stamp⟩

@[simp] lemma mem_liveIds : id ∈ h.liveIds ↔ h.contains id = true := by
  rw [contains_iff]
  simp only [liveIds, List.mem_filterMap, List.mem_range, Option.bind_eq_some_iff,
    Option.map_eq_some_iff]
  constructor
  · rintro ⟨i, -, s, hs, e, he, rfl⟩
    refine ⟨e, entry?_eq_some.mpr ?_⟩
    simp only
    rw [hs, ← he]
  · rintro ⟨e, he⟩
    have hs := entry?_eq_some.mp he
    have hlt : id.index < h.slots.size := by
      by_contra hge
      rw [Array.getElem?_eq_none (by omega)] at hs
      simp at hs
    exact ⟨id.index, hlt, _, hs, e, rfl, rfl⟩

lemma nodup_liveIds (h : Heap H) : h.liveIds.Nodup := by
  refine List.Nodup.filterMap (fun i j id hi hj => ?_) List.nodup_range
  simp only [Option.mem_def, Option.bind_eq_some_iff, Option.map_eq_some_iff] at hi hj
  obtain ⟨_, _, _, _, rfl⟩ := hi
  obtain ⟨_, _, _, _, hid⟩ := hj
  simpa using (congrArg ObjectId.index hid).symm

lemma length_liveIds {ids : List ObjectId} (hnd : ids.Nodup)
    (hmem : ∀ id, id ∈ ids ↔ h.contains id = true) : h.liveIds.length = ids.length :=
  List.Perm.length_eq <| (List.perm_ext_iff_of_nodup (nodup_liveIds h) hnd).mpr fun id =>
    mem_liveIds.trans (hmem id).symm

/-- Whether a slot holds an object. -/
def occupied (h : Heap H) (i : Nat) : Bool := (h.slots[i]?.bind Slot.entry).isSome

lemma occupied_iff : h.occupied i = true ↔ ∃ stamp, h.contains ⟨i, stamp⟩ = true := by
  unfold occupied
  constructor
  · intro ho
    obtain ⟨e, he⟩ := Option.isSome_iff_exists.mp ho
    obtain ⟨s, hs, hse⟩ := Option.bind_eq_some_iff.mp he
    have hslot : h.slots[i]? = some ⟨s.stamp, some e⟩ := by rw [hs, ← hse]
    exact ⟨s.stamp, contains_of_entry (entry?_eq_some.mpr hslot)⟩
  · rintro ⟨stamp, hc⟩
    obtain ⟨e, he⟩ := contains_iff.mp hc
    simp [entry?_eq_some.mp he]

lemma occupied_of_contains (hc : h.contains id = true) : h.occupied id.index = true :=
  occupied_iff.mpr ⟨id.stamp, hc⟩

lemma occupied_congr {h' : Heap H} (hc : ∀ id, h'.contains id = h.contains id) :
    h'.occupied i = h.occupied i := by
  rw [Bool.eq_iff_iff, occupied_iff, occupied_iff]
  simp only [hc]

/-- The bookkeeping of a heap is in order: the free list names the vacant slots, each once, and
the live objects are counted. -/
structure Tidy (h : Heap H) : Prop where
  nodup : h.free.Nodup
  mem_free : ∀ i, i ∈ h.free ↔ (h.stampAt i).isSome ∧ h.occupied i = false
  live : h.live = h.liveIds.length

lemma Tidy.congr {h' : Heap H} (ht : Tidy h) (hc : ∀ id, h'.contains id = h.contains id)
    (hstamp : ∀ i, h'.stampAt i = h.stampAt i) (hfree : h'.free = h.free)
    (hlive : h'.live = h.live) : Tidy h' where
  nodup := hfree ▸ ht.nodup
  mem_free i := by
    rw [hfree, hstamp, occupied_congr hc]
    exact ht.mem_free i
  live := by
    rw [hlive, ht.live]
    exact (length_liveIds (nodup_liveIds h) fun id => by rw [mem_liveIds, hc]).symm

/-! ## Storing an object -/

section Alloc

variable {o : HeapObject H}

/-- The handle that the next object gets. -/
def nextId (h : Heap H) : ObjectId :=
  match h.free with
  | index :: _ => ⟨index, (h.stampAt index).getD 0⟩
  | [] => ⟨h.slots.size, 0⟩

@[simp] lemma alloc_fst : (h.alloc o).1 = h.nextId := by
  unfold alloc nextId stampAt
  cases h.free <;> rfl

@[simp] lemma free_alloc : (h.alloc o).2.free = h.free.tail := by
  unfold alloc
  cases h.free <;> rfl

@[simp] lemma live_alloc : (h.alloc o).2.live = h.live + 1 := by
  unfold alloc
  cases h.free <;> rfl

@[simp] lemma held_alloc : (h.alloc o).2.held = h.held := by
  unfold alloc
  cases h.free <;> rfl

lemma nextId_of_free {rest : List Nat} (ht : h.Tidy) (hf : h.free = i :: rest) :
    ∃ stamp, h.slots[i]? = some ⟨stamp, none⟩ ∧ h.nextId = ⟨i, stamp⟩ := by
  obtain ⟨hstamp, hvac⟩ := (ht.mem_free i).mp (by simp [hf])
  unfold stampAt at hstamp
  cases hs : h.slots[i]? with
  | none => simp [hs] at hstamp
  | some s =>
    obtain ⟨stamp, entry⟩ := s
    cases entry with
    | some e =>
      have ho : h.occupied i = true :=
        occupied_iff.mpr ⟨stamp, contains_of_entry (entry?_eq_some.mpr hs)⟩
      simp [ho] at hvac
    | none => exact ⟨stamp, rfl, by simp [nextId, hf, stampAt, hs]⟩

lemma nextId_of_full (hf : h.free = []) : h.nextId = ⟨h.slots.size, 0⟩ := by
  simp [nextId, hf]

lemma contains_nextId (ht : h.Tidy) : h.contains h.nextId = false := by
  rw [← entry?_eq_none_iff]
  cases hf : h.free with
  | nil => simp [nextId_of_full hf, entry?]
  | cons i rest =>
    obtain ⟨stamp, hs, hid⟩ := nextId_of_free ht hf
    simp [hid, entry?, hs]

lemma ne_nextId (ht : h.Tidy) (hc : h.contains x = true) : x ≠ h.nextId := by
  rintro rfl
  rw [contains_nextId ht] at hc
  cases hc

/-- Whatever is found after storing an object is that object or was found before. -/
lemma entry?_alloc_or (he : entry? (h.alloc o).2 x = some e) :
    e = ⟨o, 0, 0⟩ ∨ h.entry? x = some e := by
  unfold alloc at he
  dsimp only at he
  -- a free slot is used again under its own stamp, or a slot is pushed
  split at he
  · simp only [Array.getElem?_modify, entry?] at he ⊢
    split at he
    · next hindex =>
      cases hs : h.slots[x.index]? with
      | none => simp [hs] at he
      | some s =>
        rw [hs] at he
        by_cases hst : s.stamp = x.stamp
        · simp only [Option.map_some, Option.bind_some, hst, if_true, Option.some.injEq] at he
          exact .inl he.symm
        · simp [hst] at he
    · exact .inr he
  · simp only [Array.getElem?_push, entry?] at he ⊢
    split at he
    · simp only [Option.bind_some] at he
      split at he
      · exact .inl (Option.some.inj he).symm
      · cases he
    · exact .inr he

lemma entry?_alloc (ht : h.Tidy) :
    entry? (h.alloc o).2 x = if x = h.nextId then some ⟨o, 0, 0⟩ else h.entry? x := by
  cases hf : h.free with
  -- no free slot: the new one is pushed at the end
  | nil =>
    rw [nextId_of_full hf]
    simp only [alloc, hf, entry?, Array.getElem?_push]
    by_cases hx : x.index = h.slots.size
    · by_cases hst : x.stamp = 0
      · have : x = ⟨h.slots.size, 0⟩ := by
          cases x
          simp_all
        simp [this]
      · have hne : x ≠ ⟨h.slots.size, 0⟩ := fun hx => hst (by rw [hx])
        simp [hx, hne, Ne.symm hst]
    · have hne : x ≠ ⟨h.slots.size, 0⟩ := fun he => hx (by rw [he])
      simp [hx, hne]
  | cons i rest =>
    obtain ⟨stamp, hs, hid⟩ := nextId_of_free ht hf
    rw [hid]
    simp only [alloc, hf, entry?, Array.getElem?_modify]
    by_cases hx : i = x.index
    · subst hx
      by_cases hst : stamp = x.stamp
      · subst hst
        simp [hs]
      · have hne : x ≠ ⟨x.index, stamp⟩ := fun he => hst (by rw [he])
        simp [hs, hst, hne]
    · have hne : x ≠ ⟨i, stamp⟩ := fun he => hx (by rw [he])
      simp [hx, hne]

lemma stampAt_alloc (ht : h.Tidy) :
    (h.alloc o).2.stampAt i = if i = h.nextId.index then some h.nextId.stamp else h.stampAt i := by
  cases hf : h.free with
  | nil =>
    rw [nextId_of_full hf]
    simp only [alloc, hf, stampAt, Array.getElem?_push]
    by_cases hi : i = h.slots.size <;> simp [hi]
  | cons j rest =>
    obtain ⟨stamp, hs, hid⟩ := nextId_of_free ht hf
    rw [hid]
    simp only [alloc, hf, stampAt, Array.getElem?_modify]
    by_cases hi : i = j
    · subst hi
      simp [hs]
    · simp [hi, Ne.symm hi]

lemma contains_alloc (ht : h.Tidy) :
    (h.alloc o).2.contains x = true ↔ x = h.nextId ∨ h.contains x = true := by
  simp only [contains, entry?_alloc ht]
  by_cases hx : x = h.nextId <;> simp [hx]

lemma Tidy.alloc (ht : Tidy h) (o : HeapObject H) : Tidy (h.alloc o).2 := by
  have hocc : ∀ i, (h.alloc o).2.occupied i = true ↔ i = h.nextId.index ∨ h.occupied i = true := by
    intro i
    simp only [occupied_iff, contains_alloc ht]
    constructor
    · rintro ⟨stamp, heq | hc⟩
      · exact .inl (congrArg ObjectId.index heq)
      · exact .inr ⟨stamp, hc⟩
    · rintro (rfl | ⟨stamp, hc⟩)
      · exact ⟨h.nextId.stamp, .inl rfl⟩
      · exact ⟨stamp, .inr hc⟩
  -- the head of the free list is gone from it and occupied, all other slots are as before
  refine ⟨by simpa using ht.nodup.tail, fun i => ?_, ?_⟩
  · rw [free_alloc, stampAt_alloc ht, ← Bool.not_eq_true, hocc, not_or, Bool.not_eq_true]
    cases hf : h.free with
    | nil =>
      have hnone : ¬ ((h.stampAt i).isSome ∧ h.occupied i = false) := fun hvac => by
        simpa [hf] using (ht.mem_free i).mpr hvac
      by_cases hi : i = h.nextId.index
      · simp [hi]
      · simpa [hi] using hnone
    | cons j rest =>
      obtain ⟨stamp, -, hid⟩ := nextId_of_free ht hf
      have hmem := ht.mem_free i
      have hnd := ht.nodup
      rw [hf] at hmem hnd
      rw [hid, List.tail_cons]
      by_cases hi : i = j
      · subst hi
        simpa using (List.nodup_cons.mp hnd).1
      · simpa [hi] using hmem
  · have hnew : (h.nextId :: h.liveIds).Nodup :=
      List.nodup_cons.mpr ⟨by simp [contains_nextId ht], nodup_liveIds h⟩
    rw [live_alloc, ht.live]
    exact (length_liveIds hnew fun id => by rw [contains_alloc ht]; simp).symm

end Alloc

/-! ## Vacating a slot -/

lemma entry?_vacate : entry? (h.vacate i) x = if x.index = i then none else h.entry? x := by
  simp only [vacate, entry?, Array.getElem?_modify]
  by_cases hx : i = x.index
  · subst hx
    cases h.slots[x.index]? <;> simp
  · simp [hx, Ne.symm hx]

lemma stampAt_vacate {j : Nat} :
    (h.vacate i).stampAt j = if j = i then (h.stampAt j).map (· + 1) else h.stampAt j := by
  simp only [vacate, stampAt, Array.getElem?_modify]
  by_cases hj : j = i
  · subst hj
    cases h.slots[j]? <;> simp
  · simp [hj, Ne.symm hj]

@[simp] lemma free_vacate : (h.vacate i).free = i :: h.free := rfl

@[simp] lemma live_vacate : (h.vacate i).live = h.live := rfl

@[simp] lemma held_vacate : (h.vacate i).held = h.held := rfl

/-- Several slots are vacated at once: the objects in them go, and nothing else changes. -/
lemma Tidy.reclaim {h' : Heap H} {gone : List Nat} (ht : Tidy h) (hnd : gone.Nodup)
    (hocc : ∀ i ∈ gone, h.occupied i = true)
    (hc : ∀ x, h'.contains x = true ↔ h.contains x = true ∧ x.index ∉ gone)
    (hstamp : ∀ i, (h'.stampAt i).isSome = (h.stampAt i).isSome)
    (hfree : h'.free = gone.reverse ++ h.free) (hlive : h'.live = h.live - gone.length) :
    Tidy h' := by
  have hocc' : ∀ i, h'.occupied i = true ↔ h.occupied i = true ∧ i ∉ gone := by
    intro i
    simp only [occupied_iff, hc]
    constructor
    · rintro ⟨stamp, hlive, hnot⟩
      exact ⟨⟨stamp, hlive⟩, hnot⟩
    · rintro ⟨⟨stamp, hlive⟩, hnot⟩
      exact ⟨stamp, hlive, hnot⟩
  refine ⟨?_, fun i => ?_, ?_⟩
  · -- a slot that goes was occupied, so it was not free before
    rw [hfree, List.nodup_append]
    refine ⟨List.nodup_reverse.mpr hnd, ht.nodup, fun i hi j hj heq => ?_⟩
    have hvac := ((ht.mem_free j).mp hj).2
    rw [← heq, hocc i (List.mem_reverse.mp hi)] at hvac
    cases hvac
  · rw [hfree, List.mem_append, List.mem_reverse, ht.mem_free, hstamp, ← Bool.not_eq_true,
      ← Bool.not_eq_true, hocc']
    by_cases hi : i ∈ gone
    · obtain ⟨stamp, hlive⟩ := occupied_iff.mp (hocc i hi)
      simp [hi, stampAt_of_contains hlive]
    · simp [hi]
  · -- the live handles are those that are kept and those in the slots that go, one in each
    have hkept : h'.liveIds.length = (h.liveIds.filter fun x => x.index ∉ gone).length :=
      length_liveIds ((nodup_liveIds h).filter _) fun x => by
        rw [hc, List.mem_filter, mem_liveIds, decide_eq_true_iff]
    have hgone : (h.liveIds.filter fun x => x.index ∈ gone).length = gone.length := by
      have hinj : ((h.liveIds.filter fun x => x.index ∈ gone).map ObjectId.index).Nodup :=
        ((nodup_liveIds h).filter _).map_on fun x hx y hy heq =>
          eq_of_contains (mem_liveIds.mp (List.mem_of_mem_filter hx))
            (mem_liveIds.mp (List.mem_of_mem_filter hy)) heq
      rw [← List.length_map (f := ObjectId.index)]
      refine List.Perm.length_eq ((List.perm_ext_iff_of_nodup hinj hnd).mpr fun i => ?_)
      simp only [List.mem_map, List.mem_filter, mem_liveIds, decide_eq_true_eq]
      constructor
      · rintro ⟨x, ⟨-, hx⟩, rfl⟩
        exact hx
      · intro hi
        obtain ⟨stamp, hlive⟩ := occupied_iff.mp (hocc i hi)
        exact ⟨⟨i, stamp⟩, ⟨hlive, hi⟩, rfl⟩
    have hsplit := List.length_eq_length_filter_add (l := h.liveIds) fun x =>
      decide (x.index ∈ gone)
    have hnot : (h.liveIds.filter fun x => !decide (x.index ∈ gone)) =
        h.liveIds.filter fun x => x.index ∉ gone := by
      refine List.filter_congr fun x _ => ?_
      rw [decide_not]
    rw [hlive, ht.live, hkept]
    rw [hgone, hnot] at hsplit
    omega

end Patchbay.Heap
