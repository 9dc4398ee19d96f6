import Mathlib.Data.Finset.Card
import Patchbay.Proofs.Heap.Wires

/-!
# Marking

A collection marks the slots that the roots lead to, by a list of slots that are still to be
followed. This file proves that it marks exactly the slots of reachable objects, and that the number
of slots is enough fuel for that.
-/

namespace Patchbay.Heap

variable {H : HostTypes} {h h' : Heap H} {root : ObjectId → Prop} {id x y : ObjectId} {i j : Nat}
  {m m' : Marking}

/-- The objects that the roots lead to, along references between live objects. -/
inductive Reachable (h : Heap H) (root : ObjectId → Prop) : ObjectId → Prop where
  | root {id : ObjectId} : h.contains id = true → root id → Reachable h root id
  | child {x y : ObjectId} {o : HeapObject H} : Reachable h root x → h.object? x = some o →
      y ∈ o.children → h.contains y = true → Reachable h root y

lemma Reachable.contains (hr : Reachable h root id) : h.contains id = true := by
  cases hr with
  | root hc _ => exact hc
  | child _ _ _ hc => exact hc

lemma Reachable.congr {root' : ObjectId → Prop} (ho : ∀ id, h'.object? id = h.object? id)
    (hroot : ∀ id, h.contains id = true → root id → root' id) (hr : Reachable h root id) :
    Reachable h' root' id := by
  have hc : ∀ id, h.contains id = true → h'.contains id = true := fun id hlive => by
    obtain ⟨o, hobj⟩ := exists_object? hlive
    exact contains_of_object? ((ho id).trans hobj)
  induction hr with
  | root hlive hr => exact .root (hc _ hlive) (hroot _ hlive hr)
  | child _ hobj hy hlive ih => exact .child ih ((ho _).trans hobj) hy (hc _ hlive)

namespace Marking

/-! ## Visiting -/

/-- The slots that are not marked. -/
def unmarked (m : Marking) : Finset Nat :=
  (Finset.range m.marked.size).filter fun i => ¬ m.isMarked i

lemma mem_unmarked : j ∈ m.unmarked ↔ j < m.marked.size ∧ m.isMarked j = false := by
  rw [unmarked, Finset.mem_filter, Finset.mem_range, Bool.not_eq_true]

/-- A visit to a live object that is not marked marks it and notes it to be followed; any other does
nothing. -/
lemma visit_cases (h : Heap H) (m : Marking) (id : ObjectId) :
    (h.contains id = true ∧ m.isMarked id.index = false ∧
      visit h m id = ⟨m.marked.setIfInBounds id.index true, id.index :: m.work⟩) ∨
    ((h.contains id = true → m.isMarked id.index = true) ∧ visit h m id = m) := by
  unfold visit
  split
  · next hv =>
    obtain ⟨hc, hm⟩ := Bool.and_eq_true_iff.mp hv
    exact .inl ⟨hc, by simpa using hm, rfl⟩
  · next hv => exact .inr ⟨fun hc => by simpa [hc] using hv, rfl⟩

lemma size_visit : (visit h m id).marked.size = m.marked.size := by
  obtain ⟨-, -, hvisit⟩ | ⟨-, hvisit⟩ := visit_cases h m id
  · rw [hvisit, Array.size_setIfInBounds]
  · rw [hvisit]

lemma isMarked_visit :
    (visit h m id).isMarked j = true ↔
      m.isMarked j = true ∨ h.contains id = true ∧ id.index = j ∧ j < m.marked.size := by
  obtain ⟨hc, -, hvisit⟩ | ⟨hold, hvisit⟩ := visit_cases h m id
  · rw [hvisit]
    simp only [isMarked, Array.getElem?_setIfInBounds]
    by_cases hj : id.index = j
    · subst hj
      by_cases hlt : id.index < m.marked.size
      · simp [hlt, hc]
      · simp [hlt]
    · simp [hj]
  · rw [hvisit]
    constructor
    · exact .inl
    · rintro (hm | ⟨hc, rfl, -⟩)
      · exact hm
      · exact hold hc

/-- What visiting some handles does to a marking. -/
structure Visited (h : Heap H) (ids : List ObjectId) (m m' : Marking) : Prop where
  size : m'.marked.size = m.marked.size
  marked : ∀ j, m'.isMarked j = true ↔
    m.isMarked j = true ∨ ∃ id ∈ ids, h.contains id = true ∧ id.index = j
  work : ∀ j, j ∈ m'.work ↔ j ∈ m.work ∨ m'.isMarked j = true ∧ m.isMarked j = false
  nodup : m.work.Nodup → (∀ j ∈ m.work, m.isMarked j = true) → m'.work.Nodup
  measure : m'.work.length + m'.unmarked.card = m.work.length + m.unmarked.card

lemma index_lt (hc : h.contains id = true) : id.index < h.slots.size := by
  obtain ⟨e, he⟩ := contains_iff.mp hc
  exact (Array.getElem?_eq_some_iff.mp (entry?_eq_some.mp he)).1

lemma mem_work_visit (hsize : m.marked.size = h.slots.size) :
    j ∈ (visit h m id).work ↔ j ∈ m.work ∨ (visit h m id).isMarked j = true ∧
    m.isMarked j = false := by
  rw [isMarked_visit]
  obtain ⟨hc, hm, hvisit⟩ | ⟨hold, hvisit⟩ := visit_cases h m id
  · have hlt : id.index < m.marked.size := hsize ▸ index_lt hc
    rw [hvisit, List.mem_cons]
    constructor
    · rintro (rfl | hj)
      · exact .inr ⟨.inr ⟨hc, rfl, hlt⟩, hm⟩
      · exact .inl hj
    · rintro (hj | ⟨hm' | ⟨-, hj, -⟩, hnot⟩)
      · exact .inr hj
      · simp [hm'] at hnot
      · exact .inl hj.symm
  · rw [hvisit]
    constructor
    · exact .inl
    · rintro (hj | ⟨hm' | ⟨hc, rfl, -⟩, hnot⟩)
      · exact hj
      · simp [hm'] at hnot
      · simp [hold hc] at hnot

/-- A visit moves a slot from the unmarked ones to those still to be followed, so as many are left
together. -/
lemma measure_visit (hsize : m.marked.size = h.slots.size) :
    (visit h m id).work.length + (visit h m id).unmarked.card = m.work.length +
    m.unmarked.card := by
  obtain ⟨hc, hm, hvisit⟩ | ⟨-, hvisit⟩ := visit_cases h m id
  · have hmem : id.index ∈ m.unmarked := mem_unmarked.mpr ⟨hsize ▸ index_lt hc, hm⟩
    have herase : (visit h m id).unmarked = m.unmarked.erase id.index := by
      ext j
      rw [Finset.mem_erase, mem_unmarked, mem_unmarked, size_visit, ← Bool.not_eq_true,
        ← Bool.not_eq_true, isMarked_visit]
      constructor
      · rintro ⟨hlt, hnot⟩
        exact ⟨fun hj => hnot (.inr ⟨hc, hj.symm, hlt⟩), hlt, fun hm' => hnot (.inl hm')⟩
      · rintro ⟨hne, hlt, hnot⟩
        exact ⟨hlt, fun hor => hor.elim hnot fun hj => hne hj.2.1.symm⟩
    have hpos : 0 < m.unmarked.card := Finset.card_pos.mpr ⟨_, hmem⟩
    rw [herase, Finset.card_erase_of_mem hmem, hvisit, List.length_cons]
    omega
  · rw [hvisit]

lemma visited_visit (hsize : m.marked.size = h.slots.size) : Visited h [id] m (visit h m id) where
  size := size_visit
  marked j := by
    rw [isMarked_visit]
    constructor
    · rintro (hm | ⟨hc, hj, -⟩)
      · exact .inl hm
      · exact .inr ⟨id, List.mem_singleton_self id, hc, hj⟩
    · rintro (hm | ⟨y, hy, hc, hj⟩)
      · exact .inl hm
      · obtain rfl := List.mem_singleton.mp hy
        refine .inr ⟨hc, hj, ?_⟩
        rw [hsize, ← hj]
        exact index_lt hc
  work j := mem_work_visit hsize
  nodup hnd hwork := by
    -- an index goes on the work list only when its mark is set, which happens once
    obtain ⟨-, hm, hvisit⟩ | ⟨-, hvisit⟩ := visit_cases h m id
    · rw [hvisit]
      refine List.nodup_cons.mpr ⟨fun hmem => ?_, hnd⟩
      simp [hwork _ hmem] at hm
    · rwa [hvisit]
  measure := measure_visit hsize

lemma visited_foldl (ids : List ObjectId) (hsize : m.marked.size = h.slots.size) :
    Visited h ids m (ids.foldl (visit h) m) := by
  induction ids generalizing m with
  | nil =>
    refine ⟨rfl, fun j => by simp, fun j => ?_, fun hnd _ => hnd, rfl⟩
    simp
  | cons id rest ih =>
    have v1 : Visited h [id] m (visit h m id) := visited_visit hsize
    have v2 := ih (m := visit h m id) (v1.size.trans hsize)
    rw [List.foldl_cons]
    refine ⟨v2.size.trans v1.size, fun j => ?_, fun j => ?_, fun hnd hwork => ?_,
      v2.measure.trans v1.measure⟩
    · rw [v2.marked, v1.marked]
      simp [or_assoc]
    · rw [v2.work, v1.work]
      have hmono : (visit h m id).isMarked j = true →
          (rest.foldl (visit h) (visit h m id)).isMarked j = true :=
        fun hm => (v2.marked j).mpr (.inl hm)
      have hmono' : m.isMarked j = true → (visit h m id).isMarked j = true := fun hm =>
        (v1.marked j).mpr (.inl hm)
      cases h1 : m.isMarked j <;> cases h2 : (visit h m id).isMarked j <;>
        cases h3 : (rest.foldl (visit h) (visit h m id)).isMarked j <;> simp_all
    · refine v2.nodup (v1.nodup hnd hwork) fun j hj => ?_
      rcases (v1.work j).mp hj with hold | ⟨hnew, -⟩
      · exact (v1.marked j).mpr (.inl (hwork j hold))
      · exact hnew

/-! ## Following -/

/-- What is true of a marking on the way: marked slots are of reachable objects, the roots are
marked, and the children of every marked object are unless it is still to be followed. -/
structure Marks (h : Heap H) (root : ObjectId → Prop) (m : Marking) : Prop where
  size : m.marked.size = h.slots.size
  nodup : m.work.Nodup
  work : ∀ i ∈ m.work, m.isMarked i = true
  sound : ∀ i, m.isMarked i = true → ∃ id, id.index = i ∧ Reachable h root id
  roots : ∀ id, h.contains id = true → root id → m.isMarked id.index = true
  closed : ∀ x o, h.object? x = some o → m.isMarked x.index = true → x.index ∉ m.work →
    ∀ y ∈ o.children, h.contains y = true → m.isMarked y.index = true

lemma childrenAt_eq {o : HeapObject H} (ho : h.object? x = some o) :
    childrenAt h x.index = o.children := by
  obtain ⟨e, he, rfl⟩ := object?_eq_some.mp ho
  simp [childrenAt, entry?_eq_some.mp he]

/-- Following one slot. -/
lemma Marks.follow {i : Nat} {work : List Nat} (hm : Marks h root m) (hwork : m.work = i :: work) :
    Marks h root ((childrenAt h i).foldl (visit h) ⟨m.marked, work⟩) := by
  have hmark : ∀ j, (⟨m.marked, work⟩ : Marking).isMarked j = m.isMarked j := fun _ => rfl
  have hv := visited_foldl (m := ⟨m.marked, work⟩) (childrenAt h i) hm.size
  obtain ⟨hi, hnd⟩ := List.nodup_cons.mp (hwork ▸ hm.nodup)
  have hsub : ∀ j ∈ work, m.isMarked j = true := fun j hj => hm.work j (by simp [hwork, hj])
  obtain ⟨x, rfl, hx⟩ := hm.sound i (hm.work i (by simp [hwork]))
  obtain ⟨o, ho⟩ := exists_object? hx.contains
  have hchildren := childrenAt_eq ho
  refine ⟨hv.size.trans hm.size, hv.nodup hnd hsub, fun j hj => ?_, fun j hj => ?_,
    fun id hc hr => (hv.marked _).mpr (.inl (hm.roots id hc hr)), fun z oz hz hmz hnz y hy hc => ?_⟩
  · rcases (hv.work j).mp hj with hold | ⟨hnew, -⟩
    · exact (hv.marked j).mpr (.inl (hsub j hold))
    · exact hnew
  · rcases (hv.marked j).mp hj with hold | ⟨y, hy, hc, rfl⟩
    · exact hm.sound j hold
    · rw [hchildren] at hy
      exact ⟨y, rfl, .child hx ho hy hc⟩
  · -- A marked object that is no longer to be followed was followed before, or just now.
    rw [hv.work, not_or, not_and, hmark] at hnz
    have hold : m.isMarked z.index = true := by
      by_contra hnot
      exact hnz.2 hmz (by simpa using hnot)
    rw [hv.marked]
    by_cases hzx : z.index = x.index
    · have hzx' : z = x := eq_of_contains (contains_of_object? hz) hx.contains hzx
      subst hzx'
      exact .inr ⟨y, by rw [childrenAt_eq hz]; exact hy, hc, rfl⟩
    · refine .inl (hm.closed z oz hz hold ?_ y hy hc)
      rw [hwork, List.mem_cons, not_or]
      exact ⟨hzx, hnz.1⟩

/-- Once nothing is left to follow, the marked slots are those of reachable objects. -/
lemma Marks.isMarked_iff (hm : Marks h root m) (hdone : m.work = []) :
    m.isMarked i = true ↔ ∃ id, id.index = i ∧ Reachable h root id := by
  refine ⟨hm.sound i, ?_⟩
  rintro ⟨id, rfl, hr⟩
  induction hr with
  | root hc hr => exact hm.roots _ hc hr
  | child hx ho hy hc ih => exact hm.closed _ _ ho ih (by simp [hdone]) _ hy hc

/-- With enough fuel, everything reachable gets marked and nothing is left to follow. -/
lemma Marks.spread (hm : Marks h root m) {fuel : Nat}
    (hfuel : m.work.length + m.unmarked.card ≤ fuel) :
    Marks h root (spread h fuel m) ∧ (spread h fuel m).work = [] := by
  induction fuel generalizing m with
  | zero =>
    have hdone : m.work = [] := List.length_eq_zero_iff.mp (by omega)
    exact ⟨hm, hdone⟩
  | succ fuel ih =>
    unfold Marking.spread
    cases hwork : m.work with
    | nil => exact ⟨hm, hwork⟩
    | cons i work =>
      have hmeasure := (visited_foldl (m := ⟨m.marked, work⟩) (childrenAt h i) hm.size).measure
      have hsame : (⟨m.marked, work⟩ : Marking).unmarked = m.unmarked := rfl
      refine ih (hm.follow hwork) ?_
      rw [hwork, List.length_cons] at hfuel
      rw [hmeasure, hsame]
      dsimp only
      omega

/-! ## Roots -/

/-- Whether a collection takes an object for a root: if it is an extra root, pinned or old. -/
def isRoot (h : Heap H) (bound : UInt8) (extra : List ObjectId) (id : ObjectId) : Bool :=
  extra.contains id ||
    match h.entry? id with
    | some e => 0 < e.pins || bound < e.age
    | none => false

lemma isRoot_iff {bound : UInt8} {extra : List ObjectId} :
    isRoot h bound extra id = true ↔
      id ∈ extra ∨ ∃ e, h.entry? id = some e ∧ (0 < e.pins ∨ bound < e.age) := by
  unfold isRoot
  cases h.entry? id <;> simp

/-- What the marking of the roots alone is. -/
structure RootMarks (h : Heap H) (root : ObjectId → Prop) (m : Marking) : Prop where
  size : m.marked.size = h.slots.size
  nodup : m.work.Nodup
  work : ∀ i, i ∈ m.work ↔ m.isMarked i = true
  marked : ∀ i, m.isMarked i = true ↔ ∃ id, id.index = i ∧ h.contains id = true ∧ root id

variable {bound : UInt8} {extra : List ObjectId}

lemma isRootSlot_iff :
    (h.slots.map (isRootSlot bound))[i]?.getD false = true ↔
      ∃ id, id.index = i ∧ ∃ e, h.entry? id = some e ∧ (0 < e.pins ∨ bound < e.age) := by
  rw [Array.getElem?_map]
  constructor
  · intro hroot
    cases hs : h.slots[i]? with
    | none => simp [hs] at hroot
    | some s =>
      obtain ⟨stamp, entry⟩ := s
      cases entry with
      | none => simp [hs, isRootSlot] at hroot
      | some e =>
        refine ⟨⟨i, stamp⟩, rfl, e, entry?_eq_some.mpr hs, ?_⟩
        simpa [hs, isRootSlot] using hroot
  · rintro ⟨id, rfl, e, he, hroot⟩
    simpa [entry?_eq_some.mp he, isRootSlot] using hroot

lemma rootMarks_ofRoots (h : Heap H) (bound : UInt8) (extra : List ObjectId) :
    RootMarks h (fun id => isRoot h bound extra id = true) (ofRoots h bound extra) := by
  let m : Marking := ⟨h.slots.map (isRootSlot bound),
    (List.range h.slots.size).filter fun i => (h.slots.map (isRootSlot bound))[i]?.getD false⟩
  have hsize : m.marked.size = h.slots.size := by simp [m]
  -- before `extra` is visited, the work list is the list of all marks
  have hwork : ∀ i, i ∈ m.work ↔ m.isMarked i = true := by
    intro i
    simp only [m, List.mem_filter, List.mem_range, isMarked]
    constructor
    · exact And.right
    · intro hi
      obtain ⟨id, rfl, e, he, -⟩ := isRootSlot_iff.mp hi
      exact ⟨index_lt (contains_of_entry he), hi⟩
  have hv : Visited h extra m (ofRoots h bound extra) := visited_foldl extra hsize
  refine ⟨hv.size.trans hsize, hv.nodup (List.nodup_range.filter _) fun j hj => (hwork j).mp hj,
    fun i => ?_, fun i => ?_⟩
  · rw [hv.work, hwork, hv.marked]
    cases m.isMarked i <;> simp
  · rw [hv.marked, isMarked, isRootSlot_iff]
    constructor
    · rintro (⟨id, hi, e, he, hroot⟩ | ⟨id, hid, hc, hi⟩)
      · exact ⟨id, hi, contains_of_entry he, isRoot_iff.mpr (.inr ⟨e, he, hroot⟩)⟩
      · exact ⟨id, hi, hc, isRoot_iff.mpr (.inl hid)⟩
    · rintro ⟨id, hi, hc, hroot⟩
      rcases isRoot_iff.mp hroot with hid | ⟨e, he, hroot⟩
      · exact .inr ⟨id, hid, hc, hi⟩
      · exact .inl ⟨id, hi, e, he, hroot⟩

lemma RootMarks.marks (hm : RootMarks h root m) : Marks h root m where
  size := hm.size
  nodup := hm.nodup
  work i hi := (hm.work i).mp hi
  sound i hi := by
    obtain ⟨id, rfl, hc, hr⟩ := (hm.marked i).mp hi
    exact ⟨id, rfl, .root hc hr⟩
  roots id hc hr := (hm.marked _).mpr ⟨id, rfl, hc, hr⟩
  closed x o _ hx hnot := absurd ((hm.work _).mpr hx) hnot

lemma RootMarks.fuel (hm : RootMarks h root m) :
    m.work.length + m.unmarked.card = h.slots.size := by
  have hwork : m.work.toFinset = (Finset.range m.marked.size).filter fun i => m.isMarked i := by
    ext i
    rw [List.mem_toFinset, Finset.mem_filter, Finset.mem_range, hm.work, hm.size]
    refine ⟨fun hi => ?_, And.right⟩
    obtain ⟨id, rfl, hc, -⟩ := (hm.marked i).mp hi
    exact ⟨index_lt hc, hi⟩
  rw [← List.toFinset_card_of_nodup hm.nodup, hwork, unmarked, ← hm.size,
    Finset.card_filter_add_card_filter_not, Finset.card_range]

end Marking
end Patchbay.Heap
