import Mathlib.Data.Nat.Find
import Patchbay.Host.Stock
import Patchbay.Proofs.Heap.Locality

/-!
# Handles

A handle belongs to one object for good. Over a whole run, no two objects get the same handle; from
the step that stores it until it is taken out or collected, an object is found under its handle, and
nothing but operations on that handle changes it, wires apart; and from then on the handle is dead,
however often the slot is used again. All this holds as long as no stamp comes round.
-/

namespace Patchbay.Heap

variable {H : HostTypes} {h h' : Heap H} {id x : ObjectId} {i n t u : Nat} {o p : HeapObject H}

/-! ## Bookkeeping -/

/-- The free list names every vacant slot once and no other slot, and the objects are counted. -/
structure Accounted (h : Heap H) : Prop where
  free : ∀ i, h.free.count i = if i < h.slots.size ∧ h.occupied i = false then 1 else 0
  live : h.live = h.slots.countP fun s => s.entry.isSome

lemma isSome_stampAt : (h.stampAt i).isSome ↔ i < h.slots.size := by
  simp [stampAt]

/-- Counting along the places of a list. -/
lemma countP_range {α : Type} (q : α → Bool) (xs : List α) :
    (List.range xs.length).countP (fun i => xs[i]?.any q) = xs.countP q := by
  induction xs with
  | nil => rfl
  | cons x xs ih =>
    rw [List.length_cons, List.range_succ_eq_map, List.countP_cons, List.countP_map,
      List.countP_cons]
    simp only [Function.comp_def, List.getElem?_cons_succ, List.getElem?_cons_zero, Option.any_some]
    rw [ih]

lemma length_liveIds_eq_countP : h.liveIds.length = h.slots.countP fun s => s.entry.isSome := by
  have hlength : h.liveIds.length =
      (List.range h.slots.toList.length).countP fun i => h.slots.toList[i]?.any fun s =>
        s.entry.isSome := by
    rw [liveIds, List.length_filterMap_eq_countP, Array.length_toList]
    refine List.countP_congr fun i _ => ?_
    cases hs : h.slots[i]? with
    | none => simp [hs]
    | some s => cases he : s.entry <;> simp [hs, he]
  rw [hlength, countP_range, Array.countP_toList]

lemma Tidy.accounted (ht : Tidy h) : Accounted h where
  free i := by
    split
    · next hvacant =>
      exact List.count_eq_one_of_mem ht.nodup
        ((ht.mem_free i).mpr ⟨isSome_stampAt.mpr hvacant.1, hvacant.2⟩)
    · next hnot =>
      refine List.count_eq_zero.mpr fun hmem => hnot ?_
      have hvacant := (ht.mem_free i).mp hmem
      exact ⟨isSome_stampAt.mp hvacant.1, hvacant.2⟩
  live := ht.live.trans length_liveIds_eq_countP

/-! ## Runs -/

/-- A run of operations on a heap that is empty at first. -/
structure Run (H : HostTypes) where
  host : KernelHost H
  names : Interner
  threshold : Nat
  /-- The operation that is done at each time. -/
  op : Nat → Operation H

namespace Run

/-- The heap at a time. -/
def heap (r : Run H) : Nat → Heap H
  | 0 => Heap.new r.names r.threshold
  | t + 1 => (r.op t).after r.host (r.heap t)

/-- How often each slot was vacated before a time. -/
def freed (r : Run H) : Nat → Nat → Nat
  | 0 => fun _ => 0
  | t + 1 => countVacated (r.heap t) (r.heap (t + 1)) (r.freed t)

/-- Whether an object is stored at a time, and which handle it gets. -/
def Stores (r : Run H) (t : Nat) (id : ObjectId) (o : HeapObject H) : Prop :=
  r.op t = .alloc o ∧ HeapM.alloc o (r.heap t) = .ok id (r.heap (t + 1))

/-- The life, up to the time `n`, of an object that is stored at `t` and found last at the time
`last`. -/
structure Life (r : Run H) (n t last : Nat) (id : ObjectId) (o : HeapObject H) : Prop where
  stored : (r.heap (t + 1)).get id = .ok o
  /-- It is found under its handle. -/
  found : ∀ u, t < u → u ≤ last → u ≤ n → ∃ p, (r.heap u).get id = .ok p
  /-- Nothing but operations on its handle changes it, wires apart. -/
  changed : ∀ u p q, t < u → u < last → u < n → (r.heap u).get id = .ok p →
    (r.heap (u + 1)).get id = .ok q → MayTurn (r.op u) id p q
  /-- What ends its life takes it out or collects. -/
  ended : last < n → (r.op last).Discards id
  /-- Taking it out ends its life. -/
  removed : ∀ u, t < u → u < n → r.op u = .remove id → last ≤ u
  /-- Its handle is dead ever after. -/
  dead : ∀ u, last < u → u ≤ n → (r.heap u).get id = fail (deadObject id)

variable {r : Run H}

lemma effect (r : Run H) (t : Nat) : Effect (r.op t) (r.heap t) (r.heap (t + 1)) :=
  effect_after _ _ _

lemma freed_le (r : Run H) (t i : Nat) : r.freed t i ≤ t := by
  induction t with
  | zero => exact Nat.le_refl _
  | succ t ih =>
    rw [freed, countVacated]
    split <;> omega

lemma freed_mono (htu : t ≤ u) : r.freed t i ≤ r.freed u i := by
  induction htu with
  | refl => exact Nat.le_refl _
  | step _ ih => exact ih.trans (Nat.le_add_right _ _)

lemma counted (hfreed : ∀ i, r.freed n i < 2 ^ 32) : t ≤ n → Counted (r.heap t) (r.freed t) := by
  induction t with
  | zero => exact fun _ => counted_new _ _
  | succ t ih =>
    intro htn
    exact (ih (by omega)).effect (r.effect t) fun i => Nat.lt_of_le_of_lt (freed_mono htn)
      (hfreed i)

/-! ### Handles that were given out -/

lemma Stores.nextId (hs : r.Stores t id o) : id = (r.heap t).nextId := by
  have hrun : HeapM.alloc o (r.heap t) = .ok ((r.heap t).alloc o).1 ((r.heap t).alloc o).2 := rfl
  have hid := hs.2
  rw [hrun, alloc_fst] at hid
  exact (EStateM.Result.ok.inj hid).1.symm

lemma Stores.heap (hs : r.Stores t id o) : r.heap (t + 1) = ((r.heap t).alloc o).2 := by
  rw [Run.heap, hs.1, after_alloc]

/-- A handle that was given out stays given out. -/
lemma Stores.issued (hfreed : ∀ i, r.freed n i < 2 ^ 32) (hs : r.Stores t id o) (htu : t < u)
    (hun : u ≤ n) : (r.heap u).Issued id := by
  induction htu with
  | refl =>
    have ht := (counted hfreed (by omega : t ≤ n)).tidy
    rw [hs.heap]
    exact issued_of_contains ((contains_alloc ht).mpr (.inl hs.nextId))
  | step _ ih =>
    exact (ih (by omega)).effect (counted hfreed (by omega)) (r.effect _) fun i =>
      Nat.lt_of_le_of_lt (freed_mono hun) (hfreed i)

/-- Two objects that are stored one after the other get different handles. -/
lemma Stores.ne_of_lt (hfreed : ∀ i, r.freed n i < 2 ^ 32) {y : ObjectId} (hs : r.Stores t id o)
    (hs' : r.Stores u y p) (htu : t < u) (hun : u < n) : id ≠ y := by
  rw [hs'.nextId]
  exact (hs.issued hfreed htu (by omega)).ne_nextId (counted hfreed (by omega)).tidy

/-! ### Dead handles -/

lemma Stores.stays_dead (hfreed : ∀ i, r.freed n i < 2 ^ 32) (hs : r.Stores t id o) {v : Nat}
    (htu : t < u) (huv : u ≤ v) (hvn : v ≤ n) (hdead : (r.heap u).contains id = false) :
    (r.heap v).contains id = false := by
  induction huv with
  | refl => exact hdead
  | step huv ih =>
    have htv : t < _ := Nat.lt_of_lt_of_le htu huv
    exact (hs.issued hfreed htv (by omega)).stays_dead (counted hfreed (by omega)).tidy (r.effect _)
      (ih (by omega))

lemma get_of_not_contains (hc : h.contains id = false) : h.get id = fail (deadObject id) := by
  rw [get, entry?_eq_none_iff.mpr hc]

/-- The last time at which an object is found: before the first time at which its handle is dead, if
there is one. -/
lemma Stores.exists_last (hfreed : ∀ i, r.freed n i < 2 ^ 32) (hs : r.Stores t id o) (htn : t < n) :
    ∃ last, t < last ∧ (∀ u, t < u → u ≤ last → u ≤ n → (r.heap u).contains id = true) ∧
      ∀ u, last < u → u ≤ n → (r.heap u).contains id = false := by
  classical
  by_cases hdead : ∃ u, t < u ∧ (r.heap u).contains id = false
  · have hfirst := Nat.find_spec hdead
    have hmin : ∀ u, t < u → u < Nat.find hdead → (r.heap u).contains id = true := by
      intro u htu hu
      have := Nat.find_min hdead hu
      simpa [htu] using this
    have hnew : (r.heap (t + 1)).contains id = true := by
      rw [hs.heap]
      exact (contains_alloc (counted hfreed (by omega)).tidy).mpr (.inl hs.nextId)
    -- the object is found right after it was stored, so at least one time lies before its death
    have hne : Nat.find hdead ≠ t + 1 := by
      intro heq
      rw [heq, hnew] at hfirst
      exact absurd hfirst.2 (by simp)
    refine ⟨Nat.find hdead - 1, by omega, fun u htu hu _ => hmin u htu (by omega),
      fun u hu hun => ?_⟩
    exact hs.stays_dead hfreed hfirst.1 (by omega) hun hfirst.2
  · refine ⟨n, htn, fun u htu _ _ => ?_, fun u hu hun => by omega⟩
    by_contra hnot
    exact hdead ⟨u, htu, by simpa using hnot⟩

lemma Stores.exists_life (hfreed : ∀ i, r.freed n i < 2 ^ 32) (hs : r.Stores t id o) (htn : t < n) :
    ∃ last, t < last ∧ r.Life n t last id o := by
  obtain ⟨last, hlast, hfound, hgone⟩ := hs.exists_last hfreed htn
  have htidy : ∀ u ≤ n, Tidy (r.heap u) := fun u hu => (counted hfreed hu).tidy
  refine ⟨last, hlast, ?_, fun u htu hu hun => ?_, fun u p q _ _ hun hp hq => ?_, fun hln => ?_,
    fun u htu hun hop => ?_, fun u hu hun => get_of_not_contains (hgone u hu hun)⟩
  · show (r.heap (t + 1)).get id = .ok o
    rw [hs.heap, get_eq_ok_iff, object?_alloc (htidy t htn.le), if_pos hs.nextId]
  · obtain ⟨p, hp⟩ := exists_object? (hfound u htu hu hun)
    exact ⟨p, get_eq_ok_iff.mpr hp⟩
  · exact mayTurn_after (htidy u hun.le) (get_eq_ok_iff.mp hp) (get_eq_ok_iff.mp hq)
  · -- an operation that discards nothing would have kept it for one more step
    by_contra hop
    have hstays : (r.heap (last + 1)).contains id = true :=
      contains_after (htidy last hln.le) (hfound last hlast le_rfl hln.le) hop
    rw [hgone (last + 1) (by omega) hln] at hstays
    cases hstays
  · by_contra hlt
    have hstays := hfound (u + 1) (by omega) (by omega) hun
    rw [Run.heap, hop, contains_after_remove] at hstays
    cases hstays

/-- Handles never alias. The handles that a run gives out are distinct; each object has one life
under its handle; and at every time the free list and the count of objects are exact. -/
theorem handles_never_alias (r : Run H) (n : Nat) (hfreed : ∀ i, r.freed n i < 2 ^ 32) :
    (∀ t u id o p, t < n → u < n → r.Stores t id o → r.Stores u id p → t = u) ∧
    (∀ t id o, t < n → r.Stores t id o → ∃ last, t < last ∧ r.Life n t last id o) ∧
    ∀ t, t ≤ n → (r.heap t).Accounted := by
  refine ⟨fun t u id o p htn hun hs hs' => ?_, fun t id o htn hs => hs.exists_life hfreed htn,
    fun t htn => (counted hfreed htn).tidy.accounted⟩
  rcases Nat.lt_trichotomy t u with hlt | heq | hgt
  · exact absurd rfl (hs.ne_of_lt hfreed hs' hlt hun)
  · exact heq
  · exact absurd rfl (hs'.ne_of_lt hfreed hs hgt htn)

/-- A cell is stored, written and taken out, and another one is stored in its slot. -/
def reusing : Run Stock.types where
  host := Stock.kernels
  names := .new
  threshold := 1
  op
    | 0 => .alloc (.ref (.text "a"))
    | 1 => .setRef ⟨0, 0⟩ (.text "b")
    | 2 => .remove ⟨0, 0⟩
    | 3 => .alloc (.ref (.text "c"))
    | _ => .setRef ⟨0, 0⟩ (.text "d")

theorem handles_never_alias_sample :
    reusing.Stores 0 ⟨0, 0⟩ (.ref (.text "a")) ∧ reusing.Stores 3 ⟨0, 1⟩ (.ref (.text "c")) ∧
      (∃ last, 0 < last ∧ reusing.Life 6 0 last ⟨0, 0⟩ (.ref (.text "a"))) ∧
        (reusing.heap 5).Accounted := by
  have hfreed : ∀ i, reusing.freed 6 i < 2 ^ 32 := by
    intro i
    have := reusing.freed_le 6 i
    omega
  have hfirst : reusing.Stores 0 ⟨0, 0⟩ (.ref (.text "a")) := ⟨rfl, rfl⟩
  have hsecond : reusing.Stores 3 ⟨0, 1⟩ (.ref (.text "c")) := ⟨rfl, rfl⟩
  obtain ⟨-, hlife, haccounted⟩ := handles_never_alias reusing 6 hfreed
  exact ⟨hfirst, hsecond, hlife 0 _ _ (by omega) hfirst, haccounted 5 (by omega)⟩

end Run
end Patchbay.Heap
