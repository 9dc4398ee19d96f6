import Patchbay.Host.Stock
import Patchbay.Proofs.Heap.Operation

/-!
# Generations

Collections with different bounds make the same of a heap. This rests on an invariant of all
operations: an object with an age is pinned, or it was an extra root of the last collection. So the
objects that a bound adds to the roots are roots anyway.
-/

namespace Patchbay.Heap

variable {H : HostTypes} {h h' : Heap H} {id x : ObjectId} {host : KernelHost H} {op : Operation H}
  {freed : Nat → Nat} {extra : List ObjectId} {bound : UInt8}

/-- Every object with an age is held, by a pin or as an extra root. -/
def Aged (h : Heap H) : Prop :=
  ∀ id e, h.entry? id = some e → e.age ≠ 0 → 0 < e.pins ∨ id ∈ h.held

/-- Whether an operation leaves room for one more pin. -/
def PinsFit (h : Heap H) : Operation H → Prop
  | .pin id => (h.pinCount id).toNat + 1 < 2 ^ 32
  | _ => True

/-! ## The invariant -/

lemma Aged.touched {R : HeapObject H → HeapObject H → Prop} (ha : Aged h) (ht : Touched R h h') :
    Aged h' := by
  intro id e' he' hage
  have r := ht.entry id
  rw [he'] at r
  generalize hx : h.entry? id = x at r
  cases r with
  | some t =>
    rw [t.pins, ht.held]
    rcases t.age with heq | hzero
    · exact ha id _ hx (heq ▸ hage)
    · exact absurd hzero hage

/-- Entries that are left of those of an aged heap. -/
lemma Aged.subset (ha : Aged h) (hsub : ∀ id e, Heap.entry? h' id = some e → h.entry? id = some e)
    (hheld : h'.held = h.held) : Aged h' := fun id e he hage => hheld ▸ ha id e (hsub id e he) hage

lemma Aged.modifyEntry (ha : Aged h) {f : Entry H → Entry H}
    (hf : ∀ e, h.entry? id = some e → (f e).age ≠ 0 → 0 < (f e).pins) :
    Aged (h.modifyEntry id f) := by
  intro x e he hage
  rw [entry?_modifyEntry] at he
  split at he
  · next hx =>
    subst hx
    obtain ⟨e', he', rfl⟩ := Option.map_eq_some_iff.mp he
    exact .inl (hf e' he' hage)
  · exact ha x e he hage

lemma pos_iff_ne_zero {n : UInt32} : 0 < n ↔ n ≠ 0 := by
  rw [UInt32.lt_iff_toNat_lt, UInt32.toNat_zero, ← UInt32.toNat_inj.ne, UInt32.toNat_zero]
  omega

lemma Aged.pinned (ha : Aged h) (hfit : (h.pinCount id).toNat + 1 < 2 ^ 32) :
    Aged (h.pinned id) := by
  refine ha.modifyEntry fun e he _ => ?_
  rw [pinCount, he] at hfit
  dsimp only at hfit ⊢
  rw [UInt32.lt_iff_toNat_lt, UInt32.toNat_add, UInt32.toNat_one, Nat.mod_eq_of_lt hfit]
  exact Nat.succ_pos _

lemma Aged.unpin (ha : Aged h) : Aged (h.unpin id) := by
  refine ha.modifyEntry fun e _ hage => ?_
  dsimp only at hage ⊢
  rw [pos_iff_ne_zero]
  intro hzero
  rw [if_pos hzero] at hage
  exact hage rfl

/-- Dropped extra roots that no pin holds lose their age. -/
lemma Aged.hold (ha : Aged h) : Aged (h.hold extra) := by
  intro id e he hage
  rw [entry?_hold] at he
  obtain ⟨e', he', rfl⟩ := Option.map_eq_some_iff.mp he
  rw [rewired_hold.held]
  split at hage
  · exact absurd rfl hage
  · next hkept =>
    rw [if_neg hkept]
    rcases ha id e' he' hage with hpins | hheld
    · exact .inl hpins
    · by_contra hnot
      rw [not_or, pos_iff_ne_zero, not_not] at hnot
      exact hkept ⟨hheld, hnot.2, hnot.1⟩

/-- Roots are held: by a pin, as an extra root, or else they have an age. -/
lemma Aged.isRoot_iff (ha : Aged h) (hheld : h.held = extra) (hc : h.contains id = true) :
    Marking.isRoot h bound extra id = true ↔ 0 < h.pinCount id ∨ id ∈ extra := by
  obtain ⟨e, he⟩ := contains_iff.mp hc
  rw [Marking.isRoot_iff, pinCount, he]
  constructor
  · rintro (hid | ⟨e', he', hpins | hold⟩)
    · exact .inr hid
    · cases he'
      exact .inl hpins
    · cases he'
      have hage : e.age ≠ 0 := by
        rintro hzero
        rw [hzero, UInt8.lt_iff_toNat_lt] at hold
        simp at hold
      rw [← hheld]
      exact ha id e he hage
  · rintro (hpins | hid)
    · exact .inr ⟨e, rfl, .inl hpins⟩
    · exact .inl hid

lemma Aged.grown (ha : Aged h) : Aged (h.grown bound extra) := by
  intro id e he hage
  have hroots := Marking.rootMarks_ofRoots (h.hold extra) bound extra
  have hheld : (h.grown bound extra).held = (h.hold extra).held := by
    rw [Heap.grown, foldl_promote hroots.nodup]
  rw [Heap.grown, entry?_foldl_promote hroots.nodup] at he
  obtain ⟨e', he', rfl⟩ := Option.map_eq_some_iff.mp he
  have hc : (h.hold extra).contains id = true := contains_of_entry he'
  rw [hheld]
  split at hage
  · next hwork =>
    rw [if_pos hwork]
    obtain ⟨y, hy, hcy, hroot⟩ := (hroots.marked _).mp ((hroots.work _).mp hwork)
    obtain rfl := eq_of_contains hcy hc hy
    rcases (ha.hold.isRoot_iff rewired_hold.held hc).mp hroot with hpins | hextra
    · rw [pinCount, he'] at hpins
      exact .inl hpins
    · exact .inr (rewired_hold.held.symm ▸ hextra)
  · next hwork =>
    rw [if_neg hwork]
    exact ha.hold id e' he' hage

lemma Aged.collect (ha : Aged h) : Aged (h.collect bound extra).2 := by
  have hdetached : Aged (h.detached bound extra) := by
    have hgrown : Aged (h.grown bound extra) := ha.grown
    refine hgrown.subset (fun id e he => ?_) rfl
    rw [detached, entry?_detach] at he
    split at he
    · exact he
    · cases he
  have hcleared : Aged (h.cleared bound extra) := by
    refine List.foldlRecOn (motive := Aged) _ _ hdetached ?_
    rintro g hg ⟨id, o⟩ -
    exact hg.touched rewired_clearEdges
  obtain ⟨hentry, -, -, -, hheld⟩ := foldl_vacate (h.garbageOf bound extra) nodup_garbage
    (h.cleared bound extra)
  refine hcleared.subset (fun id e he => ?_) hheld
  have hstep := (hentry id).symm.trans he
  split at hstep
  · cases hstep
  · exact hstep

lemma aged_new (names : Interner) (threshold : Nat) : Aged (Heap.new names threshold : Heap H) := by
  intro id e he
  simp [new, entry?] at he

/-- Every operation keeps objects with an age held. -/
lemma Aged.effect (ha : Aged h) (hfit : h.PinsFit op) (he : Effect op h h') : Aged h' := by
  cases he with
  | write hs => exact ha.touched hs
  | alloc o h =>
    intro id e he hage
    rw [held_alloc]
    rcases entry?_alloc_or he with rfl | hold
    · exact absurd rfl hage
    · exact ha id e hold hage
  | @remove id h o _ =>
    -- to remove is to vacate the slot and to reset the ages of the children
    have hvacated : Aged { h.vacate id.index with live := h.live - 1 } := by
      refine ha.subset (fun x e he => ?_) rfl
      have hstep : Heap.entry? (h.vacate id.index) x = some e := he
      rw [entry?_vacate] at hstep
      split at hstep
      · cases hstep
      · exact hstep
    exact hvacated.touched rewired_without
  | unplug _ => exact ha.touched rewired_unplug
  | connect _ _ => exact ha.touched (rewired_unplug.trans rewired_plug)
  | pin _ => exact ha.pinned hfit
  | unpin id h => exact ha.unpin
  | collect bound extra h => exact ha.collect

/-- On every heap that operations lead to, objects with an age are held. -/
lemma Reached.aged (hr : Reached host PinsFit h freed) : Aged h :=
  hr.induct aged_new fun _ _ _ ha hfit he => ha.effect hfit he

/-! ## Two bounds -/

/-- With the same roots, the same objects are reached. -/
lemma Aged.rootsOf_iff (ha : Aged h) (b1 b2 : UInt8) (hc : h.contains id = true) :
    h.rootsOf b1 extra id ↔ h.rootsOf b2 extra id := by
  have hc' : (h.hold extra).contains id = true := contains_hold.trans hc
  exact (ha.hold.isRoot_iff rewired_hold.held hc').trans
    (ha.hold.isRoot_iff rewired_hold.held hc').symm

lemma Aged.mem_work (ha : Aged h) (b1 b2 : UInt8) (i : Nat) :
    i ∈ (Marking.ofRoots (h.hold extra) b1 extra).work ↔
      i ∈ (Marking.ofRoots (h.hold extra) b2 extra).work := by
  have hsub : ∀ b1 b2, i ∈ (Marking.ofRoots (h.hold extra) b1 extra).work →
      i ∈ (Marking.ofRoots (h.hold extra) b2 extra).work := by
    intro b1 b2 hi
    have hroots := Marking.rootMarks_ofRoots (h.hold extra) b1 extra
    obtain ⟨id, rfl, hc, hroot⟩ := (hroots.marked i).mp ((hroots.work i).mp hi)
    rw [contains_hold] at hc
    exact (mem_work_iff hc).mpr ((ha.rootsOf_iff b1 b2 hc).mp hroot)
  exact ⟨hsub b1 b2, hsub b2 b1⟩

lemma Aged.grown_eq (ha : Aged h) (b1 b2 : UInt8) : h.grown b1 extra = h.grown b2 extra := by
  rw [Heap.grown, Heap.grown, foldl_promote (Marking.rootMarks_ofRoots _ _ _).nodup,
    foldl_promote (Marking.rootMarks_ofRoots _ _ _).nodup]
  simp only [ha.mem_work b1 b2]

lemma Aged.isMarked_eq (ha : Aged h) (b1 b2 : UInt8) (i : Nat) :
    (h.marking b1 extra).isMarked i = (h.marking b2 extra).isMarked i := by
  rw [Bool.eq_iff_iff, isMarked_marking, isMarked_marking]
  have hsub : ∀ b1 b2 id, Reachable h (h.rootsOf b1 extra) id →
      Reachable h (h.rootsOf b2 extra) id :=
    fun b1 b2 id hr => hr.congr (fun _ => rfl) fun id hc hroot => (ha.rootsOf_iff b1 b2 hc).mp hroot
  constructor
  · rintro ⟨id, hid, hr⟩
    exact ⟨id, hid, hsub b1 b2 id hr⟩
  · rintro ⟨id, hid, hr⟩
    exact ⟨id, hid, hsub b2 b1 id hr⟩

/-- The sweep looks at a marking only to ask which slots are marked. -/
lemma sweep_congr {m m' : Marking} (hm : ∀ i, m.isMarked i = m'.isMarked i) :
    h.garbage m = h.garbage m' ∧ h.detach m = h.detach m' := by
  simp only [garbage, detach, hm, and_self]

lemma Aged.length_work (ha : Aged h) (b1 b2 : UInt8) :
    (Marking.ofRoots (h.hold extra) b1 extra).work.length =
      (Marking.ofRoots (h.hold extra) b2 extra).work.length :=
  List.Perm.length_eq <| (List.perm_ext_iff_of_nodup (Marking.rootMarks_ofRoots _ _ _).nodup
    (Marking.rootMarks_ofRoots _ _ _).nodup).mpr (ha.mem_work b1 b2)

lemma Aged.collect_eq (ha : Aged h) (extra : List ObjectId) (b1 b2 : UInt8) :
    (h.collect b1 extra).2 = (h.collect b2 extra).2 ∧
      (h.collect b1 extra).1 = { (h.collect b2 extra).1 with bound := b1 } := by
  have hgarbage : h.garbageOf b1 extra = h.garbageOf b2 extra := by
    rw [garbageOf, garbageOf, ha.grown_eq b1 b2, (sweep_congr (ha.isMarked_eq b1 b2)).1]
  have hdetached : h.detached b1 extra = h.detached b2 extra := by
    rw [detached, detached, ha.grown_eq b1 b2, (sweep_congr (ha.isMarked_eq b1 b2)).2]
  have hswept : h.swept b1 extra = h.swept b2 extra := by
    rw [swept, swept, cleared, cleared, hgarbage, hdetached]
  rw [Heap.collect_eq, Heap.collect_eq, ha.length_work b1 b2, hgarbage, hswept]
  exact ⟨rfl, rfl⟩

/-- What a collection makes of a heap does not depend on its bound, and neither do its figures. In
particular it frees what a full collection frees. -/
theorem collect_bound_irrelevant (hr : Reached host PinsFit h freed) (b1 b2 : UInt8)
    (extra : List ObjectId) :
    (h.collect b1 extra).2 = (h.collect b2 extra).2 ∧
      (h.collect b1 extra).1 = { (h.collect b2 extra).1 with bound := b1 } ∧
        ∀ id, (h.collect b1 extra).2.contains id = (h.collectAll extra).2.contains id := by
  obtain ⟨hheap, hstats⟩ := hr.aged.collect_eq extra b1 b2
  refine ⟨hheap, hstats, fun id => ?_⟩
  rw [collectAll, (hr.aged.collect_eq extra b1 fullCollection).1]

/-- An extra root that grew old, and something that nothing refers to. -/
def oldSteps : List (Operation Stock.types) :=
  [.alloc (.sequence #[]), .collect 255 [⟨0, 0⟩], .alloc (.ref .absent), .alloc (.sequence #[]),
    .pin ⟨1, 0⟩]

def oldHeap : Heap Stock.types :=
  oldSteps.foldl (fun h op => op.after Stock.kernels h) (Heap.new .new 1)

theorem collect_bound_irrelevant_old :
    (oldHeap.collect 0 [⟨2, 0⟩]).2 = (oldHeap.collect 255 [⟨2, 0⟩]).2 ∧
      (oldHeap.collect 0 [⟨2, 0⟩]).1 = ⟨0, 2, 2, 1⟩ := by
  have hpin : PinsFit (oldSteps.dropLast.foldl (fun h op => op.after Stock.kernels h)
      (Heap.new .new 1)) (.pin ⟨1, 0⟩) := by
    change (pinCount _ _).toNat + 1 < 2 ^ 32
    decide +kernel
  have hr : Reached Stock.kernels PinsFit oldHeap _ :=
    .step (.step (.step (.step (.step (.new .new 1) trivial) trivial) trivial) trivial) hpin
  exact ⟨(collect_bound_irrelevant hr 0 255 [⟨2, 0⟩]).1, by decide +kernel⟩

end Patchbay.Heap
