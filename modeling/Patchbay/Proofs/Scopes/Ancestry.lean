import Patchbay.Heap.Scope
import Patchbay.Proofs.Heap.Locality

/-!
# Ancestry

A frame is nested in an object that was stored before it, and no handle is given out twice. So
whoever follows parents goes back in time, however often slots are used again, and however often
frames are taken out and stored anew.
-/

namespace Patchbay

variable {H : HostTypes}

namespace Operation

/-- The parent of the frame that an operation stores. -/
def parent? : Operation H → Option ObjectId
  | alloc (.frame f) => f.parent
  | _ => none

/-- Whether a frame that is stored is nested in a handle that the heap gave out. If `strict`, that
handle is dead or one of a frame. -/
def Nests (strict : Prop) (h : Heap H) (op : Operation H) : Prop :=
  ∀ p, op.parent? = some p → h.Issued p ∧ (strict → ∀ o, h.object? p = some o → o.kind = .frame)

lemma nests_of_none {strict : Prop} {h : Heap H} {op : Operation H} (hop : op.parent? = none) :
    op.Nests strict h := by
  intro p hp
  rw [hop] at hp
  cases hp

end Operation

namespace Heap

variable {h h' : Heap H} {x p : ObjectId} {o : HeapObject H} {f : Frame} {op : Operation H}
  {freed : Nat → Nat} {host : KernelHost H} {strict : Prop}

/-- The heaps that operations lead to from an empty one if they nest frames only in objects of the
heap, with the number of times that each slot was vacated on the way. -/
inductive Arises (host : KernelHost H) (strict : Prop) : Heap H → (Nat → Nat) → Prop where
  | new (names : Interner) (threshold : Nat) : Arises host strict (new names threshold) fun _ => 0
  | step {h : Heap H} {freed : Nat → Nat} {op : Operation H} : Arises host strict h freed →
      op.Nests strict h → Arises host strict (op.after host h)
        (countVacated h (op.after host h) freed)
  /-- A loader interns names. -/
  | names {h : Heap H} {freed : Nat → Nat} (names : Interner) : Arises host strict h freed →
      Arises host strict { h with names := names } freed

/-! ## Parents -/

lemma parent?_of_frame (hf : h.object? x = some (.frame f)) : h.parent? x = f.parent := by
  rw [parent?, frame_eq_ok.mpr hf]

lemma contains_of_parent? (hp : h.parent? x = some p) : h.contains x = true := by
  obtain ⟨f, hf, -⟩ := parent?_eq_some.mp hp
  exact contains_of_object? hf

/-- What following parents relies on: a parent is a handle that was given out, of a frame as long as
it is live if `strict`; and parents do not lead on for ever. -/
structure Ancestral (strict : Prop) (h : Heap H) : Prop where
  issued : ∀ x p, h.parent? x = some p → h.Issued p
  frame : strict → ∀ x p o, h.parent? x = some p → h.object? p = some o → o.kind = .frame
  wellFounded : WellFounded fun p x => h.parent? x = some p

lemma ancestral_new (names : Interner) (threshold : Nat) :
    Ancestral strict (Heap.new names threshold : Heap H) := by
  have hnone : ∀ x p, (Heap.new names threshold : Heap H).parent? x ≠ some p := by
    intro x p hp
    obtain ⟨f, hf, -⟩ := parent?_eq_some.mp hp
    simp [object?, entry?, new] at hf
  exact ⟨fun x p hp => absurd hp (hnone x p), fun _ x p _ hp => absurd hp (hnone x p),
    ⟨fun x => ⟨x, fun p hp => absurd hp (hnone x p)⟩⟩⟩

/-! ## Steps that store nothing -/

/-- Every object was there before, of the same kind, in the same scope, and as large if it is an
array. -/
def Thinned (h h' : Heap H) : Prop :=
  ∀ x o', h'.object? x = some o' → ∃ o, h.object? x = some o ∧ o'.kind = o.kind ∧
  o'.scope? = o.scope? ∧ o'.extents? = o.extents?

lemma Thinned.of_object (hsub : ∀ x o, h'.object? x = some o → h.object? x = some o) :
    Thinned h h' :=
  fun x o ho => ⟨o, hsub x o ho, rfl, rfl, rfl⟩

lemma Touched.thinned {P : Value → Prop} {K : H.Kernel → Prop}
    {R : HeapObject H → HeapObject H → Prop}
    (ht : Touched R h h') (hR : ∀ o o', R o o' → o.Rewritten P K o') : Thinned h h' := by
  intro x o' ho'
  obtain ⟨o, ho, hr⟩ := ht.object_from ho'
  have hw := hR o o' hr
  refine ⟨o, ho, ?_, hw.scope, hw.extents⟩
  rw [← HeapObject.kind_shape, ← HeapObject.kind_shape, hw.shape]

lemma thinned_modifyEntry {g : Entry H → Entry H} (hg : ∀ e, (g e).object = e.object) :
    Thinned h (h.modifyEntry x g) :=
  .of_object fun y o ho => by rwa [object?_modifyEntry hg] at ho

lemma thinned_without : Thinned h (h.without x o) := by
  refine .of_object fun y o' ho' => ?_
  rw [object?_without] at ho'
  split at ho'
  · cases ho'
  · exact ho'

lemma thinned_collect {bound : UInt8} {extra : List ObjectId} :
    Thinned h (h.collect bound extra).2 := by
  intro x o' ho'
  have hplain := plain?_collect (contains_of_object? ho')
  rw [plain?, ho', Option.map_some, plain?] at hplain
  obtain ⟨o, ho, hsame⟩ := Option.map_eq_some_iff.mp hplain.symm
  -- unplugging an object changes none of these
  have hview : ∀ q : HeapObject H, q.unplugged.kind = q.kind ∧ q.unplugged.scope? = q.scope? ∧
      q.unplugged.extents? = q.extents? := by
    intro q
    cases q <;> exact ⟨rfl, rfl, rfl⟩
  refine ⟨o, ho, ?_, ?_, ?_⟩
  · rw [← (hview o').1, ← (hview o).1, hsame]
  · rw [← (hview o').2.1, ← (hview o).2.1, hsame]
  · rw [← (hview o').2.2, ← (hview o).2.2, hsame]

/-- An operation stores an object, or all objects were there before. -/
lemma Effect.thinned (he : Effect op h h') :
    Thinned h h' ∨ ∃ o, op = .alloc o ∧ h' = (h.alloc o).2 := by
  cases he with
  | write hs => exact .inl (Touched.thinned hs fun _ _ hr => hr.1)
  | alloc o h => exact .inr ⟨o, rfl, rfl⟩
  | remove ho => exact .inl thinned_without
  | unplug hp => exact .inl (Touched.thinned rewired_unplug fun _ _ hr => hr)
  | connect hp ho =>
    exact .inl (Touched.thinned (rewired_unplug.trans rewired_plug) fun _ _ hr => hr)
  | pin hc => exact .inl (thinned_modifyEntry fun _ => rfl)
  | unpin id h => exact .inl (thinned_modifyEntry fun _ => rfl)
  | collect bound extra h => exact .inl thinned_collect

lemma Thinned.parent? (ht : Thinned h h') (hp : h'.parent? x = some p) : h.parent? x = some p := by
  obtain ⟨f', hf', hparent⟩ := parent?_eq_some.mp hp
  obtain ⟨o, ho, hkind, hscope, -⟩ := ht x _ hf'
  cases o with
  | frame f => exact parent?_eq_some.mpr ⟨f, ho, hscope.symm.trans hparent⟩
  | _ => cases hkind

/-- Parents that are left lead where they led before. -/
lemma Ancestral.thinned (ha : Ancestral strict h) (ht : Thinned h h')
    (hissued : ∀ p, h.Issued p → h'.Issued p) : Ancestral strict h' where
  issued x p hp := hissued p (ha.issued x p (ht.parent? hp))
  frame hs x p o hp ho := by
    obtain ⟨o', ho', hkind, -, -⟩ := ht p o ho
    exact hkind.trans (ha.frame hs x p o' (ht.parent? hp) ho')
  wellFounded := Subrelation.wf (fun {_ _} hp => ht.parent? hp) ha.wellFounded

/-! ## Stored objects -/

/-- A new frame has the parent that it was stored with, and all others keep theirs. -/
lemma parent?_alloc (ht : Tidy h) (hp : (h.alloc o).2.parent? x = some p) :
    (x = h.nextId ∧ (Operation.alloc o).parent? = some p) ∨ x ≠ h.nextId ∧
    h.parent? x = some p := by
  obtain ⟨f, hf, hparent⟩ := parent?_eq_some.mp hp
  rw [object?_alloc ht] at hf
  split at hf
  · next hx =>
    cases hf
    exact .inl ⟨hx, hparent⟩
  · next hx => exact .inr ⟨hx, parent?_eq_some.mpr ⟨f, hf, hparent⟩⟩

/-- The new handle is nobody's parent. -/
lemma Ancestral.alloc (ha : Ancestral strict h) (ht : Tidy h)
    (hn : (Operation.alloc o).Nests strict h) : Ancestral strict (h.alloc o).2 := by
  have hissued : ∀ x p, (h.alloc o).2.parent? x = some p → h.Issued p := by
    intro x p hp
    rcases parent?_alloc ht hp with ⟨-, hparent⟩ | ⟨-, hold⟩
    · exact (hn p hparent).1
    · exact ha.issued x p hold
  have hne : ∀ x p, (h.alloc o).2.parent? x = some p → p ≠ h.nextId := fun x p hp =>
    (hissued x p hp).ne_nextId ht
  -- so the old handles lead on as they did, and the new one leads to an old one
  have hold : ∀ x, x ≠ h.nextId → Acc (fun p x => (h.alloc o).2.parent? x = some p) x := by
    intro x
    induction x using ha.wellFounded.induction with
    | _ x ih =>
      intro hx
      refine ⟨x, fun p hp => ?_⟩
      rcases parent?_alloc ht hp with ⟨hnew, -⟩ | ⟨-, hbefore⟩
      · exact absurd hnew hx
      · exact ih p hbefore (hne x p hp)
  refine ⟨fun x p hp => (hissued x p hp).alloc ht, fun hs x p q hp hq => ?_, ⟨fun x => ?_⟩⟩
  · rw [object?_alloc ht, if_neg (hne x p hp)] at hq
    rcases parent?_alloc ht hp with ⟨-, hparent⟩ | ⟨-, hbefore⟩
    · exact (hn p hparent).2 hs q hq
    · exact ha.frame hs x p q hbefore hq
  · by_cases hx : x = h.nextId
    · exact ⟨x, fun p hp => hold p (hne x p hp)⟩
    · exact hold x hx

/-! ## Histories -/

lemma le_countVacated (i : Nat) : freed i ≤ countVacated h h' freed i := Nat.le_add_right _ _

/-- One operation. -/
lemma Ancestral.effect (ha : Ancestral strict h) (hc : Counted h freed) (he : Effect op h h')
    (hn : op.Nests strict h) (hcount : ∀ i, countVacated h h' freed i < 2 ^ 32) :
    Ancestral strict h' := by
  rcases he.thinned with ht | ⟨o, rfl, rfl⟩
  · exact ha.thinned ht fun p hp => hp.effect hc he hcount
  · exact ha.alloc hc.tidy hn

/-- New names leave all objects where they are. -/
lemma sameSlots_names (names : Interner) : SameSlots h { h with names := names } :=
  ⟨fun _ => rfl, fun _ => rfl, rfl, rfl⟩

/-- Where no stamp came round, the books are in order and parents lead back. -/
theorem Arises.ancestral (ha : h.Arises host strict freed) (hfreed : ∀ i, freed i < 2 ^ 32) :
    Counted h freed ∧ Ancestral strict h := by
  induction ha with
  | new names threshold => exact ⟨counted_new names threshold, ancestral_new names threshold⟩
  | @step h freed op _ hn ih =>
    have he : Effect op h (op.after host h) := effect_after host op h
    obtain ⟨hc, ha⟩ := ih fun i => Nat.lt_of_le_of_lt (le_countVacated i) (hfreed i)
    exact ⟨hc.effect he hfreed, ha.effect hc he hn hfreed⟩
  | @names h freed names _ ih =>
    obtain ⟨hc, ha⟩ := ih hfreed
    have hs : SameSlots h { h with names := names } := sameSlots_names names
    have hsame := hc.same hs
    rw [countVacated_eq fun id hid => (hs.contains id).trans hid] at hsame
    exact ⟨hsame, ha.thinned (.of_object fun _ _ ho => ho) fun _ hp => hp.same hs⟩

/-! ## Frames that are stored again -/

/-- A frame of the heap may be stored a second time. -/
lemma Ancestral.nests (ha : Ancestral strict h) (hf : h.object? x = some (.frame f)) :
    (Operation.alloc (.frame f)).Nests strict h := by
  intro p hparent
  have hp : h.parent? x = some p := parent?_eq_some.mpr ⟨f, hf, hparent⟩
  exact ⟨ha.issued x p hp, fun hs o ho => ha.frame hs x p o hp ho⟩

/-- What may be stored now may be stored later. -/
lemma nests_effect (hn : (Operation.alloc o).Nests strict h) (hc : Counted h freed)
    (he : Effect op h h') (hcount : ∀ i, countVacated h h' freed i < 2 ^ 32) :
    (Operation.alloc o).Nests strict h' := by
  intro p hparent
  obtain ⟨hissued, hkind⟩ := hn p hparent
  refine ⟨hissued.effect hc he hcount, fun hs q hq => ?_⟩
  rcases he.thinned with ht | ⟨o', -, rfl⟩
  · obtain ⟨q', hq', hsame, -⟩ := ht p q hq
    exact hsame.trans (hkind hs q' hq')
  · rw [object?_alloc hc.tidy, if_neg (hissued.ne_nextId hc.tidy)] at hq
    exact hkind hs q hq

end Heap
end Patchbay
