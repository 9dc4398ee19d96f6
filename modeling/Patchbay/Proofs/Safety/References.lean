import Patchbay.Proofs.Heap.Collection

/-!
# References that lead somewhere

A handle is valid in a heap if its object is live and of the kind that the handle says, and for the
handle of a port if the node has that port. `NoDangling` says that every stored reference is valid.
Writes of valid handles, new connections and new objects keep this, and so does a collection, since
it follows all of these references.
-/

namespace Patchbay

variable {H : HostTypes}

namespace Heap

variable {h h' h'' : Heap H} {id x : ObjectId} {o : HeapObject H} {p : PortRef}
  {kind : ObjectKind} {pkind : PortKind} {s : ObjectShape} {v : Value}

/-! ## Valid handles -/

/-- The shape of a live object. -/
def shape? (h : Heap H) (id : ObjectId) : Option ObjectShape := (h.object? id).map HeapObject.shape

/-- Whether a handle leads to a live object of a kind. -/
def HasKind (h : Heap H) (kind : ObjectKind) (id : ObjectId) : Prop :=
  ∃ s, h.shape? id = some s ∧ s.kind = kind

/-- Whether a handle leads to a port of a live node. -/
def HasPort (h : Heap H) (kind : PortKind) (p : PortRef) : Prop :=
  ∃ s, h.shape? p.node = some s ∧ s.HasPort kind p.index.toNat

lemma shape?_eq_some : h.shape? id = some s ↔ ∃ o, h.object? id = some o ∧ o.shape = s := by
  simp [shape?]

lemma contains_of_shape (hs : h.shape? id = some s) : h.contains id = true := by
  obtain ⟨o, ho, -⟩ := shape?_eq_some.mp hs
  exact contains_of_object? ho

lemma HasKind.contains (hk : h.HasKind kind id) : h.contains id = true := by
  obtain ⟨s, hs, -⟩ := hk
  exact contains_of_shape hs

lemma HasPort.contains (hp : h.HasPort pkind p) : h.contains p.node = true := by
  obtain ⟨s, hs, -⟩ := hp
  exact contains_of_shape hs

lemma hasKind_of_object (ho : h.object? id = some o) : h.HasKind o.kind id :=
  ⟨o.shape, shape?_eq_some.mpr ⟨o, ho, rfl⟩, HeapObject.kind_shape⟩

lemma HasKind.object (hk : h.HasKind kind id) : ∃ o, h.object? id = some o ∧ o.kind = kind := by
  obtain ⟨s, hs, rfl⟩ := hk
  obtain ⟨o, ho, rfl⟩ := shape?_eq_some.mp hs
  exact ⟨o, ho, HeapObject.kind_shape.symm⟩

/-- A port that a live node has. -/
lemma hasPort_iff :
    h.HasPort pkind p ↔ ∃ n, h.object? p.node = some (.node n) ∧
      (HeapObject.node n).shape.HasPort pkind p.index.toNat := by
  constructor
  · rintro ⟨s, hs, hport⟩
    obtain ⟨o, ho, rfl⟩ := shape?_eq_some.mp hs
    cases o with
    | node n => exact ⟨n, ho, hport⟩
    | _ => exact absurd hport.1 (by simp [HeapObject.kind])
  · rintro ⟨n, hn, hport⟩
    exact ⟨_, shape?_eq_some.mpr ⟨_, hn, rfl⟩, hport⟩

lemma hasPort_input : h.HasPort .input p ↔ h.HasInput p := by
  rw [hasPort_iff]
  exact exists_congr fun n => and_congr_right fun _ => and_iff_right rfl

lemma hasPort_output : h.HasPort .output p ↔ h.HasOutput p := by
  rw [hasPort_iff]
  exact exists_congr fun n => and_congr_right fun _ => and_iff_right rfl

end Heap

/-- Whether the object of a handle is live and as the handle says. -/
def Value.ValidIn (h : Heap H) : Value → Prop
  | .object kind id => h.HasKind kind id
  | .port kind p => h.HasPort kind p
  | .absent | .prim _ => True

namespace Heap

variable {h h' h'' : Heap H} {id x : ObjectId} {o : HeapObject H} {p : PortRef}
  {kind : ObjectKind} {pkind : PortKind} {s : ObjectShape} {v : Value}

lemma contains_of_validIn (hv : v.ValidIn h) (hx : v.referent = some x) : h.contains x = true := by
  cases v with
  | absent => cases hx
  | prim p => cases hx
  | object kind id =>
    cases hx
    exact HasKind.contains hv
  | port kind p =>
    cases hx
    exact HasPort.contains hv

/-! ## Heaps that grow -/

lemma pinCount_eq : h.pinCount id = ((h.entry? id).map Entry.pins).getD 0 := by
  unfold pinCount
  cases h.entry? id <;> rfl

/-- Every live object stays, is of the same shape and has lost no pin. -/
structure Extends (h h' : Heap H) : Prop where
  shape : ∀ id s, h.shape? id = some s → h'.shape? id = some s
  pins : ∀ id, h.pinCount id ≤ h'.pinCount id

namespace Extends

lemma refl (h : Heap H) : Extends h h := ⟨fun _ _ => id, fun _ => UInt32.le_refl _⟩

lemma trans (h1 : Extends h h') (h2 : Extends h' h'') : Extends h h'' :=
  ⟨fun id s hs => h2.shape id s (h1.shape id s hs), fun id =>
    UInt32.le_trans (h1.pins id) (h2.pins id)⟩

lemma hasKind (he : Extends h h') (hk : h.HasKind kind id) : h'.HasKind kind id := by
  obtain ⟨s, hs, hkind⟩ := hk
  exact ⟨s, he.shape _ _ hs, hkind⟩

lemma hasPort (he : Extends h h') (hp : h.HasPort pkind p) : h'.HasPort pkind p := by
  obtain ⟨s, hs, hport⟩ := hp
  exact ⟨s, he.shape _ _ hs, hport⟩

lemma valid (he : Extends h h') (hv : v.ValidIn h) : v.ValidIn h' := by
  cases v with
  | absent => trivial
  | prim p => trivial
  | object kind id => exact he.hasKind hv
  | port kind p => exact he.hasPort hv

end Extends

lemma Touched.shape {R : HeapObject H → HeapObject H → Prop} (ht : Touched R h h')
    (hR : ∀ o o', R o o' → o'.shape = o.shape) : h'.shape? id = h.shape? id := by
  have r : Option.Rel R (h.object? id) (h'.object? id) := ht.object_rel
  unfold shape?
  generalize h.object? id = y at r ⊢
  generalize h'.object? id = z at r ⊢
  cases r with
  | none => rfl
  | some hr => exact congrArg some (hR _ _ hr)

lemma Touched.pinCount {R : HeapObject H → HeapObject H → Prop} (ht : Touched R h h') :
    h'.pinCount id = h.pinCount id := by
  have r := ht.entry id
  rw [pinCount_eq, pinCount_eq]
  generalize h.entry? id = y at r ⊢
  generalize Heap.entry? h' id = z at r ⊢
  cases r with
  | none => rfl
  | some t => exact congrArg (fun pins => (some pins).getD 0) t.pins

lemma Touched.extends {R : HeapObject H → HeapObject H → Prop} (ht : Touched R h h')
    (hR : ∀ o o', R o o' → o'.shape = o.shape) : Extends h h' :=
  ⟨fun _ _ hs => (ht.shape hR).trans hs, fun _ => UInt32.le_of_eq ht.pinCount.symm⟩

/-- Writing takes nothing back either. -/
lemma Touched.extends_back {R : HeapObject H → HeapObject H → Prop} (ht : Touched R h h')
    (hR : ∀ o o', R o o' → o'.shape = o.shape) : Extends h' h :=
  ⟨fun _ _ hs => (ht.shape hR).symm.trans hs, fun _ => UInt32.le_of_eq ht.pinCount⟩

variable {P : Value → Prop} {K : H.Kernel → Prop}

lemma Stored.extends (hs : Stored P K h h') : Extends h h' :=
  Touched.extends hs fun _ _ hr => hr.1.shape

lemma Rewired.extends (hr : Rewired h h') : Extends h h' :=
  Touched.extends hr fun _ _ hr => hr.shape

lemma extends_alloc (ht : Tidy h) : Extends h (h.alloc o).2 where
  shape id s hs := by
    rw [shape?, object?_alloc_of_contains ht (contains_of_shape hs)]
    exact hs
  pins id := by
    rw [pinCount_eq, pinCount_eq, entry?_alloc ht]
    by_cases hid : id = h.nextId
    · rw [hid, entry?_eq_none_iff.mpr (contains_nextId ht)]
      exact UInt32.zero_le
    · rw [if_neg hid]
      exact UInt32.le_refl _

/-- One more pin, if it still can be counted. -/
lemma extends_pinned (hroom : h.pinCount id < h.pinCount id + 1) : Extends h (h.pinned id) where
  shape x s hs := by
    have hobj : (h.pinned id).object? x = h.object? x := object?_modifyEntry fun _ => rfl
    rw [shape?, hobj]
    exact hs
  pins x := by
    rw [pinCount_eq, pinned, pinCount_eq, entry?_modifyEntry]
    by_cases hx : x = id
    · rw [pinCount_eq] at hroom
      subst hx
      rw [if_pos rfl]
      cases he : h.entry? x with
      | none => exact UInt32.le_refl _
      | some e =>
        rw [he] at hroom
        exact UInt32.le_of_lt hroom
    · rw [if_neg hx]
      exact UInt32.le_refl _

lemma pinCount_pinned (hc : h.contains id = true) :
    (h.pinned id).pinCount id = h.pinCount id + 1 := by
  obtain ⟨e, he⟩ := contains_iff.mp hc
  rw [pinCount_eq, pinned, entry?_modifyEntry, if_pos rfl, pinCount_eq, he]
  rfl

end Heap
end Patchbay
