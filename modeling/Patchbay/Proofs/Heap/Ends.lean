import Patchbay.Heap.Scope
import Patchbay.Proofs.Failures
import Patchbay.Proofs.Heap.Views

/-!
# How operations on the heap end

`m.Ends h ok err` says what an operation leaves behind when it runs on `h`, with its result or with
its failure. Operations are taken apart by the rules of this file. Reading an object fails as dead
only if its handle is.
-/

namespace Patchbay

variable {H : HostTypes} {α β : Type}

namespace HeapM

variable {m : HeapM H α} {f : α → HeapM H β} {h : Heap H} {look : Heap H → Except EvalError α}
  {ok ok' : α → Heap H → Prop} {err err' : EvalError → Heap H → Prop} {next : β → Heap H → Prop}

/-- After `m` has run on `h`, either `ok` holds of its result and the heap, or `err` of its failure
and the heap. -/
def Ends (m : HeapM H α) (h : Heap H) (ok : α → Heap H → Prop) (err : EvalError → Heap H → Prop) :
    Prop :=
  match m h with
  | .ok a h' => ok a h'
  | .error e h' => err e h'

@[simp] lemma ends_pure {a : α} : Ends (pure a : HeapM H α) h ok err ↔ ok a h := Iff.rfl

@[simp] lemma ends_fail {c : Cause} : Ends (fail c : HeapM H α) h ok err ↔ err (.of c) h := Iff.rfl

@[simp] lemma ends_change {g : Heap H → Heap H} {ok : Unit → Heap H → Prop} :
    Ends (change g) h ok err ↔ ok () (g h) := Iff.rfl

lemma ends_read :
    Ends (read look) h ok err ↔
      (∀ a, look h = .ok a → ok a h) ∧ (∀ e, look h = .error e → err e h) := by
  unfold Ends read
  cases look h <;> simp

lemma Ends.bind (hm : m.Ends h ok err) (hf : ∀ a h', ok a h' → (f a).Ends h' next err) :
    (m >>= f).Ends h next err := by
  unfold Ends at hm ⊢
  simp only [Bind.bind, EStateM.bind]
  cases hr : m h with
  | ok a h' =>
    rw [hr] at hm
    exact hf a h' hm
  | error e h' =>
    rw [hr] at hm
    exact hm

lemma Ends.mono (hm : m.Ends h ok err) (hok : ∀ a h', ok a h' → ok' a h')
    (herr : ∀ e h', err e h' → err' e h') : m.Ends h ok' err' := by
  unfold Ends at hm ⊢
  cases hr : m h with
  | ok a h' =>
    rw [hr] at hm
    exact hok a h' hm
  | error e h' =>
    rw [hr] at hm
    exact herr e h' hm

lemma ends_change_bind {g : Heap H → Heap H} {k : Unit → HeapM H β}
    (hk : (k ()).Ends (g h) next err) : Ends (change g >>= k) h next err := hk

lemma Ends.of_ok {h' : Heap H} {a : α} (hm : m.Ends h ok err) (hr : m h = .ok a h') : ok a h' := by
  unfold Ends at hm
  rwa [hr] at hm

lemma Ends.of_error {h' : Heap H} {e : EvalError} (hm : m.Ends h ok err) (hr : m h = .error e h') :
    err e h' := by
  unfold Ends at hm
  rwa [hr] at hm

/-- An operation ends with a result or with a failure. -/
lemma Ends.ok_or_error (hm : m.Ends h ok err) :
    (∃ a h', m h = .ok a h' ∧ ok a h') ∨ ∃ e h', m h = .error e h' ∧ err e h' := by
  unfold Ends at hm
  cases hr : m h with
  | ok a h' =>
    rw [hr] at hm
    exact .inl ⟨a, h', rfl, hm⟩
  | error e h' =>
    rw [hr] at hm
    exact .inr ⟨e, h', rfl, hm⟩

lemma read_bind_of_ok {k : α → HeapM H β} {a : α} (hl : look h = .ok a) :
    (read look >>= k) h = k a h := by
  simp [read, hl, Bind.bind, EStateM.bind]

lemma read_bind_of_error {k : α → HeapM H β} {e : EvalError} (hl : look h = .error e) :
    (read look >>= k) h = .error e h := by
  simp [read, hl, Bind.bind, EStateM.bind]

/-- An operation that reads first goes on with what it reads, on the same heap. -/
lemma ends_read_bind {k : α → HeapM H β} (hok : ∀ a, look h = .ok a → (k a).Ends h next err)
    (herr : ∀ e, look h = .error e → err e h) : (read look >>= k).Ends h next err := by
  cases hl : look h with
  | ok a =>
    unfold Ends
    rw [read_bind_of_ok hl]
    exact hok a hl
  | error e =>
    unfold Ends
    rw [read_bind_of_error hl]
    exact herr e hl

lemma Ends.discard {ok : Unit → Heap H → Prop} (hm : m.Ends h (fun _ => ok ()) err) :
    Ends (discard m) h ok err := by
  have hrun : Functor.discard m h = EStateM.map (fun _ => PUnit.unit) m h := rfl
  unfold Ends at hm ⊢
  rw [hrun, EStateM.map]
  cases hr : m h <;> simpa [hr] using hm

lemma check_bind_of_ok {k : HeapM H β} {a : α} (hl : look h = .ok a) :
    (do Functor.discard (read look); k : HeapM H β) h = k h := by
  simp [HeapM.read, hl, Bind.bind, EStateM.bind, Functor.discard, Functor.mapConst, EStateM.map]

/-- An operation that reads first and does not use what it reads. -/
lemma ends_check_bind {k : HeapM H β} (hok : ∀ a, look h = .ok a → k.Ends h next err)
    (herr : ∀ e, look h = .error e → err e h) :
    Ends (do Functor.discard (read look); k) h next err := by
  cases hl : look h with
  | ok a =>
    unfold Ends
    rw [check_bind_of_ok hl]
    exact hok a hl
  | error e =>
    have hrun : (do Functor.discard (read look); k : HeapM H β) h = .error e h := by
      simp [HeapM.read, hl, Bind.bind, EStateM.bind, Functor.discard, Functor.mapConst, EStateM.map]
    unfold Ends
    rw [hrun]
    exact herr e hl

/-- The heap that an operation leaves behind, however it ends. -/
def leaves (m : HeapM H α) (h : Heap H) : Heap H :=
  match m h with
  | .ok _ h' => h'
  | .error _ h' => h'

lemma Ends.leaves {Q : Heap H → Prop} (hm : m.Ends h (fun _ => Q) fun _ => Q) : Q (m.leaves h) := by
  unfold Ends at hm
  unfold HeapM.leaves
  cases hr : m h <;> simpa [hr] using hm

lemma ends_of_leaves {Q : Heap H → Prop} (hQ : Q (m.leaves h)) :
    m.Ends h (fun _ => Q) fun _ => Q := by
  unfold HeapM.leaves at hQ
  unfold Ends
  cases hr : m h <;> simpa [hr] using hQ

end HeapM

namespace Heap

variable {h : Heap H} {id : ObjectId} {o : HeapObject H} {e : EvalError}

/-- The object of a live handle. -/
def object? (h : Heap H) (id : ObjectId) : Option (HeapObject H) := (h.entry? id).map Entry.object

lemma object?_eq_some : h.object? id = some o ↔ ∃ e, h.entry? id = some e ∧ e.object = o := by
  simp [object?]

lemma contains_of_object? (ho : h.object? id = some o) : h.contains id = true := by
  obtain ⟨e, he, -⟩ := object?_eq_some.mp ho
  exact contains_of_entry he

lemma exists_object? (hc : h.contains id = true) : ∃ o, h.object? id = some o := by
  obtain ⟨e, he⟩ := contains_iff.mp hc
  exact ⟨e.object, object?_eq_some.mpr ⟨e, he, rfl⟩⟩

lemma get_eq_ok_iff : h.get id = .ok o ↔ h.object? id = some o := by
  rw [get_eq_ok, object?_eq_some]

lemma object?_alloc_or {o' : HeapObject H} (ho : (h.alloc o).2.object? id = some o') :
    o' = o ∨ h.object? id = some o' := by
  obtain ⟨e, he, rfl⟩ := object?_eq_some.mp ho
  rcases entry?_alloc_or he with rfl | hold
  · exact .inl rfl
  · exact .inr (object?_eq_some.mpr ⟨e, hold, rfl⟩)

lemma object?_modifyObject {x : ObjectId} {f : HeapObject H → HeapObject H} :
    (h.modifyObject id f).object? x = if x = id then (h.object? x).map f else h.object? x := by
  unfold object?
  rw [entry?_modifyObject]
  split
  · cases h.entry? x <;> rfl
  · rfl

lemma names_alloc : (h.alloc o).2.names = h.names := by
  unfold alloc
  cases h.free <;> rfl

/-- Heaps with the same object under a handle. -/
lemma get_congr {h' : Heap H} (ho : h'.object? id = h.object? id) : h'.get id = h.get id := by
  simp only [object?] at ho
  unfold get
  cases he : h.entry? id <;> cases he' : entry? h' id <;> simp_all

lemma get_eq_error (he : h.get id = .error e) : h.contains id = false := by
  rw [← entry?_eq_none_iff]
  unfold get at he
  cases hx : h.entry? id with
  | none => rfl
  | some x => simp [hx, pure, Except.pure] at he

/-- A handle is reported as dead only if it is. -/
lemma plain_get : PlainIf (h.contains id = true) (h.get id) := by
  intro e he
  have hdead := get_eq_error he
  unfold get at he
  split at he
  · cases he
  · cases he
    exact ⟨rfl, fun hc => by simp [hdead] at hc⟩

/-! ## Reading objects of a kind -/

section Take

variable {take : HeapObject H → Except EvalError α}

/-- Taking objects of one kind off their handles. -/
lemma get_bind_eq_ok {a : α} {make : α → HeapObject H}
    (htake : ∀ o a, take o = .ok a ↔ o = make a) :
    (h.get id >>= take) = .ok a ↔ h.object? id = some (make a) := by
  cases hg : h.get id with
  | ok o =>
    have ho := get_eq_ok_iff.mp hg
    rw [ho]
    exact (htake o a).trans (by simp)
  | error x =>
    have hnone : h.object? id = none := by
      rw [object?, entry?_eq_none_iff.mpr (get_eq_error hg)]
      rfl
    simp [hnone, Bind.bind, Except.bind]

lemma plain_get_bind (htake : ∀ o, Plain (take o)) :
    PlainIf (h.contains id = true) (h.get id >>= take) :=
  plain_get.bind fun o _ => PlainIf.of_plain (htake o)

end Take

@[simp] lemma frame_eq_ok {f : Frame} : h.frame id = .ok f ↔ h.object? id = some (.frame f) :=
  get_bind_eq_ok fun o a => by cases o <;> simp [pure, Except.pure, fail_eq]

@[simp] lemma callable_eq_ok {c : Callable H} :
    h.callable id = .ok c ↔ h.object? id = some (.callable c) :=
  get_bind_eq_ok fun o a => by cases o <;> simp [pure, Except.pure, fail_eq]

@[simp] lemma node_eq_ok {n : Node H} : h.node id = .ok n ↔ h.object? id = some (.node n) :=
  get_bind_eq_ok fun o a => by cases o <;> simp [pure, Except.pure, fail_eq]

@[simp] lemma sequence_eq_ok {items : Array Value} :
    h.sequence id = .ok items ↔ h.object? id = some (.sequence items) :=
  get_bind_eq_ok fun o a => by cases o <;> simp [pure, Except.pure, fail_eq]

@[simp] lemma grid_eq_ok {g : Grid} : h.grid id = .ok g ↔ h.object? id = some (.grid g) :=
  get_bind_eq_ok fun o a => by cases o <;> simp [pure, Except.pure, fail_eq]

@[simp] lemma refValue_eq_ok {v : Value} : h.refValue id = .ok v ↔ h.object? id = some (.ref v) :=
  get_bind_eq_ok fun o a => by cases o <;> simp [pure, Except.pure, fail_eq]

lemma plain_frame : PlainIf (h.contains id = true) (h.frame id) :=
  plain_get_bind fun o => by cases o <;> first | exact .pure | exact .fail rfl

lemma plain_callable : PlainIf (h.contains id = true) (h.callable id) :=
  plain_get_bind fun o => by cases o <;> first | exact .pure | exact .fail rfl

lemma plain_node : PlainIf (h.contains id = true) (h.node id) :=
  plain_get_bind fun o => by cases o <;> first | exact .pure | exact .fail rfl

lemma plain_sequence : PlainIf (h.contains id = true) (h.sequence id) :=
  plain_get_bind fun o => by cases o <;> first | exact .pure | exact .fail rfl

lemma plain_grid : PlainIf (h.contains id = true) (h.grid id) :=
  plain_get_bind fun o => by cases o <;> first | exact .pure | exact .fail rfl

lemma plain_refValue : PlainIf (h.contains id = true) (h.refValue id) :=
  plain_get_bind fun o => by cases o <;> first | exact .pure | exact .fail rfl

/-! ## Frames around a frame -/

section Lineage

variable {x p : ObjectId}

lemma parent?_eq_some :
    h.parent? x = some p ↔ ∃ f, h.object? x = some (.frame f) ∧ f.parent = some p := by
  unfold parent?
  constructor
  · intro hp
    split at hp
    · next f hf => exact ⟨f, frame_eq_ok.mp hf, hp⟩
    · cases hp
  · rintro ⟨f, hf, hp⟩
    rw [frame_eq_ok.mpr hf]
    exact hp

/-- What goes over from frames to their parents holds of all frames around a frame. -/
lemma forall_lineageOf {P : ObjectId → Prop} (hparent : ∀ y p, h.parent? y = some p → P y → P p)
    {fuel : Nat} (hid : P id) (hx : x ∈ h.lineageOf fuel id) : P x := by
  induction fuel generalizing id with
  | zero =>
    rw [List.mem_singleton.mp hx]
    exact hid
  | succ fuel ih =>
    unfold lineageOf at hx
    split at hx
    · next parent hp =>
      rcases List.mem_cons.mp hx with rfl | hx
      · exact hid
      · exact ih (hparent id parent hp hid) hx
    · rw [List.mem_singleton.mp hx]
      exact hid

lemma forall_lineage {P : ObjectId → Prop} (hparent : ∀ y p, h.parent? y = some p → P y → P p)
    (hid : P id) (hx : x ∈ h.lineage id) : P x := forall_lineageOf hparent hid hx

/-- The frame that `this` means is among those that are asked. -/
lemma mem_of_nearestThis {ids : List ObjectId} (hr : h.nearestThis ids = .ok x) : x ∈ ids := by
  induction ids with
  | nil => cases hr
  | cons y rest ih =>
    obtain ⟨f, -, hr⟩ := bind_eq_ok.mp hr
    split at hr
    · cases hr
      exact List.mem_cons_self
    · exact List.mem_cons_of_mem _ (ih hr)

end Lineage

end Heap
end Patchbay
