import Patchbay.Proofs.Lifting.Sketches

/-!
# Heaps that only get new nodes

Building operator nodes stores new nodes and connects them; older objects get new targets at most.
New objects get handles in an order that is fixed beforehand, so the handles of the nodes that an
evaluation makes are known from the number of these nodes.
-/

namespace Patchbay

variable {H : HostTypes}

/-! ## The order of new handles -/

namespace Heap

variable {h h' h'' : Heap H} {id x : ObjectId} {o : HeapObject H} {n : Node H} {i k m : Nat}
  {input output : PortRef} {moved : ObjectId → Prop}

/-- The handles that the next objects get, in the order in which they are stored. -/
def nextIds : Nat → Heap H → List ObjectId
  | 0, _ => []
  | k + 1, h => h.nextId :: nextIds k (h.alloc (.ref .absent)).2

lemma size_le_of_stampAt (hstamp : ∀ i, h'.stampAt i = h.stampAt i) :
    h'.slots.size ≤ h.slots.size := by
  by_contra hlt
  have hsome : (h'.stampAt h.slots.size).isSome := by
    simp [stampAt, Array.getElem?_eq_getElem (Nat.lt_of_not_le hlt)]
  rw [hstamp] at hsome
  simp [stampAt] at hsome

lemma nextId_congr (hfree : h'.free = h.free) (hstamp : ∀ i, h'.stampAt i = h.stampAt i) :
    h'.nextId = h.nextId := by
  have hsize : h'.slots.size = h.slots.size :=
    Nat.le_antisymm (size_le_of_stampAt hstamp) (size_le_of_stampAt fun i => (hstamp i).symm)
  unfold nextId
  rw [hfree]
  cases h.free with
  | nil => simp only [hsize]
  | cons i rest => simp only [hstamp]

/-- The order of new handles depends on the slots only. -/
lemma nextIds_congr (ht : Tidy h) (ht' : Tidy h') (hfree : h'.free = h.free)
    (hstamp : ∀ i, h'.stampAt i = h.stampAt i) (k : Nat) : h'.nextIds k = h.nextIds k := by
  induction k generalizing h h' with
  | zero => rfl
  | succ k ih =>
    have hid := nextId_congr hfree hstamp
    unfold nextIds
    rw [hid]
    congr 1
    refine ih (ht.alloc _) (ht'.alloc _) ?_ fun i => ?_
    · rw [free_alloc, free_alloc, hfree]
    · rw [stampAt_alloc ht, stampAt_alloc ht', hid, hstamp]

lemma nextIds_alloc (ht : Tidy h) (k : Nat) :
    h.nextIds (k + 1) = h.nextId :: (h.alloc o).2.nextIds k := by
  rw [nextIds]
  congr 1
  refine nextIds_congr (ht.alloc _) (ht.alloc _) ?_ (fun i => ?_) k
  · rw [free_alloc, free_alloc]
  · rw [stampAt_alloc ht, stampAt_alloc ht]

/-! ## Growing -/

/-- `h'` is `h` with `k` new objects; the old ones are there in sketch and have sent nothing new. -/
structure Grows (k : Nat) (h h' : Heap H) : Prop where
  keeps : Keeps noNode h h'
  tidy : Tidy h'
  size : h.slots.size ≤ h'.slots.size
  next : ∀ m, h.nextIds (k + m) = h.nextIds k ++ h'.nextIds m
  contains : ∀ x, h'.contains x = true ↔ x ∈ h.nextIds k ∨ h.contains x = true
  fresh : ∀ x ∈ h.nextIds k, h.contains x = false

namespace Grows

lemma refl (ht : Tidy h) : Grows 0 h h where
  keeps := .refl h
  tidy := ht
  size := Nat.le_refl _
  next m := by
    rw [Nat.zero_add]
    rfl
  contains x := by simp [nextIds]
  fresh x hx := by cases hx

lemma trans (h1 : Grows k h h') (h2 : Grows m h' h'') : Grows (k + m) h h'' where
  keeps := (h1.keeps.trans h2.keeps).mono fun x _ hx => hx.elim id id
  tidy := h2.tidy
  size := h1.size.trans h2.size
  next j := by rw [Nat.add_assoc, h1.next, h2.next, h1.next, List.append_assoc]
  contains x := by
    rw [h2.contains, h1.contains, h1.next, List.mem_append]
    tauto
  fresh x hx := by
    rw [h1.next, List.mem_append] at hx
    rcases hx with hfirst | hsecond
    · exact h1.fresh x hfirst
    · have hnot := h2.fresh x hsecond
      rw [← Bool.not_eq_true, h1.contains, not_or, Bool.not_eq_true] at hnot
      exact hnot.2

/-- Changes in place of objects that came after `h`. -/
lemma touched (hg : Grows k h h') {R : HeapObject H → HeapObject H → Prop} (ht : Touched R h' h'')
    (hk : Keeps noNode h h'') : Grows k h h'' where
  keeps := hk
  tidy := hg.tidy.congr (fun _ => ht.contains) ht.stamp ht.free ht.live
  size := hg.size.trans (size_le_of_stampAt fun i => (ht.stamp i).symm)
  next m := by
    rw [hg.next, nextIds_congr hg.tidy (hg.tidy.congr (fun _ => ht.contains) ht.stamp
      ht.free ht.live) ht.free ht.stamp]
  contains x := by rw [ht.contains, hg.contains]
  fresh := hg.fresh

end Grows

lemma sketch?_alloc (ht : Tidy h) :
    (h.alloc o).2.sketch? x = if x = h.nextId then some o.sketch else h.sketch? x := by
  unfold sketch?
  rw [object?_alloc ht]
  split <;> rfl

lemma sentAt_alloc (ht : Tidy h) :
    (h.alloc o).2.sentAt x i = if x = h.nextId then o.sentAt i else h.sentAt x i := by
  unfold sentAt
  rw [object?_alloc ht]
  split <;> rfl

lemma size_alloc : h.slots.size ≤ (h.alloc o).2.slots.size := by
  unfold alloc
  cases h.free with
  | nil => simp
  | cons i rest => simp

lemma grows_alloc (ht : Tidy h) : Grows 1 h (h.alloc o).2 where
  keeps :=
    { names := names_alloc
      sketch := fun x o' ho' => by
        rw [sketch?_alloc ht, if_neg (ne_nextId ht (contains_iff_sketch.mpr ⟨o', ho'⟩)), ho']
      sent := fun x hc _ i => by rw [sentAt_alloc ht, if_neg (ne_nextId ht hc)] }
  tidy := ht.alloc o
  size := size_alloc
  next m := by
    rw [Nat.add_comm, nextIds_alloc ht]
    rfl
  contains x := by
    rw [contains_alloc ht]
    simp [nextIds]
  fresh x hx := by
    rw [List.mem_singleton.mp hx]
    exact contains_nextId ht

/-! ## Connecting a new node -/

lemma sketch_outputs {g : OutputPort → OutputPort} (hg : ∀ p, (g p).name = p.name) :
    (HeapObject.node { n with outputs := n.outputs.modify i g }).sketch =
    (HeapObject.node n).sketch := by
  simp only [HeapObject.sketch, HeapObject.node.injEq, Node.mk.injEq, true_and, and_true]
  ext j : 1
  · simp
  · simp only [Array.getElem_map, Array.getElem_modify]
    split <;> simp [hg]

lemma sentAt_outputs {g : OutputPort → OutputPort} (hg : ∀ p, (g p).value = p.value) {j : Nat} :
    (HeapObject.node { n with outputs := n.outputs.modify i g }).sentAt j =
      (HeapObject.node n).sentAt j := by
  simp only [HeapObject.sentAt, Array.getElem?_modify]
  split
  · cases n.outputs[j]? with
    | none => rfl
    | some p => exact hg p
  · rfl

lemma object?_modifyNode {f : Node H → Node H} :
    (h.modifyNode id f).object? x =
      if x = id then (h.object? x).map fun
        | .node n => .node (f n)
        | other => other
      else h.object? x := object?_modifyObject

lemma sentAt_modifyTargets {id : ObjectId} {j : Nat} (g : Array PortRef → Array PortRef) :
    (h.modifyNode id fun n =>
      { n with outputs := n.outputs.modify j fun p => { p with targets := g p.targets } }).sentAt x
        i = h.sentAt x i := by
  unfold sentAt
  rw [object?_modifyNode]
  split
  · cases h.object? x with
    | none => rfl
    | some o =>
      cases o with
      | node n =>
        exact sentAt_outputs (g := fun p => { p with targets := g p.targets }) fun _ => rfl
      | _ => rfl
  · rfl

lemma sentAt_setSource {source : Option PortRef} :
    (h.setSource input source).sentAt x i = h.sentAt x i := by
  unfold sentAt setSource
  rw [object?_modifyNode]
  split
  · cases h.object? x with
    | none => rfl
    | some o => cases o <;> rfl
  · rfl

lemma sentAt_plug : (h.plug input output).sentAt x i = h.sentAt x i :=
  (sentAt_modifyTargets fun targets => targets.push input).trans sentAt_setSource

namespace Keeps

/-- What is seen of the old objects may come from a further heap. -/
lemma congr (hk : Keeps moved h h') (hnames : h''.names = h'.names)
    (hsketch : ∀ x, h.contains x = true → h''.sketch? x = h'.sketch? x)
    (hsent : ∀ x i, h''.sentAt x i = h'.sentAt x i) : Keeps moved h h'' where
  names := hnames.trans hk.names
  sketch x o ho := by rw [hsketch x (contains_iff_sketch.mpr ⟨o, ho⟩), hk.sketch x o ho]
  sent x hc hm i := by rw [hsent, hk.sent x hc hm]

lemma objects (hk : Keeps moved h h') (hnames : h''.names = h'.names)
    (hobj : ∀ x, h''.object? x = h'.object? x) : Keeps moved h h'' :=
  hk.congr hnames (fun x _ => by rw [sketch?, hobj, sketch?]) fun x i => by
    rw [sentAt, hobj, sentAt]

/-- Targets are no part of what is seen. -/
lemma targets (hk : Keeps moved h h') (output : PortRef) (g : Array PortRef → Array PortRef) :
    Keeps moved h (h'.modifyNode output.node fun n =>
      { n with outputs := n.outputs.modify output.index.toNat fun p =>
          { p with targets := g p.targets } }) := by
  refine hk.congr rfl (fun x _ => ?_) fun _ _ => sentAt_modifyTargets g
  unfold sketch?
  rw [object?_modifyNode]
  split
  · cases h'.object? x with
    | none => rfl
    | some o =>
      cases o with
      | node n => exact congrArg some (sketch_outputs fun _ => rfl)
      | _ => rfl
  · rfl

/-- The sources of a new node are no part of what is seen of old objects. -/
lemma setSource (hk : Keeps moved h h') (hnew : h.contains input.node = false)
    (source : Option PortRef) : Keeps moved h (h'.setSource input source) := by
  refine hk.congr rfl (fun x hc => ?_) fun _ _ => sentAt_setSource
  have hne : x ≠ input.node := by
    rintro rfl
    rw [hnew] at hc
    cases hc
  rw [sketch?, Heap.setSource, object?_modifyNode, if_neg hne, sketch?]

lemma plug (hk : Keeps moved h h') (hnew : h.contains input.node = false) (output : PortRef) :
    Keeps moved h (h'.plug input output) :=
  (hk.setSource hnew (some output)).targets output fun targets => targets.push input

lemma unplug (hk : Keeps moved h h') (hnew : h.contains input.node = false) :
    Keeps moved h (h'.unplug input) := by
  unfold Heap.unplug
  cases h'.sourceAt input.node input.index.toNat with
  | none => exact hk
  | some source =>
    exact ((hk.setSource hnew none).targets source fun targets => targets.filter
      (· ≠ input)).objects rfl fun _ => object?_resetAge

end Keeps

/-- A connection of a new node changes nothing about older objects. -/
lemma Grows.plug (hg : Grows k h h') (hnew : h.contains input.node = false) (output : PortRef) :
    Grows k h (h'.plug input output) :=
  hg.touched rewired_plug (hg.keeps.plug hnew output)

lemma Grows.unplug (hg : Grows k h h') (hnew : h.contains input.node = false) :
    Grows k h (h'.unplug input) :=
  hg.touched rewired_unplug (hg.keeps.unplug hnew)

end Heap

/-! ## Sessions -/

/-- The handles of the nodes that were made between two sessions, in the order in which they were
made. Every node that an evaluation makes is counted. -/
def Session.created (s s' : Session H) : List ObjectId :=
  s.heap.nextIds (s'.nodesNamed - s.nodesNamed)

/-- All that happened between two sessions is that nodes were made and connected. -/
structure Session.Grew (s s' : Session H) : Prop where
  heap : s.heap.Grows (s'.nodesNamed - s.nodesNamed) s'.heap
  named : s.nodesNamed ≤ s'.nodesNamed
  loading : s'.loading = s.loading

namespace Session.Grew

variable {s s' s'' : Session H} {x : ObjectId}

lemma refl (ht : s.heap.Tidy) : Grew s s :=
  ⟨by rw [Nat.sub_self]; exact .refl ht, Nat.le_refl _, rfl⟩

lemma trans (h1 : Grew s s') (h2 : Grew s' s'') : Grew s s'' := by
  refine ⟨?_, h1.named.trans h2.named, h2.loading.trans h1.loading⟩
  have hsub : s''.nodesNamed - s.nodesNamed =
      (s'.nodesNamed - s.nodesNamed) + (s''.nodesNamed - s'.nodesNamed) := by
    have hn1 := h1.named
    have hn2 := h2.named
    omega
  rw [hsub]
  exact h1.heap.trans h2.heap

/-- What was made first comes first. -/
lemma created_trans (h1 : Grew s s') (h2 : Grew s' s'') :
    s.created s'' = s.created s' ++ s'.created s'' := by
  have hsub : s''.nodesNamed - s.nodesNamed =
      (s'.nodesNamed - s.nodesNamed) + (s''.nodesNamed - s'.nodesNamed) := by
    have hn1 := h1.named
    have hn2 := h2.named
    omega
  rw [created, hsub, h1.heap.next]
  rfl

lemma contains_created (hg : Grew s s') (hx : x ∈ s.created s') :
    s.heap.contains x = false ∧ s'.heap.contains x = true :=
  ⟨hg.heap.fresh x hx, (hg.heap.contains x).mpr (.inl hx)⟩

lemma mem_created (hg : Grew s s') (hold : s.heap.contains x = false)
    (hnew : s'.heap.contains x = true) : x ∈ s.created s' := by
  refine ((hg.heap.contains x).mp hnew).elim id fun hc => ?_
  rw [hc] at hold
  cases hold

end Session.Grew
end Patchbay
