import Patchbay.Proofs.Heap.Collection

/-!
# Connections

A connection is told by both of its ends, as long as both nodes are live. A collection takes the
nodes that it reclaims off the wires of the survivors, but taking a node out by hand tells nobody.
Where that never happens, no wire leads to a node that is gone.
-/

namespace Patchbay

variable {H : HostTypes}

/-- Whether an operation on `h` takes no node out by hand. -/
def Operation.SparesNodes (h : Heap H) : Operation H → Prop
  | .remove id => ∀ n, h.object? id ≠ some (.node n)
  | _ => True

namespace Heap

variable {h h' : Heap H} {id x : ObjectId} {i : Nat} {host : KernelHost H} {freed : Nat → Nat}
  {op : Operation H} {o : HeapObject H} {s t : PortRef}

/-- No input has its source at a node that is gone, and no output has a target there. -/
structure NoLooseEnds (h : Heap H) : Prop where
  source : ∀ id i s, h.sourceAt id i = some s → h.contains s.node = true
  target : ∀ id i, ∀ t ∈ h.targetsAt id i, h.contains t.node = true

/-! ## Ends are at nodes -/

lemma hasInput_of_sourceAt {input : PortRef}
    (hs : h.sourceAt input.node input.index.toNat = some s) : h.HasInput input := by
  obtain ⟨obj, hobj, hsource⟩ := Option.bind_eq_some_iff.mp hs
  cases obj with
  | node n =>
    obtain ⟨p, hp, -⟩ := Option.bind_eq_some_iff.mp hsource
    exact ⟨n, hobj, (Array.getElem?_eq_some_iff.mp hp).1⟩
  | _ => simp [HeapObject.sourceAt] at hsource

lemma node_of_mem_targetsAt (ht : t ∈ h.targetsAt id i) : ∃ n, h.object? id = some (.node n) := by
  obtain ⟨obj, hobj⟩ := exists_object? (contains_of_mem_targetsAt ht)
  cases obj with
  | node n => exact ⟨n, hobj⟩
  | _ => simp [targetsAt, hobj, HeapObject.targetsAt] at ht

/-- A source is a node: it lists the input. -/
lemma Wired.node_of_source (hw : Wired h) (hs : h.sourceAt id i = some s)
    (hc : h.contains s.node = true) : ∃ n, h.object? s.node = some (.node n) := by
  obtain ⟨k, -, hcount⟩ := hw.listed id i s hs hc
  have hmem : 0 < (h.targetsAt s.node s.index.toNat).count ⟨id, k⟩ := by omega
  exact node_of_mem_targetsAt (List.count_pos_iff.mp hmem)

/-- A target is a node: it has an input. -/
lemma Wired.node_of_target (hw : Wired h) (ht : t ∈ h.targetsAt id i)
    (hc : h.contains t.node = true) : ∃ n, h.object? t.node = some (.node n) := by
  obtain ⟨k, -, hs⟩ := hw.answered id i t ht hc
  obtain ⟨n, hn, -⟩ := hasInput_of_sourceAt hs
  exact ⟨n, hn⟩

/-! ## Steps -/

namespace NoLooseEnds

lemma new (names : Interner) (threshold : Nat) :
    NoLooseEnds (Heap.new names threshold : Heap H) := by
  constructor <;> simp [sourceAt, targetsAt, object?, entry?, Heap.new]

lemma reconnected (hl : NoLooseEnds h) (hr : Reconnected h h') : NoLooseEnds h' where
  source id i s hs := by
    rw [hr.slots.contains]
    exact (hr.source id i s hs).elim (hl.source id i s) fun hc => hc
  target id i t ht := by
    rw [hr.slots.contains]
    exact (hr.target id i t ht).elim (hl.target id i t) fun hc => hc

lemma alloc (hl : NoLooseEnds h) (ht : Tidy h) (ho : o.Unwired) : NoLooseEnds (h.alloc o).2 := by
  constructor
  · intro id i s hs
    rw [sourceAt, object?_alloc ht] at hs
    split at hs
    · simp [(ho i).1] at hs
    · exact (contains_alloc ht).mpr (.inr (hl.source id i s hs))
  · intro id i t hmem
    rw [targetsAt, object?_alloc ht] at hmem
    split at hmem
    · simp [(ho i).2] at hmem
    · exact (contains_alloc ht).mpr (.inr (hl.target id i t hmem))

/-- Nothing is connected to an object that is no node, so it may be taken out. -/
lemma without (hl : NoLooseEnds h) (hw : Wired h) (ho : h.object? id = some o)
    (hnode : ∀ n, o ≠ .node n) : NoLooseEnds (h.without id o) := by
  have hrec : Reclaimed [id.index] h (h.without id o) := reclaimed_without ho
  have hkept : ∀ y, h.contains y = true → (∃ n, h.object? y = some (.node n)) →
      (h.without id o).contains y = true := by
    rintro y hc ⟨n, hn⟩
    refine (hrec.contains y).mpr ⟨hc, fun hmem => ?_⟩
    have hy : y = id := eq_of_contains hc (contains_of_object? ho) (List.mem_singleton.mp hmem)
    rw [hy, ho] at hn
    exact hnode n (Option.some.inj hn)
  constructor
  · intro x i s hs
    rw [hrec.source x i (contains_of_sourceAt hs)] at hs
    have hc := hl.source x i s hs
    exact hkept _ hc (hw.node_of_source hs hc)
  · intro x i t hmem
    obtain ⟨keep, htargets, -⟩ := hrec.targets x i (contains_of_mem_targetsAt hmem)
    rw [htargets] at hmem
    have hmem' := List.mem_of_mem_filter hmem
    have hc := hl.target x i t hmem'
    exact hkept _ hc (hw.node_of_target hmem' hc)

/-- A collection keeps the sources of what it keeps, and drops the targets that it reclaims. -/
lemma collect (hl : NoLooseEnds h) (hw : Wired h) (bound : UInt8) (extra : List ObjectId) :
    NoLooseEnds (h.collect bound extra).2 := by
  have hcol := collected_collect hw bound extra
  constructor
  · intro id i s hs
    have hc := contains_of_sourceAt hs
    rw [(reclaimed_collect hw bound extra).source id i hc] at hs
    obtain ⟨obj, hobj, hsource⟩ := Option.bind_eq_some_iff.mp hs
    -- a source is a child, so a survivor keeps it alive
    have hchild : s.node ∈ obj.children :=
      HeapObject.mem_children.mpr (.inr (.inr ⟨i, s, hsource, rfl⟩))
    exact (hcol.survives _).mpr
      (.child ((hcol.survives id).mp hc) hobj hchild (hl.source id i s hs))
  · intro id i t hmem
    obtain ⟨obj', hobj'⟩ := exists_object? (contains_of_mem_targetsAt hmem)
    obtain ⟨obj, hobj, rfl⟩ := hcol.object hobj'
    -- the targets that are gone have been dropped
    rw [targetsAt, hobj', Option.map_some, Option.getD_some, HeapObject.targetsAt_dropTargets,
      List.mem_filter, goneIn] at hmem
    have hc : h.contains t.node = true := hl.target id i t (by simpa [targetsAt, hobj] using hmem.1)
    simpa [hc] using hmem.2

lemma effect (hl : NoLooseEnds h) (hi : Intact h freed) (ha : op.StoresUnwired)
    (hn : op.SparesNodes h) (he : Effect op h h') : NoLooseEnds h' := by
  rcases he.wires hi.wired with hr | ⟨o, rfl, rfl⟩ | ⟨id, o, rfl, ho, rfl⟩ | ⟨bound, extra, -, rfl⟩
  · exact hl.reconnected hr
  · exact hl.alloc hi.tidy ha
  · refine hl.without hi.wired ho fun n hnode => ?_
    exact hn n (hnode ▸ ho)
  · exact hl.collect hi.wired bound extra

end NoLooseEnds

/-! ## Runs -/

/-- A run under a strict rule is a run under a lax one. -/
lemma Reached.mono {Allowed Allowed' : Heap H → Operation H → Prop}
    (hr : Reached host Allowed h freed) (hsub : ∀ h op, Allowed h op → Allowed' h op) :
    Reached host Allowed' h freed := by
  induction hr with
  | new names threshold => exact .new names threshold
  | step _ ha ih => exact ih.step (hsub _ _ ha)

lemma Reached.noLooseEnds
    (hr : Reached host (fun h op => op.StoresUnwired ∧ op.SparesNodes h) h freed)
    (hfreed : ∀ i, freed i < 2 ^ 32) : NoLooseEnds h := by
  induction hr with
  | new names threshold => exact .new names threshold
  | step hr ha ih =>
    have hbefore := fun i => Nat.lt_of_le_of_lt (Nat.le_add_right _ _) (hfreed i)
    have hi := (hr.mono fun _ _ ha => ha.1).intact hbefore
    exact (ih hbefore).effect hi ha.1 ha.2 (effect_after host _ _)

/-- Every input whose source is live is listed there exactly once. Every live target of an output is
an input whose source is the output. If no node was taken out by hand, all ends are at live
nodes. -/
theorem connections_symmetric (hr : Reached host (fun _ op => op.StoresUnwired) h freed)
    (hfreed : ∀ i, freed i < 2 ^ 32) :
    (∀ id i o, h.sourceAt id i = some o → h.contains o.node = true →
      ∃ k : UInt16, k.toNat = i ∧ (h.targetsAt o.node o.index.toNat).count ⟨id, k⟩ = 1) ∧
    (∀ id i t, t ∈ h.targetsAt id i → h.contains t.node = true →
      h.HasInput t ∧ ∃ k : UInt16, k.toNat = i ∧ h.sourceAt t.node t.index.toNat = some ⟨id, k⟩) ∧
    (Reached host (fun h op => op.StoresUnwired ∧ op.SparesNodes h) h freed → NoLooseEnds h) := by
  have hw : Wired h := (hr.intact hfreed).wired
  refine ⟨hw.listed, fun id i t ht hc => ?_, fun hspares => hspares.noLooseEnds hfreed⟩
  obtain ⟨k, hk, hs⟩ := hw.answered id i t ht hc
  exact ⟨hasInput_of_sourceAt hs, k, hk, hs⟩

/-- Two inputs at one output; then one of them moves to another output and a collection takes its
node. -/
def rewiringSteps : List (Operation Stock.types) :=
  [.alloc (.node (.constant "a" (.text "a"))), .alloc (.node (.constant "b" (.text "b"))),
    .alloc (.node (.unaryOp "u" .not)), .alloc (.node (.unaryOp "v" .not)),
    .connect ⟨⟨2, 0⟩, 0⟩ ⟨⟨0, 0⟩, 0⟩, .connect ⟨⟨3, 0⟩, 0⟩ ⟨⟨0, 0⟩, 0⟩, .pin ⟨1, 0⟩, .pin ⟨2, 0⟩,
    .connect ⟨⟨3, 0⟩, 0⟩ ⟨⟨1, 0⟩, 0⟩, .collect 255 []]

def rewiredHeap : Heap Stock.types :=
  rewiringSteps.foldl (fun h op => op.after Stock.kernels h) (Heap.new .new 1)

theorem connections_symmetric_sample :
    rewiredHeap.sourceAt ⟨2, 0⟩ 0 = some ⟨⟨0, 0⟩, 0⟩ ∧
      (rewiredHeap.targetsAt ⟨0, 0⟩ 0).count ⟨⟨2, 0⟩, 0⟩ = 1 ∧ NoLooseEnds rewiredHeap := by
  have hallowed : ∀ op ∈ rewiringSteps, ∀ h, op.StoresUnwired ∧ op.SparesNodes h := by
    intro op hop h
    simp only [rewiringSteps, List.mem_cons, List.not_mem_nil, or_false] at hop
    rcases hop with rfl | rfl | rfl | rfl | rfl | rfl | rfl | rfl | rfl | rfl
    · exact ⟨HeapObject.unwired_constant, trivial⟩
    · exact ⟨HeapObject.unwired_constant, trivial⟩
    · exact ⟨HeapObject.unwired_unaryOp, trivial⟩
    · exact ⟨HeapObject.unwired_unaryOp, trivial⟩
    all_goals exact ⟨trivial, trivial⟩
  have hnew : Reached Stock.kernels (fun h op => op.StoresUnwired ∧ op.SparesNodes h) _ _ :=
    .new .new 1
  -- ten steps free at most ten slots, far from the bound
  obtain ⟨freed, hr, hle⟩ := hnew.sequence rewiringSteps hallowed
  have hfreed : ∀ i, freed i < 2 ^ 32 := by
    intro i
    have := hle i
    simp [rewiringSteps] at this
    omega
  obtain ⟨hlisted, -, hspares⟩ := connections_symmetric (hr.mono fun _ _ ha => ha.1) hfreed
  have hsource : rewiredHeap.sourceAt ⟨2, 0⟩ 0 = some ⟨⟨0, 0⟩, 0⟩ := by decide +kernel
  obtain ⟨k, hk, hcount⟩ := hlisted _ _ _ hsource (by decide +kernel)
  obtain rfl : k = 0 := UInt16.toNat_inj.mp hk
  exact ⟨hsource, hcount, hspares hr⟩

end Heap
end Patchbay
