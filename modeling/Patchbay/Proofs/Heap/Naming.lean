import Patchbay.Proofs.Heap.Locality

/-!
# Names on the heap

A heap is well named if its table of names is sound and all its frames are well named in it. An
empty heap with a sound table is, and every operation keeps it so that binds names of the table
only: most operations change neither names nor frames, and the others add names or bindings one at a
time.
-/

namespace Patchbay

variable {H : HostTypes} {α β : Type}

/-- Whether an operation binds names of the heap only, in the frame that it stores or by itself. -/
def Operation.NamesFrom (h : Heap H) : Operation H → Prop
  | alloc object => ∀ f, object = .frame f → f.WellNamed h.names
  | define _ name _ => name.slot < h.names.size
  | bind _ name _ => name.slot < h.names.size
  | _ => True

namespace Heap

variable {h h' h'' : Heap H} {id x : ObjectId} {host : KernelHost H} {op : Operation H} {v : Value}
  {o : HeapObject H} {name : Name} {f f' : Frame}

/-- The names lead back to their texts, and the frames bind names of the table. -/
structure WellNamed (h : Heap H) : Prop where
  names : h.names.Sound
  frames : ∀ id f, h.object? id = some (.frame f) → f.WellNamed h.names

/-! ## Operations that touch neither names nor frames -/

/-- The names stay, and no frame is new or changed. -/
structure KeepsFrames (h h' : Heap H) : Prop where
  names : h'.names = h.names
  frames : ∀ id f, h'.object? id = some (.frame f) → h.object? id = some (.frame f)

namespace KeepsFrames

lemma refl (h : Heap H) : KeepsFrames h h := ⟨rfl, fun _ _ => id⟩

lemma trans (h1 : KeepsFrames h h') (h2 : KeepsFrames h' h'') : KeepsFrames h h'' :=
  ⟨h2.names.trans h1.names, fun id f hf => h1.frames id f (h2.frames id f hf)⟩

lemma wellNamed (hk : KeepsFrames h h') (hw : h.WellNamed) : h'.WellNamed := by
  refine ⟨hk.names ▸ hw.names, fun id f hf => ?_⟩
  rw [hk.names]
  exact hw.frames id f (hk.frames id f hf)

lemma modifyEntry {g : Entry H → Entry H} (hg : ∀ e, (g e).object = e.object) :
    KeepsFrames h (h.modifyEntry id g) :=
  ⟨rfl, fun x f hf => by rwa [object?_modifyEntry hg] at hf⟩

lemma release : KeepsFrames h (h.release v) := by
  unfold Heap.release
  split
  · exact modifyEntry fun _ => rfl
  · exact refl h

/-- An object that is no frame makes way for another one. -/
lemma put (hkind : o.kind ≠ .frame) : KeepsFrames h (h.modifyObject id fun _ => o) := by
  refine ⟨rfl, fun x f hf => ?_⟩
  rw [object?_modifyObject] at hf
  split at hf
  · obtain ⟨_, -, rfl⟩ := Option.map_eq_some_iff.mp hf
    exact absurd rfl hkind
  · exact hf

lemma modifyNode {g : Node H → Node H} : KeepsFrames h (h.modifyNode id g) := by
  refine ⟨rfl, fun x f hf => ?_⟩
  rw [Heap.modifyNode, object?_modifyObject] at hf
  split at hf
  · obtain ⟨o, ho, heq⟩ := Option.map_eq_some_iff.mp hf
    cases o with
    | node n => cases heq
    | _ => exact ho.trans (congrArg some heq)
  · exact hf

/-- What is kept at every step is kept all along. -/
lemma foldl {γ : Type} {step : Heap H → γ → Heap H} (hstep : ∀ h a, KeepsFrames h (step h a))
    (as : List γ) : KeepsFrames h (as.foldl step h) :=
  List.foldlRecOn (motive := fun g : Heap H => KeepsFrames h g) _ _ (refl h)
    fun g hg a _ => hg.trans (hstep g a)

lemma storeOutputs {values : List Value} : KeepsFrames h (h.storeOutputs id values).2 := by
  refine List.foldlRecOn (motive := fun acc : List Value × Heap H => KeepsFrames h acc.2) _ _
    (refl h) ?_
  rintro ⟨olds, h'⟩ hk ⟨i, w⟩ -
  dsimp only at hk ⊢
  split
  · exact hk.trans modifyNode
  · exact hk

lemma unplug {input : PortRef} : KeepsFrames h (h.unplug input) := by
  unfold Heap.unplug
  split
  · exact refl h
  · exact (modifyNode.trans modifyNode).trans (modifyEntry fun _ => rfl)

lemma plug {input output : PortRef} : KeepsFrames h (h.plug input output) :=
  modifyNode.trans modifyNode

lemma resetAges (ids : List ObjectId) : KeepsFrames h (ids.foldl resetAge h) := by
  refine foldl (fun g x => ?_) ids
  exact modifyEntry fun _ => rfl

lemma unlinkInputs {n : Node H} : KeepsFrames h (h.unlinkInputs id n) := by
  refine foldl (fun g port => ?_) _
  dsimp only
  split
  · exact modifyNode
  · exact refl g

lemma unlinkOutputs {n : Node H} : KeepsFrames h (h.unlinkOutputs n) := by
  rw [Heap.unlinkOutputs, ← Array.foldl_toList]
  refine foldl (fun g port => ?_) _
  rw [← Array.foldl_toList]
  exact foldl (fun _ _ => modifyNode) _

lemma clearEdges : KeepsFrames h (h.clearEdges id o) := by
  unfold Heap.clearEdges
  cases o with
  | node n => exact ((resetAges _).trans unlinkInputs).trans unlinkOutputs
  | _ => exact resetAges _

lemma vacate {i : Nat} : KeepsFrames h (h.vacate i) := by
  refine ⟨rfl, fun x f hf => ?_⟩
  rw [object?, entry?_vacate] at hf
  split at hf
  · cases hf
  · exact hf

lemma without : KeepsFrames h (h.without id o) :=
  have hlive : KeepsFrames (h.vacate id.index) { h.vacate id.index with live := h.live - 1 } :=
    ⟨rfl, fun _ _ hf => hf⟩
  (vacate.trans hlive).trans (resetAges _)

lemma promote {i : Nat} : KeepsFrames h (h.promote i) :=
  ⟨rfl, fun _ _ hf => (object?_foldl_promote (List.nodup_singleton i)).symm.trans hf⟩

lemma collect {bound : UInt8} {extra : List ObjectId} :
    KeepsFrames h (h.collect bound extra).2 := by
  have hheld : KeepsFrames h { h with held := extra } := ⟨rfl, fun _ _ hf => hf⟩
  have hgrown : KeepsFrames h (h.grown bound extra) :=
    (hheld.trans (resetAges _)).trans (foldl (fun _ _ => promote) _)
  have hdetached : KeepsFrames h (h.detached bound extra) := by
    refine ⟨hgrown.names, fun x f hf => ?_⟩
    rw [object?_detached] at hf
    split at hf
    · exact hf
    · cases hf
  have hcleared : KeepsFrames h (h.cleared bound extra) :=
    hdetached.trans (foldl (fun _ _ => clearEdges) _)
  have hswept : KeepsFrames h (h.swept bound extra) := hcleared.trans (foldl (fun _ _ => vacate) _)
  exact ⟨hswept.names, hswept.frames⟩

end KeepsFrames

/-- The operation touches neither names nor frames, however it ends. -/
abbrev LeavesFrames (m : HeapM H α) (h : Heap H) : Prop :=
  m.Ends h (fun _ => KeepsFrames h) fun _ => KeepsFrames h

section Operations

open HeapM

lemma leavesFrames_read {look : Heap H → Except EvalError α} : LeavesFrames (read look) h :=
  ends_read.mpr ⟨fun _ _ => .refl h, fun _ _ => .refl h⟩

lemma leavesFrames_read_bind {look : Heap H → Except EvalError α} {g : α → HeapM H β}
    (hg : ∀ a, look h = .ok a → LeavesFrames (g a) h) : LeavesFrames (read look >>= g) h :=
  ends_read_bind hg fun _ _ => .refl h

lemma leavesFrames_pushElement : LeavesFrames (pushElement id v) h := by
  refine ends_check_bind (fun items hitems => ?_) fun _ _ => .refl h
  refine ⟨rfl, fun x f hf => ?_⟩
  rw [object?_modifyObject] at hf
  split at hf
  · obtain ⟨o, ho, heq⟩ := Option.map_eq_some_iff.mp hf
    cases o with
    | sequence items => cases heq
    | _ => exact ho.trans (congrArg some heq)
  · exact hf

lemma leavesFrames_setRef : LeavesFrames (setRef id v) h := by
  refine leavesFrames_read_bind fun _ _ => KeepsFrames.trans (.put ?_) .release
  exact nofun

lemma leavesFrames_setParam {param : PortRef} : LeavesFrames (setParam host param v) h := by
  refine leavesFrames_read_bind fun n _ => ?_
  split
  · exact leavesFrames_read
  · exact leavesFrames_read_bind fun _ _ => KeepsFrames.modifyNode.trans .release

lemma leavesFrames_setParamNamed {port : String} :
    LeavesFrames (setParamNamed host id port v) h := by
  refine leavesFrames_read_bind fun n _ => ?_
  split
  · exact leavesFrames_setParam
  · exact KeepsFrames.refl h

lemma leavesFrames_tickNode : LeavesFrames (tickNode host id) h := by
  refine ends_tickNode (fun _ _ => .refl h) (fun _ _ _ _ => .refl h)
    fun _ n _ _ kernel _ _ _ _ => ?_
  have hkernel : KeepsFrames h (h.setKernel id (some kernel)) := .modifyNode
  refine ends_read_bind (fun values _ => ?_) fun _ _ => hkernel
  unfold publish
  split
  · exact hkernel
  · exact (hkernel.trans .storeOutputs).trans (.foldl (fun _ _ => .release) _)

end Operations

/-! ## Operations that write to frames -/

namespace WellNamed

lemma new {names : Interner} (hn : names.Sound) (threshold : Nat) :
    (Heap.new names threshold : Heap H).WellNamed :=
  ⟨hn, fun id f hf => by simp [object?, entry?, Heap.new] at hf⟩

lemma putFrame (hw : h.WellNamed) (hf : f.WellNamed h.names) : (h.putFrame id f).WellNamed := by
  refine ⟨hw.names, fun x g hg => ?_⟩
  rw [Heap.putFrame, object?_modifyObject] at hg
  split at hg
  · obtain ⟨_, -, heq⟩ := Option.map_eq_some_iff.mp hg
    cases heq
    exact hf
  · exact hw.frames x g hg

lemma alloc (hw : h.WellNamed) (ho : ∀ f, o = .frame f → f.WellNamed h.names) :
    (h.alloc o).2.WellNamed := by
  have hnames : (h.alloc o).2.names = h.names := names_alloc
  refine ⟨hnames ▸ hw.names, fun x f hf => ?_⟩
  rw [hnames]
  rcases object?_alloc_or hf with heq | hold
  · exact ho f heq.symm
  · exact hw.frames x f hold

/-- A text that gets a name leaves the frames as they are. -/
lemma internName (hw : h.WellNamed) (s : String) :
    ({ h with names := (h.names.intern s).2 } : Heap H).WellNamed :=
  ⟨hw.names.intern, fun x f hf => (hw.frames x f hf).mono Interner.size_le_intern⟩

end WellNamed

/-- The operation leaves a well-named heap with the same names, however it ends. -/
abbrev LeavesNamed (m : HeapM H α) (h : Heap H) : Prop :=
  m.Ends h (fun _ h' => h'.WellNamed ∧ h'.names = h.names) fun _ h' => h'.WellNamed

lemma named_define (hw : h.WellNamed) (hname : name.slot < h.names.size) :
    LeavesNamed (define id name v) h := by
  refine HeapM.ends_read_bind (fun f hf => ?_) fun _ _ => hw
  have hframe := hw.frames id f (frame_eq_ok.mp hf)
  split
  · next f' hins => exact ⟨hw.putFrame (hframe.insert hname hins), rfl⟩
  · exact HeapM.ends_read.mpr ⟨fun _ _ => ⟨hw, rfl⟩, fun _ _ => hw⟩

lemma named_assign (hw : h.WellNamed) : LeavesNamed (assign id name v) h := by
  refine HeapM.ends_read_bind (fun f hf => ?_) fun _ _ => hw
  have hframe := hw.frames id f (frame_eq_ok.mp hf)
  split
  · next old f' hrep =>
    have hrelease : KeepsFrames (h.putFrame id f') ((h.putFrame id f').release old) := .release
    exact ⟨hrelease.wellNamed (hw.putFrame (hframe.replace hrep)), hrelease.names⟩
  · exact ⟨hw, rfl⟩

lemma named_bind (hw : h.WellNamed) (hname : name.slot < h.names.size) :
    LeavesNamed (bind id name v) h := by
  refine HeapM.Ends.bind (named_assign hw) fun found h' hs => ?_
  split
  · exact hs
  · refine (named_define hs.1 (hs.2 ▸ hname)).mono (fun _ _ hd => ?_) fun _ _ hd => hd
    exact ⟨hd.1, hd.2.trans hs.2⟩

lemma wellNamed_setIndex {target : Value} {indices : List Value} (hw : h.WellNamed) :
    (setIndex target indices v).Ends h (fun _ h' => h'.WellNamed) fun _ h' => h'.WellNamed := by
  have hcell : ∀ id, (setRef id v).Ends h (fun _ h' => h'.WellNamed) fun _ h' => h'.WellNamed :=
    fun id => leavesFrames_setRef.mono (fun _ _ hk => hk.wellNamed hw) fun _ _ hk => hk.wellNamed hw
  refine ends_setIndex (fun id index i items old _ _ _ _ _ => ?_) (fun id coords g g' _ _ _ _ => ?_)
    (fun id key _ _ => ?_) (fun id _ _ => hcell id) fun _ _ => hw
  · refine (KeepsFrames.trans (.put ?_) .release).wellNamed hw
    exact nofun
  · refine (KeepsFrames.put ?_).wellNamed hw
    exact nofun
  · -- the key has its name in the table before the binding is written
    have hslot := (hw.names.intern).slot_lt (Interner.get?_intern (s := key))
    exact (named_bind (hw.internName key) hslot).mono (fun _ _ hb => hb.1) fun _ _ hb => hb

/-! ## Runs -/

/-- An operation keeps a heap well named. -/
theorem WellNamed.after (hw : h.WellNamed) (hop : op.NamesFrom h) :
    (op.after host h).WellNamed := by
  have hkeeps : LeavesFrames (op.run host) h → (op.after host h).WellNamed := fun hm =>
    (HeapM.Ends.leaves hm).wellNamed hw
  have hnames : LeavesNamed (op.run host) h → (op.after host h).WellNamed := fun hm =>
    HeapM.Ends.leaves (hm.mono (fun _ _ hs => hs.1) fun _ _ hs => hs)
  cases op with
  | alloc o => exact hw.alloc hop
  | remove id =>
    refine hkeeps (.discard (ends_remove.mono (fun o h' hr => ?_) fun _ h' he => ?_))
    · exact hr.2 ▸ .without
    · exact he.1 ▸ .refl h
  | define frame name value => exact hnames (named_define hw hop)
  | assign frame name value =>
    exact hnames (.discard ((named_assign hw).mono (fun _ _ hs => hs) fun _ _ hs => hs))
  | bind frame name value => exact hnames (named_bind hw hop)
  | pushElement sequence value => exact hkeeps leavesFrames_pushElement
  | setRef cell value => exact hkeeps leavesFrames_setRef
  | setIndex target indices value => exact HeapM.Ends.leaves (wellNamed_setIndex hw)
  | connect input output =>
    exact hkeeps (ends_connect_either (.refl h) fun _ _ => KeepsFrames.unplug.trans .plug)
  | disconnect input => exact hkeeps (ends_disconnect_either (.refl h) fun _ => .unplug)
  | setParam param value => exact hkeeps leavesFrames_setParam
  | setParamNamed node name value => exact hkeeps leavesFrames_setParamNamed
  | tick node => exact hkeeps leavesFrames_tickNode
  | pin id => exact hkeeps (ends_pin_either (.refl h) fun _ => .modifyEntry fun _ => rfl)
  | unpin id => exact hkeeps (.modifyEntry fun _ => rfl)
  | collect bound extra => exact hkeeps .collect
  | intern s => exact hw.internName s

/-- Operations that bind names of the heaps they come upon only. -/
def NamedRun (host : KernelHost H) : Heap H → List (Operation H) → Prop
  | _, [] => True
  | h, op :: rest => op.NamesFrom h ∧ NamedRun host (op.after host h) rest

/-- A run of operations keeps a heap well named. -/
theorem WellNamed.run {ops : List (Operation H)} (hw : h.WellNamed) (hops : NamedRun host h ops) :
    (ops.foldl (fun h op => op.after host h) h).WellNamed := by
  induction ops generalizing h with
  | nil => exact hw
  | cons op rest ih => exact ih (hw.after hops.1) hops.2

end Heap
end Patchbay
