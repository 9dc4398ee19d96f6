import Patchbay.Proofs.Evaluation.Builtins
import Patchbay.Proofs.Safety.References

/-!
# Sound heaps

A heap is sound if no stored reference dangles, its bookkeeping and its wires are in order, and the
host code in it is trusted. Every change that the language or a well-behaved host makes keeps a heap
sound, and so does every collection.
-/

namespace Patchbay

variable {H : HostTypes}

/-- Code of the host that the heap may refer to. -/
inductive HostCode (H : HostTypes) where
  | native (fn : H.Native)
  | creator (create : NodeRequest → Except EvalError (Node H))
  | kernel (state : H.Kernel)

/-- The host code that is taken to be well-behaved in a heap. It may rely on what it keeps alive by
pins of its own, except for frames: the language pins the frames that it enters and unpins them
again, and `unpinned` asks that the code stays well-behaved wherever it does so. -/
structure Trust (H : HostTypes) where
  holds : Heap H → HostCode H → Prop
  grown : ∀ {h h' : Heap H} {code}, h.Extends h' → holds h code → holds h' code
  unpinned : ∀ {h : Heap H} {code id}, h.HasKind .frame id → holds h code → holds (h.unpin id) code
  collected : ∀ {h : Heap H} {code} bound extra, h.Wired → holds h code →
    holds (h.collect bound extra).2 code

/-- Whether the body of a function is trusted. Scripts and builtins always are. -/
def Trust.body (T : Trust H) (h : Heap H) : CallableBody H → Prop
  | .native fn => T.holds h (.native fn)
  | .nodeCreator create => T.holds h (.creator create)
  | .script _ | .builtin _ => True

/-- The kernel states that are trusted in a heap. -/
abbrev Trust.kernel (T : Trust H) (h : Heap H) (state : H.Kernel) : Prop :=
  T.holds h (.kernel state)

lemma Trust.body_of_holds {T : Trust H} {h h' : Heap H}
    (hT : ∀ code, T.holds h code → T.holds h' code) {body : CallableBody H} (hb : T.body h body) :
    T.body h' body := by
  cases body with
  | native fn => exact hT _ hb
  | nodeCreator create => exact hT _ hb
  | script s => trivial
  | builtin b => trivial

namespace Heap

variable {T : Trust H} {h h' : Heap H} {id x : ObjectId} {o : HeapObject H} {input output : PortRef}

/-- Every reference that a live object stores leads to a live object of the right kind. -/
structure NoDangling (h : Heap H) : Prop where
  value : ∀ id o, h.object? id = some o → ∀ v ∈ o.values, v.ValidIn h
  scope : ∀ id o, h.object? id = some o → ∀ x, o.scope? = some x → h.HasKind .frame x
  source : ∀ id i p, h.sourceAt id i = some p → h.HasPort .output p
  target : ∀ id i, ∀ p ∈ h.targetsAt id i, h.HasPort .input p

/-- Nothing dangles, all is in order, and the host code in the heap is trusted. -/
structure Sound (T : Trust H) (h : Heap H) : Prop extends NoDangling h where
  tidy : Tidy h
  wired : Wired h
  body : ∀ id c, h.object? id = some (.callable c) → T.body h c.body
  kernel : ∀ id o, h.object? id = some o → ∀ k, o.hostKernel? = some k → T.kernel h k

/-- Whether an object may be stored in a heap. -/
structure Fits (T : Trust H) (h : Heap H) (o : HeapObject H) : Prop where
  unwired : o.Unwired
  value : ∀ v ∈ o.values, v.ValidIn h
  scope : ∀ x, o.scope? = some x → h.HasKind .frame x
  body : ∀ c, o.callable? = some c → T.body h c.body
  kernel : ∀ k, o.hostKernel? = some k → T.kernel h k

lemma fits_sequence {items : Array Value} (hv : ∀ v ∈ items, v.ValidIn h) :
    Fits T h (.sequence items) :=
  ⟨HeapObject.unwired_of_kind nofun, fun v hi => hv v (Array.mem_toList_iff.mp hi), nofun,
    nofun, nofun⟩

lemma fits_grid {g : Grid} : Fits T h (.grid g) :=
  ⟨HeapObject.unwired_of_kind nofun, (fun v hv => by cases hv), nofun, nofun, nofun⟩

lemma fits_ref {v : Value} (hv : v.ValidIn h) : Fits T h (.ref v) := by
  refine ⟨HeapObject.unwired_of_kind nofun, fun w hw => ?_, nofun, nofun, nofun⟩
  rw [List.mem_singleton.mp hw]
  exact hv

lemma fits_callable {c : Callable H} (hv : ∀ p ∈ c.params, ∀ v ∈ p.default, v.ValidIn h)
    (hclosure : ∀ x, c.closure = some x → h.HasKind .frame x) (hbody : T.body h c.body) :
    Fits T h (.callable c) := by
  refine ⟨HeapObject.unwired_of_kind nofun, fun v hdef => ?_, hclosure, fun c' hc => ?_, nofun⟩
  · obtain ⟨p, hp, hdef⟩ := List.mem_filterMap.mp hdef
    exact hv p hp v hdef
  · cases hc
    exact hbody

/-- A function fits in another scope, and for another library, if that scope is live. -/
lemma Fits.within {c : Callable H} (hc : Fits T h (.callable c)) {closure : Option ObjectId}
    {library : Option Library} (hclosure : ∀ x, closure = some x → h.HasKind .frame x) :
    Fits T h (.callable { c with closure := closure, library := library }) where
  unwired := HeapObject.unwired_of_kind nofun
  value := hc.value
  scope := hclosure
  body c' hc' := by
    cases hc'
    exact hc.body c rfl
  kernel := nofun

lemma fits_node {n : Node H} (hu : (HeapObject.node n).Unwired)
    (hv : ∀ v ∈ (HeapObject.node n).values, v.ValidIn h)
    (hk : ∀ k, n.kernel = some (.host k) → T.kernel h k) : Fits T h (.node n) := by
  refine ⟨hu, hv, nofun, nofun, fun k hkernel => hk k ?_⟩
  simp only [HeapObject.hostKernel?] at hkernel
  split at hkernel
  · next hn =>
    cases hkernel
    exact hn
  · cases hkernel

lemma fits_constant {name : String} {v : Value} (hv : v.ValidIn h) :
    Fits T h (.node (.constant name v)) :=
  fits_node HeapObject.unwired_constant (fun _ hw => HeapObject.eq_of_mem_values_constant hw ▸ hv)
    fun _ hk => by cases hk

lemma fits_operator {make : String → Node H} {count : Nat} (ho : Operator make count)
    (name : String) : Fits T h (.node (make name)) := by
  refine ⟨ho.unwired, fun v hv => ?_, nofun, nofun, fun k hk => ?_⟩
  · obtain ⟨p, rfl⟩ := ho.values_prim hv
    trivial
  · rw [ho.no_hostKernel] at hk
    cases hk

lemma sound_new (names : Interner) (threshold : Nat) : Sound T (Heap.new names threshold) := by
  have hi := intact_new (H := H) names threshold
  have hnone : ∀ id, (Heap.new names threshold : Heap H).object? id = none := fun id => by
    simp [object?, entry?, new]
  exact
    { tidy := hi.tidy
      wired := hi.wired
      value := fun id o ho => by simp [hnone] at ho
      scope := fun id o ho => by simp [hnone] at ho
      source := fun id i p hs => by simp [sourceAt, hnone] at hs
      target := fun id i p ht => by simp [targetsAt, hnone] at ht
      body := fun id c hc => by simp [hnone] at hc
      kernel := fun id o ho => by simp [hnone] at ho }

/-! ## Changes in place -/

/-- Writes of valid handles and of trusted kernels, and connections between ports that exist. -/
lemma Sound.rewritten (hs : Sound T h)
    (hr : Touched (HeapObject.Rewritten (Value.ValidIn h) (T.kernel h)) h h') (hw : Wired h')
    (hsource : ∀ id i p, h'.sourceAt id i = some p → h.HasPort .output p)
    (htarget : ∀ id i, ∀ p ∈ h'.targetsAt id i, h.HasPort .input p) : Sound T h' := by
  have he : Extends h h' := hr.extends fun _ _ hr => hr.shape
  exact
    { tidy := hs.tidy.congr (fun _ => hr.contains) hr.stamp hr.free hr.live
      wired := hw
      -- a value of the rewritten object is an old one of that object or a valid one
      value := fun id o' ho v hv => by
        obtain ⟨o, hobj, hr⟩ := hr.object_from ho
        exact he.valid ((hr.value v hv).elim (hs.value id o hobj v) fun hv => hv)
      scope := fun id o' ho x hx => by
        obtain ⟨o, hobj, hr⟩ := hr.object_from ho
        exact he.hasKind (hs.scope id o hobj x (hr.scope ▸ hx))
      source := fun id i p hp => he.hasPort (hsource id i p hp)
      target := fun id i p hp => he.hasPort (htarget id i p hp)
      body := fun id c hc => by
        obtain ⟨o, hobj, hr⟩ := hr.object_from hc
        have hcall : o.callable? = some c := hr.callable.symm
        cases o with
        | callable c' =>
          cases hcall
          exact T.body_of_holds (fun _ => T.grown he) (hs.body id _ hobj)
        | _ => cases hcall
      kernel := fun id o' ho k hk => by
        obtain ⟨o, hobj, hr⟩ := hr.object_from ho
        exact T.grown he ((hr.kernel k hk).elim (hs.kernel id o hobj k) fun hk => hk) }

/-- Writes that leave the wires alone. -/
lemma Sound.stored (hs : Sound T h) (hw : Stored (Value.ValidIn h) (T.kernel h) h h') :
    Sound T h' := by
  refine hs.rewritten (hw.mono fun _ _ hr => hr.1) (hs.wired.stored hw) (fun id i p hp => ?_)
    fun id i p hp => ?_
  · rw [sourceAt_congr hw.wires] at hp
    exact hs.source id i p hp
  · rw [targetsAt_congr hw.wires] at hp
    exact hs.target id i p hp

/-- Changes of wires. -/
lemma Sound.rewired (hs : Sound T h) (hr : Rewired h h') (hw : Wired h')
    (hsource : ∀ id i p, h'.sourceAt id i = some p → h.HasPort .output p)
    (htarget : ∀ id i, ∀ p ∈ h'.targetsAt id i, h.HasPort .input p) : Sound T h' :=
  hs.rewritten (hr.mono fun _ _ hr => hr.mono (fun _ => False.elim) fun _ => False.elim) hw hsource
    htarget

lemma Sound.unplug (hs : Sound T h) (hp : h.HasInput input) : Sound T (h.unplug input) := by
  refine hs.rewired rewired_unplug (hs.wired.unplug hp) (fun id i p hsrc => ?_) fun id i p ht =>
    hs.target id i p (mem_targetsAt_unplug ht)
  rw [sourceAt_unplug hp] at hsrc
  split at hsrc
  · cases hsrc
  · exact hs.source id i p hsrc

lemma Sound.connect (hs : Sound T h) (hp : h.HasInput input) (ho : h.HasOutput output) :
    Sound T ((h.unplug input).plug input output) := by
  have hu := hs.unplug hp
  have he : Rewired h (h.unplug input) := rewired_unplug
  refine hu.rewired rewired_plug (hs.wired.connect hp ho) (fun id i p hsrc => ?_)
    fun id i p ht => ?_
  · rw [Heap.plug, sourceAt_addTarget, sourceAt_setSource (hp.rewired he)] at hsrc
    split at hsrc
    · cases hsrc
      exact he.extends.hasPort (hasPort_output.mpr ho)
    · exact hu.source id i p hsrc
  · rw [Heap.plug, targetsAt_addTarget ((ho.rewired he).rewired .setSource), targetsAt_setSource]
      at ht
    split at ht
    · rcases List.mem_append.mp ht with hold | hnew
      · exact hu.target id i p hold
      · rw [List.mem_singleton.mp hnew]
        exact he.extends.hasPort (hasPort_input.mpr hp)
    · exact hu.target id i p ht

/-! ## Pins -/

/-- Changes of the bookkeeping of an object. -/
lemma Sound.modifyEntry (hs : Sound T h) {f : Entry H → Entry H} (hf : ∀ e, (f e).object = e.object)
    (hT : ∀ code, T.holds h code → T.holds (h.modifyEntry id f) code) :
    Sound T (h.modifyEntry id f) := by
  have hobj : ∀ x, (h.modifyEntry id f).object? x = h.object? x := fun x => object?_modifyEntry hf
  have he : ∀ x, (h.modifyEntry id f).shape? x = h.shape? x := fun x => by rw [shape?, hobj, shape?]
  have hslots : SameSlots h (h.modifyEntry id f) := sameSlots_modifyEntry
  have hkind : ∀ kind x, h.HasKind kind x → (h.modifyEntry id f).HasKind kind x :=
    fun kind x hk => by
    unfold HasKind
    rwa [he]
  have hport : ∀ kind p, h.HasPort kind p → (h.modifyEntry id f).HasPort kind p :=
    fun kind p hp => by
    unfold HasPort
    rwa [he]
  exact
    { tidy := hs.tidy.congr hslots.contains hslots.stamp hslots.free hslots.live
      wired := hs.wired.modifyEntry hf
      value := fun x o ho v hv => by
        rw [hobj] at ho
        have hval := hs.value x o ho v hv
        cases v with
        | absent => trivial
        | prim p => trivial
        | object kind y => exact hkind kind y hval
        | port kind p => exact hport kind p hval
      scope := fun x o ho y hy => hkind _ y (hs.scope x o (hobj x ▸ ho) y hy)
      source := fun x i p hp => hport _ p (hs.source x i p (by rwa [sourceAt, hobj] at hp))
      target := fun x i p hp => hport _ p (hs.target x i p (by rwa [targetsAt, hobj] at hp))
      body := fun x c hc => T.body_of_holds hT (hs.body x c (hobj x ▸ hc))
      kernel := fun x o ho k hk => hT _ (hs.kernel x o (hobj x ▸ ho) k hk) }

/-- One more pin, if it still can be counted. -/
lemma Sound.pinned (hs : Sound T h) (hroom : h.pinCount id < h.pinCount id + 1) :
    Sound T (h.pinned id) :=
  hs.modifyEntry (fun _ => rfl) fun _ => T.grown (extends_pinned hroom)

lemma Sound.unpin (hs : Sound T h) (hk : h.HasKind .frame id) : Sound T (h.unpin id) :=
  hs.modifyEntry (fun _ => rfl) fun _ => T.unpinned hk

/-! ## New objects -/

lemma Sound.alloc (hs : Sound T h) (ho : Fits T h o) : Sound T (h.alloc o).2 := by
  have ht := hs.tidy
  have he : Extends h (h.alloc o).2 := extends_alloc ht
  have hfresh : ∀ {pkind p}, h.HasPort pkind p → p.node ≠ h.nextId := fun hp =>
    ne_nextId ht hp.contains
  -- an object is the new one, which fits, or one from before
  exact
    { tidy := ht.alloc o
      wired := hs.wired.alloc ht ho.unwired (fun id i p hp => hfresh (hs.source id i p hp))
        fun id i p hp => hfresh (hs.target id i p hp)
      value := fun id o' hx v hv => by
        rcases object?_alloc_or hx with rfl | hold
        · exact he.valid (ho.value v hv)
        · exact he.valid (hs.value id o' hold v hv)
      scope := fun id o' hx y hy => by
        rcases object?_alloc_or hx with rfl | hold
        · exact he.hasKind (ho.scope y hy)
        · exact he.hasKind (hs.scope id o' hold y hy)
      source := fun id i p hp => by
        obtain ⟨o', hx, hp'⟩ := Option.bind_eq_some_iff.mp hp
        rcases object?_alloc_or hx with rfl | hold
        · rw [(ho.unwired i).1] at hp'
          cases hp'
        · exact he.hasPort (hs.source id i p (by rw [sourceAt, hold]; exact hp'))
      target := fun id i p hp => by
        obtain ⟨o', hx⟩ := exists_object? (contains_of_mem_targetsAt hp)
        rw [targetsAt, hx] at hp
        rcases object?_alloc_or hx with rfl | hold
        · simp [(ho.unwired i).2] at hp
        · exact he.hasPort (hs.target id i p (by rw [targetsAt, hold]; exact hp))
      body := fun id c hx => by
        refine T.body_of_holds (fun _ => T.grown he) ?_
        rcases object?_alloc_or hx with rfl | hold
        · exact ho.body c rfl
        · exact hs.body id c hold
      kernel := fun id o' hx k hk => by
        refine T.grown he ?_
        rcases object?_alloc_or hx with rfl | hold
        · exact ho.kernel k hk
        · exact hs.kernel id o' hold k hk }

/-! ## Collections -/

section Collect

variable {gone : ObjectId → Bool} {dead : List (ObjectId × HeapObject H)} {bound : UInt8}
  {extra : List ObjectId}

lemma shape_dropTargets : (o.dropTargets gone).shape = o.shape := by
  cases o <;> simp [HeapObject.dropTargets, HeapObject.shape]

lemma values_dropTargets : (o.dropTargets gone).values = o.values := by
  cases o with
  | node n => simp [HeapObject.dropTargets, HeapObject.values, List.filterMap_map]
  | _ => rfl

lemma scope_dropTargets : (o.dropTargets gone).scope? = o.scope? := by
  cases o <;> rfl

lemma sourceAt_dropTargets {i : Nat} : (o.dropTargets gone).sourceAt i = o.sourceAt i := by
  cases o <;> rfl

lemma hostKernel_dropTargets : (o.dropTargets gone).hostKernel? = o.hostKernel? := by
  cases o <;> rfl

/-- A survivor keeps its shape. -/
lemma Collected.shape (hcol : Collected h bound extra dead h') (hc : h'.contains id = true) :
    h'.shape? id = h.shape? id := by
  obtain ⟨o, ho⟩ := exists_object? hc
  obtain ⟨o', ho', rfl⟩ := hcol.object ho
  rw [shape?, ho, shape?, ho', Option.map_some, shape_dropTargets, Option.map_some]

/-- What a survivor refers to survives. -/
lemma Collected.child (hcol : Collected h bound extra dead h') {y : ObjectId}
    (hc : h'.contains id = true) (ho : h.object? id = some o) (hy : y ∈ o.children)
    (hcy : h.contains y = true) : h'.contains y = true :=
  (hcol.survives y).mpr (.child ((hcol.survives id).mp hc) ho hy hcy)

lemma Collected.hasKind (hcol : Collected h bound extra dead h') {kind : ObjectKind}
    (hc : h'.contains id = true) (hk : h.HasKind kind id) : h'.HasKind kind id := by
  unfold HasKind
  rwa [hcol.shape hc]

lemma Collected.hasPort (hcol : Collected h bound extra dead h') {kind : PortKind} {p : PortRef}
    (hc : h'.contains p.node = true) (hp : h.HasPort kind p) : h'.HasPort kind p := by
  unfold HasPort
  rwa [hcol.shape hc]

lemma Collected.valid (hcol : Collected h bound extra dead h') {v : Value} (hv : v.ValidIn h)
    (hc : ∀ x, v.referent = some x → h'.contains x = true) : v.ValidIn h' := by
  cases v with
  | absent => trivial
  | prim p => trivial
  | object kind id => exact hcol.hasKind (hc id rfl) hv
  | port kind p => exact hcol.hasPort (hc p.node rfl) hv

/-- A collection follows every reference but those to targets, and it takes these off itself. -/
lemma Sound.collected (hs : Sound T h) (hcol : Collected h bound extra dead h') (ht : Tidy h')
    (hw : Wired h') (hT : ∀ code, T.holds h code → T.holds h' code) : Sound T h' where
  tidy := ht
  wired := hw
  value id o ho v hv := by
    obtain ⟨o', ho', rfl⟩ := hcol.object ho
    rw [values_dropTargets] at hv
    have hval := hs.value id o' ho' v hv
    -- what a survivor refers to survives with it
    refine hcol.valid hval fun x hx => ?_
    exact hcol.child (contains_of_object? ho) ho' (HeapObject.mem_children.mpr (.inl ⟨v, hv, hx⟩))
      (contains_of_validIn hval hx)
  scope id o ho x hx := by
    obtain ⟨o', ho', rfl⟩ := hcol.object ho
    rw [scope_dropTargets] at hx
    have hkind := hs.scope id o' ho' x hx
    refine hcol.hasKind ?_ hkind
    exact hcol.child (contains_of_object? ho) ho' (HeapObject.mem_children.mpr (.inr (.inl hx)))
      hkind.contains
  source id i p hp := by
    obtain ⟨o, ho, hsrc⟩ := Option.bind_eq_some_iff.mp hp
    obtain ⟨o', ho', rfl⟩ := hcol.object ho
    rw [sourceAt_dropTargets] at hsrc
    have hport := hs.source id i p (by rw [sourceAt, ho']; exact hsrc)
    refine hcol.hasPort ?_ hport
    exact hcol.child (contains_of_object? ho) ho'
      (HeapObject.mem_children.mpr (.inr (.inr ⟨i, p, hsrc, rfl⟩))) hport.contains
  target id i p hp := by
    obtain ⟨o, ho⟩ := exists_object? (contains_of_mem_targetsAt hp)
    obtain ⟨o', ho', rfl⟩ := hcol.object ho
    rw [targetsAt, ho, Option.map_some, Option.getD_some, HeapObject.targetsAt_dropTargets,
      List.mem_filter] at hp
    have hport := hs.target id i p (by rw [targetsAt, ho']; exact hp.1)
    refine hcol.hasPort ?_ hport
    -- targets are no children: those that did not survive were taken off
    by_contra hnot
    simp [goneIn, hport.contains, hnot] at hp
  body id c hc := by
    obtain ⟨o', ho', heq⟩ := hcol.object hc
    cases o' with
    | callable c' =>
      cases heq
      exact T.body_of_holds hT (hs.body id _ ho')
    | _ => cases heq
  kernel id o ho k hk := by
    obtain ⟨o', ho', rfl⟩ := hcol.object ho
    rw [hostKernel_dropTargets] at hk
    exact hT _ (hs.kernel id o' ho' k hk)

lemma Sound.collect (hs : Sound T h) (bound : UInt8) (extra : List ObjectId) :
    Sound T (h.collect bound extra).2 :=
  hs.collected (collected_collect hs.wired bound extra)
    ((vacated_collect bound extra).tidy hs.tidy)
    ((reclaimed_collect hs.wired bound extra).wired hs.wired) fun _ =>
      T.collected bound extra hs.wired

lemma pinCount_hold (extra : List ObjectId) : (h.hold extra).pinCount id = h.pinCount id := by
  rw [pinCount_eq, pinCount_eq, entry?_hold]
  cases h.entry? id with
  | none => rfl
  | some e =>
    simp only [Option.map_some, Option.getD_some]
    split <;> rfl

/-- Pinned objects survive, with their pins and their shape. -/
lemma Sound.collect_pinned (hs : Sound T h) (bound : UInt8) (extra : List ObjectId)
    (hpin : 0 < h.pinCount id) :
    (h.collect bound extra).2.shape? id = h.shape? id ∧
      (h.collect bound extra).2.pinCount id = h.pinCount id := by
  have hcol := collected_collect hs.wired bound extra
  rw [← pinCount_hold extra, pinCount_eq] at hpin
  cases he : Heap.entry? (h.hold extra) id with
  | none =>
    rw [he] at hpin
    exact absurd hpin (UInt32.lt_irrefl _)
  | some e =>
    rw [he] at hpin
    have hroot : h.rootsOf bound extra id := Marking.isRoot_iff.mpr (.inr ⟨e, he, .inl hpin⟩)
    have hlive : h.contains id = true := contains_hold.symm.trans (contains_of_entry he)
    have hc := (hcol.survives id).mpr (.root hlive hroot)
    obtain ⟨e', he', hpins, -⟩ := hcol.survivor he hc
    refine ⟨hcol.shape hc, ?_⟩
    rw [pinCount_eq, he', ← pinCount_hold extra, pinCount_eq, he]
    exact hpins

end Collect

end Heap
end Patchbay
