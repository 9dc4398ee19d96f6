import Patchbay.Proofs.Courses.Assembling

/-!
# Guarded operator nodes

Where host code is discreet, no step of an evaluation gets at the inputs of an operator node that a
builtin has made, or at its constant nodes. So every operator node stays fed by its operands, and
what a failed attempt left behind stays cut off. That is the invariant of this module.
-/

namespace Patchbay

variable {H : HostTypes} {env : Environment H} {code : HostCode H → Prop} {h h' : Heap H}
  {l l' : Ledger}

/-! ## The invariant -/

/-- The operator nodes that the ledger tells of are out of reach for what is known. -/
structure Guarded (env : Environment H) (code : HostCode H → Prop) (h : Heap H) (l : Ledger) :
    Prop where
  covers : (Customs.discreet env.host.toKernelHost code).Covers h l
  sound : h.Sound .any
  root : l.knows (.frame env.root)
  pinned : 0 < h.pinCount env.root
  hidden : ∀ v, l.knows v → l.Open v
  node : ∀ c ∈ l.built, ∀ x ∈ c.made, h.HasKind .node x
  closed : ∀ c ∈ l.built, c.node = none → ∀ y i p, h.sourceAt y i = some p → p.node ∈ c.made →
    y ∈ c.made
  fed : ∀ c ∈ l.built, ∀ id, c.node = some id → id ∈ c.made ∧ h.Fed c id

namespace Guarded

open Heap

variable {v : Value} {x : ObjectId} {c : Construction}

lemma valid (hg : Guarded env code h l) (hv : l.knows v) : v.ValidIn h :=
  hg.covers.valid (fun hf => hf) v hv

lemma live (hg : Guarded env code h l) (hc : c ∈ l.built) (hx : x ∈ c.made) : h.contains x = true :=
  (hg.node c hc x hx).contains

/-- The handles of nodes that were made are not known. -/
lemma unknown (hg : Guarded env code h l) (hc : c ∈ l.built) (hx : x ∈ c.made) :
    ¬ l.knows (.node x) :=
  fun hk => (hg.hidden _ hk c hc x hx).1 rfl

/-- What is not a handle of anything that was live gives nothing away. -/
lemma open_of_fresh (hg : Guarded env code h l)
    (hv : ∀ x, v.referent = some x → h.contains x = false) :
    l.Open v := by
  intro c hc x hx
  have hlive := hg.live hc hx
  have hne : v.referent ≠ some x := by
    intro heq
    rw [hv x heq] at hlive
    cases hlive
  exact ⟨fun heq => hne (heq ▸ rfl), fun _ => hne⟩

/-- Neither does a port of a known node. -/
lemma open_port (hg : Guarded env code h l) {kind : PortKind} {p : PortRef}
    (hp : l.knows (.node p.node)) : l.Open (.port kind p) := by
  intro c hc x hx
  refine ⟨(fun heq => nomatch heq), fun hnone heq => ?_⟩
  exact (hg.hidden _ hp c hc x hx).2 hnone heq

/-- The invariant is kept by changes that leave alone what was made, give nothing away, and connect
nothing to what was left behind. -/
lemma carry (hg : Guarded env code h l) (hbuilt : l'.built = l.built)
    (hcovers : (Customs.discreet env.host.toKernelHost code).Covers h' l') (hs : h'.Sound .any)
    (hroot : l'.knows (.frame env.root)) (hpin : 0 < h'.pinCount env.root)
    (hopen : ∀ v, l'.knows v → l.Open v)
    (hsteady : ∀ c ∈ l.built, ∀ x ∈ c.made, h.Steady h' x)
    (hsource : ∀ y i p, h'.sourceAt y i = some p → h.sourceAt y i = some p ∨ l.Open (.output p)) :
    Guarded env code h' l' where
  covers := hcovers
  sound := hs
  root := hroot
  pinned := hpin
  hidden v hv := by
    unfold Ledger.Open
    rw [hbuilt]
    exact hopen v hv
  node c hc x hx := by
    rw [hbuilt] at hc
    obtain ⟨s, hshape, hkind⟩ := hg.node c hc x hx
    exact ⟨s, (hsteady c hc x hx).shape s hshape, hkind⟩
  -- a new wire comes out of an open port, and no port of an abandoned construction is open
  closed c hc hnone y i p hp hmade := by
    rw [hbuilt] at hc
    rcases hsource y i p hp with hold | hout
    · exact hg.closed c hc hnone y i p hold hmade
    · exact absurd rfl ((hout c hc p.node hmade).2 hnone)
  fed c hc id hid := by
    rw [hbuilt] at hc
    obtain ⟨hmem, hfed⟩ := hg.fed c hc id hid
    exact ⟨hmem, hfed.later hs rfl (hsteady c hc id hmem) fun _ p _ hp =>
      ⟨hp, hsteady c hc p.node hp⟩⟩

/-! ## Operations -/

/-- What becomes known by an operation gives nothing away. -/
lemma open_after (hg : Guarded env code h l) (op : Operation H) (hv : (l.after h op).knows v) :
    l.Open v := by
  cases op with
  | alloc o =>
    rcases hv with hold | rfl
    · exact hg.hidden v hold
    · refine hg.open_of_fresh fun x hx => ?_
      cases hx
      exact contains_nextId hg.sound.tidy
  | tick id =>
    rcases hv with hold | ⟨kind, p, rfl, -, hp⟩
    · exact hg.hidden v hold
    · exact hg.open_port hp
  | _ => exact hg.hidden v hv

/-- Tame operations keep the invariant. -/
lemma tame (hg : Guarded env code h l) {op : Operation H}
    (hop : op.Tame env.host.toKernelHost code env.root h l)
    (hcovers : (Customs.discreet env.host.toKernelHost code).Covers
      (op.after env.host.toKernelHost h) (l.after h op)) :
    Guarded env code (op.after env.host.toKernelHost h) (l.after h op) := by
  have hnot : ¬ (Customs.discreet env.host.toKernelHost code).trusting := fun hf => hf
  refine hg.carry Ledger.built_after hcovers (hop.sound hg.sound hg.covers hnot)
    (Ledger.knows_after hg.root) (hop.pinned hg.sound hg.covers hnot hg.pinned)
    (fun v hv => hg.open_after op hv) (fun c hc x hx => ?_) fun y i p hp => ?_
  · obtain ⟨o, ho, hkind⟩ := (hg.node c hc x hx).object
    cases o with
    | node n => exact hop.steady hg.sound hg.covers hnot ho (hg.unknown hc hx)
    | _ => cases hkind
  · exact (hop.source hg.covers hnot hp).imp_right fun hp => hg.hidden _ hp

/-- More may be known that gives nothing away. -/
lemma learn (hg : Guarded env code h l) {w : Value} (hvalid : w.ValidIn h) (hw : l.Open w) :
    Guarded env code h (l.learn (· = w)) := by
  refine hg.carry rfl (hg.covers.learn fun _ v hv => ?_) hg.sound (.inl hg.root) hg.pinned
    (fun v hv => ?_) (fun c hc x hx => .of_object rfl) fun y i p hp => .inl hp
  · rw [hv]
    exact hvalid
  · rcases hv with hold | rfl
    · exact hg.hidden v hold
    · exact hw

/-- The errands of discreet host code keep the invariant. -/
lemma errand {a b : Heap H × Ledger}
    (he : (Customs.discreet env.host.toKernelHost code).Errand env.host.toKernelHost a b)
    (hg : Guarded env code a.1 a.2) : Guarded env code b.1 b.2 := by
  induction he with
  | refl => exact hg
  | act _ hmay ih => exact ih.tame (ih.covers.tame hmay) (ih.covers.act hmay)
  | find _ hfinds ih => exact ih.learn hfinds.1 hfinds.2

/-! ## Building -/

variable {make : String → Node H} {operands : List Value}

/-- Building leaves alone what was made before. -/
lemma assembled (hg : Guarded env code h l) (ha : Assembled make operands h h')
    (hknown : ∀ v ∈ operands, l.knows v) (hbuilt : l'.built = l.built)
    (hcovers : (Customs.discreet env.host.toKernelHost code).Covers h' l')
    (hroot : l'.knows (.frame env.root)) (hopen : ∀ v, l'.knows v → l.Open v) :
    Guarded env code h' l' := by
  refine hg.carry hbuilt hcovers ha.sound hroot (UInt32.lt_of_lt_of_le hg.pinned (ha.grown.pins _))
    hopen (fun c hc x hx => ha.steady x (hg.live hc hx)) fun y i p hp => ?_
  rcases ha.source y i p hp with hold | ⟨-, hgiven | hfresh⟩
  · exact .inl hold
  · exact .inr (hg.hidden _ (hknown _ hgiven))
  · refine .inr (hg.open_of_fresh fun x hx => ?_)
    cases hx
    exact hfresh

/-- Building has made something of the heap, however far it came. -/
lemma leaves_assembled {s : Session H} (hg : Guarded env code s.heap l) (kind : String)
    (ho : Operator make operands.length) (hknown : ∀ v ∈ operands, l.knows v) :
    (Lift.build kind make operands s).Leaves fun s' => s.heap.Assembled make operands s'.heap :=
  Heap.leaves_assembled kind hg.sound ho fun v hv => hg.valid (hknown v hv)

/-- What was made just now is recorded. -/
lemma record (hg : Guarded env code h l) (hnode : ∀ x ∈ c.made, h.HasKind .node x)
    (hhidden : ∀ v, l.knows v → ∀ x ∈ c.made, v ≠ .node x ∧ (c.node = none → v.referent ≠ some x))
    (hclosed : c.node = none → ∀ y i p, h.sourceAt y i = some p → p.node ∈ c.made → y ∈ c.made)
    (hfed : ∀ id, c.node = some id → id ∈ c.made ∧ h.Fed c id) :
    Guarded env code h (l.record c) where
  covers := hg.covers.record c
  sound := hg.sound
  root := hg.root
  pinned := hg.pinned
  hidden v hv d hd x hx := by
    rcases List.mem_append.mp hd with hd | hd
    · exact hg.hidden v hv d hd x hx
    · rw [List.mem_singleton.mp hd] at hx ⊢
      exact hhidden v hv x hx
  node d hd x hx := by
    rcases List.mem_append.mp hd with hd | hd
    · exact hg.node d hd x hx
    · rw [List.mem_singleton.mp hd] at hx
      exact hnode x hx
  closed d hd hnone y i p hp hmade := by
    rcases List.mem_append.mp hd with hd | hd
    · exact hg.closed d hd hnone y i p hp hmade
    · rw [List.mem_singleton.mp hd] at hnone hmade ⊢
      exact hclosed hnone y i p hp hmade
  fed d hd id hid := by
    rcases List.mem_append.mp hd with hd | hd
    · exact hg.fed d hd id hid
    · rw [List.mem_singleton.mp hd] at hid ⊢
      exact hfed id hid

/-- What is known leads to nothing that came after it was known. -/
lemma old_of_known (hg : Guarded env code h l) (hv : l.knows v) {x : ObjectId}
    (hx : v.referent = some x) : h.contains x = true :=
  contains_of_validIn (hg.valid hv) hx

/-- What is known refers to nothing that is new. -/
lemma referent_ne_newcomer {s s' : Session H} (hg : Guarded env code s.heap l) (hv : l.knows v)
    (hx : x ∈ s.heap.newcomers s'.heap) : v.referent ≠ some x := by
  intro heq
  have hlive := hg.old_of_known hv heq
  rw [(Heap.mem_newcomers.mp hx).2] at hlive
  cases hlive

variable {kind : String} {s s' : Session H} {id : ObjectId} {e : EvalError}

/-- When a node has been built, its output is known, and the other new handles are not. -/
lemma built (hg : Guarded env code s.heap l)
    (hcovers : (Customs.discreet env.host.toKernelHost code).Covers s'.heap
      (l.learn (· = .output ⟨id, 0⟩)))
    (ho : Operator make operands.length) (hv : ∀ v ∈ operands, l.knows v)
    (hrun : Lift.build kind make operands s = .ok (.output ⟨id, 0⟩) s') :
    Guarded env code s'.heap ((l.learn (· = .output ⟨id, 0⟩)).record
      ⟨operands, s.heap.newcomers s'.heap, some id⟩) := by
  have hresult := Lift.build_result hrun
  cases hresult
  have ha := hg.leaves_assembled kind ho hv
  rw [hrun] at ha
  have hfed := Lift.fed_build hg.sound ho (fun v hmem => hg.valid (hv v hmem)) hrun
  have hold : Guarded env code s'.heap (l.learn (· = .output ⟨s.heap.nextId, 0⟩)) := by
    refine hg.assembled ha hv rfl hcovers (.inl hg.root) fun v hv => ?_
    rcases hv with hold | rfl
    · exact hg.hidden v hold
    · refine hg.open_of_fresh fun x hx => ?_
      cases hx
      exact Heap.contains_nextId hg.sound.tidy
  refine hold.record (fun x hx => ha.node hx) (fun v hv x hx => ⟨?_, fun hnone => by cases hnone⟩)
    (fun hnone => by cases hnone) fun id hid => ?_
  · -- the handle of a new node is not known, and the output that was learned is no such handle
    rintro rfl
    rcases hv with hknown | heq
    · exact hg.referent_ne_newcomer hknown hx rfl
    · cases heq
  · cases hid
    obtain ⟨n, hn, -⟩ := hfed.arity
    exact ⟨Heap.mem_newcomers.mpr ⟨Heap.contains_of_object? hn, Heap.contains_nextId hg.sound.tidy⟩,
      hfed⟩

/-- When building has failed, nothing new is known. -/
lemma abandoned (hg : Guarded env code s.heap l)
    (hcovers : (Customs.discreet env.host.toKernelHost code).Covers s'.heap l)
    (ho : Operator make operands.length) (hv : ∀ v ∈ operands, l.knows v)
    (hrun : Lift.build kind make operands s = .error e s') :
    Guarded env code s'.heap (l.record ⟨operands, s.heap.newcomers s'.heap, none⟩) := by
  have ha := hg.leaves_assembled kind ho hv
  rw [hrun] at ha
  have hold : Guarded env code s'.heap l := hg.assembled ha hv rfl hcovers hg.root hg.hidden
  refine hold.record (fun x hx => ha.node hx) (fun v hv x hx => ?_)
    (fun _ y i p hp hmade => ha.closed hg.sound hp hmade) fun id hid => by cases hid
  have hne := hg.referent_ne_newcomer hv hx
  exact ⟨fun heq => hne (heq ▸ rfl), fun _ => hne⟩

end Guarded

/-- A step keeps the invariant. -/
lemma Step.guarded {R : Heap H × Ledger → Prop} {a b : Heap H × Ledger}
    (hd : Decent (.discreet env.host.toKernelHost code) R env)
    (hs : Step (.discreet env.host.toKernelHost code) env a b) (hg : Guarded env code a.1 a.2) :
    Guarded env code b.1 b.2 := by
  have hcovers := hs.covers hd hg.covers
  cases hs with
  | own hop => exact hg.tame hop.tame hcovers
  | port hnode hport => exact hg.learn hport (hg.open_port hnode)
  | @names h l names =>
    refine hg.carry rfl hcovers (hg.sound.stored .names) hg.root hg.pinned hg.hidden
      (fun c hc x hx => .of_object rfl) fun y i p hp => .inl hp
  | native _ _ _ errand => exact hg.errand errand
  | factory _ _ _ errand => exact hg.errand errand
  | node _ _ _ errand => exact hg.errand errand
  | built ho hv hrun => exact Guarded.built hg hcovers.forget ho hv hrun
  | abandoned ho hv hrun => exact Guarded.abandoned hg hcovers.forget ho hv hrun

end Patchbay
