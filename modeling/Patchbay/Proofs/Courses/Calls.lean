import Patchbay.Proofs.Courses.Lookup
import Patchbay.Proofs.Evaluation.Limits

/-!
# The courses of calls

A script binds its arguments in a fresh frame, a native function is called, a node creator makes a
node, and a builtin computes or makes an operator node. Each takes a course, and its result is
known.
-/

namespace Patchbay

variable {H : HostTypes} {K : Customs H} {R : Heap H × Ledger → Prop} {env : Environment H}
  {c : Cursor} {self : Runner H}
  {s : Session H} {l : Ledger} {args : List CallArg} {f : Callable H} {id : ObjectId} {v : Value}

/-! ## Known values -/

/-- Whether all values of a list are known. -/
def KnownAll (l : Ledger) (vs : List Value) : Prop := ∀ v ∈ vs, l.knows v

/-- Whether the arguments of a call are known. -/
def KnownArgs (l : Ledger) (args : List CallArg) : Prop := ∀ a ∈ args, l.knows a.value

lemma knownAll_nil : KnownAll l [] := by
  intro v hv
  cases hv

lemma KnownAll.cons {vs : List Value} (hv : l.knows v) (hvs : KnownAll l vs) :
    KnownAll l (v :: vs) := by
  intro w hw
  rcases List.mem_cons.mp hw with rfl | hw
  · exact hv
  · exact hvs w hw

lemma KnownAll.later {h h' : Heap H} {l' : Ledger} {vs : List Value} (hv : KnownAll l vs)
    (hc : Course K env (h, l) (h', l')) : KnownAll l' vs :=
  fun v hmem => hc.knows (hv v hmem)

lemma KnownArgs.later {h h' : Heap H} {l' : Ledger} (ha : KnownArgs l args)
    (hc : Course K env (h, l) (h', l')) : KnownArgs l' args :=
  fun a hmem => hc.knows (ha a hmem)

namespace Customs.Covers

variable {h : Heap H} {target : Value} {indices : List Value}

/-- A value that needs no object is known. -/
lemma knows_plain (hc : K.Covers h l) (hv : ∀ h : Heap H, v.ValidIn h) : l.knows v := by
  have hnone : ∀ id, (Heap.new h.names 0 : Heap H).object? id = none := fun id => by
    simp [Heap.object?, Heap.entry?, Heap.new]
  have hempty := hv (Heap.new h.names 0)
  cases v with
  | absent => exact hc.absent
  | prim p => exact hc.prim p
  | object kind id =>
    obtain ⟨o, ho, -⟩ := Heap.HasKind.object hempty
    rw [hnone] at ho
    cases ho
  | port kind p =>
    obtain ⟨n, hn, -⟩ := Heap.hasPort_iff.mp hempty
    rw [hnone] at hn
    cases hn

lemma knows_cast (hc : K.Covers h l) {t : Tag} (hv : l.knows v) {w : Value}
    (hr : v.cast t = .ok w) : l.knows w := by
  rcases Value.eq_or_exists_prim_of_cast hr with rfl | ⟨p, rfl⟩
  · exact hv
  · exact hc.prim p

/-- What indexing finds was stored, or it needs no object; a port of a node apart. -/
lemma knows_index (hc : K.Covers h l) (hr : h.index target indices = .ok v) :
    l.knows v ∨ ∃ id key n, target = .node id ∧ h.object? id = some (.node n) ∧
      n.portValue? id key = some v := by
  rcases Heap.index_found hr with ⟨x, o, ho, hv⟩ | ⟨p, rfl⟩ | hport
  · exact .inl ((hc.object x o ho).value v hv)
  · exact .inl (hc.prim p)
  · exact .inr hport

end Customs.Covers

namespace Eval

/-- A look at the heap that finds what was known already, or a port of a known node. -/
lemma takes_look {look : Heap H → Except EvalError Value}
    (hlook : ∀ v, look s.heap = .ok v → l.knows v ∨ ∃ id key n, l.knows (.node id) ∧
      s.heap.object? id = some (.node n) ∧ n.portValue? id key = some v) :
    Eval.Takes K env (readHeap look) s l fun v _ l' => l'.knows v := by
  have hends : HeapM.Takes K env (HeapM.read look) s.heap l fun v _ l' => l'.knows v := by
    refine HeapM.ends_read.mpr ⟨fun v hv => ?_, fun e _ => ⟨l, .refl⟩⟩
    rcases hlook v hv with hknown | ⟨id, key, n, hid, hn, hport⟩
    · exact ⟨l, .refl, hknown⟩
    · obtain ⟨⟨kind, index⟩, hp, rfl⟩ := Option.map_eq_some_iff.mp hport
      exact ⟨_, .single (.port (p := ⟨id, index⟩) hid (Heap.hasPort_of_find hn hp)), .inr rfl⟩
  exact takes_onHeap hends

end Eval

/-! ## Script functions -/

lemma takes_bindArguments (hc : K.Covers s.heap l) (hf : s.heap.object? id = some (.callable f))
    (ha : KnownArgs l args) :
    Eval.Takes K env (bindArguments f.params args) s l fun bound h l' =>
      (h = s.heap ∧ l' = l) ∧ ∀ b ∈ bound, l'.knows b.2 := by
  refine Eval.takes_read fun bound hr => ⟨⟨rfl, rfl⟩, fun b hb => ?_⟩
  rcases Parameter.mem_bind hr hb with ⟨a, hmem, hval⟩ | ⟨p, hp, hdef⟩
  · exact hval ▸ ha a hmem
  · exact (hc.object id _ hf).value b.2 (List.mem_filterMap.mpr ⟨p, hp, hdef⟩)

lemma takes_defineAll {frame : ObjectId} (bound : List (Name × Value)) {s : Session H} {l : Ledger}
    (hb : ∀ b ∈ bound, l.knows b.2) :
    Eval.Takes K env (bound.forM fun (name, value) => Eval.onHeap (Heap.define frame name value)) s
      l fun _ _ _ => True := by
  induction bound generalizing s l with
  | nil => exact Eval.takes_pure trivial
  | cons b rest ih =>
    refine (Eval.takes_onHeap (Heap.takes_define (hb b List.mem_cons_self))).bind
      fun _ s' l' hc _ => ?_
    exact ih fun b hmem => hc.knows (hb b (List.mem_cons_of_mem _ hmem))

lemma takes_callScript (hd : Decent K R env) (hself : CourseRunner K R env self)
    (hr : Informed K R env c s.heap l) (hf : s.heap.object? id = some (.callable f))
    (ha : KnownArgs l args) {body : Stmt} :
    Eval.Takes K env (callScript env self c f body args) s l fun v _ l' => l'.knows v := by
  refine (takes_bindArguments hr.covers hf ha).bind fun bound s1 l1 h1 hbound => ?_
  replace hbound := hbound.2
  -- a function that closes over no frame runs below the root
  have hparent : l.knows (.frame (f.closure.getD env.root)) := by
    cases hclosure : f.closure with
    | none => exact hr.root
    | some x => exact (hr.covers.object id _ hf).scope x hclosure
  refine (Eval.takes_onHeap (Heap.takes_childFrame (hr.later hd h1) (h1.knows hparent) _
    fun _ => ⟨rfl, rfl⟩)).bind fun frame s2 l2 h2 hframe => ?_
  refine (takes_defineAll bound fun b hb => h2.knows (hbound b hb)).bind fun _ s3 l3 h3 _ => ?_
  have hready : Informed K R env { c with frame := frame } s3.heap l3 :=
    (hr.later hd ((h1.trans h2).trans h3)).enter (h3.knows hframe.1)
  have hrun : Eval.Takes K env (Eval.withPinned frame (self.stmt { c with frame := frame } body)) s3
      l3 fun flow _ l' => flow.Known l' :=
    Eval.takes_withPinned hframe.2 fun s' hc => hself.stmt (hready.later hd hc) body
  refine hrun.bind fun flow s4 l4 h4 hflow => ?_
  cases flow with
  | next => exact Eval.takes_pure (hready.later hd h4).covers.absent
  | ret v => exact Eval.takes_pure hflow

/-! ## Builtins -/

/-- Evaluations are compared that do not run out of fuel. -/
def Regime.ending : Regime H where
  Holds _ := True
  loops := True
  Repeats _ := True
  stall := .never
  strict := nofun

/-- Building does not run out of fuel, as there are no recursive calls in it. -/
lemma Lift.build_ends (env : Environment H) {kind : String} {make : String → Node H}
    {operands : List Value} {s : Session H} : build kind make operands s ≠ .outOfFuel := by
  have hg : Regime.ending.Governs env := Regime.governs_of_trivial (fun _ => trivial) trivial
  have hmatches : Regime.ending.Matches (Regime.ending.Stands s.evalDepth)
      (build kind make operands s)
      (build kind make operands s) := Regime.compares_build hg s ⟨trivial, rfl⟩
  intro hr
  rw [hr] at hmatches
  cases hmatches with
  | outOfFuel hstall => exact hstall

/-- An operator node that is built, or left behind. -/
lemma Lift.takes_build {kind : String} {make : String → Node H} {operands : List Value}
    (ho : Operator make operands.length) (hv : KnownAll l operands) :
    Eval.Takes K env (build kind make operands) s l fun v _ l' => l'.knows v := by
  unfold Eval.Takes
  cases hr : build kind make operands s with
  | ok v s' =>
    have hresult := build_result hr
    subst hresult
    exact ⟨_, .single (.built ho hv hr), .inr rfl⟩
  | error e s' => exact ⟨_, .single (.abandoned ho hv hr)⟩
  | outOfFuel => exact absurd hr (build_ends env)

/-- A port that is found by indexing is of a node that is known. -/
lemma takes_readIndex {target : Value} {indices : List Value} (hself : CourseRunner K R env self)
    (hc : K.Covers s.heap l) (ht : l.knows target) :
    Eval.Takes K env (readIndex self.stuck target indices) s l fun v _ l' => l'.knows v := by
  refine Eval.Takes.barring (Eval.takes_look fun v hr => (hc.knows_index hr).imp_right ?_)
    (hself.stuck s l)
  rintro ⟨id, key, n, rfl, hn, hport⟩
  exact ⟨id, key, n, ht, hn, hport⟩

lemma takes_callBuiltin {b : Builtin} {operands : List Value} (hself : CourseRunner K R env self)
    (hc : K.Covers s.heap l) (hv : KnownAll l operands) :
    Eval.Takes K env (callBuiltin b operands self.stuck) s l fun v _ l' => l'.knows v := by
  refine callBuiltin_cases (motive := fun m _ => Eval.Takes K env m s l fun v _ l' => l'.knows v)
    self.stuck self.stuck b operands (fun r _ hgiven => ?_) (fun target indices ht => ?_)
    fun kind make vs ho hvs => ?_
  · refine Eval.takes_ofExcept fun v hr => ?_
    rcases hgiven v hr with hmem | ⟨p, rfl⟩
    · exact hv v hmem
    · exact hc.prim p
  · exact takes_readIndex hself hc (hv target ht)
  · exact Lift.takes_build ho fun v hmem => hv v (hvs v hmem)

lemma takes_operandsOf (args : List CallArg) {s : Session H} {l : Ledger} (ha : KnownArgs l args) :
    Eval.Takes K env (operandsOf args) s l fun vs _ l' => KnownAll l' vs := by
  induction args generalizing s l with
  | nil => exact Eval.takes_pure knownAll_nil
  | cons a rest ih =>
    unfold operandsOf
    split
    · exact Eval.takes_nameText_bind fun text => Eval.takes_fail
    · refine (ih fun b hb => ha b (List.mem_cons_of_mem _ hb)).bind fun vs s' l' hc hvs => ?_
      exact Eval.takes_pure (.cons (hc.knows (ha a List.mem_cons_self)) hvs)

/-! ## Node creators -/

section Nodes

variable {node : ObjectId} {kind : PortKind} {index : UInt16}

/-- A port to connect for a known value: its own, or that of a constant node which is stored for
it. -/
lemma Lift.takes_sourcePort (ht : s.heap.Tidy) (hv : l.knows v) :
    Eval.Takes K env (sourcePort v) s l fun p _ l' => l'.knows (.output p) := by
  unfold Eval.Takes
  rcases sourcePort_cases v s with ⟨p, rfl, hrun⟩ | ⟨name, hout, hrun⟩
  · rw [hrun]
    exact ⟨l, .refl, hv⟩
  · rw [hrun]
    have hown : K.Own env.root l (.alloc (.node (.constant name v))) :=
      ⟨Customs.holds_constant hv, fun _ => ⟨name, v, rfl⟩⟩
    have hstore : Course K env (s.heap, l) ((s.heap.alloc (.node (.constant name v))).2,
        l.after s.heap (.alloc (.node (.constant name v)))) := .single (.own hown)
    have hport : (s.heap.alloc (.node (.constant name v))).2.HasPort .output ⟨s.heap.nextId, 0⟩ :=
      Heap.hasPort_iff.mpr ⟨_, Session.object?_making ht, rfl, Nat.zero_lt_one⟩
    exact ⟨_, hstore.tail (.port (.inr rfl) hport), .inr rfl⟩

lemma takes_writePort (ht : s.heap.Tidy) (hn : l.knows (.node node)) (hv : l.knows v)
    {otherwise : Cause} :
    Eval.Takes K env (writePort env node kind index v otherwise) s l fun _ _ _ => True := by
  cases kind with
  | param =>
    have hown : K.Own env.root l (.setParam ⟨node, index⟩ v) := ⟨hn, hv⟩
    exact Eval.takes_onHeap ((HeapM.takes_own hown rfl).mono fun _ _ _ _ _ => trivial)
  | input =>
    refine (Lift.takes_sourcePort ht hv).bind fun source s' l' hc hsource => ?_
    have hown : K.Own env.root l' (.connect ⟨node, index⟩ source) := ⟨hc.knows hn, hsource⟩
    exact Eval.takes_onHeap ((HeapM.takes_own hown rfl).mono fun _ _ _ _ _ => trivial)
  | output => exact Eval.takes_fail

lemma takes_applyNodeArguments (hd : Decent K R env) (args : List CallArg) {position : Nat}
    {s : Session H} {l : Ledger} (hc : K.Covers s.heap l) (hn : l.knows (.node node))
    (ha : KnownArgs l args) :
    Eval.Takes K env (applyNodeArguments env node position args) s l fun _ _ _ => True := by
  induction args generalizing s l position with
  | nil => exact Eval.takes_pure trivial
  | cons a rest ih =>
    have hrest : ∀ (s' : Session H) l', Course K env (s.heap, l) (s'.heap, l') →
        Eval.Takes K env (applyNodeArguments env node (position + 1) rest) s' l'
          fun _ _ _ => True :=
      fun s' l' h => ih (h.covers hd hc) (h.knows hn) fun b hb =>
        h.knows (ha b (List.mem_cons_of_mem _ hb))
    unfold applyNodeArguments
    split
    · exact Eval.takes_fail
    · refine Eval.takes_nameText_bind fun key => ?_
      refine (Eval.takes_read fun _ _ => trivial).bind (Q := fun _ _ _ => True)
        fun n s1 l1 h1 _ => ?_
      -- a label that names a port is written to, any other ends the call
      dsimp only
      split
      · exact (takes_writePort (h1.covers hd hc).tidy (h1.knows hn)
          (h1.knows (ha a List.mem_cons_self))).bind fun _ s2 l2 h2 _ => hrest s2 l2 (h1.trans h2)
      · exact Eval.Takes.bind (Q := fun _ _ _ => True) Eval.takes_fail fun _ s2 l2 h2 _ =>
          hrest s2 l2 (h1.trans h2)

lemma takes_createNode (hd : Decent K R env) (hR : R (s.heap, l)) (hc : K.Covers s.heap l)
    {create : NodeFactory H} (hcreate : K.Licensed (.nodeCreator create)) (ha : KnownArgs l args) :
    Eval.Takes K env (createNode env f create args) s l fun v _ l' => l'.knows v := by
  refine Eval.takes_nameText_bind fun kind => Eval.takes_nextNodeName_bind fun name s1 hs1 => ?_
  rw [← hs1] at hR hc
  refine Eval.Takes.bind (Q := fun n h l' => h = s1.heap ∧ l' = l ∧
    create ⟨name, kind, f.library⟩ = .ok n)
      (Eval.takes_ofExcept fun n hn => ⟨rfl, rfl, hn⟩).mapError
    fun n s2 l2 _ hn => ?_
  obtain ⟨hheap, rfl, hn⟩ := hn
  rw [← hheap] at hR hc
  have hstore : HeapM.Takes K env
      (HeapM.alloc (.node { n with library := n.library <|> f.library })) s2.heap l2
      fun id _ l' => l'.knows (.node id) := by
    obtain ⟨l', herrand, hknown⟩ := hd.create hR hc hcreate _ _ hn (n.library <|> f.library)
    refine ⟨l', .single (.node hcreate hn ⟨_, rfl⟩ herrand), ?_⟩
    show l'.knows (.node (s2.heap.alloc _).1)
    rwa [Heap.alloc_fst]
  refine (Eval.takes_onHeap hstore).bind fun id s3 l3 h3 hid => ?_
  refine (takes_applyNodeArguments hd args (h3.covers hd hc) hid (ha.later h3)).bind
    fun _ s4 l4 h4 _ => ?_
  exact Eval.takes_pure (h4.knows hid)

end Nodes

/-! ## Calls -/

/-- A native function runs an errand. -/
lemma takes_native (hd : Decent K R env) {h : Heap H} (hR : R (h, l)) (hc : K.Covers h l)
    {fn : H.Native} (hf : K.Licensed (.native fn)) {vs : List Value} (hv : KnownAll l vs) :
    HeapM.Takes K env (env.host.call fn vs) h l fun v _ l' => l'.knows v :=
  HeapM.takes_errand (.native hf hv) (hd.call hR hc hf hv)

lemma takes_callValue (hd : Decent K R env) (hself : CourseRunner K R env self)
    (hr : Informed K R env c s.heap l) {callee : Value} (ha : KnownArgs l args) {site : Location} :
    Eval.Takes K env (callValue env self c callee args site) s l fun v _ l' => l'.knows v := by
  unfold callValue
  split
  · next id =>
    refine (Eval.takes_read fun f hf => Heap.callable_eq_ok.mp hf).bind
      (Q := fun f h _ => h.object? id = some (.callable f)) fun f s1 l1 h1 hf => ?_
    have hr1 := hr.later hd h1
    have ha1 := ha.later h1
    have hbody : K.Licensed f.body := (hr1.covers.object id _ hf).body f rfl
    split
    · exact (takes_callScript hd hself hr1 hf ha1).mapError
    · next fn heq =>
      refine (takes_bindArguments hr1.covers hf ha1).bind fun bound s2 l2 h2 hbound => ?_
      obtain ⟨⟨hheap, rfl⟩, hbound⟩ := hbound
      have hargs : KnownAll l2 (bound.map Prod.snd) := fun v hv => by
        obtain ⟨b, hb, rfl⟩ := List.mem_map.mp hv
        exact hbound b hb
      refine Eval.takes_onHeap (takes_native hd ?_ ?_ (heq ▸ hbody) hargs)
      all_goals rw [hheap]
      · exact hr1.reached
      · exact hr1.covers
    · next create heq =>
      exact takes_createNode hd hr1.reached hr1.covers (heq ▸ hbody) ha1
    · refine (takes_operandsOf args ha1).bind fun operands s2 l2 h2 hops => ?_
      exact takes_callBuiltin hself (hr1.later hd h2).covers hops
  · exact Eval.takes_fail

lemma takes_callReserved (hd : Decent K R env) (hself : CourseRunner K R env self)
    (hr : Informed K R env c s.heap l) {name : Name} {operands : List Value}
    (hv : KnownAll l operands) {site : Location} :
    Eval.Takes K env (callReserved env self c name operands site) s l fun v _ l' => l'.knows v := by
  refine (takes_lookup hd hself hr hr.frame).bind fun f s' l' hc _ => ?_
  refine takes_callValue hd hself (hr.later hd hc) fun a ha => ?_
  obtain ⟨v, hmem, rfl⟩ := List.mem_map.mp ha
  exact hc.knows (hv v hmem)

end Patchbay
