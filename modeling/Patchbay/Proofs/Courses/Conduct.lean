import Patchbay.Proofs.Balance.Sessions
import Patchbay.Proofs.Courses.Steps
import Patchbay.Proofs.Lifting.Building

/-!
# Decent host code

Building an operator node stores nodes and connects inputs of the new node, in whichever way it
ends; so an invariant of these two is one of building. Host code is decent if its calls are errands
that store only what is known. Then all that is stored stays known in every course.
-/

namespace Patchbay

variable {H : HostTypes} {K : Customs H} {env : Environment H} {α β : Type}

/-! ## What is left behind -/

namespace Eval

variable {m : Eval H α} {f : α → Eval H β} {s : Session H} {P : Session H → Prop}

/-- What holds of the results of the first part decides about the whole. -/
lemma leaves_bind {Q : α → Session H → Prop} (hok : ∀ a s', m s = .ok a s' → Q a s')
    (herr : ∀ e s', m s = .error e s' → P s') (hf : ∀ a s', Q a s' → (f a s').Leaves P) :
    ((m >>= f) s).Leaves P := by
  change (Eval.bind m f s).Leaves P
  unfold Eval.bind
  cases hr : m s with
  | ok a s' => exact hf a s' (hok a s' hr)
  | error e s' => exact herr e s' hr
  | outOfFuel => trivial

lemma leaves_onHeap_bind {g : HeapM H α} {I : Heap H → Prop}
    (hg : g.Ends s.heap (fun _ => I) fun _ => I)
    (hf : ∀ a s', I s'.heap → (f a s').Leaves fun s' => I s'.heap) :
    ((onHeap g >>= f) s).Leaves fun s' => I s'.heap := by
  refine leaves_bind (Q := fun _ s' => I s'.heap) (fun a s' hr => ?_) (fun e s' hr => ?_) hf
  all_goals
    unfold HeapM.Ends at hg
    unfold onHeap at hr
    dsimp only at hr
    cases hrun : g s.heap with
    | ok a' h =>
      rw [hrun] at hg hr
      cases hr
      try exact hg
    | error e' h =>
      rw [hrun] at hg hr
      cases hr
      try exact hg

end Eval

/-! ## Building -/

namespace Lift

variable {I : Heap H → Prop} {Q : PortRef → Prop} {operands : List Value} {node : ObjectId}

/-- What is kept by storing constant nodes and connecting inputs of a node is kept by wiring the
node. The ports that its inputs are connected to are those of operands and of constant nodes. -/
lemma leaves_wire {kind : String} {count : Nat} (rest : List Value) {position : Nat} {s : Session H}
    (hsub : ∀ u ∈ rest, u ∈ operands) (hgiven : ∀ p, .output p ∈ operands → Q p)
    (hconstant : ∀ h name u, I h → u ∈ operands → u.isOutput = false →
      I (h.alloc (.node (.constant name u))).2 ∧ Q ⟨h.nextId, 0⟩)
    (hplug : ∀ h index p, I h → Q p → h.HasInput ⟨node, index⟩ → h.HasOutput p →
      I ((h.unplug ⟨node, index⟩).plug ⟨node, index⟩ p))
    (hs : I s.heap) : (wire node kind count position rest s).Leaves fun s' => I s'.heap := by
  induction rest generalizing position s with
  | nil => exact hs
  | cons u rest ih =>
    have hu : u ∈ operands := hsub u List.mem_cons_self
    unfold wire
    refine Eval.leaves_bind (Q := fun p s' => I s'.heap ∧ Q p) (fun p s1 hrun => ?_)
      (fun e s1 hrun => ?_) fun p s1 hp => ?_
    -- an output stands for itself, anything else goes into a new constant node
    · rcases sourcePort_cases u s with ⟨q, rfl, hq⟩ | ⟨name, hout, hq⟩
      · cases hq.symm.trans hrun
        exact ⟨hs, hgiven _ hu⟩
      · cases hq.symm.trans hrun
        exact hconstant s.heap name u hs hu hout
    · rcases sourcePort_cases u s with ⟨q, rfl, hq⟩ | ⟨name, -, hq⟩ <;> cases hq.symm.trans hrun
    · cases Node.portIndex? position with
      | none => exact hp.1
      | some index =>
        refine Eval.leaves_onHeap_bind (I := I) (Heap.ends_connect.mono (fun _ h' hc => ?_)
          fun e h' he => ?_) fun _ s2 h2 => ih (fun w hw => hsub w (List.mem_cons_of_mem _ hw)) h2
        · rw [hc.2.2]
          exact hplug s1.heap index p hp.1 hp.2 hc.1 hc.2.1
        · rw [he.1]
          exact hp.1

/-- What is kept by storing the new node and its constants and by connecting its inputs is kept by
building, whichever way it ends. -/
lemma leaves_build {kind : String} {make : String → Node H} {s : Session H}
    (hmake : ∀ name, I (s.heap.alloc (.node (make name))).2)
    (hgiven : ∀ p, .output p ∈ operands → Q p)
    (hconstant : ∀ h name u, I h → u ∈ operands → u.isOutput = false →
      I (h.alloc (.node (.constant name u))).2 ∧ Q ⟨h.nextId, 0⟩)
    (hplug : ∀ h index p, I h → Q p → h.HasInput ⟨s.heap.nextId, index⟩ → h.HasOutput p →
      I ((h.unplug ⟨s.heap.nextId, index⟩).plug ⟨s.heap.nextId, index⟩ p)) :
    (build kind make operands s).Leaves fun s' => I s'.heap := by
  rw [build_eq]
  have hwire : (wire s.heap.nextId kind operands.length 0 operands
      (s.making (make (kind ++ "#" ++ toString (s.nodesNamed + 1))))).Leaves fun s' => I s'.heap :=
    leaves_wire operands (fun _ hu => hu) hgiven hconstant hplug (hmake _)
  refine Eval.leaves_bind (Q := fun _ s' => I s'.heap) (fun _ s1 hrun => ?_) (fun e s1 hrun => ?_)
    fun _ s1 h1 => h1
  · rwa [hrun] at hwire
  · rwa [hrun] at hwire

end Lift

/-- The node that a builtin makes has an input for each operand, and is not wired. -/
lemma Operator.blank {make : String → Node H} {count : Nat} (ho : Operator make count)
    (name : String) : Lift.Blank (make name) count := by
  cases ho with
  | index count =>
    refine ⟨HeapObject.unwired_index, ?_, rfl, rfl⟩
    simp [Node.index, Nat.add_comm]
  | binary op => exact ⟨HeapObject.unwired_binaryOp, rfl, rfl, rfl⟩
  | unary op => exact ⟨HeapObject.unwired_unaryOp, rfl, rfl, rfl⟩
  | cast type => exact ⟨HeapObject.unwired_cast, rfl, rfl, rfl⟩

/-! ## Host code -/

/-- In the places `R`, calls of host code are errands with known results, and functions that it
makes refer to what is known. -/
structure Environment.Follows (env : Environment H) (K : Customs H) (R : Heap H × Ledger → Prop) :
    Prop where
  call : ∀ {h l fn args}, R (h, l) → K.Covers h l → K.Licensed (.native fn) →
    (∀ v ∈ args, l.knows v) →
    (env.host.call fn args).Ends h
      (fun v h' => ∃ l', K.Errand env.host.toKernelHost (h, l) (h', l') ∧ l'.knows v)
      fun _ h' => ∃ l', K.Errand env.host.toKernelHost (h, l) (h', l')
  create : ∀ {h l create}, R (h, l) → K.Covers h l → K.Licensed (.nodeCreator create) →
    ∀ request n, create request = .ok n → ∀ library, ∃ l',
      K.Errand env.host.toKernelHost (h, l)
        ((h.alloc (.node { n with library := library })).2, l') ∧ l'.knows (.node h.nextId)
  function : ∀ plugin ∈ env.plugins.functions, ∀ {h l request}, R (h, l) → K.Covers h l →
    l.knows (.frame request.frame) →
    (plugin.factory request).Ends h
      (fun f h' => ∃ l', K.Errand env.host.toKernelHost (h, l) (h', l') ∧ K.Holds l' (.callable f))
      fun _ h' => ∃ l', K.Errand env.host.toKernelHost (h, l) (h', l')
  node : ∀ plugin ∈ env.plugins.nodes, K.Licensed (.nodeCreator plugin.factory)

lemma Environment.Follows.mono {R R' : Heap H × Ledger → Prop} (hf : env.Follows K R)
    (hR : ∀ a, R' a → R a) : env.Follows K R' where
  call ha := hf.call (hR _ ha)
  create ha := hf.create (hR _ ha)
  function plugin hp _ _ _ ha := hf.function plugin hp (hR _ ha)
  node := hf.node

/-- Host code follows customs that keep all that is stored known, and steps stay in the places
`R`. -/
structure Decent (K : Customs H) (R : Heap H × Ledger → Prop) (env : Environment H) : Prop
    extends env.Follows K R where
  act : ∀ {h l op}, K.may h l op → K.Covers h l →
    K.Covers (op.after env.host.toKernelHost h) (l.after h op)
  find : ∀ {h l v}, K.finds h l v → K.Covers h l → K.Covers h (l.learn (· = v))
  closed : ∀ {a b}, R a → Step K env a b → R b

section Steps

variable {R : Heap H × Ledger → Prop} {a b : Heap H × Ledger} {l : Ledger} {name : String}

lemma Customs.Errand.covers (hd : Decent K R env) (he : K.Errand env.host.toKernelHost a b)
    (hc : K.Covers a.1 a.2) : K.Covers b.1 b.2 := by
  induction he with
  | refl => exact hc
  | act _ hmay ih => exact hd.act hmay ih
  | find _ hfinds ih => exact hd.find hfinds ih

lemma Customs.Covers.holds_operator {h : Heap H} {make : String → Node H} {count : Nat}
    (hc : K.Covers h l) (ho : Operator make count) : K.Holds l (.node (make name)) := by
  refine Customs.holds_data (fun v hv => ?_) nofun rfl ho.no_hostKernel
  obtain ⟨p, rfl⟩ := ho.values_prim hv
  exact hc.prim p

lemma Customs.holds_constant {u : Value} (hu : l.knows u) :
    K.Holds l (.node (.constant name u)) := by
  refine Customs.holds_data (fun v hv => ?_) nofun rfl rfl
  rw [HeapObject.eq_of_mem_values_constant hv]
  exact hu

/-- A heap that building has come to, starting from `h`. -/
structure Heap.Building (K : Customs H) (l : Ledger) (h h' : Heap H) : Prop where
  tidy : h'.Tidy
  object : ∀ id o, h'.object? id = some o → K.Holds l o
  persists : h.Persists h'
  output : h'.HasPort .output ⟨h.nextId, 0⟩

lemma Heap.Building.alloc {h h' : Heap H} {o : HeapObject H} (hb : h.Building K l h')
    (ho : K.Holds l o) : h.Building K l (h'.alloc o).2 where
  tidy := hb.tidy.alloc o
  object id o' ho' := by
    rcases Heap.object?_alloc_or ho' with rfl | hold
    · exact ho
    · exact hb.object id o' hold
  persists := hb.persists.trans (Heap.extends_alloc hb.tidy).shape
  output := (Heap.extends_alloc hb.tidy).hasPort hb.output

/-- What building leaves behind stores only what was known. -/
lemma Customs.Covers.leaves_build {s : Session H} {make : String → Node H} {operands : List Value}
    (hc : K.Covers s.heap l) (kind : String) (ho : Operator make operands.length)
    (hv : ∀ v ∈ operands, l.knows v) :
    (Lift.build kind make operands s).Leaves fun s' => s.heap.Building K l s'.heap := by
  refine Lift.leaves_build (Q := fun _ => True) (I := fun h => s.heap.Building K l h)
    (fun name => ?_)
    (fun _ _ => trivial) (fun h name u hh hu _ => ⟨?_, trivial⟩) fun h index p hh _ _ _ => ?_
  · have hholds : K.Holds l (.node (make name)) := hc.holds_operator ho
    refine ⟨hc.tidy.alloc _, fun id o ho' => ?_, (Heap.extends_alloc hc.tidy).shape, ?_⟩
    · rcases Heap.object?_alloc_or ho' with rfl | hold
      · exact hholds
      · exact hc.object id o hold
    · refine Heap.hasPort_iff.mpr ⟨make name, ?_, rfl, ?_⟩
      · rw [Heap.object?_alloc hc.tidy, if_pos rfl]
      · show 0 < (make name).outputs.size
        rw [(ho.blank name).outputs]
        exact Nat.zero_lt_one
  · exact hh.alloc (Customs.holds_constant (hv u hu))
  · have hr : Heap.Rewired h ((h.unplug ⟨s.heap.nextId, index⟩).plug ⟨s.heap.nextId, index⟩ p) :=
      Heap.rewired_unplug.trans Heap.rewired_plug
    refine ⟨hr.sameSlots.tidy hh.tidy, fun id o' ho' => ?_, hh.persists.trans hr.extends.shape,
      hr.extends.hasPort hh.output⟩
    obtain ⟨o, hobj, hrw⟩ := hr.object_from ho'
    have hold := hh.object id o hobj
    exact ⟨fun v hv => (hrw.value v hv).elim (hold.value v) False.elim,
      fun x hx => hold.scope x (hrw.scope ▸ hx), fun c hc => hold.body c (hrw.callable ▸ hc),
      fun k hk => (hrw.kernel k hk).elim (hold.kernel k) False.elim⟩

lemma Customs.Covers.building {h h' : Heap H} (hc : K.Covers h l) (hb : h.Building K l h') :
    K.Covers h' l :=
  ⟨hb.tidy, hb.object, hc.absent, hc.prim, hc.all, fun hnot v hv =>
    hb.persists.valid (hc.valid hnot v hv)⟩

/-- The result of building is the output of the new node. -/
lemma Lift.build_result {kind : String} {make : String → Node H} {operands : List Value}
    {s s' : Session H} {v : Value} (hr : build kind make operands s = .ok v s') :
    v = .output ⟨s.heap.nextId, 0⟩ := by
  rw [build_eq] at hr
  obtain ⟨_, _, -, hlast⟩ := Eval.bind_eq_ok.mp hr
  cases hlast
  rfl

lemma Step.covers (hd : Decent K R env) (hs : Step K env a b) (hc : K.Covers a.1 a.2) :
    K.Covers b.1 b.2 := by
  cases hs with
  | own hop => exact hc.own hop
  | port _ hport =>
    refine hc.learn fun _ v hv => ?_
    rw [hv]
    exact hport
  | names names => exact hc.stored .names
  | native _ _ _ errand => exact errand.covers hd hc
  | factory _ _ _ errand => exact errand.covers hd hc
  | node _ _ _ errand => exact errand.covers hd hc
  | @built s s' l kind make operands id ho hv hrun =>
    have hleaves := Customs.Covers.leaves_build (s := s) hc kind ho hv
    rw [hrun] at hleaves
    have hresult := Lift.build_result hrun
    have hlearned : K.Covers s'.heap (l.learn (· = .output ⟨id, 0⟩)) := by
      refine (hc.building hleaves).learn fun _ v hv => ?_
      rw [hv, hresult]
      exact hleaves.output
    exact hlearned.record _
  -- a construction that failed half way leaves the nodes it made, all of them covered
  | @abandoned s s' l kind make operands e ho hv hrun =>
    have hleaves := Customs.Covers.leaves_build (s := s) hc kind ho hv
    rw [hrun] at hleaves
    exact (hc.building hleaves).record _

/-- All that is stored stays known. -/
lemma Course.covers (hd : Decent K R env) (hc : Course K env a b) (ha : K.Covers a.1 a.2) :
    K.Covers b.1 b.2 := by
  induction hc with
  | refl => exact ha
  | tail _ step ih => exact step.covers hd ih

lemma Course.reached (hd : Decent K R env) (hc : Course K env a b) (ha : R a) : R b := by
  induction hc with
  | refl => exact ha
  | tail _ step ih => exact hd.closed ih step

end Steps

end Patchbay
