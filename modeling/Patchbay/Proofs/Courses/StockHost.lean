import Patchbay.Proofs.Courses.Histories
import Patchbay.Proofs.Safety.Stock

/-!
# The stock host is discreet

Code of the stock host that brings no handle of its own deals in its arguments and in what the heap
holds. It makes nothing known but the objects that it stores, so operator graphs stay wired with it.
-/

namespace Patchbay.Stock

variable {h h' : Heap types} {l : Ledger} {v : Value} {n : Node types}

/-- The customs of the stock host. -/
abbrev customs : Customs types := .discreet kernels Trusted

lemma knows_bare (hc : customs.Covers h l) (hv : Bare v) : l.knows v :=
  hc.knows_plain fun _ => hv.valid

/-! ## Kernels -/

/-- Ticking is discreet. -/
lemma may_tick (hc : customs.Covers h l) (id : ObjectId) : customs.may h l (.tick id) := by
  intro n state inputs hn hk hin
  have hholds := hc.object id _ hn
  have hbare : BareKernel state := hholds.kernel state (by rw [HeapObject.hostKernel?, hk])
  refine ⟨bareKernel_tick hbare, fun vs hr v hv => ?_⟩
  obtain ⟨ws, hws, rfl⟩ := map_eq_ok.mp hr
  exact forall_tick (P := l.knows) (fun _ hplain => hc.knows_plain hplain) hholds.value hbare
    (fun w hw => hc.knows_inputs hin w (Array.mem_toList_iff.mp hw)) hws v (by simpa using hv)

/-! ## Functions -/

/-- An operation that is discreet is an errand. -/
lemma ends_operation {α : Type} {m : HeapM types α} {op : Operation types}
    (hop : customs.may h l op) (hm : m.leaves h = op.after kernels h) :
    m.Ends h (fun _ h' => customs.Errand kernels (h, l) (h', l.after h op))
      fun _ h' => customs.Errand kernels (h, l) (h', l.after h op) := by
  have herrand : customs.Errand kernels (h, l) (m.leaves h, l.after h op) := hm ▸ .act (.refl _) hop
  exact HeapM.ends_of_leaves (Q := fun h' => customs.Errand kernels (h, l) (h', l.after h op))
    herrand

/-- Host code that stores one object and returns its handle. -/
lemma ends_stores {o : HeapObject types} (hu : o.Unwired) (ho : l.Holds Trusted o) :
    (HeapM.allocValue o).Ends h
      (fun v h' => ∃ l', customs.Errand kernels (h, l) (h', l') ∧ l'.knows v)
      fun _ h' => ∃ l', customs.Errand kernels (h, l) (h', l') :=
  have hmay : customs.may h l (.alloc o) := ⟨hu, ho⟩
  ⟨_, .act (.refl _) hmay, .inr (congrArg (Value.object o.kind) Heap.alloc_fst)⟩

lemma discreet_call {fn : Function} {args : List Value} (hc : customs.Covers h l)
    (hf : BareFunction fn) (ha : ∀ v ∈ args, l.knows v) :
    (call fn args).Ends h
      (fun v h' => ∃ l', customs.Errand kernels (h, l) (h', l') ∧ l'.knows v)
      fun _ h' => ∃ l', customs.Errand kernels (h, l) (h', l') := by
  have hfirst : l.knows (args.head?.getD .absent) := by
    cases args with
    | nil => exact hc.absent
    | cons v rest => exact ha v List.mem_cons_self
  cases fn with
  | const v => exact ⟨l, .refl _, knows_bare hc hf⟩
  | first => exact ⟨l, .refl _, hfirst⟩
  | count => exact ⟨l, .refl _, hc.prim _⟩
  | pack =>
    refine ends_stores (HeapObject.unwired_of_kind fun hk => by cases hk)
      (Customs.holds_data (K := customs) (fun v hv => ha v ?_) (fun x hx => by cases hx) rfl rfl)
    simpa [HeapObject.values] using hv
  | cell =>
    refine ends_stores (HeapObject.unwired_of_kind fun hk => by cases hk)
      (Customs.holds_data (K := customs) (fun v hv => ?_) (fun x hx => by cases hx) rfl rfl)
    rw [List.mem_singleton.mp hv]
    exact hfirst
  -- ticking the node its argument refers to is the one stock function that runs a kernel
  | tick =>
    cases hid : args.head?.bind Value.referent with
    | none =>
      have hrun : call .tick args = (do pure (); return .absent) := by
        simp only [call, hid]
      rw [hrun]
      exact ⟨l, .refl _, hc.absent⟩
    | some id =>
      have hrun : call .tick args = (do Heap.tickNode kernels id; return .absent) := by
        simp only [call, hid]
      have hticks : (Heap.tickNode kernels id).Ends h
          (fun _ h' => customs.Errand kernels (h, l) (h', l.after h (.tick id)))
          fun _ h' => customs.Errand kernels (h, l) (h', l.after h (.tick id)) :=
        ends_operation (may_tick hc id) rfl
      rw [hrun]
      exact (hticks.mono (fun _ _ he => he) fun _ _ he => ⟨_, he⟩).bind fun _ h' he =>
        ⟨_, he, .inl hc.absent⟩
  | payload text => exact ⟨l, .refl _, hc.prim _⟩
  | fail message => exact ⟨l, .refl _⟩

/-! ## Factories -/

lemma holds_bareNode (hc : customs.Covers h l) (hn : BareNode n) : l.Holds Trusted (.node n) where
  value v hv := knows_bare hc (hn.values v hv)
  scope x hx := by cases hx
  body f hf := by cases hf
  kernel := (hn.fits (h := h)).kernel

lemma discreet_factory {create : FunctionFactory types} (hf : FunctionFactory.IsBare create)
    {request : FunctionRequest} (hc : customs.Covers h l)
    (hframe : l.knows (.frame request.frame)) : (create request).Ends h
      (fun f h' => ∃ l', customs.Errand kernels (h, l) (h', l') ∧ customs.Holds l' (.callable f))
      fun _ h' => ∃ l', customs.Errand kernels (h, l) (h', l') := by
  cases hf with
  | @ofSpec spec closed own hspec =>
    have hdeclare := ends_declare (I := fun h' => customs.Errand kernels (h, l) (h', l))
      (fun h text he => he.act (show customs.may h l (.intern text) from trivial)) spec.params
        (.refl (h, l))
    have hcallable : (spec.callable request.name (some request.library)).Ends h
        (fun f h' => customs.Errand kernels (h, l) (h', l) ∧ customs.Holds l (.callable f))
        fun _ h' => customs.Errand kernels (h, l) (h', l) := by
      refine hdeclare.bind fun ps h1 hps => ⟨hps.1, fun v hv => ?_, nofun, fun f hf => ?_, nofun⟩
      · obtain ⟨p, hp, hdefault⟩ := List.mem_filterMap.mp hv
        obtain ⟨q, hq, hvq⟩ := hps.2 p hp v hdefault
        exact knows_bare hc (hspec.params q hq v hvq)
      · cases hf
        exact hspec.function _
    refine (hcallable.mono (fun _ _ hf => hf) fun _ _ he => ⟨l, he⟩).bind fun f h1 hf =>
      ⟨l, hf.1, hf.2.value, fun x hx => ?_, fun f' hf' => ?_, nofun⟩
    · cases closed with
      | true =>
        cases hx
        exact hframe
      | false => cases hx
    · cases hf'
      exact hf.2.body f rfl
  | broken message => exact ⟨l, .refl _⟩

/-- The stock host is discreet if its factories bring no handles. -/
lemma discreet {env : Environment types} {start : Heap types} (hhost : env.host = host)
    (hfunctions : ∀ p ∈ env.plugins.functions, FunctionFactory.IsBare p.factory)
    (hnodes : ∀ p ∈ env.plugins.nodes, NodeFactory.IsBare p.factory) :
    env.Discreet Trusted start := by
  obtain ⟨_, plugins, loader, root⟩ := env
  cases hhost
  refine ⟨fun _ hc hf ha => discreet_call hc hf ha,
    fun {h l} create _ hc hcreate request n hn library => ?_,
    fun p hp _ _ _ _ hc hframe => discreet_factory (hfunctions p hp) hc hframe,
    fun p hp => trusted_nodeFactory (hnodes p hp)⟩
  have hbare := (hcreate request).2 n hn
  have hmay : customs.may h l (.alloc (.node { n with library := library })) :=
    ⟨hbare.unwired, holds_bareNode hc ⟨hbare.unwired, hbare.values, hbare.kernel⟩⟩
  exact ⟨_, .act (.refl _) hmay, .inr rfl⟩

end Patchbay.Stock
