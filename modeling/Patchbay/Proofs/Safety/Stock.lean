import Patchbay.Host.Stock
import Patchbay.Proofs.Safety.Host

/-!
# The stock host keeps the contract

Code of the stock host is trusted if it brings no handle of its own: constants and fixed outputs are
primitives, and so are the params and defaults that factories write. Then all handles that it deals
in come from its arguments and from the heap, so programs are safe with it.
-/

namespace Patchbay.Stock

open Heap (Sound Performs Later)

/-- Whether a value refers to no object. -/
def Bare (v : Value) : Prop := v.referent = none

/-- Whether a kernel brings no handle. -/
def BareKernel : KernelState → Prop
  | .fixed values => ∀ v ∈ values, Bare v
  | _ => True

/-- Whether a node is not wired and brings no handle. -/
structure BareNode (n : Node types) : Prop where
  unwired : (HeapObject.node n).Unwired
  values : ∀ v ∈ (HeapObject.node n).values, Bare v
  kernel : ∀ state, n.kernel = some (.host state) → BareKernel state

/-- Whether a function brings no handle. -/
def BareFunction : Function → Prop
  | .const v => Bare v
  | _ => True

/-- The code of the stock host that is trusted, in every heap. -/
def Trusted : HostCode types → Prop
  | .native fn => BareFunction fn
  | .creator create => ∀ request, Quiet (create request) ∧
      ∀ n, create request = .ok n → BareNode n
  | .kernel state => BareKernel state

def trust : Trust types where
  holds _ := Trusted
  grown _ hcode := hcode
  unpinned _ hcode := hcode
  collected _ _ _ hcode := hcode

variable {h h' : Heap types} {v : Value} {n : Node types}

lemma Bare.valid (hv : Bare v) : v.ValidIn h := by
  cases v with
  | absent => trivial
  | prim p => trivial
  | object kind id => cases hv
  | port kind p => cases hv

lemma BareNode.fits (hn : BareNode n) : h.Fits trust (.node n) :=
  Heap.fits_node hn.unwired (fun v hv => (hn.values v hv).valid) hn.kernel

/-! ## Kernels -/

lemma bareKernel_tick {state : KernelState} {inputs : List Value} (hk : BareKernel state) :
    BareKernel (tick state n inputs).2 := by
  cases state with
  | gain =>
    unfold tick
    dsimp only
    split
    · trivial
    · trivial
  | counter ticks => trivial
  | _ => exact hk

/-- What a kernel sends comes from the values of its node, from its inputs, or refers to nothing. -/
lemma forall_tick {P : Value → Prop} {state : KernelState} {inputs vs : List Value}
    (hplain : ∀ v, (∀ h : Heap types, v.ValidIn h) → P v)
    (hvalues : ∀ v ∈ (HeapObject.node n).values, P v) (hk : BareKernel state)
    (hin : ∀ v ∈ inputs, P v) (hr : (tick state n inputs).1 = .ok vs) : ∀ v ∈ vs, P v := by
  have hparam : ∀ param, P ((n.param? param).getD .absent) := by
    intro param
    cases hp : n.param? param with
    | none => exact hplain _ fun _ => trivial
    | some w => exact hvalues w (Heap.mem_values_param hp)
  cases state with
  | emit param =>
    cases hr
    intro v hv
    rw [List.mem_singleton.mp hv]
    exact hparam param
  | picky param =>
    cases hr
    intro v hv
    rw [List.mem_singleton.mp hv]
    exact hparam param
  | gain =>
    unfold tick at hr
    dsimp only at hr
    split at hr
    · obtain ⟨w, hw, rfl⟩ := map_eq_ok.mp hr
      intro v hv
      rw [List.mem_singleton.mp hv]
      exact hplain w fun _ => Value.valid_binary hw
    · cases hr
  | counter ticks =>
    cases hr
    intro v hv
    rw [List.mem_singleton.mp hv]
    exact hplain _ fun _ => Value.valid_prim
  | fixed values =>
    cases hr
    exact fun v hv => hplain v fun _ => (hk v hv).valid
  | pass =>
    cases hr
    exact hin
  | fail message => cases hr

lemma quiet_tick {state : KernelState} {inputs : List Value} : Quiet (tick state n inputs).1 := by
  cases state with
  | gain =>
    unfold tick
    dsimp only
    split
    · exact Value.plain_binary.quiet.map
    · exact .fail rfl
  | fail message => exact .fail rfl
  | _ => exact .pure

lemma behaves : kernels.Behaves trust where
  tick {h id n state inputs} hs hn hk hin := by
    refine ⟨fun vs hr v hv => ?_, bareKernel_tick hk, quiet_tick.map⟩
    obtain ⟨ws, hws, rfl⟩ := map_eq_ok.mp hr
    exact forall_tick (P := fun v => v.ValidIn h) (fun _ hplain => hplain h) (hs.value id _ hn) hk
      (fun w hw => hin w (Array.mem_toList_iff.mp hw)) hws v (by simpa using hv)
  checkParam {h state} _ _ name v := by
    change Quiet (Stock.checkParam state name v)
    cases state with
    | picky param =>
      unfold Stock.checkParam
      dsimp only
      split
      · exact .fail rfl
      · exact .pure
    | _ => exact .pure

/-! ## Functions -/

/-- Host code that stores one object and returns its handle. -/
lemma ends_allocValue {o : HeapObject types} (hs : Sound trust h) (ho : h.Fits trust o) :
    (HeapM.allocValue o).Ends h (fun v h' => Performs trust kernels h h' ∧ v.ValidIn h')
      fun e h' => Performs trust kernels h h' ∧ e.isDead = false :=
  have hop : (Operation.alloc o).Allowed trust h := ho
  ⟨.step (.refl h) hop, (HeapM.safe_allocValue hs ho).2⟩

/-- Host code that ticks a node which is live. -/
lemma ends_tickNode {id : ObjectId} (hs : Sound trust h) (hc : h.contains id = true) :
    (Heap.tickNode kernels id).Ends h (fun _ h' => Performs trust kernels h h')
      fun e h' => Performs trust kernels h h' ∧ e.isDead = false := by
  have hop : (Operation.tick id).Allowed trust h := trivial
  have hstep : Performs trust kernels h ((Heap.tickNode kernels id).leaves h) := .step (.refl h) hop
  have hsafe := (Heap.keeps_tickNode behaves hs).safe hc
  unfold HeapM.leaves at hstep
  unfold HeapM.Safe HeapM.Keeps HeapM.Ends at hsafe
  unfold HeapM.Ends
  cases hr : Heap.tickNode kernels id h with
  | ok a h' =>
    rw [hr] at hstep
    exact hstep
  | error e h' =>
    rw [hr] at hstep hsafe
    exact ⟨hstep, hsafe.2 trivial⟩

lemma ends_call {fn : Function} {args : List Value} (hs : Sound trust h) (hf : BareFunction fn)
    (ha : ∀ v ∈ args, v.ValidIn h) :
    (call fn args).Ends h (fun v h' => Performs trust kernels h h' ∧ v.ValidIn h')
      fun e h' => Performs trust kernels h h' ∧ e.isDead = false := by
  have hfirst : (args.head?.getD .absent).ValidIn h := by
    cases args with
    | nil => trivial
    | cons v rest => exact ha v List.mem_cons_self
  cases fn with
  | const v => exact ⟨.refl h, Bare.valid hf⟩
  | first => exact ⟨.refl h, hfirst⟩
  | count => exact ⟨.refl h, Value.valid_prim⟩
  | pack =>
    refine ends_allocValue hs (Heap.fits_sequence fun v hv => ha v ?_)
    simpa using hv
  | cell => exact ends_allocValue hs (Heap.fits_ref hfirst)
  | tick =>
    cases hid : args.head?.bind Value.referent with
    | none =>
      have hrun : call .tick args = (do pure (); return .absent) := by
        simp only [call, hid]
      rw [hrun]
      exact ⟨.refl h, trivial⟩
    | some id =>
      obtain ⟨v, hv, href⟩ := Option.bind_eq_some_iff.mp hid
      have hc := Heap.contains_of_validIn (ha v (List.mem_of_mem_head? hv)) href
      have hrun : call .tick args = (do Heap.tickNode kernels id; return .absent) := by
        simp only [call, hid]
      rw [hrun]
      exact (ends_tickNode hs hc).bind fun _ h' hp => ⟨hp, trivial⟩
  | payload text => exact ⟨.refl h, Value.valid_prim⟩
  | fail message => exact ⟨.refl h, rfl⟩

/-! ## Factories -/

/-- Whether nodes as specified bring no handle. -/
structure NodeSpec.IsBare (spec : NodeSpec) : Prop where
  kernel : ∀ state, spec.kernel = .host state → BareKernel state
  params : ∀ p ∈ spec.params, Bare p.2

lemma BareNode.withInput (hn : BareNode n) (name : String) : BareNode (n.withInput name) := by
  refine ⟨fun i => ⟨?_, (hn.unwired i).2⟩, hn.values, hn.kernel⟩
  have hold := (hn.unwired i).1
  simp only [HeapObject.sourceAt, Node.withInput, Array.getElem?_push] at hold ⊢
  split
  · rfl
  · exact hold

lemma BareNode.withOutput (hn : BareNode n) (name : String) : BareNode (n.withOutput name) := by
  refine ⟨fun i => ⟨(hn.unwired i).1, ?_⟩, fun v hv => hn.values v ?_, hn.kernel⟩
  · have hold := (hn.unwired i).2
    simp only [HeapObject.targetsAt, Node.withOutput, Array.getElem?_push] at hold ⊢
    split
    · rfl
    · exact hold
  · simpa [HeapObject.values, Node.withOutput] using hv

lemma BareNode.withParam (hn : BareNode n) {p : String × Value} (hp : Bare p.2) :
    BareNode (n.withParam p.1 p.2) := by
  refine ⟨hn.unwired, fun v hv => ?_, hn.kernel⟩
  simp only [HeapObject.values, Node.withParam, Array.toList_push, List.map_append, List.map_cons,
    List.map_nil, List.mem_append, List.mem_singleton] at hv
  rcases hv with (hold | rfl) | hout
  · exact hn.values v (List.mem_append_left _ hold)
  · exact hp
  · exact hn.values v (List.mem_append_right _ hout)

lemma NodeSpec.bareNode {spec : NodeSpec} (hspec : spec.IsBare) (name kind : String) :
    BareNode (spec.node name kind) := by
  have hnew : BareNode (Node.new name kind spec.kernel : Node types) :=
    ⟨HeapObject.unwired_node (by simp [Node.new]) (by simp [Node.new]),
      by simp [HeapObject.values, Node.new],
      fun state hk => hspec.kernel state (Option.some.inj hk)⟩
  have hinputs : BareNode (spec.inputs.foldl Node.withInput (.new name kind spec.kernel)) :=
    List.foldlRecOn _ _ hnew fun n hn input _ => hn.withInput input
  have houtputs := List.foldlRecOn (motive := BareNode) spec.outputs Node.withOutput hinputs
    fun n hn output _ => hn.withOutput output
  have hparams := List.foldlRecOn (motive := BareNode) spec.params
    (fun n p => n.withParam p.1 p.2) houtputs fun n hn p hp => hn.withParam (hspec.params p hp)
  exact ⟨hparams.unwired, hparams.values, hparams.kernel⟩

/-- Whether functions as specified bring no handle. -/
structure FunctionSpec.IsBare (spec : FunctionSpec) : Prop where
  function : ∀ library, BareFunction (spec.function library)
  params : ∀ p ∈ spec.params, ∀ v ∈ p.2, Bare v

/-- Declaring parameters interns their names, and takes their defaults over. What is kept by
interning names is kept. -/
lemma ends_declare {I : Heap types → Prop}
    (hintern : ∀ h text, I h → I ((Operation.intern text).after kernels h))
    (params : List (String × Option Value)) (hI : I h) :
    (declare params).Ends h
      (fun ps h' => I h' ∧ ∀ p ∈ ps, ∀ v ∈ p.default, ∃ q ∈ params, v ∈ q.2) fun _ h' => I h' := by
  induction params generalizing h with
  | nil => exact ⟨hI, fun p hp => by cases hp⟩
  | cons q rest ih =>
    obtain ⟨name, default⟩ := q
    have hname : (Heap.internName name : HeapM types Name).Ends h (fun _ h' => I h')
        fun _ h' => I h' :=
      hintern h name hI
    refine hname.bind fun id h1 h1p => (ih h1p).bind fun ps h2 h2p => ⟨h2p.1, fun p hp v hv => ?_⟩
    rcases List.mem_cons.mp hp with rfl | hrest
    · exact ⟨_, List.mem_cons_self, hv⟩
    · obtain ⟨q, hq, hvq⟩ := h2p.2 p hrest v hv
      exact ⟨q, List.mem_cons_of_mem _ hq, hvq⟩

/-- The factories that make trusted nodes. -/
inductive NodeFactory.IsBare : NodeFactory types → Prop where
  | ofSpec {spec : NodeSpec} : spec.IsBare → IsBare spec.factory
  | broken (message : String) : IsBare (brokenNode message)

/-- The factories that make trusted functions. -/
inductive FunctionFactory.IsBare : FunctionFactory types → Prop where
  | ofSpec {spec : FunctionSpec} (closed : Bool) (own : Option Library) :
      spec.IsBare → IsBare (spec.factory closed own)
  | broken (message : String) : IsBare (brokenFunction message)

lemma trusted_nodeFactory {create : NodeFactory types} (hc : NodeFactory.IsBare create) :
    Trusted (.creator create) := by
  intro request
  cases hc with
  | ofSpec hspec =>
    refine ⟨.pure, fun n hn => ?_⟩
    cases hn
    exact NodeSpec.bareNode hspec _ _
  | broken message => exact ⟨.fail rfl, fun n hn => by cases hn⟩

lemma ends_functionFactory {create : FunctionFactory types} (hc : FunctionFactory.IsBare create)
    {request : FunctionRequest} (hs : Sound trust h) (hframe : h.HasKind .frame request.frame) :
    (create request).Ends h
      (fun f h' => Performs trust kernels h h' ∧ h'.Fits trust (.callable f))
      fun _ h' => Performs trust kernels h h' := by
  cases hc with
  | @ofSpec spec closed own hspec =>
    have hdeclare := ends_declare (I := Performs trust kernels h)
      (fun h text hp => hp.step (show (Operation.intern text).Allowed trust h from trivial))
        spec.params (.refl h)
    have hcallable : (spec.callable request.name (some request.library)).Ends h
        (fun f h' => Performs trust kernels h h' ∧ h'.Fits trust (.callable f))
        fun _ h' => Performs trust kernels h h' := by
      refine hdeclare.bind fun ps h1 hps =>
        ⟨hps.1, Heap.fits_callable (fun p hp v hv => ?_) nofun ?_⟩
      · obtain ⟨q, hq, hvq⟩ := hps.2 p hp v hv
        exact (hspec.params q hq v hvq).valid
      · exact hspec.function _
    refine hcallable.bind fun f h1 hf => ⟨hf.1, hf.2.within fun x hx => ?_⟩
    cases closed with
    | true =>
      cases hx
      exact (hf.1.later behaves hs).grown.hasKind hframe
    | false => cases hx
  | broken message => exact .refl h

theorem contract {plugins : Registry types} {loader : Option Loader}
    (hfunctions : ∀ p ∈ plugins.functions, FunctionFactory.IsBare p.factory)
    (hnodes : ∀ p ∈ plugins.nodes, NodeFactory.IsBare p.factory)
    (hload : ∀ load ∈ loader, ∀ path names, Quiet (load path names).1) :
    Contract trust host plugins loader where
  toBehaves := behaves
  call := ends_call
  create _ hcreate request := ⟨(hcreate request).1, fun n hn => ((hcreate request).2 n hn).fits⟩
  function p hp _ _ := ends_functionFactory (hfunctions p hp)
  node p hp _ _ := trusted_nodeFactory (hnodes p hp)
  load := hload

end Patchbay.Stock
