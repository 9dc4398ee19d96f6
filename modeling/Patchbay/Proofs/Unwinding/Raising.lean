import Patchbay.Proofs.Safety.Rules

/-!
# What errors are raised

Where the rules of the language fail by themselves, the error is new: it tells a cause, and no
place. The errors of others are taken over as they are. They come from native functions, from
kernels that refuse a value, from factories and from the loader.
-/

namespace Patchbay

variable {H : HostTypes} {α β : Type}

/-! ## Changing the heap -/

namespace HeapM

variable {P Q : EvalError → Prop} {m : HeapM H α} {k : α → HeapM H β}

/-- If the operation fails, `P` holds of the error. -/
def FailsAs (P : EvalError → Prop) (m : HeapM H α) : Prop :=
  ∀ h, m.Ends h (fun _ _ => True) fun e _ => P e

lemma failsAs_pure {a : α} : FailsAs P (pure a : HeapM H α) := fun _ => trivial

lemma failsAs_fail {c : Cause} (hc : P (.of c)) : FailsAs P (fail c : HeapM H α) := fun _ => hc

lemma failsAs_change {f : Heap H → Heap H} : FailsAs P (change f) := fun _ => trivial

lemma failsAs_alloc {o : HeapObject H} : FailsAs P (alloc o) := fun _ => trivial

lemma failsAs_allocValue {o : HeapObject H} : FailsAs P (allocValue o) := fun _ => trivial

lemma failsAs_read {look : Heap H → Except EvalError α} (hlook : ∀ h, Patchbay.FailsAs P (look h)) :
    FailsAs P (read look) := fun h => ends_read.mpr ⟨fun _ _ => trivial, hlook h⟩

lemma FailsAs.bind (hm : m.FailsAs P) (hk : ∀ a, (k a).FailsAs P) : (m >>= k).FailsAs P := fun h =>
  (hm h).bind fun a h' _ => hk a h'

lemma FailsAs.discard (hm : m.FailsAs P) : FailsAs P (Functor.discard m) := fun h => (hm h).discard

lemma FailsAs.mono (hm : m.FailsAs P) (hPQ : ∀ e, P e → Q e) : m.FailsAs Q := fun h =>
  (hm h).mono (fun _ _ _ => trivial) fun e _ => hPQ e

/-- If the operation fails, the error is new. -/
abbrev Fresh (m : HeapM H α) : Prop := m.FailsAs EvalError.IsNew

end HeapM

namespace Heap

open HeapM

variable {id : ObjectId} {name : Name} {v : Value}

lemma fresh_pin : (pin id : HeapM H Unit).Fresh :=
  (failsAs_read fun _ => plain_get.fresh).discard.bind fun _ => failsAs_change

lemma fresh_childFrame {adjust : Frame → Frame} : (childFrame id adjust : HeapM H ObjectId).Fresh :=
  (failsAs_read fun _ => plain_frame.fresh).bind fun _ => failsAs_alloc

lemma fresh_define : (define id name v : HeapM H Unit).Fresh := by
  refine (failsAs_read fun _ => plain_frame.fresh).bind fun f => ?_
  split
  · exact failsAs_change
  · exact failsAs_read fun _ => .fail rfl

lemma fresh_assign : (assign id name v : HeapM H Bool).Fresh := by
  refine (failsAs_read fun _ => plain_frame.fresh).bind fun f => ?_
  split
  · exact failsAs_change.bind fun _ => failsAs_pure
  · exact failsAs_pure

lemma fresh_bind : (bind id name v : HeapM H Unit).Fresh := by
  refine fresh_assign.bind fun done => ?_
  split
  · exact failsAs_pure
  · exact fresh_define

lemma fresh_assignNearest {ids : List ObjectId} :
    (assignNearest name v ids : HeapM H Bool).Fresh := by
  induction ids with
  | nil => exact failsAs_pure
  | cons id rest ih =>
    refine (failsAs_read fun _ => plain_frame.fresh).bind fun f => ?_
    split
    · exact fresh_assign.discard.bind fun _ => failsAs_pure
    · exact ih

lemma fresh_setVariable : (setVariable id name v : HeapM H Unit).Fresh := by
  refine (failsAs_read fun _ => .pure).bind fun lineage => fresh_assignNearest.bind fun done => ?_
  split
  · exact failsAs_pure
  · exact fresh_define

lemma fresh_internName {text : String} : (internName text : HeapM H Name).Fresh := fun _ => trivial

lemma fresh_setRef : (setRef id v : HeapM H Unit).Fresh :=
  (failsAs_read fun _ => plain_refValue.fresh).bind fun _ => failsAs_change

lemma fresh_setIndex {target : Value} {indices : List Value} :
    (setIndex target indices v : HeapM H Unit).Fresh := by
  unfold setIndex
  split
  · split
    · exact failsAs_fail rfl
    · refine (failsAs_read fun _ => plain_sequence.fresh).bind fun items => ?_
      split
      · exact failsAs_fail rfl
      · exact failsAs_change
  · split
    · exact failsAs_fail rfl
    · refine (failsAs_read fun _ => plain_grid.fresh).bind fun g => ?_
      exact (failsAs_read fun _ => Grid.plain_set.fresh).bind fun _ => failsAs_change
  · exact fresh_internName.bind fun _ => fresh_bind
  · exact fresh_setRef
  · exact failsAs_fail rfl
  · exact failsAs_fail rfl

lemma fresh_disconnect {input : PortRef} : (disconnect input : HeapM H Unit).Fresh := by
  refine (failsAs_read fun _ => plain_inputPort.fresh).bind fun port => ?_
  split
  · exact failsAs_pure
  · exact failsAs_change

lemma fresh_connect {input output : PortRef} : (connect input output : HeapM H Unit).Fresh :=
  (failsAs_read fun _ => plain_outputPort.fresh).discard.bind fun _ =>
    (failsAs_read fun _ => plain_inputPort.fresh).discard.bind fun _ =>
      fresh_disconnect.bind fun _ => failsAs_change

end Heap

/-! ## Errors of others -/

/-- The errors that evaluations take over as they are. -/
inductive Foreign (env : Environment H) (h : Heap H) (e : EvalError) : Prop where
  /-- A native function fails. -/
  | native (fn : H.Native) (args : List Value) (before after : Heap H) :
      env.host.call fn args before = .error e after → Foreign env h e
  /-- A kernel of the host refuses a value for a param. -/
  | param (kernel : H.Kernel) (name : String) (v : Value) :
      env.host.checkParam kernel name v = .error e → Foreign env h e
  /-- A function on the heap that makes nodes fails. -/
  | factory (id : ObjectId) (f : Callable H) (create : NodeFactory H) (request : NodeRequest) :
      h.callable id = .ok f → f.body = .nodeCreator create → create request = .error e →
      Foreign env h e
  /-- A script cannot be read. -/
  | loader (load : Loader) (path : Path) (names : Interner) :
      env.loader = some load → (load path names).1 = .error e → Foreign env h e

/-- Whether an evaluation may raise the error when it has come to a heap. -/
def Raisable (env : Environment H) (h : Heap H) (e : EvalError) : Prop := e.IsNew ∨ Foreign env h e

section Raisable

variable {env : Environment H} {h : Heap H} {e : EvalError}

lemma Raisable.of_callable {h' : Heap H} (hsame : ∀ id, h'.callable id = h.callable id)
    (he : Raisable env h e) : Raisable env h' e := by
  rcases he with hnew | ⟨fn, args, before, after, hcall⟩ | ⟨kernel, name, v, hcheck⟩ |
    ⟨id, f, create, request, hf, hbody, hcreate⟩ | ⟨load, path, names, hload, hread⟩
  · exact .inl hnew
  · exact .inr (.native fn args before after hcall)
  · exact .inr (.param kernel name v hcheck)
  · exact .inr (.factory id f create request ((hsame id).trans hf) hbody hcreate)
  · exact .inr (.loader load path names hload hread)

/-- Whether a frame is pinned does not matter. -/
lemma Raisable.unpin (he : Raisable env h e) (frame : ObjectId) :
    Raisable env (h.unpin frame) e := by
  refine he.of_callable fun id => ?_
  have hget : (h.unpin frame).get id = h.get id :=
    Heap.get_congr (Heap.object?_modifyEntry fun _ => rfl)
  unfold Heap.callable
  rw [hget]

end Raisable

/-! ## Evaluations -/

/-- If the evaluation fails on a session, it does so with an error that may be raised. -/
def Eval.RaisesAt (env : Environment H) (m : Eval H α) (s : Session H) : Prop :=
  ∀ e t, m s = .error e t → Raisable env t.heap e

/-- On whichever session the evaluation fails, it does so with an error that may be raised. -/
def Eval.Raises (env : Environment H) (m : Eval H α) : Prop := ∀ s, m.RaisesAt env s

section Raises

variable {env : Environment H} {m : Eval H α} {k : α → Eval H β} {s : Session H}

lemma Eval.RaisesAt.bind (hm : m.RaisesAt env s)
    (hk : ∀ a t, m s = .ok a t → (k a).RaisesAt env t) : (m >>= k).RaisesAt env s := by
  intro e t hr
  cases hx : m s with
  | ok a u =>
    rw [Eval.bind_of_ok hx] at hr
    exact hk a u hx e t hr
  | error x u =>
    rw [Eval.bind_of_error hx] at hr
    cases hr
    exact hm e t hx
  | outOfFuel =>
    change Eval.bind m k s = .error e t at hr
    rw [Eval.bind, hx] at hr
    cases hr

lemma Eval.Raises.bind (hm : m.Raises env) (hk : ∀ a, (k a).Raises env) : (m >>= k).Raises env :=
  fun s => (hm s).bind fun a t _ => hk a t

lemma raises_pure {a : α} : (pure a : Eval H α).Raises env := fun _ _ _ hr => by cases hr

lemma raises_fail {c : Cause} : (fail c : Eval H α).Raises env := fun _ _ _ hr => by
  cases hr
  exact .inl rfl

/-- Where there is no coming back, nothing is raised. -/
lemma Eval.Raises.barring {hangs : Heap H → Bool} (hm : m.Raises env) :
    (Eval.barring hangs Eval.diverge m).Raises env := by
  intro s e t hr
  cases hhangs : hangs s.heap with
  | true =>
    rw [Eval.barring_of_hangs hhangs] at hr
    cases hr
  | false =>
    rw [Eval.barring_of_clear hhangs] at hr
    exact hm s e t hr

lemma raises_nameText {name : Name} : (Eval.nameText name : Eval H String).Raises env :=
  fun _ _ _ hr => by cases hr

lemma raises_nextNodeName {kind : String} : (Eval.nextNodeName kind : Eval H String).Raises env :=
  fun _ _ _ hr => by cases hr

lemma raises_ofExcept {r : Except EvalError α} (hr : Fresh r) :
    (Eval.ofExcept r : Eval H α).Raises env := by
  intro s e t he
  cases r with
  | ok a => cases he
  | error x =>
    cases he
    exact .inl (hr e rfl)

lemma raises_onHeap {op : HeapM H α} (hop : op.FailsAs fun e => ∀ h, Raisable env h e) :
    (Eval.onHeap op).Raises env := by
  rintro ⟨heap, nodesNamed, evalDepth, loading⟩ e t hr
  rcases (hop heap).ok_or_error with ⟨a, h, hrun, -⟩ | ⟨x, h, hrun, hx⟩
  · simp only [Eval.onHeap, hrun] at hr
    cases hr
  · simp only [Eval.onHeap, hrun] at hr
    cases hr
    exact hx h

lemma raises_fresh {op : HeapM H α} (hop : op.Fresh) : (Eval.onHeap op).Raises env :=
  raises_onHeap (hop.mono fun _ he _ => .inl he)

lemma raises_read {look : Heap H → Except EvalError α} (hlook : ∀ h, Fresh (look h)) :
    (Eval.readHeap look).Raises env := raises_fresh (HeapM.failsAs_read hlook)

/-- An error that is replaced by a new one. -/
lemma raises_mapError {change : EvalError → EvalError} (hnew : ∀ e, (change e).IsNew) :
    (m.mapError change).Raises env := by
  intro s e t hr
  unfold Eval.mapError at hr
  split at hr
  · cases hr
    exact .inl (hnew _)
  · next hne =>
    cases hx : m s with
    | ok a s' => rw [hx] at hr; cases hr
    | error x s' => exact absurd hx (hne x s')
    | outOfFuel => rw [hx] at hr; cases hr

/-- A kernel of the language refuses with a new error, and one of the host with an error of its
own. -/
lemma raisable_checkParam {h : Heap H} {kernel : Kernel H.Kernel} {port : String} {v : Value} :
    FailsAs (Raisable env h) (kernel.checkParam env.host.toKernelHost port v) := by
  cases kernel with
  | binaryOp => exact Kernel.plain_checkSymbol.fresh.mono fun _ he => .inl he
  | unaryOp => exact Kernel.plain_checkSymbol.fresh.mono fun _ he => .inl he
  | cast => exact Kernel.plain_checkType.fresh.mono fun _ he => .inl he
  | constant => exact .pure
  | index => exact .pure
  | host state => exact fun e he => .inr (.param state port v he)

lemma raises_setParam {param : PortRef} {v : Value} :
    (Eval.onHeap (Heap.setParam env.host.toKernelHost param v)).Raises env := by
  refine raises_onHeap ?_
  refine (HeapM.failsAs_read fun _ => Heap.plain_node.fresh.mono fun _ he _ => .inl he).bind
    fun n => ?_
  split
  · exact HeapM.failsAs_read fun h => .fail fun _ => .inl rfl
  · next port _ =>
    refine (HeapM.failsAs_read fun _ => ?_).bind fun _ => HeapM.failsAs_change
    cases hk : n.kernel with
    | none => simpa only [Node.checkParam, hk] using .pure
    | some kernel =>
      simp only [Node.checkParam, hk]
      exact fun e he _ => raisable_checkParam e he

end Raises

/-! ## Rules without recursive calls -/

section Rules

variable {env : Environment H} {frame id : ObjectId} {name : Name} {args : List CallArg} {v : Value}

lemma raises_loadProgram {load : Loader} (hload : env.loader = some load) {path : Path} :
    (Resolve.loadProgram load path : Eval H Program).Raises env := by
  intro s e t hr
  unfold Resolve.loadProgram at hr
  cases hread : (load path s.heap.names).1 with
  | ok program => simp [hread] at hr
  | error x =>
    simp only [hread, Outcome.error.injEq] at hr
    exact .inr (.loader load path _ hload (hr.1 ▸ hread))

lemma raises_namespaceFrame {dir : Path} :
    (Resolve.namespaceFrame frame dir : Eval H Value).Raises env :=
  (raises_fresh Heap.fresh_childFrame).bind fun _ => raises_pure

lemma raises_pluginFunction {plugin : Plugin (FunctionFactory H)} :
    (Resolve.pluginFunction frame name plugin).Raises env :=
  (raises_mapError fun e => (rfl : (Resolve.factoryFailure _ _ _ e).IsNew)).bind fun _ =>
    raises_fresh HeapM.failsAs_allocValue

lemma raises_pluginNode {plugin : Plugin (NodeFactory H)} :
    (Resolve.pluginNode name plugin).Raises env :=
  raises_fresh HeapM.failsAs_allocValue

lemma raises_sourcePort : (Lift.sourcePort v : Eval H PortRef).Raises env := by
  unfold Lift.sourcePort
  split
  · exact raises_pure
  · exact raises_nextNodeName.bind fun _ => (raises_fresh HeapM.failsAs_alloc).bind fun _ =>
      raises_pure

lemma raises_wire {kind : String} {count position : Nat} {operands : List Value} :
    (Lift.wire id kind count position operands : Eval H Unit).Raises env := by
  induction operands generalizing position with
  | nil => exact raises_pure
  | cons operand rest ih =>
    refine raises_sourcePort.bind fun source => ?_
    split
    · exact (raises_fresh Heap.fresh_connect).bind fun _ => ih
    · exact raises_fail

lemma raises_build {kind : String} {make : String → Node H} {operands : List Value} :
    (Lift.build kind make operands).Raises env :=
  raises_nextNodeName.bind fun _ => (raises_fresh HeapM.failsAs_alloc).bind fun _ =>
    raises_wire.bind fun _ => raises_pure

lemma raises_readIndex {target : Value} {indices : List Value} :
    (readIndex Eval.diverge target indices : Eval H Value).Raises env :=
  (raises_read fun _ => Heap.plain_index.fresh).barring

lemma raises_callBuiltin {b : Builtin} {operands : List Value} :
    (callBuiltin b operands Eval.diverge : Eval H Value).Raises env := by
  refine callBuiltin_cases (motive := fun m _ => m.Raises env) Eval.diverge Eval.diverge b operands
    (fun r hplain _ => ?_) (fun target indices _ => ?_) fun kind make vs _ _ => ?_
  · exact raises_ofExcept hplain.fresh
  · exact raises_readIndex
  · exact raises_build

lemma raises_bindArguments {params : List Parameter} :
    (bindArguments params args : Eval H (List (Name × Value))).Raises env :=
  raises_read fun _ => Parameter.plain_bind.fresh

lemma raises_defineAll (bound : List (Name × Value)) :
    (bound.forM fun (name, value) => Eval.onHeap (Heap.define frame name value) : Eval H
      Unit).Raises env := by
  induction bound with
  | nil => exact raises_pure
  | cons b rest ih => exact (raises_fresh Heap.fresh_define).bind fun _ => ih

lemma raises_operandsOf : (operandsOf args : Eval H (List Value)).Raises env := by
  induction args with
  | nil => exact raises_pure
  | cons arg rest ih =>
    unfold operandsOf
    split
    · exact raises_nameText.bind fun _ => raises_fail
    · exact ih.bind fun _ => raises_pure

lemma raises_writePort {kind : PortKind} {index : UInt16} {otherwise : Cause} :
    (writePort env id kind index v otherwise).Raises env := by
  cases kind with
  | param => exact raises_setParam
  | input => exact raises_sourcePort.bind fun _ => raises_fresh Heap.fresh_connect
  | output => exact raises_fail

lemma raises_applyNodeArguments {position : Nat} :
    (applyNodeArguments env id position args).Raises env := by
  induction args generalizing position with
  | nil => exact raises_pure
  | cons arg rest ih =>
    unfold applyNodeArguments
    split
    · exact raises_fail
    · refine raises_nameText.bind fun key => (raises_read fun _ => Heap.plain_node.fresh).bind
        fun n => ?_
      dsimp only
      split
      · exact raises_writePort.bind fun _ => ih
      · exact raises_fail.bind fun _ => ih

lemma raises_assignMember {object : Value} : (assignMember env object name v).Raises env := by
  unfold assignMember
  split
  · exact raises_fresh Heap.fresh_bind
  · refine raises_nameText.bind fun key => (raises_read fun _ => Heap.plain_node.fresh).bind
      fun n => ?_
    split
    · exact raises_writePort
    · exact raises_fail
  · exact raises_nameText.bind fun _ => raises_fail

lemma raises_native {fn : H.Native} {operands : List Value} :
    (Eval.onHeap (env.host.call fn operands)).Raises env := by
  refine raises_onHeap fun before => ?_
  unfold HeapM.Ends
  cases hrun : env.host.call fn operands before with
  | ok v after => trivial
  | error e after => exact fun h => .inr (.native fn operands before after hrun)

/-- The error of a factory is taken over only if its function belongs to no library. -/
lemma raisesAt_createNode {f : Callable H} {create : NodeFactory H} {s : Session H}
    (hf : s.heap.callable id = .ok f) (hbody : f.body = .nodeCreator create) :
    (createNode env f create args).RaisesAt env s := by
  refine (raises_nameText s).bind fun kind t hkind => ?_
  cases hkind
  refine (raises_nextNodeName s).bind fun nodeName t hname => ?_
  cases hname
  refine Eval.RaisesAt.bind (fun e t hr => ?_) fun node t _ =>
    ((raises_fresh HeapM.failsAs_alloc).bind fun id => raises_applyNodeArguments.bind fun _ =>
      raises_pure) t
  -- the factory itself fails, on the heap that its function is on
  generalize hmade : create _ = made at hr
  cases made with
  | ok node => cases hr
  | error x =>
    cases hr
    split
    · exact .inl rfl
    · exact .inr (.factory id f create _ hf hbody hmade)

end Rules
end Patchbay
