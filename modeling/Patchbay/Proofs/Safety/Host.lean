import Patchbay.Eval.Monad
import Patchbay.Proofs.Heap.Operation
import Patchbay.Proofs.Safety.Reads

/-!
# Safe operations and the contract of the host

An operation is safe on a sound heap if it takes nothing from it, leaves it sound and does not fail
for a dead object. The contract of the host says that its code does nothing but allowed operations,
and returns valid handles; then calling it is safe, and so is every operation that the language does
itself.
-/

namespace Patchbay

variable {H : HostTypes} {T : Trust H} {α β : Type}

namespace Heap

variable {h h' h'' : Heap H} {id : ObjectId} {o : HeapObject H} {v : Value}

/-- No object was pinned or unpinned. -/
def SamePins (h h' : Heap H) : Prop := ∀ x, h'.pinCount x = h.pinCount x

/-- A sound heap that came from `h` without taking anything from it. -/
structure Later (T : Trust H) (h h' : Heap H) : Prop where
  grown : Extends h h'
  sound : Sound T h'

lemma Sound.later (hs : Sound T h) : Later T h h := ⟨.refl h, hs⟩

lemma Later.trans (h1 : Later T h h') (h2 : Later T h' h'') : Later T h h'' :=
  ⟨h1.grown.trans h2.grown, h2.sound⟩

lemma Sound.later_stored (hs : Sound T h) (hw : Stored (Value.ValidIn h) (T.kernel h) h h') :
    Later T h h' := ⟨hw.extends, hs.stored hw⟩

lemma Sound.later_alloc (hs : Sound T h) (ho : Fits T h o) : Later T h (h.alloc o).2 :=
  ⟨extends_alloc hs.tidy, hs.alloc ho⟩

end Heap

/-! ## Safe operations -/

namespace HeapM

open Heap

variable {m : HeapM H α} {f : α → HeapM H β} {h : Heap H} {fine : Prop} {Q Q' : α → Heap H → Prop}
  {R : β → Heap H → Prop}

/-- The operation keeps a heap sound, with a result that satisfies `Q`. If all is well, as `fine`
says, it does not fail for a dead object. -/
def Keeps (T : Trust H) (fine : Prop) (m : HeapM H α) (h : Heap H) (Q : α → Heap H → Prop) : Prop :=
  m.Ends h (fun a h' => Later T h h' ∧ Q a h') fun e h' => Later T h h' ∧ (fine → e.isDead = false)

/-- The operation keeps a heap sound and does not fail for a dead object. -/
abbrev Safe (T : Trust H) (m : HeapM H α) (h : Heap H) (Q : α → Heap H → Prop) : Prop :=
  Keeps T True m h Q

lemma Keeps.safe (hk : Keeps T fine m h Q) (hf : fine) : Safe T m h Q :=
  Ends.mono hk (fun _ _ hok => hok) fun _ _ he => ⟨he.1, fun _ => he.2 hf⟩

lemma Keeps.mono (hk : Keeps T fine m h Q) (hQ : ∀ a h', Later T h h' → Q a h' → Q' a h') :
    Keeps T fine m h Q' :=
  Ends.mono hk (fun a h' hok => ⟨hok.1, hQ a h' hok.1 hok.2⟩) fun _ _ he => he

lemma Keeps.leaves (hk : Keeps T fine m h Q) : Later T h (m.leaves h) :=
  Ends.leaves (Ends.mono hk (fun _ _ hok => hok.1) fun _ _ he => he.1)

lemma Keeps.discard (hk : Keeps T fine m h Q) : Keeps T fine (discard m) h fun _ _ => True :=
  Ends.discard (Ends.mono hk (fun _ _ hok => ⟨hok.1, trivial⟩) fun _ _ he => he)

lemma keeps_of_writes (hs : Sound T h) (hw : Writes (Value.ValidIn h) (T.kernel h) fine m h) :
    Keeps T fine m h fun _ => SamePins h :=
  hw.mono (fun _ _ hok => ⟨hs.later_stored hok, fun _ => hok.pinCount⟩) fun _ _ he =>
    ⟨hs.later_stored he.1, he.2⟩

lemma safe_pure {a : α} (hs : Sound T h) (hQ : Q a h) : Safe T (pure a : HeapM H α) h Q :=
  ⟨hs.later, hQ⟩

lemma safe_read {look : Heap H → Except EvalError α} (hs : Sound T h) (hq : Quiet (look h))
    (hQ : ∀ a, look h = .ok a → Q a h) : Safe T (read look) h Q :=
  ends_read.mpr ⟨fun a ha => ⟨hs.later, hQ a ha⟩, fun e he => ⟨hs.later, fun _ => hq e he⟩⟩

lemma Keeps.bind (hm : Safe T m h Q)
    (hf : ∀ a h', Later T h h' → Q a h' → Safe T (f a) h' R) : Safe T (m >>= f) h R := by
  refine Ends.bind hm fun a h' hok => ?_
  exact Ends.mono (hf a h' hok.1 hok.2) (fun b h'' hb => ⟨hok.1.trans hb.1, hb.2⟩) fun e h'' he =>
    ⟨hok.1.trans he.1, he.2⟩

lemma ends_alloc {o : HeapObject H} {ok : ObjectId → Heap H → Prop}
    {err : EvalError → Heap H → Prop} :
    Ends (alloc o) h ok err ↔ ok (h.alloc o).1 (h.alloc o).2 := Iff.rfl

/-- A new object is live at once, and not pinned. -/
lemma safe_alloc {o : HeapObject H} (hs : Sound T h) (ho : Fits T h o) :
    Safe T (alloc o) h fun id h' => h'.object? id = some o ∧ h'.pinCount id = 0 := by
  refine ends_alloc.mpr ⟨hs.later_alloc ho, ?_, ?_⟩
  · rw [alloc_fst, object?_alloc hs.tidy, if_pos rfl]
  · rw [alloc_fst, pinCount_eq, entry?_alloc hs.tidy, if_pos rfl]
    rfl

lemma safe_allocValue {o : HeapObject H} (hs : Sound T h) (ho : Fits T h o) :
    Safe T (allocValue o) h fun v h' => v.ValidIn h' := by
  obtain ⟨hl, hobj, -⟩ := safe_alloc hs ho
  exact ⟨hl, hasKind_of_object hobj⟩

end HeapM

namespace Heap

variable {h h' : Heap H} {id : ObjectId} {v : Value} {input output : PortRef} {host : KernelHost H}

lemma keeps_disconnect (hs : Sound T h) :
    HeapM.Keeps T (h.contains input.node = true) (disconnect input) h fun _ _ => True :=
  ends_disconnect.mono
    (fun _ _ hd => ⟨hd.2 ▸ ⟨rewired_unplug.extends, hs.unplug hd.1⟩, trivial⟩)
    fun _ _ he => ⟨he.1 ▸ hs.later, he.2⟩

lemma keeps_connect (hs : Sound T h) :
    HeapM.Keeps T (h.contains input.node = true ∧ h.contains output.node = true)
      (connect input output) h fun _ _ => True :=
  ends_connect.mono
    (fun _ _ hc => ⟨hc.2.2 ▸ ⟨(rewired_unplug.trans rewired_plug).extends, hs.connect hc.1 hc.2.1⟩,
      trivial⟩)
    fun _ _ he => ⟨he.1 ▸ hs.later, fun hc => he.2 hc.1 hc.2⟩

lemma keeps_pin (hs : Sound T h) (hroom : h.pinCount id < h.pinCount id + 1) :
    HeapM.Keeps T (h.contains id = true) (pin id) h fun _ h' => h' = h.pinned id :=
  ends_pin.mono
    (fun _ _ hp => ⟨hp.2 ▸ ⟨extends_pinned hroom, hs.pinned hroom⟩, hp.2⟩)
    fun _ _ he => ⟨he.1 ▸ hs.later, he.2⟩

/-! ## Kernels -/

end Heap

/-- What is expected of the kernels of a host: on a sound heap they send valid handles, go to
trusted states, and do not report dead objects that they make up. -/
structure KernelHost.Behaves (host : KernelHost H) (T : Trust H) : Prop where
  tick : ∀ {h id n state} {inputs : Array Value}, Heap.Sound T h → h.object? id = some (.node n) →
    T.kernel h state → (∀ v ∈ inputs, v.ValidIn h) →
    (∀ vs, (host.tick state h n inputs).1 = .ok vs → ∀ v ∈ vs, v.ValidIn h) ∧
      T.kernel h (host.tick state h n inputs).2 ∧ Quiet (host.tick state h n inputs).1
  checkParam : ∀ {h state}, Heap.Sound T h → T.kernel h state → ∀ name v,
    Quiet (host.checkParam state name v)

namespace Kernel

variable {name : String} {v : Value}

lemma plain_checkSymbol {b : Builtin} {known : String → Bool} :
    Plain (checkSymbol b known name v) := by
  unfold checkSymbol
  split
  · exact .pure
  · split
    · split
      · exact .pure
      · exact .fail rfl
    · exact .fail rfl

lemma plain_checkType : Plain (checkType name v) := by
  unfold checkType
  split
  · exact .pure
  · split
    · split
      · exact .pure
      · exact .fail rfl
    · exact .fail rfl

end Kernel

namespace Heap

variable {h h' : Heap H} {id : ObjectId} {v : Value} {n : Node H} {host : KernelHost H}

lemma Sound.kernel_of_node (hs : Sound T h) (hn : h.object? id = some (.node n)) {state : H.Kernel}
    (hk : n.kernel = some (.host state)) : T.kernel h state :=
  hs.kernel id _ hn state (by simp [HeapObject.hostKernel?, hk])

lemma quiet_checkParam (hb : host.Behaves T) (hs : Sound T h) (hn : h.object? id = some (.node n))
    {name : String} : Quiet (n.checkParam host name v) := by
  unfold Node.checkParam
  split
  · next kernel hk =>
    cases kernel with
    | binaryOp => exact Kernel.plain_checkSymbol.quiet
    | unaryOp => exact Kernel.plain_checkSymbol.quiet
    | cast => exact Kernel.plain_checkType.quiet
    | constant => exact .pure
    | index => exact .pure
    | host state => exact hb.checkParam hs (hs.kernel_of_node hn hk) name v
  · exact .pure

/-- What a kernel sends while it runs, whether it is one of the language or one of the host. -/
lemma run_kernel (hb : host.Behaves T) (hs : Sound T h) (hn : h.object? id = some (.node n))
    {kernel : Kernel H.Kernel} (hk : ∀ state, kernel = .host state → T.kernel h state)
    {inputs : Array Value} (hin : ∀ v ∈ inputs, v.ValidIn h) :
    (∀ vs, (kernel.run host h n inputs).1 = .ok vs → ∀ v ∈ vs, v.ValidIn h) ∧
      (∀ k, (kernel.run host h n inputs).2 = .host k → T.kernel h k) ∧
      Quiet (kernel.run host h n inputs).1 := by
  have hlist : ∀ v ∈ inputs.toList, v.ValidIn h := fun v hv => hin v (Array.mem_toList_iff.mp hv)
  have hcompute : ∀ kernel : Kernel H.Kernel,
      (∀ vs, List.toArray <$> kernel.compute h n inputs.toList = .ok vs → ∀ v ∈ vs, v.ValidIn h) ∧
        Quiet (List.toArray <$> kernel.compute h n inputs.toList) := fun kernel => by
    refine ⟨fun vs hr v hv => ?_, (Kernel.quiet_compute hlist).map⟩
    obtain ⟨ws, hws, rfl⟩ := map_eq_ok.mp hr
    exact Kernel.valid_compute hs hn hlist hws v (by simpa using hv)
  cases kernel with
  | host state =>
    obtain ⟨hvals, hstate, hq⟩ := hb.tick hs hn (hk state rfl) hin
    exact ⟨hvals, fun k hk => Kernel.host.inj hk ▸ hstate, hq⟩
  | constant => exact ⟨(hcompute _).1, nofun, (hcompute _).2⟩
  | binaryOp => exact ⟨(hcompute _).1, nofun, (hcompute _).2⟩
  | unaryOp => exact ⟨(hcompute _).1, nofun, (hcompute _).2⟩
  | index => exact ⟨(hcompute _).1, nofun, (hcompute _).2⟩
  | cast => exact ⟨(hcompute _).1, nofun, (hcompute _).2⟩

/-- Taking a kernel out writes nothing. -/
lemma stored_busy {P : Value → Prop} {K : H.Kernel → Prop} : Stored P K h (h.busy id) :=
  .modifyNode fun _ _ => ⟨⟨rfl, rfl, rfl, rfl, fun _ => .inl, nofun⟩, ⟨fun _ => rfl, fun _ => rfl⟩⟩

/-- The same of the kernel of a node. It runs while it is taken out, and what it does is fine with
the kernel in its node too. -/
lemma run_busy (hb : host.Behaves T) (hs : Sound T h) (hn : h.object? id = some (.node n))
    {kernel : Kernel H.Kernel} (hk : n.kernel = some kernel) {inputs : Array Value}
    (hin : ∀ v ∈ inputs, v.ValidIn h) :
    (∀ vs, (kernel.run host (h.busy id) n.busy inputs).1 = .ok vs → ∀ v ∈ vs, v.ValidIn h) ∧
      (∀ k, (kernel.run host (h.busy id) n.busy inputs).2 = .host k → T.kernel h k) ∧
      Quiet (kernel.run host (h.busy id) n.busy inputs).1 := by
  have hbusy : Later T h (h.busy id) := hs.later_stored stored_busy
  have hback : Extends (h.busy id) h := Touched.extends_back (stored_busy (P := fun _ => False)
    (K := fun _ => False)) fun _ _ hr => hr.1.shape
  obtain ⟨hvals, hstate, hq⟩ := run_kernel hb hbusy.sound (object?_busy hn)
    (fun state heq => T.grown hbusy.grown (hs.kernel_of_node hn (hk.trans (congrArg some heq))))
    fun v hv => hbusy.grown.valid (hin v hv)
  exact ⟨fun vs hr v hv => hback.valid (hvals vs hr v hv), fun k hr =>
    T.grown hback (hstate k hr), hq⟩

lemma keeps_tickNode (hb : host.Behaves T) (hs : Sound T h) :
    HeapM.Keeps T (h.contains id = true) (tickNode host id) h fun _ => SamePins h := by
  refine HeapM.keeps_of_writes hs ((writes_tickNode fun n kernel inputs hn hk hinputs => ?_).mono
    (fun _ _ hok => hok) fun e _ he => ⟨he.1, fun hc => he.2 ⟨hc, quiet_inputValues hs hc, ?_⟩⟩)
  · obtain ⟨hvals, hkernel, -⟩ := run_busy hb hs hn hk (valid_inputValues hs hinputs)
    exact ⟨hvals, hkernel⟩
  · intro n kernel inputs hn hk hinputs
    exact (run_busy hb hs hn hk (valid_inputValues hs hinputs)).2.2

lemma keeps_setParam (hb : host.Behaves T) (hs : Sound T h) {param : PortRef} (hv : v.ValidIn h) :
    HeapM.Keeps T (h.contains param.node = true) (setParam host param v) h fun _ => SamePins h :=
  HeapM.keeps_of_writes hs ((writes_setParam hv).mono (fun _ _ hok => hok) fun _ _ he =>
    ⟨he.1, fun hc => he.2 ⟨hc, fun _ _ hn => quiet_checkParam hb hs hn⟩⟩)

lemma keeps_setParamNamed (hb : host.Behaves T) (hs : Sound T h) {name : String}
    (hv : v.ValidIn h) :
    HeapM.Keeps T (h.contains id = true) (setParamNamed host id name v) h fun _ => SamePins h :=
  HeapM.keeps_of_writes hs ((writes_setParamNamed hv).mono (fun _ _ hok => hok) fun _ _ he =>
    ⟨he.1, fun hc => he.2 ⟨hc, fun _ _ hn => quiet_checkParam hb hs hn⟩⟩)

end Heap

/-! ## What host code does -/

/-- The operations that host code may do on a heap. It frees, unpins and collects nothing, and
stores valid handles only. A node that it stores is not wired yet. -/
def Operation.Allowed (T : Trust H) (h : Heap H) : Operation H → Prop
  | .alloc o => h.Fits T o
  | .define _ _ v | .assign _ _ v | .bind _ _ v | .pushElement _ v | .setRef _ v | .setIndex _ _ v |
    .setParam _ v | .setParamNamed _ _ v => v.ValidIn h
  | .connect _ _ | .disconnect _ | .tick _ | .intern _ => True
  | .pin id => h.pinCount id < h.pinCount id + 1
  | .remove _ | .unpin _ | .collect _ _ => False

/-- The heaps that allowed operations lead to. -/
inductive Heap.Performs (T : Trust H) (host : KernelHost H) : Heap H → Heap H → Prop where
  | refl (h : Heap H) : Performs T host h h
  | step {h h' : Heap H} {op : Operation H} : Performs T host h h' → op.Allowed T h' →
      Performs T host h (op.after host h')

/-- What is expected of the host: its code only does allowed operations, with valid handles as
results, and reports no dead object by itself. Factories make objects that fit into the heap. -/
structure Contract (T : Trust H) (host : Host H) (plugins : Registry H) (loader : Option Loader) :
    Prop extends host.toKernelHost.Behaves T where
  call : ∀ {h fn args}, Heap.Sound T h → T.holds h (.native fn) → (∀ v ∈ args, v.ValidIn h) →
    (host.call fn args).Ends h (fun v h' => Heap.Performs T host.toKernelHost h h' ∧ v.ValidIn h')
      fun e h' => Heap.Performs T host.toKernelHost h h' ∧ e.isDead = false
  create : ∀ {h create}, Heap.Sound T h → T.holds h (.creator create) → ∀ request,
    Quiet (create request) ∧ ∀ n, create request = .ok n → h.Fits T (.node n)
  function : ∀ p ∈ plugins.functions, ∀ {h request}, Heap.Sound T h →
    h.HasKind .frame request.frame → (p.factory request).Ends h
      (fun f h' => Heap.Performs T host.toKernelHost h h' ∧ h'.Fits T (.callable f))
      fun _ h' => Heap.Performs T host.toKernelHost h h'
  node : ∀ p ∈ plugins.nodes, ∀ {h}, Heap.Sound T h → T.holds h (.creator p.factory)
  load : ∀ load ∈ loader, ∀ path names, Quiet (load path names).1

namespace Heap

variable {h h' : Heap H} {host : KernelHost H} {op : Operation H}

/-- An allowed operation takes nothing from a sound heap and leaves it sound. -/
lemma Sound.later_after (hs : Sound T h) (hb : host.Behaves T) (ha : op.Allowed T h) :
    Later T h (op.after host h) := by
  cases op with
  | alloc o => exact (HeapM.safe_alloc hs ha).discard.leaves
  | remove id => exact ha.elim
  | define frame name v => exact (HeapM.keeps_of_writes hs (writes_define ha)).leaves
  | assign frame name v => exact (HeapM.keeps_of_writes hs (writes_assign ha)).discard.leaves
  | bind frame name v => exact (HeapM.keeps_of_writes hs (writes_bind ha)).leaves
  | pushElement sequence v => exact (HeapM.keeps_of_writes hs (writes_pushElement ha)).leaves
  | setRef cell v => exact (HeapM.keeps_of_writes hs (writes_setRef ha)).leaves
  | setIndex target indices v => exact (HeapM.keeps_of_writes hs (writes_setIndex ha)).leaves
  | connect input output => exact (keeps_connect hs).leaves
  | disconnect input => exact (keeps_disconnect hs).leaves
  | setParam param v => exact (keeps_setParam hb hs ha).leaves
  | setParamNamed node name v => exact (keeps_setParamNamed hb hs ha).leaves
  | tick node => exact (keeps_tickNode hb hs).leaves
  | pin id => exact (keeps_pin hs ha).leaves
  | unpin id => exact ha.elim
  | collect bound extra => exact ha.elim
  | intern s => exact (HeapM.keeps_of_writes hs writes_internName).discard.leaves

lemma Performs.later (hp : Performs T host h h') (hb : host.Behaves T) (hs : Sound T h) :
    Later T h h' := by
  induction hp with
  | refl => exact hs.later
  | step _ ha ih => exact ih.trans (ih.sound.later_after hb ha)

end Heap
end Patchbay
