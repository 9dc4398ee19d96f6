import Patchbay.Proofs.Courses.Rules
import Patchbay.Proofs.Heap.Extension

/-!
# Evaluation only extends the heap

If host code does nothing to the heap but store objects, each step of a course lets every object
evolve, and so does every evaluation, whichever way it ends.
-/

namespace Patchbay

variable {H : HostTypes} {env : Environment H} {h h' : Heap H} {l : Ledger}
  {a b : Heap H × Ledger}

/-! ## Host code that only stores objects -/

/-- The heap after objects were stored. -/
def Heap.allocAll (h : Heap H) (objects : List (HeapObject H)) : Heap H :=
  objects.foldl (fun h o => (h.alloc o).2) h

/-- Functions of the host, and plugins that make functions, do nothing to the heap but store
objects. -/
structure Environment.OnlyStores (env : Environment H) : Prop where
  call : ∀ fn args h, ∃ objects, (env.host.call fn args).leaves h = h.allocAll objects
  function : ∀ plugin ∈ env.plugins.functions, ∀ request h,
    ∃ objects, (plugin.factory request).leaves h = h.allocAll objects

namespace Customs

/-- Host code that stores objects. All values count as known. -/
def storing : Customs H where
  stalls := True
  trusting := True
  code _ := True
  may _ _ op := ∃ o, op = .alloc o
  finds _ _ _ := False

lemma storing_licensed {body : CallableBody H} : storing.Licensed body := by
  cases body <;> trivial

lemma storing_holds (hl : ∀ v, l.knows v) (o : HeapObject H) : storing.Holds l o :=
  ⟨fun v _ => hl v, fun _ _ => hl _, fun _ _ => storing_licensed, fun _ _ => trivial⟩

lemma storing_covers (ht : h.Tidy) (hl : ∀ v, l.knows v) : storing.Covers h l :=
  ⟨ht, fun _ o _ => storing_holds hl o, hl _, fun _ => hl _, fun _ =>
    hl, fun hnot => absurd trivial hnot⟩

lemma storing_errand (host : KernelHost H) (objects : List (HeapObject H)) :
    ∃ l', storing.Errand host (h, l) (h.allocAll objects, l') := by
  induction objects using List.reverseRecOn with
  | nil => exact ⟨l, .refl _⟩
  | append_singleton objects o ih =>
    obtain ⟨l', hl⟩ := ih
    have hmay : storing.may (h.allocAll objects) l' (.alloc o) := ⟨o, rfl⟩
    have hlast := hl.act hmay
    exact ⟨_, by rwa [Heap.allocAll, List.foldl_append]⟩

/-- An operation that stores objects runs an errand, and its result is known. -/
lemma storing_ends {α : Type} {m : HeapM H α} {Q : α → Ledger → Prop} (host : KernelHost H)
    (hc : storing.Covers h l) (hm : ∃ objects, m.leaves h = h.allocAll objects)
    (hQ : ∀ a l', (∀ v, l'.knows v) → Q a l') :
    m.Ends h (fun a h' => ∃ l', storing.Errand host (h, l) (h', l') ∧ Q a l')
      fun _ h' => ∃ l', storing.Errand host (h, l) (h', l') := by
  obtain ⟨objects, hleaves⟩ := hm
  obtain ⟨l', herrand⟩ := storing_errand (l := l) host objects
  rw [← hleaves] at herrand
  have hends := HeapM.ends_of_leaves (Q := fun h' => storing.Errand host (h, l) (h', l')) herrand
  exact hends.mono (fun a _ he => ⟨l', he, hQ a l' fun v => he.knows (hc.all trivial v)⟩)
    fun _ _ he => ⟨l', he⟩

lemma decent_storing (hs : env.OnlyStores) : Decent storing (fun _ => True) env where
  call _ hc _ _ := storing_ends _ hc (hs.call _ _ _) fun _ _ hl => hl _
  create {h l create} _ _ _ _ n _ library := by
    have hmay : storing.may h l (.alloc (.node { n with library := library })) := ⟨_, rfl⟩
    exact ⟨_, .act (.refl _) hmay, .inr rfl⟩
  function plugin hp _ _ request _ hc _ :=
    storing_ends _ hc (hs.function plugin hp request _) fun f _ hl => storing_holds hl (.callable f)
  node _ _ := trivial
  act := by
    rintro h l _ ⟨o, rfl⟩ hc
    exact hc.alloc (storing_holds (hc.all trivial) o)
  find hfinds _ := False.elim hfinds
  closed _ _ := trivial

end Customs

/-! ## Steps and courses -/

lemma Customs.Own.evolvesTo {op : Operation H} (ho : Customs.storing.Own env.root l op)
    (ht : h.Tidy) : h.EvolvesTo (op.after env.host.toKernelHost h) := by
  cases op with
  | alloc o => exact .alloc ht o
  | define frame name v => exact Heap.evolved_leaves (Heap.LeavesFilled.evolved Heap.filled_define)
  | assign frame name v =>
    exact Heap.evolved_leaves (HeapM.Ends.discard (Heap.LeavesFilled.evolved Heap.filled_assign))
  | bind frame name v => exact Heap.evolved_leaves (Heap.LeavesFilled.evolved Heap.filled_bind)
  | setIndex target indices v =>
    exact Heap.evolved_leaves (Heap.LeavesFilled.evolved Heap.filled_setIndex)
  | setParam p v => exact Heap.evolved_leaves Heap.evolved_setParam
  | connect input output => exact Heap.evolved_leaves Heap.evolved_connect
  | pin id =>
    exact Heap.leaves_pin (P := h.EvolvesTo) (.refl h) fun _ => Heap.evolvesTo_modifyEntry
      fun _ => rfl
  | unpin id => exact Heap.evolvesTo_modifyEntry fun _ => rfl
  | _ => exact ho.elim

lemma Customs.Errand.evolvesTo (hd : Decent .storing (fun _ => True) env)
    (he : Customs.storing.Errand env.host.toKernelHost a b) (hc : Customs.storing.Covers a.1 a.2) :
    a.1.EvolvesTo b.1 := by
  induction he with
  | refl => exact .refl _
  | act hbefore hmay ih =>
    obtain ⟨o, rfl⟩ := hmay
    exact ih.trans (.alloc (hbefore.covers hd hc).tidy o)
  | find _ hfinds _ => exact hfinds.elim

/-- Building extends the heap, whichever way it ends. -/
lemma Lift.leaves_evolvesTo {kind : String} {make : String → Node H} {operands : List Value}
    {s : Session H} (ht : s.heap.Tidy) :
    (build kind make operands s).Leaves fun s' => s.heap.EvolvesTo s'.heap := by
  have halloc : ∀ h o, s.heap.EvolvesTo h ∧ h.Tidy →
      s.heap.EvolvesTo (h.alloc o).2 ∧ (h.alloc o).2.Tidy := fun h o hh =>
    ⟨hh.1.trans (.alloc hh.2 o), hh.2.alloc o⟩
  -- tidiness has to be carried along: an allocation in an untidy heap could overwrite
  have hbuild : (build kind make operands s).Leaves fun s' =>
      s.heap.EvolvesTo s'.heap ∧ s'.heap.Tidy := by
    refine leaves_build (I := fun h => s.heap.EvolvesTo h ∧ h.Tidy) (Q := fun _ => True)
      (fun name => halloc _ _ ⟨.refl _, ht⟩) (fun _ _ => trivial)
      (fun h name u hh _ _ => ⟨halloc _ _ hh, trivial⟩) fun h index p hh _ _ _ => ?_
    have hwrite : h.Evolved ((h.unplug ⟨s.heap.nextId, index⟩).plug ⟨s.heap.nextId, index⟩ p) :=
      Heap.Evolved.unplug.trans .plug
    exact ⟨hh.1.trans hwrite.evolvesTo, hwrite.sameSlots.tidy hh.2⟩
  unfold Outcome.Leaves at *
  cases hr : build kind make operands s with
  | ok v s' =>
    rw [hr] at hbuild
    exact hbuild.1
  | error e s' =>
    rw [hr] at hbuild
    exact hbuild.1
  | outOfFuel => trivial

/-- One step lets every object evolve. -/
lemma Step.evolvesTo (hd : Decent .storing (fun _ => True) env) (hs : Step .storing env a b)
    (hc : Customs.storing.Covers a.1 a.2) : a.1.EvolvesTo b.1 := by
  cases hs with
  | own ho => exact ho.evolvesTo hc.tidy
  | port => exact .refl _
  | names names => exact fun id o ho => ⟨o, ho, .refl o⟩
  | native _ _ _ errand => exact errand.evolvesTo hd hc
  | factory _ _ _ errand => exact errand.evolvesTo hd hc
  | node => exact .alloc hc.tidy _
  | @built s s' l kind make operands id _ _ hrun =>
    have hleaves : (Lift.build kind make operands s).Leaves fun s' => s.heap.EvolvesTo s'.heap :=
      Lift.leaves_evolvesTo hc.tidy
    rw [hrun] at hleaves
    exact hleaves
  | @abandoned s s' l kind make operands e _ _ hrun =>
    have hleaves : (Lift.build kind make operands s).Leaves fun s' => s.heap.EvolvesTo s'.heap :=
      Lift.leaves_evolvesTo hc.tidy
    rw [hrun] at hleaves
    exact hleaves

/-- So does a course. -/
lemma Course.evolvesTo (hd : Decent .storing (fun _ => True) env)
    (hcourse : Course .storing env a b)
    (hc : Customs.storing.Covers a.1 a.2) : a.1.EvolvesTo b.1 := by
  induction hcourse with
  | refl => exact .refl _
  | tail before step ih => exact ih.trans (step.evolvesTo hd (Course.covers hd before hc))

/-! ## Evaluations -/

/-- What takes a course extends the heap. -/
lemma Eval.Takes.evolvesTo {α : Type} {m : Eval H α} {s : Session H}
    {Q : α → Heap H → Ledger → Prop}
    (hd : Decent .storing (fun _ => True) env) (hm : Eval.Takes .storing env m s l Q)
    (hc : Customs.storing.Covers s.heap l) : (m s).Leaves fun s' => s.heap.EvolvesTo s'.heap := by
  unfold Eval.Takes at hm
  unfold Outcome.Leaves
  cases hr : m s with
  | ok a s' =>
    rw [hr] at hm
    obtain ⟨l', hcourse, -⟩ := hm
    exact Course.evolvesTo hd hcourse hc
  | error e s' =>
    rw [hr] at hm
    obtain ⟨l', hcourse⟩ := hm
    exact Course.evolvesTo hd hcourse hc
  | outOfFuel => trivial

/-- Evaluation only extends the heap. Whatever expression or statement is evaluated, and whatever is
called, and whether it succeeds or fails: every object stays under its handle, and frames,
functions, nodes, sequences and arrays keep what makes them what they are. Host functions and
plugins may store objects and do nothing else to the heap. -/
theorem evaluation_extends_heap (hs : env.OnlyStores) (fuel : Nat) (c : Cursor) (s : Session H)
    (ht : s.heap.Tidy) :
    (∀ e, ((runner env fuel).expr c e s).Leaves fun s' => s.heap.EvolvesTo s'.heap) ∧
    (∀ st, ((runner env fuel).stmt c st s).Leaves fun s' => s.heap.EvolvesTo s'.heap) ∧
    ∀ callee args site, (callValue env (runner env fuel) c callee args site s).Leaves fun s' =>
      s.heap.EvolvesTo s'.heap := by
  have hd := Customs.decent_storing hs
  have hknown : ∀ v, (⟨fun _ => True, [], []⟩ : Ledger).knows v := fun _ => trivial
  have hc : Customs.storing.Covers s.heap ⟨fun _ => True, [], []⟩ :=
    Customs.storing_covers ht hknown
  have hself := courseRunner_runner hd trivial fuel
  have hr : Informed .storing (fun _ => True) env c s.heap ⟨fun _ => True, [], []⟩ :=
    ⟨trivial, hc, hknown _, hknown _⟩
  refine ⟨fun e => (hself.expr hr e).evolvesTo hd hc, fun st => (hself.stmt hr st).evolvesTo hd hc,
    fun callee args site => ?_⟩
  exact (takes_callValue hd hself hr fun _ _ => hknown _).evolvesTo hd hc

/-! A host whose functions pack their arguments, and a variable that is packed by itself. -/

/-- A host whose functions put their arguments in a sequence. -/
def packingHost : Host Stock.types :=
  { Stock.host with call := fun _ args => HeapM.allocValue (.sequence args.toArray) }

def packingEnvironment : Environment Stock.types where
  config := .default
  host := packingHost
  plugins := .empty
  tree := ⟨fun _ => false, fun _ => false⟩
  loader := none
  root := ⟨0, 0⟩
  reserved := ⟨.empty, .empty, .empty⟩

/-- A pinned root frame that binds a native function with one parameter. -/
def packingSession : Session Stock.types where
  heap := [Operation.alloc (.frame (.root none)), .pin ⟨0, 0⟩,
      .alloc (.callable (.native ⟨1⟩ [⟨⟨1⟩, none⟩] Stock.Function.pack)),
      .define ⟨0, 0⟩ ⟨1⟩ (.function ⟨1, 0⟩)].foldl
    (fun h op => op.after Stock.kernels h) (Heap.new (Interner.new.intern "x").2 1)
  nodesNamed := 0
  evalDepth := 0
  loading := []

/-- The statement `x = x(x)`. -/
def packStatement : Stmt :=
  let x : Expr := .mk (.ident ⟨1⟩) .builtin
  .mk (.assign (.ident ⟨1⟩) none (.mk (.call x [⟨none, x⟩]) .builtin)) .builtin

/-- The value of `x` and the number of live objects, after the statement ran. -/
def packOutcome : Option (Option Value × Nat) :=
  match (runner packingEnvironment 9).stmt packingEnvironment.top packStatement packingSession with
  | .ok _ s => some ((s.heap.lookupLocal ⟨0, 0⟩ ⟨1⟩).toOption.join, s.heap.live)
  | _ => none

/-- The variable holds a new sequence, and the function is still there. -/
theorem evaluation_extends_heap_pack :
    ((runner packingEnvironment 9).stmt packingEnvironment.top packStatement packingSession).Leaves
        (fun s' => packingSession.heap.EvolvesTo s'.heap) ∧
      packOutcome = some (some (.sequence ⟨2, 0⟩), 3) := by
  have hstores : packingEnvironment.OnlyStores :=
    ⟨fun _ args _ => ⟨[.sequence args.toArray], rfl⟩, fun plugin hp => by cases hp⟩
  have htidy : packingSession.heap.Tidy :=
    List.foldlRecOn (motive := Heap.Tidy) _ _ (Heap.counted_new _ _).tidy fun h ht op _ =>
      ht.effect (Heap.effect_after Stock.kernels op h)
  have hall := evaluation_extends_heap hstores 9 packingEnvironment.top packingSession htidy
  exact ⟨hall.2.1 packStatement, by decide +kernel⟩

end Patchbay
