import Patchbay.Proofs.Balance.Sessions
import Patchbay.Proofs.Evaluation.Limits
import Patchbay.Proofs.Scopes.Walks

/-!
# Evaluations and scope chains

All that an evaluation does to the heap is done by operations, and it makes a frame only in a live
one. So if host code nests frames in objects of the heap, evaluations do, and the scope chains of
every heap that evaluations and operations lead to end.
-/

namespace Patchbay

variable {H : HostTypes} {α β : Type}

namespace Heap

variable {h : Heap H} {host : KernelHost H} {strict frees : Prop}
  {freed freed' : Nat → Nat} {o : HeapObject H}

/-! ## Heaps that arise from others -/

/-- The counts of vacated slots have not decreased, and they are the same if no slots were
vacated. -/
structure CountsOn (frees : Prop) (freed freed' : Nat → Nat) : Prop where
  le : ∀ i, freed i ≤ freed' i
  same : frees ∨ freed' = freed

/-- The heap arises when counting goes on from `freed`. -/
def ArisesFrom (host : KernelHost H) (strict frees : Prop) (freed : Nat → Nat) (h : Heap H) :
    Prop :=
  ∃ freed', CountsOn frees freed freed' ∧ h.Arises host strict freed'

lemma Arises.from (ha : h.Arises host strict freed) : h.ArisesFrom host strict frees freed :=
  ⟨freed, ⟨fun _ => Nat.le_refl _, .inr rfl⟩, ha⟩

lemma ArisesFrom.counting (hc : CountsOn frees freed freed')
    (ha : h.ArisesFrom host strict frees freed') : h.ArisesFrom host strict frees freed := by
  obtain ⟨freed'', hc', ha⟩ := ha
  refine ⟨freed'', ⟨fun i => (hc.le i).trans (hc'.le i), ?_⟩, ha⟩
  rcases hc.same with hf | rfl
  · exact .inl hf
  · exact hc'.same

lemma ArisesFrom.freeing (ha : h.ArisesFrom host strict frees freed) :
    h.ArisesFrom host strict True freed := by
  obtain ⟨freed', hc, ha⟩ := ha
  exact ⟨freed', ⟨hc.le, .inl trivial⟩, ha⟩

lemma Arises.tidy (ha : h.Arises host strict freed) : Tidy h := by
  induction ha with
  | new names threshold => exact (counted_new names threshold).tidy
  | @step h freed op _ _ ih => exact ih.effect (effect_after host op h)
  | names names _ ih => exact (sameSlots_names names).tidy ih

/-- An operation that discards nothing vacates no slot. -/
lemma ArisesFrom.step (ha : h.ArisesFrom host strict frees freed) (op : Operation H)
    (hn : op.Nests strict h) (hop : frees ∨ ∀ x, ¬ op.Discards x) :
    (op.after host h).ArisesFrom host strict frees freed := by
  obtain ⟨freed', hc, ha⟩ := ha
  refine ArisesFrom.counting hc ⟨_, ⟨le_countVacated, hop.imp_right fun hdiscards => ?_⟩,
    ha.step hn⟩
  exact countVacated_eq fun x hx => contains_after ha.tidy hx (hdiscards x)

lemma ArisesFrom.names (ha : h.ArisesFrom host strict frees freed) (names : Interner) :
    ArisesFrom host strict frees freed { h with names := names } := by
  obtain ⟨freed', hc, ha⟩ := ha
  exact ⟨freed', hc, ha.names names⟩

lemma ArisesFrom.alloc (ha : h.ArisesFrom host strict frees freed)
    (hn : (Operation.alloc o).Nests strict h) : (h.alloc o).2.ArisesFrom host strict frees freed :=
  ha.step (.alloc o) hn (.inr fun _ => nofun)

end Heap

open Heap

/-- Host code leads to heaps that arise, too. If not `frees`, it vacates no slots. -/
structure Environment.Orderly (env : Environment H) (strict frees : Prop) : Prop where
  call : ∀ fn args (h : Heap H) freed, h.Arises env.host.toKernelHost strict freed →
    ((env.host.call fn args).leaves h).ArisesFrom env.host.toKernelHost strict frees freed
  function : ∀ plugin ∈ env.plugins.functions, ∀ request (h : Heap H) freed,
    h.Arises env.host.toKernelHost strict freed →
      ((plugin.factory request).leaves h).ArisesFrom env.host.toKernelHost strict frees freed

/-! ## The operations of evaluations -/

namespace Regime

variable {env : Environment H} {host : KernelHost H} {strict frees : Prop} {freed : Nat → Nat}

/-- Evaluations on heaps that arise. -/
def arising (host : KernelHost H) (strict frees : Prop) (freed : Nat → Nat) : Regime H where
  Holds := Heap.ArisesFrom host strict frees freed
  loops := True
  Repeats _ := False
  stall := .anything
  strict := nofun

/-- One operation. -/
lemma keeps_run (op : Operation H) (hn : op.parent? = none) (hop : ∀ x, ¬ op.Discards x) :
    (arising host strict frees freed).Keeps (op.run host) := fun _ hh =>
  HeapM.ends_of_leaves (Heap.ArisesFrom.step hh op (Operation.nests_of_none hn) (.inr hop))

lemma keeps_alloc {o : HeapObject H} (ho : o.kind ≠ .frame) :
    (arising host strict frees freed).Keeps (HeapM.alloc o) := by
  refine fun h hh => Heap.ArisesFrom.alloc hh (Operation.nests_of_none ?_)
  cases o with
  | frame f => exact absurd rfl ho
  | _ => rfl

/-- A frame that is made in a live frame is nested in the heap. -/
lemma keeps_childFrame {parent : ObjectId} {adjust : Frame → Frame}
    (hadjust : ∀ f, (adjust f).parent = f.parent) :
    (arising host strict frees freed).Keeps (Heap.childFrame parent adjust) := by
  intro h hh
  refine HeapM.ends_read_bind (fun f hf => ?_) fun _ _ => hh
  rw [frame_eq_ok] at hf
  refine Heap.ArisesFrom.alloc hh fun p hparent => ?_
  obtain rfl : parent = p := Option.some.inj ((hadjust _).symm.trans hparent)
  refine ⟨issued_of_contains (contains_of_object? hf), fun _ o ho => ?_⟩
  rw [hf] at ho
  cases ho
  rfl

lemma governs_arising (henv : env.Orderly strict frees) :
    (arising env.host.toKernelHost strict frees freed).Governs env where
  primitive hop := by
    cases hop with
    | define frame name v => exact keeps_run (.define frame name v) rfl fun _ => nofun
    | bind frame name v => exact keeps_run (.bind frame name v) rfl fun _ => nofun
    | setVariable frame name v =>
      exact keeps_setVariable (fun x => keeps_run (.assign x name v) rfl fun _ => nofun)
        (keeps_run (.define frame name v) rfl fun _ => nofun)
    | setIndex target indices v => exact keeps_run (.setIndex target indices v) rfl fun _ => nofun
    | setParam param v => exact keeps_run (.setParam param v) rfl fun _ => nofun
    | connect input output => exact keeps_run (.connect input output) rfl fun _ => nofun
    | pin frame => exact keeps_run (.pin frame) rfl fun _ => nofun
    | childFrame parent adjust hadjust => exact keeps_childFrame hadjust
    | alloc o ho => exact keeps_alloc ho.kind
    | allocValue o ho => exact fun h hh => keeps_alloc ho.kind h hh
    | call fn args =>
      rintro h ⟨freed', hc, ha⟩
      exact HeapM.ends_of_leaves ((henv.call fn args h freed' ha).counting hc)
  unpin h frame hh :=
    Heap.ArisesFrom.step hh (.unpin frame) (Operation.nests_of_none rfl) (.inr fun _ => nofun)
  names _ names hh := Heap.ArisesFrom.names hh names
  called _ _ _ _ _ _ _ := .of_loops trivial
  function plugin hp request := by
    rintro h ⟨freed', hc, ha⟩
    have hleaves := (henv.function plugin hp request h freed' ha).counting hc
    exact (HeapM.ends_of_leaves hleaves).mono (fun _ _ hh => ⟨hh, fun _ _ => .of_loops trivial⟩)
      fun _ _ hh => hh
  loaded _ _ _ _ _ _ := .of_loops trivial

lemma Matches.leaves {R : Regime H} {P : Session H → Prop} {o o' : Outcome (Session H) α}
    (hm : R.Matches P o o') : o.Leaves P := by
  cases hm with
  | ok ht => exact ht
  | error ht => exact ht
  | outOfFuel => trivial

/-! ## Whatever depth is noted -/

/-- The evaluation leaves a heap behind of which `P` holds if it finds one. -/
def Leads (P : Heap H → Prop) (m : Eval H α) : Prop :=
  ∀ s, P s.heap → (m s).Leaves fun t => P t.heap

section Leads

variable {P : Heap H → Prop} {m m' : Eval H α} {f : α → Eval H β} {R : Regime H} {fuel : Nat}
  {c : Cursor}

lemma Leads.bind (hm : Leads P m) (hf : ∀ a, Leads P (f a)) : Leads P (m >>= f) := by
  intro s hs
  have hms := hm s hs
  change (Eval.bind m f s).Leaves _
  unfold Eval.bind
  generalize m s = o at hms
  cases o with
  | ok a t => exact hf a t hms
  | error e t => exact hms
  | outOfFuel => trivial

lemma Leads.mapError {change : EvalError → EvalError} (hm : Leads P m) :
    Leads P (m.mapError change) := by
  intro s hs
  have hms := hm s hs
  unfold Eval.mapError
  generalize m s = o at hms
  cases o with
  | ok a t => exact hms
  | error e t => exact hms
  | outOfFuel => trivial

lemma Leads.andAlso {leave : Session H → Session H} (hm : Leads P m)
    (hleave : ∀ t, P t.heap → P (leave t).heap) : Leads P (m.andAlso leave) := by
  intro s hs
  have hms := hm s hs
  unfold Eval.andAlso
  generalize m s = o at hms
  cases o with
  | ok a t => exact hleave t hms
  | error e t => exact hleave t hms
  | outOfFuel => trivial

lemma leads_of_compares (hm : ∀ depth, R.Compares depth m m') : Leads R.Holds m := fun s hs =>
  ((hm s.evalDepth s ⟨hs, rfl⟩).mono fun _ ht => ht.holds).leaves

lemma leads_lookup (hg : R.Governs env) (hstall : R.stall = .anything) (frame : ObjectId)
    (name : Name) : Leads R.Holds (lookup env (runner env fuel) frame name) := by
  have hself : ∀ depth, R.RelatedCalls env depth (runner env fuel)
      (runner (env.withLimit env.config.maxDepth) fuel) :=
    related_runner hg hstall .refl (Nat.le_refl fuel)
  have hlookup : ∀ depth, R.Compares depth (lookup env (runner env fuel) frame name)
      (lookup (env.withLimit env.config.maxDepth) (runner (env.withLimit env.config.maxDepth) fuel)
        frame name) := fun depth => compares_lookup (hself depth)
  exact leads_of_compares hlookup

/-- The body of a script function starts at the depth of the cursor, and the rest of a call goes by
the depth that is noted, if by any. -/
lemma leads_callValue (hg : R.Governs env) (hloops : R.loops) (hstall : R.stall = .anything)
    (callee : Value) (args : List CallArg) (site : Location) :
    Leads R.Holds (callValue env (runner env fuel) c callee args site) := by
  have hbody : ∀ frame body, Leads R.Holds
      ((runner env fuel).stmt { c with frame := frame } body) :=
    fun frame body s hs =>
      ((matches_runner hg hloops hstall .refl (Nat.le_refl fuel) hs).1 body).leaves
  unfold callValue
  split
  · refine Leads.bind (leads_of_compares fun _ => compares_read) fun f => ?_
    cases f.body with
    | script body =>
      refine Leads.mapError <| Leads.bind (leads_of_compares fun _ => compares_read) fun bound => ?_
      refine Leads.bind (leads_of_compares fun _ => hg.onHeap (.childFrame _ id fun _ => rfl))
        fun frame => ?_
      refine Leads.bind (leads_of_compares fun _ => compares_defineAll hg bound) fun _ => ?_
      refine Leads.bind (Leads.bind (leads_of_compares fun _ => hg.onHeap (.pin frame)) fun _ =>
        (hbody frame body).andAlso fun t ht => hg.unpin t.heap frame ht) fun flow => ?_
      cases flow <;> exact leads_of_compares fun _ => compares_pure
    | native fn =>
      exact leads_of_compares fun _ => compares_read.bind fun bound => hg.onHeap (.call fn _)
    | nodeCreator create =>
      have hcreate : ∀ depth, R.Compares depth (createNode env f create args)
          (createNode (env.withLimit env.config.maxDepth) f create args) := fun _ =>
        compares_createNode hg
      exact leads_of_compares hcreate
    | builtin b =>
      have hself : ∀ depth, R.RelatedCalls env depth (runner env fuel)
          (runner (env.withLimit env.config.maxDepth) fuel) :=
        related_runner hg hstall .refl (Nat.le_refl fuel)
      exact leads_of_compares fun depth =>
        compares_operandsOf.bind fun _ => compares_callBuiltin (hself depth)
  · exact leads_of_compares fun _ => compares_fail

end Leads

end Regime

/-! ## Evaluations -/

section Evaluations

variable {env : Environment H} {strict frees : Prop} {freed : Nat → Nat} {c : Cursor}
  {s : Session H} {fuel : Nat}

open Regime

/-- The session is one whose heap arises when counting goes on from `freed`. -/
abbrev Session.ArisesFrom (env : Environment H) (strict frees : Prop) (freed : Nat → Nat)
    (s : Session H) : Prop :=
  s.heap.ArisesFrom env.host.toKernelHost strict frees freed

lemma arises_expr (henv : env.Orderly strict frees) (e : Expr)
    (hs : s.ArisesFrom env strict frees freed) :
    ((runner env fuel).expr c e s).Leaves (Session.ArisesFrom env strict frees freed) :=
  ((matches_runner (governs_arising henv) trivial rfl .refl (Nat.le_refl fuel) hs).2 e).leaves

lemma arises_stmt (henv : env.Orderly strict frees) (st : Stmt)
    (hs : s.ArisesFrom env strict frees freed) :
    ((runner env fuel).stmt c st s).Leaves (Session.ArisesFrom env strict frees freed) :=
  ((matches_runner (governs_arising henv) trivial rfl .refl (Nat.le_refl fuel) hs).1 st).leaves

/-- What statements and collections keep is kept by programs. -/
lemma leaves_runStatements {self : Runner H} {P : Session H → Prop} {report : RunReport}
    {body : List Stmt} (hself : ∀ st t, P t → (self.stmt c st t).Leaves P)
    (hcollected : ∀ t, P t → P (t.collected env))
    (hs : P s) : (runStatements env self c report body s).Leaves P := by
  induction body generalizing report s with
  | nil => exact hs
  | cons st rest ih =>
    have hrest : ∀ result t, P t → (runRest env self c report rest result t).Leaves P := by
      intro result t ht
      unfold runRest
      split
      · exact ht
      · exact ih (hcollected t ht)
    have hst := hself st s hs
    rw [runStatements_eq]
    generalize self.stmt c st s = o at hst
    cases o with
    | ok flow t => exact hrest _ t hst
    | error e t => exact hrest _ t hst
    | outOfFuel => trivial

lemma Environment.Orderly.freeing (henv : env.Orderly strict frees) : env.Orderly strict True where
  call fn args h freed ha := (henv.call fn args h freed ha).freeing
  function plugin hp request h freed ha := (henv.function plugin hp request h freed ha).freeing

/-- A program may collect between its statements. -/
lemma arises_program (henv : env.Orderly strict frees) (program : Program)
    (hs : s.ArisesFrom env strict True freed) :
    (runProgram env (runner env fuel) c program s).Leaves
      (Session.ArisesFrom env strict True freed) := by
  refine leaves_runStatements (fun st t ht => arises_stmt henv.freeing st ht) (fun t ht => ?_) hs
  unfold Session.collected
  split
  · exact Heap.ArisesFrom.step ht (.collect env.config.gcGeneration [])
      (Operation.nests_of_none rfl) (.inl trivial)
  · exact ht

end Evaluations
end Patchbay
