import Patchbay.Proofs.Courses.Accounting
import Patchbay.Proofs.Courses.Rules
import Patchbay.Proofs.Safety.Programs

/-!
# Operator graphs stay wired

The history of an interpreter is made of the steps of its evaluations and of collections in between.
A collection frees what nothing leads to, and takes it off the ledger. Where host code is discreet,
the operator nodes that builtins made are guarded in every history, so they stay fed by their
operands as long as they live, whatever programs run.
-/

namespace Patchbay

variable {H : HostTypes} {env : Environment H} {code : HostCode H → Prop} {h h' : Heap H}
  {l : Ledger}

/-! ## Collections -/

/-- The ledger after a collection: what went is not known any more, and it is crossed out. -/
def Ledger.pruned (l : Ledger) (h : Heap H) : Ledger where
  knows v := l.knows v ∧ v.ValidIn h
  stored := l.stored.filter h.contains
  built := (l.built.filter fun c => c.node.all h.contains).map fun c =>
    { c with made := c.made.filter h.contains }

lemma Ledger.mem_pruned {c : Construction} (hc : c ∈ (l.pruned h).built) :
    ∃ d ∈ l.built, (∀ id, d.node = some id → h.contains id = true) ∧
      c = { d with made := d.made.filter h.contains } := by
  obtain ⟨d, hd, rfl⟩ := List.mem_map.mp hc
  obtain ⟨hd, hnode⟩ := List.mem_filter.mp hd
  refine ⟨d, hd, fun id hid => ?_, rfl⟩
  rwa [hid, Option.all_some] at hnode

namespace Heap

variable {bound : UInt8} {extra : List ObjectId} {x : ObjectId}

lemma callable_dropTargets {o : HeapObject H} {gone : ObjectId → Bool} :
    (o.dropTargets gone).callable? = o.callable? := by
  cases o <;> rfl

/-- A collection leaves alone the nodes that it does not free. -/
lemma Sound.steady_collect (hs : h.Sound .any) (hc : (h.collect bound extra).2.contains x = true) :
    h.Steady (h.collect bound extra).2 x where
  shape s hshape := ((collected_collect hs.wired bound extra).shape hc).trans hshape
  source i := by
    obtain ⟨o, ho⟩ := exists_object? hc
    obtain ⟨o', ho', rfl⟩ := (collected_collect hs.wired bound extra).object ho
    rw [sourceAt, ho, Option.bind_some, sourceAt_dropTargets, sourceAt, ho', Option.bind_some]
  emits u hu := hu.plain (plain?_collect hc)

/-- The sources of a survivor survive. -/
lemma Sound.contains_source (hs : h.Sound .any) (hc : (h.collect bound extra).2.contains x = true)
    {i : Nat} {p : PortRef} (hp : h.sourceAt x i = some p) :
    (h.collect bound extra).2.contains p.node = true := by
  have hlive := (hs.source x i p hp).contains
  obtain ⟨o, ho, hsource⟩ := Option.bind_eq_some_iff.mp hp
  exact (collected_collect hs.wired bound extra).child hc ho
    (HeapObject.mem_children.mpr (.inr (.inr ⟨i, p, hsource, rfl⟩))) hlive

end Heap

namespace Guarded

open Heap

lemma covers_collect (hg : Guarded env code h l) (bound : UInt8) (extra : List ObjectId) :
    (Customs.discreet env.host.toKernelHost code).Covers (h.collect bound extra).2
      (l.pruned (h.collect bound extra).2) := by
  have hs := hg.sound.collect bound extra
  have hcol := collected_collect hg.sound.wired bound extra
  refine ⟨hs.tidy, fun id o ho => ?_, ⟨hg.covers.absent, trivial⟩, fun p =>
    ⟨hg.covers.prim p, trivial⟩, fun hf => hf.elim, fun _ v hv => hv.2⟩
  obtain ⟨o', ho', rfl⟩ := hcol.object ho
  have hold := hg.covers.object id o' ho'
  refine ⟨fun v hv => ⟨hold.value v ?_, hs.value id _ ho v hv⟩,
    fun x hx => ⟨hold.scope x ?_, hs.scope id _ ho x hx⟩, fun c hc => hold.body c ?_,
    fun k hk => hold.kernel k ?_⟩
  · rwa [values_dropTargets] at hv
  · rwa [scope_dropTargets] at hx
  · rwa [callable_dropTargets] at hc
  · rwa [hostKernel_dropTargets] at hk

/-- A collection keeps the invariant. -/
lemma collect (hg : Guarded env code h l) (bound : UInt8) (extra : List ObjectId) :
    Guarded env code (h.collect bound extra).2 (l.pruned (h.collect bound extra).2) := by
  have hs := hg.sound.collect bound extra
  obtain ⟨hshape, hpins⟩ := hg.sound.collect_pinned bound extra hg.pinned
  have hmade : ∀ {d : Construction} {x : ObjectId},
      x ∈ d.made.filter (h.collect bound extra).2.contains →
      x ∈ d.made ∧ h.Steady (h.collect bound extra).2 x := fun hx =>
    ⟨(List.mem_filter.mp hx).1, hg.sound.steady_collect (List.mem_filter.mp hx).2⟩
  refine
    { covers := hg.covers_collect bound extra
      sound := hs
      root := ⟨hg.root, ?_⟩
      pinned := hpins.symm ▸ hg.pinned
      hidden := fun v hv c hc x hx => ?_
      node := fun c hc x hx => ?_
      closed := fun c hc hnone y i p hp hx => ?_
      fed := fun c hc id hid => ?_ }
  · obtain ⟨s, hroot, hkind⟩ := hg.valid hg.root
    exact ⟨s, hshape.trans hroot, hkind⟩
  · obtain ⟨d, hd, -, rfl⟩ := Ledger.mem_pruned hc
    exact hg.hidden v hv.1 d hd x (hmade hx).1
  · obtain ⟨d, hd, -, rfl⟩ := Ledger.mem_pruned hc
    obtain ⟨s, hnode, hkind⟩ := hg.node d hd x (hmade hx).1
    exact ⟨s, (hmade hx).2.shape s hnode, hkind⟩
  -- a wire after the collection joins two survivors, and it was there before
  · obtain ⟨d, hd, -, rfl⟩ := Ledger.mem_pruned hc
    have hy := contains_of_sourceAt hp
    rw [(hg.sound.steady_collect hy).source] at hp
    exact List.mem_filter.mpr ⟨hg.closed d hd hnone y i p hp (hmade hx).1, hy⟩
  · obtain ⟨d, hd, hlive, rfl⟩ := Ledger.mem_pruned hc
    obtain ⟨hmem, hfed⟩ := hg.fed d hd id hid
    refine ⟨List.mem_filter.mpr ⟨hmem, hlive id hid⟩,
      hfed.later hs rfl (hg.sound.steady_collect (hlive id hid)) fun k p hp hx => ?_⟩
    have hsource := hg.sound.contains_source (hlive id hid) hp
    exact ⟨List.mem_filter.mpr ⟨hx, hsource⟩, hg.sound.steady_collect hsource⟩

end Guarded

/-! ## Histories -/

/-- What an interpreter may have come to from a heap. At the start, all valid handles may be known;
since then, evaluations took steps and garbage was collected. -/
inductive History (env : Environment H) (code : HostCode H → Prop) (start : Heap H) :
    Heap H × Ledger → Prop where
  | start : History env code start (start, ⟨fun v => v.ValidIn start, start.liveIds, []⟩)
  | step {a b : Heap H × Ledger} : History env code start a →
      Step (.discreet env.host.toKernelHost code) env a b → History env code start b
  | collect {h : Heap H} {l : Ledger} (bound : UInt8) (extra : List ObjectId) :
      History env code start (h, l) →
      History env code start ((h.collect bound extra).2, l.pruned (h.collect bound extra).2)

/-- What the ledger says of a heap. -/
structure Ledger.Upheld (l : Ledger) (h : Heap H) : Prop where
  /-- What was made is connected to its operands. -/
  fed : ∀ c ∈ l.built, ∀ id, c.node = some id → h.Fed c id
  /-- What is known leads to nothing that a failed attempt left behind. -/
  cut : ∀ c ∈ l.built, c.node = none → ∀ v x, l.knows v → v.referent = some x →
    ∀ y ∈ c.made, ¬ h.Reachable (· = x) y
  /-- An operator node that was not stored as an object of its own was made in such an attempt, and
  all frames are known. -/
  accounts : l.Accounts h

lemma Guarded.cut (hg : Guarded env code h l) {c : Construction} (hc : c ∈ l.built)
    (hnone : c.node = none) {v : Value} {x y : ObjectId} (hv : l.knows v) (hx : v.referent = some x)
    (hr : h.Reachable (· = x) y) : y ∉ c.made := by
  -- whatever known values lead to was not made by a failed attempt
  induction hr with
  | root _ heq =>
    subst heq
    exact fun hmem => (hg.hidden v hv c hc _ hmem).2 hnone hx
  | @child z y o _ ho hchild _ ih =>
    intro hmem
    rcases HeapObject.mem_children.mp hchild with ⟨w, hw, hr⟩ | hscope | ⟨i, p, hp, rfl⟩
    · exact (hg.hidden w ((hg.covers.object z o ho).value w hw) c hc _ hmem).2 hnone hr
    · exact (hg.hidden _ ((hg.covers.object z o ho).scope _ hscope) c hc _ hmem).2 hnone rfl
    · refine ih (hg.closed c hc hnone z i p ?_ hmem)
      rw [Heap.sourceAt, ho, Option.bind_some, hp]

/-- A collection leaves the ledger complete. -/
lemma Ledger.Accounts.collect (ha : l.Accounts h) (hw : h.Wired) (bound : UInt8)
    (extra : List ObjectId) :
    (l.pruned (h.collect bound extra).2).Accounts (h.collect bound extra).2 where
  operator x hx := by
    have hlive := Heap.contains_of_isOperator hx
    rw [Heap.isOperator_of_plain (Heap.plain?_collect hlive)] at hx
    rcases ha.operator x hx with hs | ⟨c, hc, hmade, hnode⟩
    · exact .inl (List.mem_filter.mpr ⟨hs, hlive⟩)
    · refine .inr ⟨_, List.mem_map.mpr ⟨c, List.mem_filter.mpr ⟨hc, ?_⟩, rfl⟩,
        List.mem_filter.mpr ⟨hmade, hlive⟩, hnode⟩
      rcases hnode with hnone | hsome
      · rw [hnone]
        rfl
      · rwa [hsome, Option.all_some]
  frame x hx := by
    refine ⟨ha.frame x ?_, hx⟩
    obtain ⟨s, hs, hkind⟩ := hx
    exact ⟨s, ((Heap.collected_collect hw bound extra).shape (Heap.contains_of_shape hs)).symm.trans
      hs, hkind⟩

/-! ## Ledgers that go on -/

/-- Nothing is forgotten, and nothing is crossed out. -/
structure Ledger.Continues (l l' : Ledger) : Prop where
  knows : ∀ v, l.knows v → l'.knows v
  built : l.built <+: l'.built

namespace Ledger.Continues

lemma refl (l : Ledger) : l.Continues l := ⟨fun _ hv => hv, List.prefix_refl _⟩

lemma trans {l' l'' : Ledger} (h1 : l.Continues l') (h2 : l'.Continues l'') : l.Continues l'' :=
  ⟨fun v hv => h2.knows v (h1.knows v hv), h1.built.trans h2.built⟩

end Ledger.Continues

lemma Course.continues {K : Customs H} {a b : Heap H × Ledger} (hc : Course K env a b) :
    a.2.Continues b.2 :=
  ⟨fun _ => hc.knows, hc.built⟩

/-! ## Discreet hosts -/

namespace Heap.Sound

lemma any {T : Trust H} (hs : h.Sound T) : h.Sound .any :=
  ⟨hs.toNoDangling, hs.tidy, hs.wired, fun _ _ _ => Trust.any_body, fun _ _ _ _ _ => trivial⟩

/-- If all valid handles are known, all that is stored is. -/
lemma holds (hs : h.Sound (.always code)) {id : ObjectId} {o : HeapObject H}
    (ho : h.object? id = some o) (hl : ∀ v, v.ValidIn h → l.knows v) : l.Holds code o where
  value v hv := hl v (hs.value id o ho v hv)
  scope x hx := hl _ (hs.scope id o ho x hx)
  body c hc := by
    cases o with
    | callable f =>
      cases hc
      exact Trust.body_always.mp (hs.body id c ho)
    | _ => cases hc
  kernel := hs.kernel id o ho

end Heap.Sound

/-- Host code is discreet wherever a history leads to. -/
abbrev Environment.Discreet (env : Environment H) (code : HostCode H → Prop) (start : Heap H) :
    Prop :=
  env.Follows (.discreet env.host.toKernelHost code) (History env code start)

section Discreet

variable {start : Heap H} {a b : Heap H × Ledger} {s s' t : Session H}

/-- What an interpreter may have come to since a ledger told its history. -/
def History.From (env : Environment H) (code : HostCode H → Prop) (start : Heap H) (l : Ledger)
    (a : Heap H × Ledger) : Prop := History env code start a ∧ l.Continues a.2

lemma Environment.Discreet.decent (hd : env.Discreet code start) (l : Ledger) :
    Decent (.discreet env.host.toKernelHost code) (History.From env code start l) env :=
  Environment.Follows.decent (hd.mono fun _ ha => ha.1) fun ha hs =>
    ⟨ha.1.step hs, ha.2.trans (Course.continues (.single hs))⟩

/-- At the start, nothing was made. -/
lemma AtRest.guarded (ha : AtRest (.always code) env s) :
    Guarded env code s.heap ⟨fun v => v.ValidIn s.heap, s.heap.liveIds, []⟩ where
  covers :=
    ⟨ha.sound.tidy, fun _ _ ho => ha.sound.holds ho fun _ hv => hv, trivial, fun _ => trivial,
    fun hf => hf.elim, fun _ _ hv => hv⟩
  sound := ha.sound.any
  root := ha.root
  pinned := ha.pinned
  hidden v _ c hc := by cases hc
  node c hc := by cases hc
  closed c hc := by cases hc
  fed c hc := by cases hc

/-- In every history, all that was made is guarded, and the ledger is complete. -/
lemma History.guarded (hd : env.Discreet code s.heap) (ha : AtRest (.always code) env s)
    (hh : History env code s.heap a) : Guarded env code a.1 a.2 ∧ a.2.Accounts a.1 := by
  induction hh with
  | start =>
    refine ⟨ha.guarded, fun x hx => .inl ?_, fun _ hx => hx⟩
    exact Heap.mem_liveIds.mpr (Heap.contains_of_isOperator hx)
  | @step a b _ hstep ih => exact ⟨hstep.guarded (hd.decent a.2) ih.1, hstep.accounts ih.1 ih.2⟩
  | collect bound extra _ ih =>
    exact ⟨ih.1.collect bound extra, ih.2.collect ih.1.sound.wired bound extra⟩

lemma History.informed (hd : env.Discreet code s.heap) (ha : AtRest (.always code) env s)
    {c : Cursor} (hh : History env code s.heap (h, l)) (hframe : l.knows (.frame c.frame)) :
    Informed (.discreet env.host.toKernelHost code) (History.From env code s.heap l) env c h l := by
  obtain ⟨hg, -⟩ := hh.guarded hd ha
  exact ⟨⟨hh, .refl l⟩, hg.covers, hg.root, hframe⟩

end Discreet

/-! ## Programs -/

/-- A ledger that tells the history of a heap, and what it says of the heap. -/
structure Ledger.Tells (l : Ledger) (env : Environment H) (code : HostCode H → Prop)
    (start h : Heap H) : Prop where
  history : History env code start (h, l)
  root : l.knows (.frame env.root)
  upheld : l.Upheld h

section Programs

variable {s t u : Session H} {start : Heap H} {fuel : Nat}

lemma History.tells (hd : env.Discreet code s.heap) (ha : AtRest (.always code) env s)
    (hh : History env code s.heap (h, l)) : l.Tells env code s.heap h := by
  obtain ⟨hg, haccounts⟩ := hh.guarded hd ha
  exact ⟨hh, hg.root, fun c hc id hid => (hg.fed c hc id hid).2,
    fun c hc hnone v x hv hx y hy hr => hg.cut hc hnone hv hx hr hy, haccounts⟩

/-- A top-level statement goes on with the history, whether it fails or not. -/
lemma History.statement (hd : env.Discreet code s.heap) (ha : AtRest (.always code) env s)
    (hh : History env code s.heap (t.heap, l)) {st : Stmt} {result : Except EvalError Flow}
    (hrun : Eval.attempt ((runner env fuel).stmt env.top st) t = .ok result u) :
    ∃ l', History env code s.heap (u.heap, l') := by
  have hends : (runner env fuel).stmt env.top st t ≠ .outOfFuel := by
    intro hr
    unfold Eval.attempt at hrun
    rw [hr] at hrun
    cases hrun
  have hr := hh.informed (c := env.top) hd ha (hh.guarded hd ha).1.root
  -- the history is read off the watched evaluator, which agrees with a runner that ends
  have hself : CourseRunner _ _ env (watchedRunner env (fail (.recursionLimit 0))
      (fun _ _ => True) fuel) :=
    courseRunner_watched (hd.decent l) Eval.takes_fail (fun _ _ _ _ _ _ => trivial) fuel
  have htakes := hself.stmt hr st
  unfold Eval.Takes at htakes
  rw [spending_stmt_eq hends] at htakes
  unfold Eval.attempt at hrun
  cases hr : (runner env fuel).stmt env.top st t with
  | ok flow u' =>
    rw [hr] at hrun htakes
    cases hrun
    obtain ⟨l', hcourse, -⟩ := htakes
    exact ⟨l', (hcourse.reached (hd.decent l) ⟨hh, .refl l⟩).1⟩
  | error e u' =>
    rw [hr] at hrun htakes
    cases hrun
    obtain ⟨l', hcourse⟩ := htakes
    exact ⟨l', (hcourse.reached (hd.decent l) ⟨hh, .refl l⟩).1⟩
  | outOfFuel => exact absurd hr hends

/-- Whatever is evaluated on the way of a statement goes on with the history, and its value is known
then. -/
lemma History.valuesGood (hd : env.Discreet code s.heap) (ha : AtRest (.always code) env s)
    (hh : History env code s.heap (t.heap, l)) {c : Cursor} (hframe : l.knows (.frame c.frame))
    (st : Stmt) :
    st.ValuesGood env (fun v u => ∃ l' : Ledger, l'.Tells env code s.heap u.heap ∧ l'.knows v ∧
      l.Continues l') c t := by
  refine Stmt.valuesGood fun fuel cause hspent => ?_
  have hself : CourseRunner _ (History.From env code s.heap l) env (watchedRunner env (fail cause)
      (fun v u => ∃ l' : Ledger, l'.Tells env code s.heap u.heap ∧ l'.knows v ∧ l.Continues l')
        fuel) :=
    courseRunner_watched (hd.decent l) Eval.takes_fail
      (fun v u l' hfrom _ hv => ⟨l', hfrom.1.tells hd ha, hv, hfrom.2⟩) fuel
  have htakes := hself.stmt (hh.informed hd ha hframe) st
  unfold Eval.Takes at htakes
  rw [hspent] at htakes
  exact htakes

lemma History.collectIfNeeded (hh : History env code start (t.heap, l))
    {stats : Option CollectStats} (hrun : Eval.collectIfNeeded env t = .ok stats u) :
    ∃ l', History env code start (u.heap, l') := by
  unfold Eval.collectIfNeeded at hrun
  split at hrun
  · cases hrun
    exact ⟨_, hh.collect _ _⟩
  · cases hrun
    exact ⟨l, hh⟩

lemma History.passes (hd : env.Discreet code s.heap) (ha : AtRest (.always code) env s)
    {report : RunReport} {body : List Stmt} (hh : History env code s.heap (t.heap, l))
    (hp : Passes env (runner env fuel) env.top report body t u) :
    ∃ l', History env code s.heap (u.heap, l') := by
  induction hp generalizing l with
  | statement hrun => exact hh.statement hd ha hrun
  | collection hrun _ hcollect =>
    obtain ⟨l1, h1⟩ := hh.statement hd ha hrun
    exact h1.collectIfNeeded hcollect
  | later hrun _ hcollect _ ih =>
    obtain ⟨l1, h1⟩ := hh.statement hd ha hrun
    obtain ⟨l2, h2⟩ := h1.collectIfNeeded hcollect
    exact ih h2

lemma History.runStatements (hd : env.Discreet code s.heap) (ha : AtRest (.always code) env s)
    (body : List Stmt) {report report' : RunReport} {t : Session H} {l : Ledger}
    (hh : History env code s.heap (t.heap, l))
    (hrun : runStatements env (runner env fuel) env.top report body t = .ok report' u) :
    ∃ l', History env code s.heap (u.heap, l') := by
  induction body generalizing report t l with
  | nil =>
    cases hrun
    exact ⟨l, hh⟩
  | cons st rest ih =>
    rw [runStatements_cons] at hrun
    cases hr : Eval.attempt ((runner env fuel).stmt env.top st) t with
    | ok result t1 =>
      rw [hr] at hrun
      obtain ⟨l1, h1⟩ := hh.statement hd ha hr
      dsimp only at hrun
      split at hrun
      · cases hrun
        exact ⟨l1, h1⟩
      · obtain ⟨stats, t2, hcollect⟩ := collectIfNeeded_eq_ok env t1
        rw [hcollect] at hrun
        obtain ⟨l2, h2⟩ := h1.collectIfNeeded hcollect
        exact ih h2 hrun
    | error e t1 => exact (attempt_ne_error hr).elim
    | outOfFuel =>
      rw [hr] at hrun
      cases hrun

/-- Programs go on with the history. -/
lemma History.ran (hd : env.Discreet code s.heap) (ha : AtRest (.always code) env s)
    (hr : Ran env s t) : ∃ l, History env code s.heap (t.heap, l) := by
  induction hr with
  | refl => exact ⟨_, .start⟩
  | program _ hrun ih =>
    obtain ⟨l, hh⟩ := ih
    exact hh.runStatements hd ha _ hrun
  | collect _ hrun ih =>
    obtain ⟨l, hh⟩ := ih
    cases hrun
    exact ⟨_, hh.collect _ _⟩
  | names names _ ih =>
    obtain ⟨l, hh⟩ := ih
    exact ⟨l, hh.step (.names names)⟩

end Programs

end Patchbay
