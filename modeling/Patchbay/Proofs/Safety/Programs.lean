import Patchbay.Proofs.Safety.Rules
import Patchbay.Proofs.Safety.Stock

/-!
# No program observes a collected object

An interpreter runs programs one after the other. Between top-level statements its heap is sound and
its root frame is pinned: statements take nothing away, and a collection keeps all that the root
frame leads to. So no reference dangles there, and nothing that a program does fails for a dead
object.
-/

namespace Patchbay

variable {H : HostTypes} {T : Trust H} {env : Environment H} {self : Runner H} {c : Cursor}
  {s s' t : Session H}

open Heap (Later Sound)

/-- What holds of a session that no evaluation runs in. -/
structure AtRest (T : Trust H) (env : Environment H) (s : Session H) : Prop where
  sound : Sound T s.heap
  root : s.heap.HasKind .frame env.root
  pinned : 0 < s.heap.pinCount env.root

lemma AtRest.ready (ha : AtRest T env s) : Ready T env env.top s.heap :=
  ⟨ha.sound, ha.root, ha.root⟩

lemma AtRest.later (ha : AtRest T env s) (hl : Later T s.heap s'.heap) : AtRest T env s' :=
  ⟨hl.sound, hl.grown.hasKind ha.root,
    UInt32.lt_of_lt_of_le ha.pinned (hl.grown.pins env.root)⟩

/-! ## Starting -/

/-- Binding builtins in a frame. -/
lemma safe_bindBuiltins {root : ObjectId} (bs : List Builtin) {h : Heap H} (hs : Sound T h)
    (hroot : h.HasKind .frame root) :
    HeapM.Safe T
      (bs.forM fun b => do
        let name ← Heap.internName b.reservedName
        let f ← HeapM.allocValue (.callable (.builtin name b))
        Heap.define root name f) h fun _ _ => True := by
  induction bs generalizing h with
  | nil => exact HeapM.safe_pure hs trivial
  | cons b rest ih =>
    refine HeapM.Keeps.bind (Q := fun _ _ => True) ?_ fun _ h1 hl1 _ =>
      ih hl1.sound (hl1.grown.hasKind hroot)
    have hintern : HeapM.Safe T (Heap.internName b.reservedName) h fun _ => h.SamePins :=
      HeapM.keeps_of_writes hs Heap.writes_internName
    refine hintern.bind fun name h1 hl1 _ => ?_
    refine (HeapM.safe_allocValue hl1.sound ?_).bind fun f h2 hl2 hf => ?_
    · exact Heap.fits_callable (fun p hp => by cases hp) nofun trivial
    · exact (Heap.safe_define hl2.sound ((hl1.trans hl2).grown.hasKind hroot) hf).mono
        fun _ _ _ _ => trivial

/-- The heap that a session starts with. -/
lemma safe_rootFrame {h : Heap H} (hs : Sound T h) (dir : Option Path) :
    HeapM.Safe T (rootFrame dir) h fun root h' => h'.HasKind .frame root ∧
    0 < h'.pinCount root := by
  have hfit : h.Fits T (.frame (.root dir)) :=
    ⟨HeapObject.unwired_of_kind nofun, (fun v hv => by cases hv), nofun, nofun, nofun⟩
  refine (HeapM.safe_alloc hs hfit).bind fun root h1 hl1 hroot => ?_
  have hkind : h1.HasKind .frame root := Heap.hasKind_of_object hroot.1
  have hroom : h1.pinCount root < h1.pinCount root + 1 := by
    rw [hroot.2]
    decide
  refine ((Heap.keeps_pin hl1.sound hroom).safe hkind.contains).bind fun _ h2 hl2 hpin => ?_
  have hpinned : 0 < h2.pinCount root := by
    rw [hpin, Heap.pinCount_pinned hkind.contains, hroot.2]
    decide
  refine (safe_bindBuiltins Builtin.all hl2.sound (hl2.grown.hasKind hkind)).bind
    fun _ h3 hl3 _ => ?_
  exact HeapM.safe_pure hl3.sound ⟨hl3.grown.hasKind (hl2.grown.hasKind hkind),
    UInt32.lt_of_lt_of_le hpinned (hl3.grown.pins root)⟩

/-- Making the root frame and the names that operators are looked up under. -/
lemma safe_build {h : Heap H} (hs : Sound T h) (dir : Option Path) :
    HeapM.Safe T
      (do
        let root ← rootFrame dir
        let binaryOp ← Heap.internName Builtin.binaryOp.reservedName
        let unaryOp ← Heap.internName Builtin.unaryOp.reservedName
        let index ← Heap.internName Builtin.index.reservedName
        return (root, (⟨binaryOp, unaryOp, index⟩ : ReservedNames))) h fun r h' =>
      h'.HasKind .frame r.1 ∧ 0 < h'.pinCount r.1 := by
  have hintern : ∀ {h : Heap H} (text : String), Sound T h →
      HeapM.Safe T (Heap.internName text) h fun _ => h.SamePins := fun _ hs =>
    HeapM.keeps_of_writes hs Heap.writes_internName
  refine (safe_rootFrame hs dir).bind fun root h1 hl1 hroot => ?_
  refine (hintern _ hl1.sound).bind fun _ h2 hl2 _ => ?_
  refine (hintern _ hl2.sound).bind fun _ h3 hl3 _ => ?_
  refine (hintern _ hl3.sound).bind fun _ h4 hl4 _ => HeapM.safe_pure hl4.sound ?_
  have hl := (hl2.trans hl3).trans hl4
  exact ⟨hl.grown.hasKind hroot.1, UInt32.lt_of_lt_of_le hroot.2 (hl.grown.pins root)⟩

lemma Setup.start_environment {setup : Setup H} (hstart : setup.start = .ok (env, s)) :
    env.host = setup.host ∧ env.plugins = setup.plugins ∧ env.loader = setup.loader := by
  unfold Setup.start at hstart
  dsimp only at hstart
  split at hstart
  · cases hstart
    exact ⟨rfl, rfl, rfl⟩
  · cases hstart

/-- A session starts at rest. -/
lemma Setup.atRest_start {setup : Setup H} (hstart : setup.start = .ok (env, s)) :
    AtRest T env s := by
  have hbuild := safe_build (T := T) (Heap.sound_new setup.names setup.config.gcThreshold)
    setup.config.rootDir
  unfold HeapM.Safe HeapM.Keeps HeapM.Ends at hbuild
  unfold Setup.start at hstart
  dsimp only at hstart
  split at hstart
  · next root reserved h hrun =>
    rw [hrun] at hbuild
    cases hstart
    exact ⟨hbuild.1.sound, hbuild.2.1, hbuild.2.2⟩
  · cases hstart

/-! ## Between statements -/

/-- What becomes of a session when a top-level statement has run. -/
lemma AtRest.statement (ha : AtRest T env s) (hself : SafeRunner T env self) {st : Stmt}
    {result : Except EvalError Flow}
    (hrun : Eval.attempt (self.stmt env.top st) s = .ok result s') :
    AtRest T env s' ∧ (∀ e, result = .error e → e.isDead = false) ∧
      ∀ v, result = .ok (.ret v) → v.ValidIn s'.heap := by
  have hsafe := hself.stmt ha.ready st
  unfold Eval.Safe at hsafe
  unfold Eval.attempt at hrun
  cases hr : self.stmt env.top st s with
  | ok flow s1 =>
    rw [hr] at hsafe hrun
    cases hrun
    refine ⟨ha.later hsafe.1, (fun e he => by cases he), fun v hv => ?_⟩
    cases hv
    exact hsafe.2
  | error e s1 =>
    rw [hr] at hsafe hrun
    cases hrun
    refine ⟨ha.later hsafe.1, fun e' he' => ?_, (fun v hv => by cases hv)⟩
    cases he'
    exact hsafe.2
  | outOfFuel =>
    rw [hr] at hrun
    cases hrun

/-- A collection keeps the root frame and all that it leads to. -/
lemma AtRest.collected (ha : AtRest T env s) (bound : UInt8) (extra : List ObjectId) :
    AtRest T env { s with heap := (s.heap.collect bound extra).2 } := by
  obtain ⟨hshape, hpins⟩ := ha.sound.collect_pinned bound extra ha.pinned
  obtain ⟨shape, hroot, hkind⟩ := ha.root
  exact ⟨ha.sound.collect bound extra, ⟨shape, hshape.trans hroot, hkind⟩, hpins.symm ▸ ha.pinned⟩

lemma AtRest.collectIfNeeded (ha : AtRest T env s) {stats : Option CollectStats}
    (hrun : Eval.collectIfNeeded env s = .ok stats s') : AtRest T env s' := by
  unfold Eval.collectIfNeeded at hrun
  split at hrun
  · cases hrun
    exact ha.collected _ _
  · cases hrun
    exact ha

/-! ## Programs -/

/-- The sessions that running statements leads to: after each top-level statement, and after each
collection between two of them. A run that does not end passes sessions all the same. -/
inductive Passes (env : Environment H) (self : Runner H) (c : Cursor) :
    RunReport → List Stmt → Session H → Session H → Prop where
  | statement {report st rest s s' result} : Eval.attempt (self.stmt c st) s = .ok result s' →
      Passes env self c report (st :: rest) s s'
  | collection {report st rest s s' s'' result stats} :
      Eval.attempt (self.stmt c st) s = .ok result s' → (report.add result).returned = none →
      Eval.collectIfNeeded env s' = .ok stats s'' → Passes env self c report (st :: rest) s s''
  | later {report st rest s s' s'' t result stats} :
      Eval.attempt (self.stmt c st) s = .ok result s' → (report.add result).returned = none →
      Eval.collectIfNeeded env s' = .ok stats s'' →
      Passes env self c (report.add result) rest s'' t → Passes env self c report (st :: rest) s t

lemma AtRest.passes {report : RunReport} {body : List Stmt} (ha : AtRest T env s)
    (hself : SafeRunner T env self) (hp : Passes env self env.top report body s t) :
    AtRest T env t := by
  induction hp with
  | statement hrun => exact (ha.statement hself hrun).1
  | collection hrun _ hcollect => exact (ha.statement hself hrun).1.collectIfNeeded hcollect
  | later hrun _ hcollect _ ih => exact ih ((ha.statement hself hrun).1.collectIfNeeded hcollect)

/-- What a report says: no failure is for a dead object, and the returned value is valid. -/
structure RunReport.Clean (h : Heap H) (r : RunReport) : Prop where
  failures : ∀ e ∈ r.failures, e.isDead = false
  returned : ∀ v, r.returned = some v → v.ValidIn h

lemma RunReport.Clean.add {h : Heap H} {r : RunReport} (hr : ∀ e ∈ r.failures, e.isDead = false)
    (hnone : r.returned = none) {result : Except EvalError Flow}
    (herror : ∀ e, result = .error e → e.isDead = false)
    (hret : ∀ v, result = .ok (.ret v) → v.ValidIn h) : (r.add result).Clean h := by
  cases result with
  | ok flow =>
    cases flow with
    | next => exact ⟨hr, fun v hv => by rw [RunReport.add, hnone] at hv; cases hv⟩
    | ret w =>
      refine ⟨hr, fun v hv => ?_⟩
      cases hv
      exact hret w rfl
  | error e =>
    refine ⟨fun e' he' => ?_, fun v hv => by rw [RunReport.add, hnone] at hv; cases hv⟩
    rcases List.mem_append.mp he' with hold | hnew
    · exact hr e' hold
    · rw [List.mem_singleton.mp hnew]
      exact herror e rfl

/-- Running statements ends with a clean report, unless it does not end. -/
lemma AtRest.runStatements (hself : SafeRunner T env self) (body : List Stmt) {report : RunReport}
    {s : Session H} (ha : AtRest T env s) (hfail : ∀ e ∈ report.failures, e.isDead = false)
    (hret : report.returned = none) :
    match runStatements env self env.top report body s with
    | .ok r s' => AtRest T env s' ∧ r.Clean s'.heap
    | .error _ _ => False
    | .outOfFuel => True := by
  induction body generalizing report s with
  | nil => exact ⟨ha, hfail, fun v hv => by rw [hret] at hv; cases hv⟩
  | cons st rest ih =>
    rw [runStatements_cons]
    cases hrun : Eval.attempt (self.stmt env.top st) s with
    | ok result s1 =>
      obtain ⟨ha1, herror, hval⟩ := ha.statement hself hrun
      have hclean : (report.add result).Clean s1.heap := .add hfail hret herror hval
      dsimp only
      by_cases hreturned : (report.add result).returned.isSome = true
      · rw [if_pos hreturned]
        exact ⟨ha1, hclean⟩
      · rw [if_neg hreturned]
        obtain ⟨stats, s2, hcollect⟩ := collectIfNeeded_eq_ok env s1
        rw [hcollect]
        exact ih (ha1.collectIfNeeded hcollect) hclean.failures (by simpa using hreturned)
    | error e s1 => exact attempt_ne_error hrun
    | outOfFuel => trivial

/-- The sessions of an interpreter between programs. A host may collect there, and parsing the next
program interns names. -/
inductive Ran (env : Environment H) : Session H → Session H → Prop where
  | refl (s : Session H) : Ran env s s
  | program {s s' s'' : Session H} {fuel : Nat} {program : Program} {report : RunReport} :
      Ran env s s' → runProgram env (runner env fuel) env.top program s' = .ok report s'' →
      Ran env s s''
  | collect {s s' s'' : Session H} {bound : UInt8} {extra : List ObjectId} {stats : CollectStats} :
      Ran env s s' → Eval.collect bound extra s' = .ok stats s'' → Ran env s s''
  | names {s s' : Session H} (names : Interner) : Ran env s s' →
      Ran env s { s' with heap := { s'.heap with names := names } }

/-- Running a program ends with a clean report, unless it does not end. -/
lemma AtRest.runProgram (ha : AtRest T env s) (hself : SafeRunner T env self) (program : Program) :
    match runProgram env self env.top program s with
    | .ok r s' => AtRest T env s' ∧ r.Clean s'.heap
    | .error _ _ => False
    | .outOfFuel => True :=
  ha.runStatements hself program.body (fun e he => by cases he) rfl

lemma AtRest.ran (ha : AtRest T env s) (hc : Contract T env.host env.plugins env.loader)
    (hr : Ran env s t) : AtRest T env t := by
  induction hr with
  | refl => exact ha
  | @program s' s'' fuel program report _ hrun ih =>
    have hall := ih.runProgram (safe_runner hc fuel) program
    rw [hrun] at hall
    exact hall.1
  | collect _ hrun ih =>
    cases hrun
    exact ih.collected _ _
  | names names _ ih => exact ih.later (ih.sound.later_stored .names)

/-- What can be seen of the run of a program. -/
structure SafeRun (env : Environment H) (fuel : Nat) (program : Program) (s : Session H) :
    Prop where
  /-- After every top-level statement and every collection, no reference dangles. -/
  passes : ∀ t, Passes env (runner env fuel) env.top .empty program.body s t → t.heap.NoDangling
  /-- The run makes a report if it ends. -/
  reported : ∀ e t, runProgram env (runner env fuel) env.top program s ≠ .error e t
  /-- No failure is for a dead object. -/
  failures : ∀ report t, runProgram env (runner env fuel) env.top program s = .ok report t →
    ∀ e ∈ report.failures, e.isDead = false
  /-- The object of the returned value is live, and as the value says. -/
  returned : ∀ report t, runProgram env (runner env fuel) env.top program s = .ok report t →
    ∀ v, report.returned = some v → v.ValidIn t.heap

/-- No program observes a collected object, whatever programs ran before it.

The contract asks more of the host than that it stores and returns valid handles. Its code does not
report a dead object of its own accord, its pins can be counted, the nodes that it stores have no
wires yet, and what it has captured does not rest on its own pins of frames, which the language
unpins. -/
theorem no_dead_object {setup : Setup H} (hc : Contract T setup.host setup.plugins setup.loader)
    (hstart : setup.start = .ok (env, s)) (hran : Ran env s t) (fuel : Nat) (program : Program) :
    t.heap.NoDangling ∧ SafeRun env fuel program t := by
  have hc' : Contract T env.host env.plugins env.loader := by
    obtain ⟨hhost, hplugins, hloader⟩ := Setup.start_environment hstart
    rwa [hhost, hplugins, hloader]
  have hself := safe_runner hc' fuel
  have ha : AtRest T env t := (Setup.atRest_start hstart).ran hc' hran
  have hall := ha.runProgram hself program
  refine ⟨ha.sound.toNoDangling, ⟨fun t' ht' => (ha.passes hself ht').sound.toNoDangling,
    ?_, ?_, ?_⟩⟩
  · intro e t' hrun
    rwa [hrun] at hall
  · intro report t' hrun
    rw [hrun] at hall
    exact hall.2.failures
  · intro report t' hrun
    rw [hrun] at hall
    exact hall.2.returned

/-- The stock host with a factory of functions and one of nodes, and a collection after every
statement that stores an object. -/
def sampleSetup : Setup Stock.types where
  config := Config.default.withGcThreshold 1
  host := Stock.host
  plugins := {
    functions := [⟨"pack", Stock.FunctionSpec.factory ⟨fun _ => .pack, [("item", none)]⟩ true none,
      ⟨"kit", ""⟩, none⟩]
    nodes := [⟨"meter", Stock.NodeSpec.factory ⟨.host (.counter 0), [], ["out"], [], none⟩,
      ⟨"kit", ""⟩, none⟩] }
  tree := .empty
  loader := none
  names := ["xs", "pack", "meter", "out"].foldl (fun names text => (names.intern text).2) .new

/-- A program that makes an operator node and drops it, fails to index its variable, and takes a
part of a value that is dropped then. -/
def sampleProgram : Program :=
  let expr (kind : ExprKind) : Expr := ⟨kind, .builtin⟩
  let xs := expr (.ident ⟨1⟩)
  let zero := expr (.literal (.int .int32 (.wrap .int32 0)))
  let body : List StmtKind := [
    .var ⟨1⟩ (some (expr (.call (expr (.ident ⟨2⟩)) [⟨none, expr (.sequence [])⟩]))),
    .expr (expr (.unary .neg (expr (.member (expr (.call (expr (.ident ⟨3⟩)) [])) ⟨4⟩)))),
    .expr (expr (.index xs [xs])),
    .assign (.ident ⟨1⟩) none (expr (.index xs [zero])),
    .expr (expr (.sequence [])),
    .ret (some xs)]
  ⟨.empty, body.map fun kind => ⟨kind, .builtin⟩⟩

/-- What there is to see of the sample: statements that ended, failures, whether a value was
returned, and the number of collections. -/
def sampleFigures : Option (Nat × Nat × Bool × Nat) :=
  match sampleSetup.start with
  | .ok (env, s) =>
    match runProgram env (runner env 9) env.top sampleProgram s with
    | .ok report t =>
      some (report.completed, report.failures.length, report.returned.isSome, t.heap.collections)
    | _ => none
  | .error _ => none

theorem no_dead_object_sample :
    sampleFigures = some (5, 1, true, 3) ∧
      ∃ env s, sampleSetup.start = .ok (env, s) ∧ SafeRun env 9 sampleProgram s := by
  have hfigures : sampleFigures = some (5, 1, true, 3) := by decide +kernel
  have hfunctions : ∀ p ∈ sampleSetup.plugins.functions, Stock.FunctionFactory.IsBare
      p.factory := by
    intro p hp
    rw [List.mem_singleton.mp hp]
    refine .ofSpec true none ⟨fun _ => trivial, fun q hq v hv => ?_⟩
    rw [List.mem_singleton.mp hq] at hv
    cases hv
  have hnodes : ∀ p ∈ sampleSetup.plugins.nodes, Stock.NodeFactory.IsBare p.factory := by
    intro p hp
    rw [List.mem_singleton.mp hp]
    refine .ofSpec ⟨fun state hstate => ?_, fun q hq => by cases hq⟩
    cases hstate
    trivial
  have hload : ∀ load ∈ sampleSetup.loader, ∀ path names, Quiet (load path names).1 := by
    intro load hload
    cases hload
  refine ⟨hfigures, ?_⟩
  cases hstart : sampleSetup.start with
  | ok r =>
    obtain ⟨env, s⟩ := r
    exact ⟨env, s, rfl, (no_dead_object (Stock.contract hfunctions hnodes hload) hstart (.refl s) 9
      sampleProgram).2⟩
  | error e =>
    simp [sampleFigures, hstart] at hfigures

end Patchbay
