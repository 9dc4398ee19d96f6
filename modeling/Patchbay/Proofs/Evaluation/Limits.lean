import Patchbay.Host.Stock
import Patchbay.Proofs.Evaluation.Reports
import Patchbay.Proofs.Heap.Operation

/-!
# Raising the limit

The depth limit is looked at in one place only, and a failure for it goes through unchanged to the
statement of the program that it stops. So a program that does not run into the limit does the same
under a higher one. It does the same with more fuel, too.
-/

namespace Patchbay

variable {H : HostTypes} {env : Environment H} {c : Cursor} {s t : Session H} {program : Program}
  {report : RunReport}

/-- Whether an evaluation failed because it was nested too deep. -/
def Cause.isLimit : Cause → Bool
  | .recursionLimit _ => true
  | _ => false

namespace Regime

/-- Evaluations that end are compared, whatever programs contain. -/
def finishing (Repeats : Cause → Prop) : Regime H where
  Holds _ := True
  loops := True
  Repeats := Repeats
  stall := .anything
  strict := nofun

variable {R : Regime H} {Repeats : Cause → Prop} {limit fuel fuel' depth : Nat}

/-- Nothing is asked of the heap, and everything is permitted. -/
lemma governs_of_trivial (hholds : ∀ h, R.Holds h) (hloops : R.loops) : R.Governs env where
  primitive _ h _ := by
    unfold HeapM.Ends
    split
    · exact hholds _
    · exact hholds _
  unpin _ _ _ := hholds _
  names _ _ _ := hholds _
  called _ _ _ _ _ _ _ := .of_loops hloops
  function _ _ _ _ _ := by
    unfold HeapM.Ends
    split
    · exact ⟨hholds _, fun _ _ => .of_loops hloops⟩
    · exact hholds _
  loaded _ _ _ _ _ _ := .of_loops hloops

/-- Evaluations that end under a limit do the same under a higher one and with more fuel. -/
lemma related_runner (hg : R.Governs env) (hstall : R.stall = .anything)
    (hlimit : R.Admits env.config.maxDepth limit) (hfuel : fuel ≤ fuel') (depth : Nat) :
    R.RelatedCalls env depth (runner env fuel) (runner (env.withLimit limit) fuel') := by
  have hspent : ∀ {p : Prop}, R.stall.Allows p :=
    fun {p} => hstall ▸ (trivial : Stall.anything.Allows p)
  -- the recursive calls of a rule have one unit of fuel less, on both sides
  induction fuel generalizing fuel' depth with
  | zero =>
    exact ⟨hg, fun _ _ _ _ _ _ => .outOfFuel hspent, fun _ _ _ _ _ _ => .outOfFuel hspent,
      fun _ _ _ _ _ _ => .outOfFuel hspent, .inr fun _ _ => .outOfFuel hspent⟩
  | succ fuel ih =>
    obtain ⟨fuel', rfl⟩ : ∃ k, fuel' = k + 1 := ⟨fuel' - 1, by omega⟩
    have hcalls := fun depth => ih (Nat.le_of_succ_le_succ hfuel) depth
    refine ⟨hg, ?_, ?_, ?_, .inr fun _ _ => .outOfFuel hspent⟩
    · rintro c rfl e hp
      exact compares_evalExpr hlimit (fun _ => hcalls _) hp
    · rintro c rfl st hp
      exact compares_execStmt hlimit (fun _ => hcalls _) hp
    · rintro hl c rfl l
      exact compares_loopRound hl (hcalls c.depth) l

/-- Statements and expressions match whatever depth is noted when they start. -/
lemma matches_runner (hg : R.Governs env) (hloops : R.loops) (hstall : R.stall = .anything)
    (hlimit : R.Admits env.config.maxDepth limit) (hfuel : fuel ≤ fuel') (hs : R.Holds s.heap) :
    (∀ st, R.Matches (fun t => R.Holds t.heap) ((runner env fuel).stmt c st s)
        ((runner (env.withLimit limit) fuel').stmt c st s)) ∧
      ∀ e, R.Matches (fun t => R.Holds t.heap) ((runner env fuel).expr c e s)
        ((runner (env.withLimit limit) fuel').expr c e s) := by
  cases fuel with
  | zero =>
    have hspent : ∀ p : Prop, R.stall.Allows p := fun p => by
      rw [hstall]
      trivial
    exact ⟨fun _ => .outOfFuel (hspent _), fun _ => .outOfFuel (hspent _)⟩
  | succ fuel =>
    obtain ⟨fuel', rfl⟩ : ∃ k, fuel' = k + 1 := ⟨fuel' - 1, by omega⟩
    have hcalls := fun depth => related_runner hg hstall hlimit (Nat.le_of_succ_le_succ hfuel) depth
    exact ⟨fun st => (matches_execStmt hlimit (fun _ => hcalls _) (.of_loops hloops) hs).mono
      fun _ ht => ht.1,
      fun e => (matches_evalExpr hlimit (fun _ => hcalls _) (.of_loops hloops) hs).mono
        fun _ ht => ht.1⟩

lemma reports_runProgram (hlimit : (finishing Repeats : Regime H).Admits env.config.maxDepth limit)
    (hfuel : fuel ≤ fuel') :
    (finishing Repeats).Reports (runProgram env (runner env fuel) c program s)
      (runProgram (env.withLimit limit) (runner (env.withLimit limit) fuel') c program s) := by
  have hg : (finishing Repeats).Governs env := governs_of_trivial (fun _ => trivial) trivial
  exact reports_runStatements (fun _ _ _ => trivial)
    (fun st s _ hs => (matches_runner hg trivial rfl hlimit hfuel hs).1 st)
      (.of_loops trivial) trivial

end Regime

open Regime

variable {limit fuel fuel' : Nat}

/-- The depth limit only adds failures. If a program ends and records no failure for the limit, then
under any higher limit it ends with the same report and leaves the same session behind: heap, names,
the number of named nodes and all else. That it ends means that some amount of fuel is enough; every
larger amount is enough under the higher limit. -/
theorem raising_limit_keeps_report (hlimit : env.config.maxDepth ≤ limit) (hfuel : fuel ≤ fuel')
    (hrun : runProgram env (runner env fuel) c program s = .ok report t)
    (hfailures : ∀ e ∈ report.failures, e.cause.isLimit = false) :
    runProgram (env.withLimit limit) (runner (env.withLimit limit) fuel') c program s =
      .ok report t := by
  have hadmits : (finishing (fun cause => cause.isLimit = false) : Regime H).Admits
      env.config.maxDepth limit := ⟨hlimit, nofun⟩
  have hreports : (finishing fun cause => cause.isLimit = false).Reports
      (runProgram env (runner env fuel) c program s)
      (runProgram (env.withLimit limit) (runner (env.withLimit limit) fuel') c program s) :=
    reports_runProgram hadmits hfuel
  rw [hrun] at hreports
  exact hreports.of_ok hfailures

/-- An environment without plugins and scripts. -/
def bareEnvironment (maxDepth : Nat) : Environment Stock.types where
  config := Config.default.withMaxDepth maxDepth
  host := Stock.host
  plugins := .empty
  tree := ⟨fun _ => false, fun _ => false⟩
  loader := none
  root := ⟨0, 0⟩
  reserved := ⟨.empty, .empty, .empty⟩

/-- An empty root frame, and the names `x` and `y`. -/
def bareSession : Session Stock.types where
  heap := ((Heap.new ((Interner.new.intern "x").2.intern "y").2 100).alloc (.frame (.root none))).2
  nodesNamed := 0
  evalDepth := 0
  loading := []

/-- Declare `x`, then mention `y`. -/
def flatProgram : Program where
  file := .empty
  body := [.mk (.var ⟨1⟩ (some (.mk (.literal (.bool true)) .builtin))) .builtin,
    .mk (.expr (.mk (.ident ⟨2⟩) .builtin)) .builtin]

/-- How many statements of a program ended, and why the others failed. -/
def figures (report : RunReport) : Nat × List Cause :=
  (report.completed, report.failures.map EvalError.cause)

/-- Two levels of nesting are enough for this program. -/
theorem raising_limit_keeps_report_flat :
    ∃ report t,
      runProgram (bareEnvironment 2) (runner (bareEnvironment 2) 3) ⟨⟨0, 0⟩, 0⟩ flatProgram
        bareSession = .ok report t ∧
      report.completed = 1 ∧ report.failures.map EvalError.cause = [.undefinedVariable "y"] ∧
      runProgram ((bareEnvironment 2).withLimit 100) (runner ((bareEnvironment 2).withLimit 100) 9)
        ⟨⟨0, 0⟩, 0⟩ flatProgram bareSession = .ok report t := by
  have hfigures : (runProgram (bareEnvironment 2) (runner (bareEnvironment 2) 3) ⟨⟨0, 0⟩, 0⟩
      flatProgram bareSession).read? figures = some (1, [.undefinedVariable "y"]) := by
      decide +kernel
  obtain ⟨report, t, hrun, hread⟩ := Outcome.exists_of_read? hfigures
  obtain ⟨hcompleted, hcauses⟩ := Prod.mk.inj hread
  refine ⟨report, t, hrun, hcompleted, hcauses, ?_⟩
  refine raising_limit_keeps_report (by decide) (by decide) hrun fun e he => ?_
  -- the only failure is the mention of an undefined variable
  have hmem : e.cause ∈ report.failures.map EvalError.cause := List.mem_map_of_mem he
  rw [hcauses, List.mem_singleton] at hmem
  rw [hmem]
  rfl

end Patchbay
