import Patchbay.Eval.Statement
import Patchbay.Heap.Collect

/-!
# Running programs

The rules for expressions and statements are tied together by fuel: every recursive call takes one
unit, and without fuel an evaluation does not end. The depth limit bounds every nesting, so only a
counted loop can use up any amount of it.

A program runs statement by statement. One that fails is reported and the next one runs. Between
statements garbage is collected once enough objects were stored.
-/

namespace Patchbay

variable {H : HostTypes}

/-! ## The evaluator -/

/-- What a recursive call is asked for. -/
inductive Job where
  | expr (e : Expr)
  | stmt (s : Stmt)
  | loop (l : LoopBody)

/-- What a job answers. -/
abbrev Job.Result : Job → Type
  | .expr _ => Value
  | .stmt _ => Flow
  | .loop _ => Flow

/-- The record of recursive calls that one function on jobs makes. -/
def Runner.ofJobs (stuck : Eval H Empty) (run : Cursor → (j : Job) → Eval H j.Result) :
    Runner H where
  expr c e := run c (.expr e)
  stmt c s := run c (.stmt s)
  loop c l := run c (.loop l)
  stuck := stuck

/-- Do a job by its rule. -/
def Runner.step (env : Environment H) (self : Runner H) (c : Cursor) : (j : Job) → Eval H j.Result
  | .expr e => evalExpr env self c e
  | .stmt s => execStmt env self c s
  | .loop l => loopRound self c l

/-- Do a job with an amount of fuel. -/
def runJob (env : Environment H) : Nat → Cursor → (j : Job) → Eval H j.Result
  | 0, _, _ => Eval.diverge
  | fuel + 1, c, j => Runner.step env (.ofJobs Eval.diverge (runJob env fuel)) c j

/-- The evaluator with an amount of fuel. -/
def runner (env : Environment H) (fuel : Nat) : Runner H :=
  .ofJobs Eval.diverge (runJob env fuel)

/-! ## Sessions -/

/-- What a session is made from. -/
structure Setup (H : HostTypes) where
  config : Config
  host : Host H
  plugins : Registry H
  tree : DirectoryTree
  loader : Option Loader
  names : Interner

/-- Make a pinned root frame that binds every builtin. -/
def rootFrame (dir : Option Path) : HeapM H ObjectId := do
  let root ← HeapM.alloc (.frame (.root dir))
  Heap.pin root
  Builtin.all.forM fun b => do
    let name ← Heap.internName b.reservedName
    let f ← HeapM.allocValue (.callable (.builtin name b))
    Heap.define root name f
  return root

/-- Start a session. -/
def Setup.start (setup : Setup H) : Except EvalError (Environment H × Session H) :=
  let build : HeapM H (ObjectId × ReservedNames) := do
    let root ← rootFrame setup.config.rootDir
    let binaryOp ← Heap.internName Builtin.binaryOp.reservedName
    let unaryOp ← Heap.internName Builtin.unaryOp.reservedName
    let index ← Heap.internName Builtin.index.reservedName
    return (root, ⟨binaryOp, unaryOp, index⟩)
  match build (Heap.new setup.names setup.config.gcThreshold) with
  | .ok (root, reserved) heap =>
    .ok ({ config := setup.config, host := setup.host, plugins := setup.plugins,
           tree := setup.tree, loader := setup.loader, root := root, reserved := reserved },
         { heap := heap, nodesNamed := 0, evalDepth := 0, loading := [] })
  | .error e _ => .error e

/-- The place of a session that nothing runs in: the root frame, not nested. -/
def Environment.top (env : Environment H) : Cursor := ⟨env.root, 0⟩

namespace Eval

/-- Collect with the bound of the configuration, if a collection is due. Values that only a running
statement holds are not roots, so this belongs between statements. -/
def collectIfNeeded (env : Environment H) : Eval H (Option CollectStats) := fun s =>
  if s.heap.shouldCollect then
    let (stats, heap) := s.heap.collect env.config.gcGeneration []
    .ok (some stats) { s with heap := heap }
  else .ok none s

/-- Collect; the extra roots stay, and so do the root frame and all that is pinned. -/
def collect (bound : UInt8) (extra : List ObjectId) : Eval H CollectStats := fun s =>
  let (stats, heap) := s.heap.collect bound extra
  .ok stats { s with heap := heap }

/-- Run statements in a frame until one fails or returns. -/
def runIn (self : Runner H) (c : Cursor) (frame : ObjectId) (body : List Stmt) : Eval H Flow :=
  withPinned frame (self.block { c with frame := frame } body)

end Eval

/-! ## Programs -/

/-- How a program went. -/
structure RunReport where
  /-- The number of statements that ended without an error. -/
  completed : Nat
  /-- The errors of the others, in order. -/
  failures : List EvalError
  /-- The value of a return statement, which ends the program. -/
  returned : Option Value

namespace RunReport

/-- The report of a program that has not started. -/
def empty : RunReport := ⟨0, [], none⟩

def isSuccess (r : RunReport) : Bool := r.failures.isEmpty

end RunReport

/-- Count a statement that ended. -/
def RunReport.add (r : RunReport) : Except EvalError Flow → RunReport
  | .ok .next => { r with completed := r.completed + 1 }
  | .ok (.ret v) => { r with completed := r.completed + 1, returned := some v }
  | .error e => { r with failures := r.failures ++ [e] }

/-- Run statements in order, adding to a report. A return statement is the last one, and nothing is
collected after it. -/
def runStatements (env : Environment H) (self : Runner H) (c : Cursor) :
    RunReport → List Stmt → Eval H RunReport
  | report, [] => return report
  | report, stmt :: rest => do
    let result ← Eval.attempt (self.stmt c stmt)
    let report := report.add result
    if report.returned.isSome then return report
    discard <| Eval.collectIfNeeded env
    runStatements env self c report rest

/-- Run a program. -/
def runProgram (env : Environment H) (self : Runner H) (c : Cursor) (program : Program) :
    Eval H RunReport :=
  runStatements env self c .empty program.body

end Patchbay
