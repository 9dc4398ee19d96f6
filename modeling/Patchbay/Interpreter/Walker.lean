import Patchbay.Interpreter.State

/-!
# Walking the trees

The rules of evaluation as an interpreter follows them. What it evaluates it is given by id, and
reads from the arena that it has at that time; where it needs its frame or its depth it asks for
them. What takes neither is taken over from evaluations at a cursor.
-/

namespace Patchbay

variable {H : HostTypes}

open Interp

/-- The parts of a counted loop that are repeated, by id. -/
structure LoopIds where
  cond : Option TreeId
  step : Option TreeId
  body : TreeId

/-- The evaluations that the rules refer to, by id. -/
structure Walker (H : HostTypes) where
  expr : TreeId → Interp H Value
  stmt : TreeId → Interp H Flow
  loop : LoopIds → Interp H Flow

namespace Walker

variable (env : Environment H) (self : Walker H)

/-- Run statements until one returns. -/
def block : List TreeId → Interp H Flow
  | [] => return .next
  | id :: rest => do
    match ← self.stmt id with
    | .ret v => return .ret v
    | .next => block rest

/-- Run statements in a frame until one fails or returns. -/
def runIn (frame : ObjectId) (ids : List TreeId) : Interp H Flow := withFrame frame (self.block ids)

/-! ## Looking up names

A look-up is asked for with a frame. It belongs to no interpreter, and a script that it runs gets a
new one, which starts as deep as the innermost running evaluation.
-/

def runScript (loader : Loader) (frame : ObjectId) (name : Name) (ident : String) (path : Path) :
    Eval H Value := do
  let loading := fun (e : EvalError) => e.withNote ("while loading " ++ path.text)
  let program ← (Resolve.loadProgram loader path).mapError loading
  let scriptFrame ← Eval.onHeap (Heap.childFrame frame id)
  let s ← Eval.get
  let interpreter : Interpreter := ⟨frame, s.evalDepth, ⟨program.body⟩⟩
  discard <| (start interpreter (self.runIn scriptFrame interpreter.ast.tops)).mapError loading
  match ← Eval.readHeap (·.lookupLocal scriptFrame name) with
  | some v => return v
  | none => fail (.scriptLoad path.text ("script does not define " ++ inTicks ident))

def script (frame : ObjectId) (name : Name) (ident : String) (dir : Path) : Eval H (Option Value) :=
  let path := dir.join ⟨ident ++ "." ++ env.config.scriptExtension⟩
  match env.tree.isFile path, env.loader with
  | true, some loader => Resolve.whileLoading path (self.runScript loader frame name ident path)
  | _, _ => return none

def find (frame : ObjectId) (name : Name) : Eval H (Option Value) := do
  let ident ← Eval.nameText name
  let dir := (← Eval.readHeap (·.frame frame)).path
  let isRoot := frame = env.root
  match Resolve.subdirectory? env dir ident with
  | some sub => some <$> Resolve.namespaceFrame frame sub
  | none =>
    match env.plugins.function? ident dir isRoot with
    | some plugin => some <$> Resolve.pluginFunction frame name plugin
    | none =>
      match env.plugins.node? ident dir isRoot with
      | some plugin => some <$> Resolve.pluginNode name plugin
      | none =>
        match dir with
        | some dir => self.script env frame name ident dir
        | none => return none

def resolve (frame : ObjectId) (name : Name) : Eval H (Option Value) := do
  match ← self.find env frame name with
  | some v =>
    Eval.onHeap (Heap.bind frame name v)
    return some v
  | none => return none

def lookupIn (frame : ObjectId) (name : Name) : Eval H (Option Value) := do
  let f ← Eval.readHeap (·.frame frame)
  match f.get? name with
  | some v => return some v
  | none => if f.path.isSome || frame = env.root then self.resolve env frame name else return none

def lookupAlong (frame : ObjectId) (name : Name) : List ObjectId → Eval H Value
  | [] =>
    Eval.barring (·.endless frame) Eval.diverge do
      fail (.undefinedVariable (← Eval.nameText name))
  | x :: rest => do
    match ← self.lookupIn env x name with
    | some v => return v
    | none => lookupAlong frame name rest

/-- What a name means in the current frame. -/
def lookup (name : Name) : Interp H Value := do
  let here ← current
  lift do
    let s ← Eval.get
    self.lookupAlong env here.frame name (s.heap.lineage here.frame)

def frameMember (frame : ObjectId) (name : Name) : Eval H Value := do
  match ← self.lookupIn env frame name with
  | some v => return v
  | none => do fail (.undefinedMember ObjectKind.frame.name (← Eval.nameText name))

/-! ## Calls -/

/-- Run the body of a function in an interpreter of its own, as deep as this one. Of the arena that
the function was declared in, the body is all that it can reach. -/
def callScript (f : Callable H) (body : Stmt) (args : List CallArg) : Interp H Value := do
  let bound ← lift (bindArguments f.params args)
  let closure := f.closure.getD env.root
  let frame ← lift (Eval.onHeap (Heap.childFrame closure id))
  lift (bound.forM fun (name, value) => Eval.onHeap (Heap.define frame name value))
  let caller ← current
  let callee : Interpreter := ⟨closure, caller.depth, ⟨[body]⟩⟩
  match ← lift (start callee (withFrame frame (self.stmt (.top 0)))) with
  | .ret v => return v
  | .next => return .absent

/-- Call a value. -/
def callValue (callee : Value) (args : List CallArg) (site : Location) : Interp H Value :=
  match callee with
  | .function id => do
    let f ← lift (Eval.readHeap (·.callable id))
    match f.body with
    | .script body => (self.callScript env f body args).mapError (·.withCallSite site)
    | .native fn => do
      let bound ← lift (bindArguments f.params args)
      lift (Eval.onHeap (env.host.call fn (bound.map Prod.snd)))
    | .nodeCreator create => lift (createNode env f create args)
    | .builtin b => lift do callBuiltin b (← operandsOf args)
  | other => lift (fail (.notCallable other.typeName))

def callReserved (name : Name) (operands : List Value) (site : Location) : Interp H Value := do
  let f ← self.lookup env name
  self.callValue env f (operands.map CallArg.positional) site

/-! ## Expressions -/

def member (object : Value) (name : Name) : Eval H Value := do
  match object with
  | .frame id => self.frameMember env id name
  | .node id =>
    let key ← Eval.nameText name
    Eval.readHeap fun h => do
      let n ← h.node id
      match n.portValue? id key with
      | some v => return v
      | none => fail (.undefinedMember n.name key)
  | other => do fail (.undefinedMember other.typeName (← Eval.nameText name))

/-- Evaluate expressions in order. -/
def evalAll : List TreeId → Interp H (List Value)
  | [] => return []
  | id :: rest => do
    let value ← self.expr id
    return value :: (← evalAll rest)

/-- Evaluate arguments, with or without labels, in order. -/
def evalArgs : List (Option Name × TreeId) → Interp H (List CallArg)
  | [] => return []
  | (label, id) :: rest => do
    let value ← self.expr id
    return ⟨label, value⟩ :: (← evalArgs rest)

/-- The value of an expression, given its id. -/
def evalKind (t : TreeId) (kind : ExprKind) (loc : Location) : Interp H Value :=
  match kind with
  | .literal l => lift fun s => .ok (l.value s.heap.names) s
  | .array items => do
    let values ← self.evalAll (t.parts 0 items.length)
    let grid ← lift (Eval.readHeap fun h => literalGrid h values)
    lift (Eval.onHeap (HeapM.allocValue (.grid grid)))
  | .sequence items => do
    let values ← self.evalAll (t.parts 0 items.length)
    lift (Eval.onHeap (HeapM.allocValue (.sequence values.toArray)))
  | .frame _ => do
    let here ← current
    let frame ← lift (Eval.onHeap (Heap.childFrame here.frame Frame.asThis))
    discard <| withFrame frame (self.stmt (t.part 0))
    return .frame frame
  | .ident name => self.lookup env name
  | .this => do
    let here ← current
    lift <| Eval.barring (·.walksOn Frame.isThis here.frame) Eval.diverge
      (Value.frame <$> Eval.readHeap (·.thisFrame here.frame))
  | .member _ name => do
    let object ← self.expr (t.part 0)
    lift (self.member env object name)
  | .index _ indices => do
    let object ← self.expr (t.part 0)
    let indices ← self.evalAll (t.parts 1 indices.length)
    self.callReserved env env.reserved.index (object :: indices) loc
  | .call _ args => do
    let callee ← self.expr (t.part 0)
    let args ← self.evalArgs ((args.map Argument.label).zip (t.parts 1 args.length))
    self.callValue env callee args loc
  | .unary op _ => do
    let operand ← self.expr (t.part 0)
    self.callReserved env env.reserved.unaryOp [.text op.symbol, operand] loc
  | .binary op _ _ => do
    let left ← self.expr (t.part 0)
    match ← lift (Eval.ofExcept (shortCircuit op left)) with
    | some result => return result
    | none =>
      let right ← self.expr (t.part 1)
      self.callReserved env env.reserved.binaryOp [.text op.symbol, left, right] loc
  | .ternary _ _ _ => do
    let cond ← self.expr (t.part 0)
    if ← lift (Eval.ofExcept cond.truthy) then self.expr (t.part 1) else self.expr (t.part 2)

/-- Evaluate an expression of the arena, one level deeper. -/
def evalExpr (t : TreeId) : Interp H Value := do
  let e ← fetch (·.expr? t)
  (nested env (self.evalKind env t e.kind e.loc)).mapError (·.locatedAt e.loc)

/-! ## Statements -/

def evalOptional : Option TreeId → Interp H Value
  | some id => self.expr id
  | none => return .absent

/-- Evaluate the defaults of declared parameters. -/
def declareParams : List (Name × Option TreeId) → Interp H (List Parameter)
  | [] => return []
  | (name, default) :: rest => do
    let default ←
      match default with
      | some id => some <$> self.expr id
      | none => pure none
    return ⟨name, default⟩ :: (← declareParams rest)

def assignedValue (op : Option BinaryOp) (current : Interp H Value) (value : Value)
    (loc : Location) : Interp H Value :=
  match op with
  | none => return value
  | some op => do
    let old ← current
    self.callReserved env env.reserved.binaryOp [.text op.symbol, old, value] loc

/-- Assign to a target, given the id of the assignment. -/
def assignTo (t : TreeId) (target : Target) (op : Option BinaryOp) (loc : Location) :
    Interp H Unit :=
  match target with
  | .ident name => do
    let value ← self.expr (t.part 0)
    let value ← self.assignedValue env op (self.lookup env name) value loc
    let here ← current
    lift <| Eval.barring (·.walksOn (·.contains name) here.frame) Eval.diverge
      (Eval.onHeap (Heap.setVariable here.frame name value))
  | .member _ name => do
    let object ← self.expr (t.part 1)
    let value ← self.expr (t.part 0)
    let value ← self.assignedValue env op (lift (self.member env object name)) value loc
    lift (assignMember env object name value)
  | .index _ indices => do
    let object ← self.expr (t.part 1)
    let keys ← self.evalAll (t.parts 2 indices.length)
    let value ← self.expr (t.part 0)
    let value ← self.assignedValue env op (lift (readIndex Eval.diverge object keys)) value loc
    lift <| Eval.barring (fun h => value.isPrimitive && h.overruns object keys) Eval.diverge
      (Eval.onHeap (Heap.setIndex object keys value))

/-- Run a body once for each value, in a fresh frame that binds it. -/
def forEach (var : Name) (body : TreeId) : List Value → Interp H Flow
  | [] => return .next
  | item :: rest => do
    let here ← current
    let frame ← lift (Eval.onHeap (Heap.childFrame here.frame id))
    let flow ← withFrame frame do
      let here ← current
      lift (Eval.onHeap (Heap.define here.frame var item))
      self.stmt body
    match flow with
    | .ret v => return .ret v
    | .next => forEach var body rest

/-- The test of a counted loop; without one, every round takes place. -/
def roundTest (l : LoopIds) : Interp H Bool :=
  match l.cond with
  | some cond => do
    let v ← self.expr cond
    lift (Eval.ofExcept v.truthy)
  | none => return true

/-- Run one round of a counted loop and go on with the next. -/
def loopRound (l : LoopIds) : Interp H Flow := do
  let holds ← self.roundTest l
  if !holds then return .next
  match ← self.stmt l.body with
  | .ret v => return .ret v
  | .next =>
    match l.step with
    | some step => discard <| self.stmt step
    | none => pure ()
    self.loop l

/-- The body of a function that is being declared, as the arena has it. -/
def functionBody (t : TreeId) : Interp H Stmt := fetch (·.stmt? (t.part 0))

/-- Run a statement, given its id. -/
def execKind (t : TreeId) (kind : StmtKind) (loc : Location) : Interp H Flow :=
  match kind with
  | .block newFrame body =>
    if newFrame then do
      let here ← current
      let frame ← lift (Eval.onHeap (Heap.childFrame here.frame id))
      withFrame frame (self.block (t.parts 0 body.length))
    else self.block (t.parts 0 body.length)
  | .function name params _ => do
    let defaults := (params.zip (t.parts 1 params.length)).map fun (p, default) =>
      (p.name, p.default.map fun _ => default)
    let params ← self.declareParams defaults
    let here ← current
    let body ← functionBody t
    let f ← lift (Eval.onHeap (HeapM.allocValue (.callable (.script name params here.frame body))))
    let here ← current
    lift (Eval.onHeap (Heap.define here.frame name f))
    return .next
  | .var name init => do
    let value ← self.evalOptional (init.map fun _ => t.part 0)
    let here ← current
    lift (Eval.onHeap (Heap.define here.frame name value))
    return .next
  | .assign target op _ => do
    self.assignTo env t target op loc
    return .next
  | .branch _ _ elseBranch => do
    let cond ← self.expr (t.part 0)
    if ← lift (Eval.ofExcept cond.truthy) then self.stmt (t.part 1)
    else
      match elseBranch with
      | some _ => self.stmt (t.part 2)
      | none => return .next
  | .loop init cond step _ => do
    let here ← current
    let frame ← lift (Eval.onHeap (Heap.childFrame here.frame id))
    withFrame frame do
      match init with
      | some _ => discard <| self.stmt (t.part 0)
      | none => pure ()
      self.loop ⟨cond.map fun _ => t.part 1, step.map fun _ => t.part 2, t.part 3⟩
  | .each var _ _ => do
    let container ← self.expr (t.part 0)
    let items ← lift (Eval.readHeap fun h => iterationItems h container)
    self.forEach var (t.part 1) items
  | .expr _ => do
    discard <| self.expr (t.part 0)
    return .next
  | .ret value => Flow.ret <$> self.evalOptional (value.map fun _ => t.part 0)

/-- Run a statement of the arena, one level deeper. -/
def execStmt (t : TreeId) : Interp H Flow := do
  let s ← fetch (·.stmt? t)
  (nested env (self.execKind env t s.kind s.loc)).mapError (·.locatedAt s.loc)

/-! ## Programs -/

/-- Run statements in order, adding to a report. -/
def runStatements : RunReport → List TreeId → Interp H RunReport
  | report, [] => return report
  | report, id :: rest => do
    let result ← attempt (self.stmt id)
    let report := report.add result
    if report.returned.isSome then return report
    discard <| lift (Eval.collectIfNeeded env)
    runStatements report rest

/-- Take over the arena of a program, and run it. -/
def runProgram (program : Program) : Interp H RunReport := do
  let arena : Arena := ⟨program.body⟩
  modify fun r => { r with interpreter := { r.interpreter with ast := arena } }
  self.runStatements env .empty arena.tops

end Walker

/-- The walker with an amount of fuel. Every recursive call takes one unit. -/
def walker (env : Environment H) : Nat → Walker H
  | 0 => ⟨fun _ => lift Eval.diverge, fun _ => lift Eval.diverge, fun _ => lift Eval.diverge⟩
  | fuel + 1 =>
    let self := walker env fuel
    ⟨self.evalExpr env, self.execStmt env, self.loopRound⟩

end Patchbay
