import Patchbay.Eval.Run

/-!
# Evaluations with a stack

An evaluation that is traced keeps a stack of the sites that it is at: expressions and statements
that are being evaluated, calls of script functions and scripts that are being loaded. It tells an
error nothing on its way out. The error stays as it was raised, and the stack of that moment stays
with it. There are three places where a site is put on the stack: around the evaluation of an
expression or a statement, around the call of a script function and around the loading of a script.
All else is as in evaluations that are not traced, and what makes no recursive calls is taken over
from them.
-/

namespace Patchbay

variable {H : HostTypes} {α β : Type}

/-! ## Stacks -/

/-- Something that an evaluation is in the middle of. -/
inductive Site where
  /-- Evaluating an expression or a statement. -/
  | node (loc : Location)
  /-- Calling a script function: taking its arguments and running its body. -/
  | call
  /-- Loading a script: reading it, running it and taking what it defines. -/
  | load (path : Path)
deriving DecidableEq

/-- The places of the expressions and statements on a stack, innermost first. -/
def places : List Site → List Location
  | [] => []
  | .node loc :: rest => loc :: places rest
  | _ :: rest => places rest

/-- For each site of a stack that `p` picks, the innermost place around it, innermost site first. -/
def entriesOf (p : Site → Bool) : List Site → List Location
  | [] => []
  | site :: rest =>
    if p site then (places rest).head?.toList ++ entriesOf p rest else entriesOf p rest

namespace Site

def isCall : Site → Bool
  | .call => true
  | _ => false

def isLoad : Site → Bool
  | .load _ => true
  | _ => false

end Site

/-- How a traced evaluation ends. -/
inductive Ending (S α : Type) where
  | ok (value : α) (state : S)
  /-- With an error as it was raised, and the stack at which it was, innermost site first. -/
  | error (raised : EvalError) (stack : List Site) (state : S)
  | outOfFuel

/-- A computation on a session, at a stack of sites. -/
def Traced (H : HostTypes) (α : Type) : Type := List Site → Session H → Ending (Session H) α

namespace Traced

protected def pure (a : α) : Traced H α := fun _ s => .ok a s

protected def bind (m : Traced H α) (f : α → Traced H β) : Traced H β := fun stack s =>
  match m stack s with
  | .ok a s => f a stack s
  | .error e sites s => .error e sites s
  | .outOfFuel => .outOfFuel

instance : Monad (Traced H) where
  pure := Traced.pure
  bind := Traced.bind

/-- An evaluation without recursive calls. Its errors are raised at the sites where it starts. -/
def lift (m : Eval H α) : Traced H α := fun stack s =>
  match m s with
  | .ok a s => .ok a s
  | .error e s => .error e stack s
  | .outOfFuel => .outOfFuel

/-- Put a site on the stack. -/
def during (site : Site) (m : Traced H α) : Traced H α := fun stack => m (site :: stack)

/-- Change the session when a computation has ended, with a value or with an error. -/
def andAlso (m : Traced H α) (restore : Session H → Session H) : Traced H α := fun stack s =>
  match m stack s with
  | .ok a s => .ok a (restore s)
  | .error e sites s => .error e sites (restore s)
  | .outOfFuel => .outOfFuel

/-- Run `m` with a frame pinned. -/
def withPinned (frame : ObjectId) (m : Traced H α) : Traced H α := do
  lift (Eval.onHeap (Heap.pin frame))
  m.andAlso fun s => { s with heap := s.heap.unpin frame }

/-- Run `m` one level deeper, unless the depth limit is reached. -/
def nested (env : Environment H) (c : Cursor) (m : Cursor → Traced H α) : Traced H α := do
  if env.config.maxDepth ≤ c.depth then lift (fail (.recursionLimit env.config.maxDepth))
  else
    lift <| Eval.modify fun s => { s with evalDepth := c.depth + 1 }
    (m { c with depth := c.depth + 1 }).andAlso fun s => { s with evalDepth := c.depth }

end Traced

/-- The traced evaluations that the rules refer to. -/
structure Tracer (H : HostTypes) where
  expr : Cursor → Expr → Traced H Value
  stmt : Cursor → Stmt → Traced H Flow
  loop : Cursor → LoopBody → Traced H Flow

namespace Tracer

open Traced

variable (env : Environment H) (self : Tracer H) (c : Cursor)

/-- Run statements until one returns. -/
def block : List Stmt → Traced H Flow
  | [] => return .next
  | s :: rest => do
    match ← self.stmt c s with
    | .ret v => return .ret v
    | .next => block rest

/-! ## Looking up names -/

def runScript (loader : Loader) (frame : ObjectId) (name : Name) (ident : String) (path : Path) :
    Traced H Value := do
  let program ← lift (Resolve.loadProgram loader path)
  let scriptFrame ← lift (Eval.onHeap (Heap.childFrame frame id))
  let s ← lift Eval.get
  let cursor : Cursor := ⟨scriptFrame, s.evalDepth⟩
  discard <| withPinned scriptFrame (self.block cursor program.body)
  match ← lift (Eval.readHeap (·.lookupLocal scriptFrame name)) with
  | some v => return v
  | none => lift (fail (.scriptLoad path.text ("script does not define " ++ inTicks ident)))

/-- Load a script, unless it is being loaded already. -/
def whileLoading (path : Path) (m : Traced H Value) : Traced H (Option Value) := do
  let s ← lift Eval.get
  if s.loading.any path.same then return none
  else
    lift <| Eval.modify fun s => { s with loading := path :: s.loading }
    let found ← (m.during (.load path)).andAlso fun s =>
      { s with loading := s.loading.filter fun p => !path.same p }
    return some found

def script (frame : ObjectId) (name : Name) (ident : String) (dir : Path) :
    Traced H (Option Value) :=
  let path := dir.join ⟨ident ++ "." ++ env.config.scriptExtension⟩
  match env.tree.isFile path, env.loader with
  | true, some loader => whileLoading path (self.runScript loader frame name ident path)
  | _, _ => return none

def find (frame : ObjectId) (name : Name) : Traced H (Option Value) := do
  let ident ← lift (Eval.nameText name)
  let dir := (← lift (Eval.readHeap (·.frame frame))).path
  let isRoot := frame = env.root
  match Resolve.subdirectory? env dir ident with
  | some sub => some <$> lift (Resolve.namespaceFrame frame sub)
  | none =>
    match env.plugins.function? ident dir isRoot with
    | some plugin => some <$> lift (Resolve.pluginFunction frame name plugin)
    | none =>
      match env.plugins.node? ident dir isRoot with
      | some plugin => some <$> lift (Resolve.pluginNode name plugin)
      | none =>
        match dir with
        | some dir => self.script env frame name ident dir
        | none => return none

def resolve (frame : ObjectId) (name : Name) : Traced H (Option Value) := do
  match ← self.find env frame name with
  | some v =>
    lift (Eval.onHeap (Heap.bind frame name v))
    return some v
  | none => return none

def lookupIn (frame : ObjectId) (name : Name) : Traced H (Option Value) := do
  let f ← lift (Eval.readHeap (·.frame frame))
  match f.get? name with
  | some v => return some v
  | none => if f.path.isSome || frame = env.root then self.resolve env frame name else return none

def lookupAlong (frame : ObjectId) (name : Name) : List ObjectId → Traced H Value
  | [] => lift <| Eval.barring (·.endless frame) Eval.diverge do
      fail (.undefinedVariable (← Eval.nameText name))
  | x :: rest => do
    match ← self.lookupIn env x name with
    | some v => return v
    | none => lookupAlong frame name rest

def lookup (frame : ObjectId) (name : Name) : Traced H Value := do
  let s ← lift Eval.get
  self.lookupAlong env frame name (s.heap.lineage frame)

def frameMember (frame : ObjectId) (name : Name) : Traced H Value := do
  match ← self.lookupIn env frame name with
  | some v => return v
  | none => lift do fail (.undefinedMember ObjectKind.frame.name (← Eval.nameText name))

/-! ## Calls -/

def callScript (f : Callable H) (body : Stmt) (args : List CallArg) : Traced H Value := do
  let bound ← lift (bindArguments f.params args)
  let frame ← lift (Eval.onHeap (Heap.childFrame (f.closure.getD env.root) id))
  lift (bound.forM fun (name, value) => Eval.onHeap (Heap.define frame name value))
  match ← withPinned frame (self.stmt { c with frame := frame } body) with
  | .ret v => return v
  | .next => return .absent

def callValue (callee : Value) (args : List CallArg) : Traced H Value :=
  match callee with
  | .function id => do
    let f ← lift (Eval.readHeap (·.callable id))
    match f.body with
    | .script body => (self.callScript env c f body args).during .call
    | .native fn => do
      let bound ← lift (bindArguments f.params args)
      lift (Eval.onHeap (env.host.call fn (bound.map Prod.snd)))
    | .nodeCreator create => lift (createNode env f create args)
    | .builtin b => lift do callBuiltin b (← operandsOf args) Eval.diverge
  | other => lift (fail (.notCallable other.typeName))

def callReserved (name : Name) (operands : List Value) : Traced H Value := do
  let f ← self.lookup env c.frame name
  self.callValue env c f (operands.map CallArg.positional)

/-! ## Expressions -/

def member (object : Value) (name : Name) : Traced H Value := do
  match object with
  | .frame id => self.frameMember env id name
  | .node id =>
    let key ← lift (Eval.nameText name)
    lift <| Eval.readHeap fun h => do
      let n ← h.node id
      match n.portValue? id key with
      | some v => return v
      | none => fail (.undefinedMember n.name key)
  | other => lift do fail (.undefinedMember other.typeName (← Eval.nameText name))

def evalArgs : List Argument → Traced H (List CallArg)
  | [] => return []
  | a :: rest => do
    let value ← self.expr c a.value
    return ⟨a.label, value⟩ :: (← evalArgs rest)

def evalAll : List Expr → Traced H (List Value)
  | [] => return []
  | e :: rest => do
    let value ← self.expr c e
    return value :: (← evalAll rest)

def evalKind : ExprKind → Traced H Value
  | .literal l => fun _ s => .ok (l.value s.heap.names) s
  | .array items => do
    let values ← self.evalAll c items
    let grid ← lift (Eval.readHeap fun h => literalGrid h values)
    lift (Eval.onHeap (HeapM.allocValue (.grid grid)))
  | .sequence items => do
    let values ← self.evalAll c items
    lift (Eval.onHeap (HeapM.allocValue (.sequence values.toArray)))
  | .frame body => do
    let frame ← lift (Eval.onHeap (Heap.childFrame c.frame Frame.asThis))
    discard <| withPinned frame (self.stmt { c with frame := frame } body)
    return .frame frame
  | .ident name => self.lookup env c.frame name
  | .this => lift <| Eval.barring (·.walksOn Frame.isThis c.frame) Eval.diverge
      (Value.frame <$> Eval.readHeap (·.thisFrame c.frame))
  | .member object name => do
    let object ← self.expr c object
    self.member env object name
  | .index object indices => do
    let object ← self.expr c object
    let indices ← self.evalAll c indices
    self.callReserved env c env.reserved.index (object :: indices)
  | .call callee args => do
    let callee ← self.expr c callee
    let args ← self.evalArgs c args
    self.callValue env c callee args
  | .unary op operand => do
    let operand ← self.expr c operand
    self.callReserved env c env.reserved.unaryOp [.text op.symbol, operand]
  | .binary op left right => do
    let left ← self.expr c left
    match ← lift (Eval.ofExcept (shortCircuit op left)) with
    | some result => return result
    | none =>
      let right ← self.expr c right
      self.callReserved env c env.reserved.binaryOp [.text op.symbol, left, right]
  | .ternary cond thenExpr elseExpr => do
    let cond ← self.expr c cond
    if ← lift (Eval.ofExcept cond.truthy) then self.expr c thenExpr else self.expr c elseExpr

def evalExpr (e : Expr) : Traced H Value :=
  (nested env c fun c => self.evalKind env c e.kind).during (.node e.loc)

/-! ## Statements -/

def evalOptional : Option Expr → Traced H Value
  | some e => self.expr c e
  | none => return .absent

def declareParams : List Param → Traced H (List Parameter)
  | [] => return []
  | p :: rest => do
    let default ←
      match p.default with
      | some e => some <$> self.expr c e
      | none => pure none
    return ⟨p.name, default⟩ :: (← declareParams rest)

def assignedValue (op : Option BinaryOp) (current : Traced H Value) (value : Value) :
    Traced H Value :=
  match op with
  | none => return value
  | some op => do
    let old ← current
    self.callReserved env c env.reserved.binaryOp [.text op.symbol, old, value]

def assignTo (op : Option BinaryOp) (value : Expr) : Target → Traced H Unit
  | .ident name => do
    let value ← self.expr c value
    let value ← self.assignedValue env c op (self.lookup env c.frame name) value
    lift <| Eval.barring (·.walksOn (·.contains name) c.frame) Eval.diverge
      (Eval.onHeap (Heap.setVariable c.frame name value))
  | .member object name => do
    let object ← self.expr c object
    let value ← self.expr c value
    let value ← self.assignedValue env c op (self.member env object name) value
    lift (assignMember env object name value)
  | .index object indices => do
    let object ← self.expr c object
    let keys ← self.evalAll c indices
    let value ← self.expr c value
    let value ← self.assignedValue env c op (lift (readIndex Eval.diverge object keys)) value
    lift <| Eval.barring (fun h => value.isPrimitive && h.overruns object keys) Eval.diverge
      (Eval.onHeap (Heap.setIndex object keys value))

def forEach (var : Name) (body : Stmt) : List Value → Traced H Flow
  | [] => return .next
  | item :: rest => do
    let frame ← lift (Eval.onHeap (Heap.childFrame c.frame id))
    let flow ← withPinned frame do
      lift (Eval.onHeap (Heap.define frame var item))
      self.stmt { c with frame := frame } body
    match flow with
    | .ret v => return .ret v
    | .next => forEach var body rest

def roundTest (l : LoopBody) : Traced H Bool :=
  match l.cond with
  | some cond => do
    let v ← self.expr c cond
    lift (Eval.ofExcept v.truthy)
  | none => return true

def loopRound (l : LoopBody) : Traced H Flow := do
  let holds ← self.roundTest c l
  if !holds then return .next
  match ← self.stmt c l.body with
  | .ret v => return .ret v
  | .next =>
    match l.step with
    | some step => discard <| self.stmt c step
    | none => pure ()
    self.loop c l

def execKind : StmtKind → Traced H Flow
  | .block newFrame body =>
    if newFrame then do
      let frame ← lift (Eval.onHeap (Heap.childFrame c.frame id))
      withPinned frame (self.block { c with frame := frame } body)
    else self.block c body
  | .function name params body => do
    let params ← self.declareParams c params
    let f ← lift (Eval.onHeap (HeapM.allocValue (.callable (.script name params c.frame body))))
    lift (Eval.onHeap (Heap.define c.frame name f))
    return .next
  | .var name init => do
    let value ← self.evalOptional c init
    lift (Eval.onHeap (Heap.define c.frame name value))
    return .next
  | .assign target op value => do
    self.assignTo env c op value target
    return .next
  | .branch cond thenBranch elseBranch => do
    let cond ← self.expr c cond
    if ← lift (Eval.ofExcept cond.truthy) then self.stmt c thenBranch
    else
      match elseBranch with
      | some s => self.stmt c s
      | none => return .next
  | .loop init cond step body => do
    let frame ← lift (Eval.onHeap (Heap.childFrame c.frame id))
    let c := { c with frame := frame }
    withPinned frame do
      match init with
      | some init => discard <| self.stmt c init
      | none => pure ()
      self.loop c ⟨cond, step, body⟩
  | .each var items body => do
    let container ← self.expr c items
    let items ← lift (Eval.readHeap fun h => iterationItems h container)
    self.forEach c var body items
  | .expr e => do
    discard <| self.expr c e
    return .next
  | .ret value => Flow.ret <$> self.evalOptional c value

def execStmt (s : Stmt) : Traced H Flow :=
  (nested env c fun c => self.execKind env c s.kind).during (.node s.loc)

end Tracer

/-! ## The traced evaluator -/

/-- The traced evaluator with an amount of fuel. -/
def tracer (env : Environment H) : Nat → Tracer H
  | 0 => ⟨fun _ _ _ _ => .outOfFuel, fun _ _ _ _ => .outOfFuel, fun _ _ _ _ => .outOfFuel⟩
  | fuel + 1 =>
    let self := tracer env fuel
    ⟨self.evalExpr env, self.execStmt env, self.loopRound⟩

end Patchbay
