import Patchbay.Eval.Expression

/-!
# Statements

One rule for each kind of statement, over the record of recursive calls. Blocks, loops and bodies
run in frames of their own, which are pinned while they run.
-/

namespace Patchbay

variable {H : HostTypes}

/-! ## Declarations -/

/-- Evaluate the defaults of declared parameters, in the scope of the declaration. -/
def declareParams (self : Runner H) (c : Cursor) : List Param → Eval H (List Parameter)
  | [] => return []
  | p :: rest => do
    let default ←
      match p.default with
      | some e => some <$> self.expr c e
      | none => pure none
    return ⟨p.name, default⟩ :: (← declareParams self c rest)

/-- The value of an optional expression; absent without one. -/
def evalOptional (self : Runner H) (c : Cursor) : Option Expr → Eval H Value
  | some e => self.expr c e
  | none => return .absent

/-! ## Assignments -/

/-- Write a member: a binding of a frame, or an input or a param of a node. -/
def assignMember (env : Environment H) (object : Value) (name : Name) (value : Value) :
    Eval H Unit := do
  match object with
  | .frame id => Eval.onHeap (Heap.bind id name value)
  | .node id =>
    let key ← Eval.nameText name
    let n ← Eval.readHeap (·.node id)
    match n.findPort? key with
    | some (kind, index) => writePort env id kind index value (.notAssignable n.name key)
    | none => fail (.undefinedMember n.name key)
  | other => do fail (.notAssignable other.typeName (← Eval.nameText name))

/-- The value to write: the new one, or what the operator makes of the current one and it. -/
def assignedValue (env : Environment H) (self : Runner H) (c : Cursor) (op : Option BinaryOp)
    (current : Eval H Value) (value : Value) (loc : Location) : Eval H Value :=
  match op with
  | none => return value
  | some op => do
    let old ← current
    applyBinary env self c op old value loc

/-- Assign to a target. Its parts are evaluated before the value. -/
def assignTo (env : Environment H) (self : Runner H) (c : Cursor) (target : Target)
    (op : Option BinaryOp) (value : Expr) (loc : Location) : Eval H Unit :=
  match target with
  | .ident name => do
    let value ← self.expr c value
    let value ← assignedValue env self c op (lookup env self c.frame name) value loc
    Eval.barring (·.walksOn (·.contains name) c.frame) self.stuck
      (Eval.onHeap (Heap.setVariable c.frame name value))
  | .member object name => do
    let object ← self.expr c object
    let value ← self.expr c value
    let value ← assignedValue env self c op (member env self object name) value loc
    assignMember env object name value
  | .index object indices => do
    let object ← self.expr c object
    let keys ← evalAll self c indices
    let value ← self.expr c value
    let value ← assignedValue env self c op (readIndex self.stuck object keys) value loc
    Eval.barring (fun h => value.isPrimitive && h.overruns object keys) self.stuck
      (Eval.onHeap (Heap.setIndex object keys value))

/-! ## Loops -/

/-- The values that a loop over a container visits, as they are when the loop starts. -/
def iterationItems (h : Heap H) (container : Value) : Except EvalError (List Value) :=
  match container with
  | .sequence id => Array.toList <$> h.sequence id
  | .array id => do
    let g ← h.grid id
    return g.items.toList.map Value.prim
  | .frame id => Frame.values <$> h.frame id
  | other => fail (.typeMismatch "sequence, array or frame" other.typeName)

/-- Run a body once for each value, in a fresh frame that binds it. -/
def forEach (self : Runner H) (c : Cursor) (var : Name) (body : Stmt) : List Value → Eval H Flow
  | [] => return .next
  | item :: rest => do
    let frame ← Eval.onHeap (Heap.childFrame c.frame id)
    let flow ← Eval.withPinned frame do
      Eval.onHeap (Heap.define frame var item)
      self.stmt { c with frame := frame } body
    match flow with
    | .ret v => return .ret v
    | .next => forEach self c var body rest

/-- Run one round of a counted loop and go on with the next. -/
def loopRound (self : Runner H) (c : Cursor) (l : LoopBody) : Eval H Flow := do
  let holds ←
    match l.cond with
    | some cond => do
      let v ← self.expr c cond
      Eval.ofExcept v.truthy
    | none => pure true
  if !holds then return .next
  match ← self.stmt c l.body with
  | .ret v => return .ret v
  | .next =>
    match l.step with
    | some step => discard <| self.stmt c step
    | none => pure ()
    self.loop c l

/-! ## Statements -/

/-- Run a statement at a place. -/
def execKind (env : Environment H) (self : Runner H) (c : Cursor) (kind : StmtKind)
    (loc : Location) : Eval H Flow :=
  match kind with
  | .block newFrame body =>
    if newFrame then do
      let frame ← Eval.onHeap (Heap.childFrame c.frame id)
      Eval.withPinned frame (self.block { c with frame := frame } body)
    else self.block c body
  | .function name params body => do
    let params ← declareParams self c params
    let f ← Eval.onHeap (HeapM.allocValue (.callable (.script name params c.frame body)))
    Eval.onHeap (Heap.define c.frame name f)
    return .next
  | .var name init => do
    let value ← evalOptional self c init
    Eval.onHeap (Heap.define c.frame name value)
    return .next
  | .assign target op value => do
    assignTo env self c target op value loc
    return .next
  | .branch cond thenBranch elseBranch => do
    let cond ← self.expr c cond
    if ← Eval.ofExcept cond.truthy then self.stmt c thenBranch
    else
      match elseBranch with
      | some s => self.stmt c s
      | none => return .next
  | .loop init cond step body => do
    let frame ← Eval.onHeap (Heap.childFrame c.frame id)
    let c := { c with frame := frame }
    Eval.withPinned frame do
      match init with
      | some init => discard <| self.stmt c init
      | none => pure ()
      self.loop c ⟨cond, step, body⟩
  | .each var items body => do
    let container ← self.expr c items
    let items ← Eval.readHeap fun h => iterationItems h container
    forEach self c var body items
  | .expr e => do
    discard <| self.expr c e
    return .next
  | .ret value => Flow.ret <$> evalOptional self c value

/-- Run a statement one level deeper. An error that has no place yet gets its place. -/
def execStmt (env : Environment H) (self : Runner H) (c : Cursor) (s : Stmt) : Eval H Flow :=
  (Eval.nested env c fun c => execKind env self c s.kind s.loc).mapError (·.locatedAt s.loc)

end Patchbay
