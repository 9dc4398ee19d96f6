import Patchbay.Eval.Call

/-!
# Expressions

One rule for each kind of expression, over the record of recursive calls. Operators and indexing are
calls of reserved functions, which are looked up like any name, so programs may bind them anew.
-/

namespace Patchbay

variable {H : HostTypes}

/-- The value of a literal. -/
def Literal.value (l : Literal) (names : Interner) : Value :=
  match l with
  | .absent => .absent
  | .bool b => .bool b
  | .int t n => .int t n
  | .float x => .float x
  | .double x => .double x
  | .text name => .text (names.lookup name)

/-! ## Array literals -/

/-- The rows of an array literal with elements that are not all primitive. All have the shape of the
first one. -/
def stackRows (h : Heap H) :
    Option (List Nat) → List Value → Except EvalError (List Nat × List Primitive)
  | shape, [] => return (shape.getD [], [])
  | shape, .array id :: rest => do
    let row ← h.grid id
    let dims := shape.getD row.dims
    if dims ≠ row.dims then
      fail (.custom ("array rows differ in shape: " ++ showShape dims ++ " and " ++
        showShape row.dims))
    else
      let (dims, items) ← stackRows h (some dims) rest
      return (dims, row.items.toList ++ items)
  | _, other :: _ => fail (.typeMismatch "primitive or array" other.typeName)

/-- The array of an array literal: primitives in a row, or rows of one shape that stack along a new
first dimension. -/
def literalGrid (h : Heap H) (values : List Value) : Except EvalError Grid :=
  if values.all Value.isPrimitive then Grid.vector values.toArray
  else do
    let (dims, items) ← stackRows h none values
    Grid.ofValues (values.length :: dims) (items.map Value.prim).toArray

/-! ## Members -/

/-- A member of a value: a name of a frame, or a port of a node. -/
def member (env : Environment H) (self : Runner H) (object : Value) (name : Name) :
    Eval H Value := do
  match object with
  | .frame id => frameMember env self id name
  | .node id =>
    let key ← Eval.nameText name
    Eval.readHeap fun h => do
      let n ← h.node id
      match n.portValue? id key with
      | some v => return v
      | none => fail (.undefinedMember n.name key)
  | other => do fail (.undefinedMember other.typeName (← Eval.nameText name))

/-! ## Operators -/

def applyBinary (env : Environment H) (self : Runner H) (c : Cursor) (op : BinaryOp)
    (left right : Value) (loc : Location) : Eval H Value :=
  callReserved env self c env.reserved.binaryOp [.text op.symbol, left, right] loc

def applyUnary (env : Environment H) (self : Runner H) (c : Cursor) (op : UnaryOp)
    (operand : Value) (loc : Location) : Eval H Value :=
  callReserved env self c env.reserved.unaryOp [.text op.symbol, operand] loc

/-- The result of a logical operator that its left operand decides. Only a plain scalar does. -/
def shortCircuit (op : BinaryOp) (left : Value) : Except EvalError (Option Value) :=
  let decided? : Option Bool :=
    match op with
    | .and => some false
    | .or => some true
    | _ => none
  match decided?, left with
  | some _, .text _ => return none
  | some decided, .prim _ => do
    if (← left.truthy) = decided then return some (.bool decided) else return none
  | _, _ => return none

/-! ## Expressions -/

/-- Evaluate the arguments of a call in order. -/
def evalArgs (self : Runner H) (c : Cursor) : List Argument → Eval H (List CallArg)
  | [] => return []
  | a :: rest => do
    let value ← self.expr c a.value
    return ⟨a.label, value⟩ :: (← evalArgs self c rest)

/-- Evaluate expressions in order. -/
def evalAll (self : Runner H) (c : Cursor) : List Expr → Eval H (List Value)
  | [] => return []
  | e :: rest => do
    let value ← self.expr c e
    return value :: (← evalAll self c rest)

/-- The value of an expression at a place. -/
def evalKind (env : Environment H) (self : Runner H) (c : Cursor) (kind : ExprKind)
    (loc : Location) : Eval H Value :=
  match kind with
  | .literal l => fun s => .ok (l.value s.heap.names) s
  | .array items => do
    let values ← evalAll self c items
    let grid ← Eval.readHeap fun h => literalGrid h values
    Eval.onHeap (HeapM.allocValue (.grid grid))
  | .sequence items => do
    let values ← evalAll self c items
    Eval.onHeap (HeapM.allocValue (.sequence values.toArray))
  | .frame body => do
    let frame ← Eval.onHeap (Heap.childFrame c.frame Frame.asThis)
    discard <| Eval.withPinned frame (self.stmt { c with frame := frame } body)
    return .frame frame
  | .ident name => lookup env self c.frame name
  | .this =>
    Eval.barring (·.walksOn Frame.isThis c.frame) self.stuck
      (Value.frame <$> Eval.readHeap (·.thisFrame c.frame))
  | .member object name => do
    let object ← self.expr c object
    member env self object name
  | .index object indices => do
    let object ← self.expr c object
    let indices ← evalAll self c indices
    callReserved env self c env.reserved.index (object :: indices) loc
  | .call callee args => do
    let callee ← self.expr c callee
    let args ← evalArgs self c args
    callValue env self c callee args loc
  | .unary op operand => do
    let operand ← self.expr c operand
    applyUnary env self c op operand loc
  | .binary op left right => do
    let left ← self.expr c left
    match ← Eval.ofExcept (shortCircuit op left) with
    | some result => return result
    | none =>
      let right ← self.expr c right
      applyBinary env self c op left right loc
  | .ternary cond thenExpr elseExpr => do
    let cond ← self.expr c cond
    if ← Eval.ofExcept cond.truthy then self.expr c thenExpr else self.expr c elseExpr

/-- Evaluate an expression one level deeper. An error that has no place yet gets its place. -/
def evalExpr (env : Environment H) (self : Runner H) (c : Cursor) (e : Expr) : Eval H Value :=
  (Eval.nested env c fun c => evalKind env self c e.kind e.loc).mapError (·.locatedAt e.loc)

end Patchbay
