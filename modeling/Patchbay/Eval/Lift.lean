import Patchbay.Eval.Monad
import Patchbay.Heap.Store

/-!
# Operators on values and on signals

A builtin computes right away unless an operand is a signal, that is, an output of a node. Then it
builds a node of the matching kind, connects every operand to an input of it, plain values through a
node that sends the value, and the output of the new node is the result.
-/

namespace Patchbay

variable {H : HostTypes}

namespace Lift

/-- The output that carries an operand: the operand itself if it is one, else that of a new constant
node. -/
def sourcePort (operand : Value) : Eval H PortRef :=
  match operand with
  | .output port => return port
  | value => do
    let name ← Eval.nextNodeName "constant"
    let id ← Eval.onHeap (HeapM.alloc (.node (Node.constant name value)))
    return ⟨id, 0⟩

/-- Connect operands to the inputs of a node from a position on. -/
def wire (node : ObjectId) (kind : String) (count : Nat) : Nat → List Value → Eval H Unit
  | _, [] => return ()
  | position, operand :: rest => do
    let source ← sourcePort operand
    match Node.portIndex? position with
    | some index =>
      Eval.onHeap (Heap.connect ⟨node, index⟩ source)
      wire node kind count (position + 1) rest
    | none => fail (.wrongOperandCount kind (UInt16.size - 1) count)

/-- Make a node and connect operands to its inputs in order. -/
def build (kind : String) (make : String → Node H) (operands : List Value) : Eval H Value := do
  let name ← Eval.nextNodeName kind
  let id ← Eval.onHeap (HeapM.alloc (.node (make name)))
  wire id kind operands.length 0 operands
  return .output ⟨id, 0⟩

/-- The text of an operator symbol. -/
def symbolText (symbol : Value) : Except EvalError String :=
  match symbol with
  | .text s => return s
  | other => fail (.typeMismatch "operator symbol" other.typeName)

/-- The binary operator that a symbol names. -/
def binarySymbol (symbol : Value) : Except EvalError BinaryOp := do
  let s ← symbolText symbol
  match BinaryOp.ofSymbol? s with
  | some op => return op
  | none => fail (.unknownOperator Builtin.binaryOp.reservedName s)

/-- The unary operator that a symbol names. -/
def unarySymbol (symbol : Value) : Except EvalError UnaryOp := do
  let s ← symbolText symbol
  match UnaryOp.ofSymbol? s with
  | some op => return op
  | none => fail (.unknownOperator Builtin.unaryOp.reservedName s)

end Lift

/-- Index a value. -/
def readIndex (stuck : Eval H Empty) (target : Value) (indices : List Value) : Eval H Value :=
  Eval.barring (·.overruns target indices) stuck (Eval.readHeap (·.index target indices))

open Lift in
/-- Apply a builtin to operands; where indexing does not come back, `stuck` is done. -/
def callBuiltin (b : Builtin) (operands : List Value) (stuck : Eval H Empty := Eval.diverge) :
    Eval H Value :=
  let wrongCount := fun expected =>
    (fail (.wrongOperandCount b.reservedName expected operands.length) : Eval H Value)
  match b, operands with
  | .binaryOp, [symbol, left, right] => do
    let op ← Eval.ofExcept (binarySymbol symbol)
    if left.isOutput || right.isOutput then
      build "binaryOp" (fun name => Node.binaryOp name op) [left, right]
    else Eval.ofExcept (Value.binary op left right)
  | .binaryOp, _ => wrongCount 3
  | .unaryOp, [symbol, operand] => do
    let op ← Eval.ofExcept (unarySymbol symbol)
    if operand.isOutput then build "unaryOp" (fun name => Node.unaryOp name op) [operand]
    else Eval.ofExcept (Value.unary op operand)
  | .unaryOp, _ => wrongCount 2
  | .index, target :: indices =>
    if operands.any Value.isOutput then
      build "index" (fun name => Node.index name indices.length) operands
    else readIndex stuck target indices
  | .index, [] => wrongCount 1
  | .cast type, [operand] =>
    if operand.isOutput then build "cast" (fun name => Node.cast name type) [operand]
    else Eval.ofExcept (operand.cast (.prim type))
  | .cast _, _ => wrongCount 1

end Patchbay
