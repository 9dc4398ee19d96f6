import Patchbay.Heap.Store
import Patchbay.Heap.Wiring

/-!
# Ticking nodes

A tick pulls the value of every input from its source, runs the kernel once and puts the results on
the outputs. The operator kernels apply the same operations as the operators on values do.
-/

namespace Patchbay

namespace Kernel

variable {H : HostTypes}

/-- The operator symbol that a node keeps as its param `op`. -/
def symbolParam (builtin : Builtin) (n : Node H) : Except EvalError String :=
  match n.param? "op" with
  | some (.text symbol) => return symbol
  | some other => fail (.typeMismatch PrimType.text.name other.typeName)
  | none => fail (.unknownOperator builtin.reservedName "")

/-- The type that a node keeps as its param `to`. -/
def typeParam (n : Node H) : Except EvalError PrimType :=
  match n.param? "to" with
  | some (.text name) =>
    match PrimType.ofName? name with
    | some type => return type
    | none => fail (.typeMismatch "primitive type name" name)
  | some other => fail (.typeMismatch PrimType.text.name other.typeName)
  | none => fail (.typeMismatch "primitive type name" Value.absent.typeName)

/-- What an operator kernel computes. -/
def compute (kernel : Kernel H.Kernel) (h : Heap H) (n : Node H) (inputs : List Value) :
    Except EvalError (List Value) :=
  match kernel with
  | .constant => return [(n.param? "value").getD .absent]
  | .binaryOp => do
    let builtin := Builtin.binaryOp
    let symbol ← symbolParam builtin n
    match BinaryOp.ofSymbol? symbol, inputs with
    | none, _ => fail (.unknownOperator builtin.reservedName symbol)
    | some op, [a, b] => return [← Value.binary op a b]
    | some _, _ => fail (.wrongOperandCount builtin.reservedName 2 inputs.length)
  | .unaryOp => do
    let builtin := Builtin.unaryOp
    let symbol ← symbolParam builtin n
    match UnaryOp.ofSymbol? symbol, inputs with
    | none, _ => fail (.unknownOperator builtin.reservedName symbol)
    | some op, [a] => return [← Value.unary op a]
    | some _, _ => fail (.wrongOperandCount builtin.reservedName 1 inputs.length)
  | .index =>
    match inputs with
    | source :: indices => do return [← h.index source indices]
    | [] => fail (.wrongOperandCount Builtin.index.reservedName 2 0)
  | .cast => do
    let type ← typeParam n
    match inputs with
    | [operand] => return [← operand.cast (.prim type)]
    | _ => fail (.wrongOperandCount type.name 1 inputs.length)
  | .host _ => return []

/-- Run a kernel once. Only kernels of the host have a state that changes. -/
def run (host : KernelHost H) (kernel : Kernel H.Kernel) (h : Heap H) (n : Node H)
    (inputs : Array Value) : Except EvalError (Array Value) × Kernel H.Kernel :=
  match kernel with
  | .host state =>
    let (result, state) := host.tick state h n inputs
    (result, .host state)
  | kernel => (List.toArray <$> kernel.compute h n inputs.toList, kernel)

end Kernel

namespace Heap

variable {H : HostTypes}

/-- The values of the inputs of a node, in the order of its ports. -/
def inputValues (h : Heap H) (id : ObjectId) : Except EvalError (Array Value) := do
  let n ← h.node id
  (Array.range n.inputs.size).mapM fun i => h.inputValue ⟨id, Node.portIndex i⟩

/-- Put a value on an output of a node. -/
def setOutput (h : Heap H) (output : PortRef) (value : Value) : Heap H :=
  h.modifyNode output.node fun n =>
    { n with outputs := n.outputs.modify output.index.toNat fun p =>
        { p with value := some value } }

/-- Put the values of a tick on the outputs of a node, in the order of its ports. The values that
were there before come back. -/
def storeOutputs (h : Heap H) (id : ObjectId) (values : List Value) : List Value × Heap H :=
  let store := fun ((olds, h) : List Value × Heap H) ((i, value) : Nat × Value) =>
    let port : PortRef := ⟨id, Node.portIndex i⟩
    match h.outputPort port with
    | .ok p => (olds ++ p.value.toList, h.setOutput port value)
    | .error _ => (olds, h)
  ((List.range values.length).zip values).foldl store ([], h)

/-! ## Kernels that are taken out -/

/-- Put a kernel in the place of the one of a node, or none at all. -/
def setKernel (h : Heap H) (id : ObjectId) (kernel : Option (Kernel H.Kernel)) : Heap H :=
  h.modifyNode id fun n => { n with kernel := kernel }

/-- The kernel of a node, unless it is taken out. -/
def idleKernel (h : Heap H) (id : ObjectId) : Except EvalError (Kernel H.Kernel) := do
  match (← h.node id).kernel with
  | some kernel => return kernel
  | none => fail (.custom ("node " ++ id.display ++ " is already ticking"))

/-- Take the kernel out of a node. -/
def takeKernel (id : ObjectId) : HeapM H (Kernel H.Kernel) := do
  let kernel ← HeapM.read (·.idleKernel id)
  HeapM.change (·.setKernel id none)
  return kernel

/-- Put a kernel back into its node. -/
def restoreKernel (id : ObjectId) (kernel : Kernel H.Kernel) : HeapM H Unit :=
  HeapM.change (·.setKernel id (some kernel))

/-! ## Whole ticks -/

/-- Put the values that a kernel has computed on the outputs of its node, if there is one for
each. -/
def publish (id : ObjectId) (n : Node H) (values : Array Value) : HeapM H Unit := do
  if values.size ≠ n.outputs.size then
    fail (.custom ("node " ++ inTicks n.name ++ " produced " ++ toString values.size ++
      " values for " ++ toString n.outputs.size ++ " outputs"))
  HeapM.change fun h =>
    let (olds, h) := h.storeOutputs id values.toList
    olds.foldl release h

/-- Run a node once. The kernel does not see itself in its node, and is put back whether it fails or
not. -/
def tickNode (host : KernelHost H) (id : ObjectId) : HeapM H Unit := do
  let inputs ← HeapM.read (·.inputValues id)
  let kernel ← takeKernel id
  let n ← HeapM.read (·.node id)
  let (result, kernel) ← HeapM.read fun h => return kernel.run host h n inputs
  restoreKernel id kernel
  let values ← HeapM.read fun _ => result
  publish id n values

end Heap
end Patchbay
