import Patchbay.Heap.Basic

/-!
# Wiring nodes

An input names its source and an output lists its targets; both ends of a connection change
together. Params are set through the kernel of their node, which may refuse a value.
-/

namespace Patchbay

/-- How the kernels of a host behave. -/
structure KernelHost (H : HostTypes) where
  /-- Compute one value for each output from the values of the inputs. The kernel sees the heap and
  its node, and may change its own state even if it fails. -/
  tick : H.Kernel → Heap H → Node H → Array Value → Except EvalError (Array Value) × H.Kernel
  /-- Accept or refuse a value for a param. -/
  checkParam : H.Kernel → String → Value → Except EvalError Unit

namespace Kernel

variable {H : HostTypes}

/-- An operator kernel takes as its param `op` the symbol of an operator that it knows. -/
def checkSymbol (builtin : Builtin) (known : String → Bool) (name : String) (value : Value) :
    Except EvalError Unit :=
  if name ≠ "op" then return ()
  else
    match value with
    | .text symbol =>
      if known symbol then return () else fail (.unknownOperator builtin.reservedName symbol)
    | other => fail (.typeMismatch PrimType.text.name other.typeName)

/-- A conversion kernel takes as its param `to` the name of a primitive type. -/
def checkType (name : String) (value : Value) : Except EvalError Unit :=
  if name ≠ "to" then return ()
  else
    match value with
    | .text type =>
      if (PrimType.ofName? type).isSome then return ()
      else fail (.typeMismatch "primitive type name" type)
    | other => fail (.typeMismatch PrimType.text.name other.typeName)

/-- Whether the kernel accepts a value for a param. -/
def checkParam (host : KernelHost H) (kernel : Kernel H.Kernel) (name : String) (value : Value) :
    Except EvalError Unit :=
  match kernel with
  | .binaryOp => checkSymbol .binaryOp (fun s => (BinaryOp.ofSymbol? s).isSome) name value
  | .unaryOp => checkSymbol .unaryOp (fun s => (UnaryOp.ofSymbol? s).isSome) name value
  | .cast => checkType name value
  | .constant | .index => return ()
  | .host state => host.checkParam state name value

end Kernel

/-- Whether a node accepts a value for a param. Its kernel decides, unless it is taken out. -/
def Node.checkParam {H : HostTypes} (host : KernelHost H) (n : Node H) (name : String)
    (value : Value) : Except EvalError Unit :=
  match n.kernel with
  | some kernel => kernel.checkParam host name value
  | none => return ()

namespace Heap

variable {H : HostTypes}

/-- The failure for a port that its node does not have. -/
def noSuchPort (h : Heap H) (port : PortRef) (kind : PortKind) : Cause :=
  let node :=
    match h.node port.node with
    | .ok n => n.name
    | .error _ => port.node.display
  .port (.noSuchPort node kind (toString port.index.toNat))

/-- An input of a node. -/
def inputPort (h : Heap H) (port : PortRef) : Except EvalError InputPort := do
  match (← h.node port.node).inputs[port.index.toNat]? with
  | some p => return p
  | none => fail (h.noSuchPort port .input)

/-- An output of a node. -/
def outputPort (h : Heap H) (port : PortRef) : Except EvalError OutputPort := do
  match (← h.node port.node).outputs[port.index.toNat]? with
  | some p => return p
  | none => fail (h.noSuchPort port .output)

/-- Set or clear the source of an input. -/
def setSource (h : Heap H) (input : PortRef) (source : Option PortRef) : Heap H :=
  h.modifyNode input.node fun n =>
    { n with inputs := n.inputs.modify input.index.toNat fun p => { p with source := source } }

/-- Append an input to the targets of an output. -/
def addTarget (h : Heap H) (output input : PortRef) : Heap H :=
  h.modifyNode output.node fun n =>
    { n with outputs := n.outputs.modify output.index.toNat fun p =>
        { p with targets := p.targets.push input } }

/-- Take an input off the targets of an output. -/
def unlinkTarget (h : Heap H) (output input : PortRef) : Heap H :=
  h.modifyNode output.node fun n =>
    { n with outputs := n.outputs.modify output.index.toNat fun p =>
        { p with targets := p.targets.filter (· ≠ input) } }

/-- Detach an input from its source, if it has one. -/
def disconnect (input : PortRef) : HeapM H Unit := do
  match (← HeapM.read (·.inputPort input)).source with
  | none => return ()
  | some source =>
    HeapM.change fun h =>
      ((h.setSource input none).unlinkTarget source input).resetAge source.node

/-- Connect an input to an output. The input leaves the source that it had before. -/
def connect (input output : PortRef) : HeapM H Unit := do
  discard <| HeapM.read (·.outputPort output)
  discard <| HeapM.read (·.inputPort input)
  disconnect input
  HeapM.change fun h => (h.setSource input (some output)).addTarget output input

/-- Set a param, if the node accepts the value. -/
def setParam (host : KernelHost H) (param : PortRef) (value : Value) : HeapM H Unit := do
  let n ← HeapM.read (·.node param.node)
  match n.params[param.index.toNat]? with
  | none => HeapM.read fun h => fail (h.noSuchPort param .param)
  | some port =>
    HeapM.read fun _ => n.checkParam host port.name value
    HeapM.change fun h =>
      (h.modifyNode param.node fun n =>
        { n with params := n.params.modify param.index.toNat fun p =>
            { p with value := value } }).release port.value

/-- Set the param of a node that is found under a name. -/
def setParamNamed (host : KernelHost H) (node : ObjectId) (name : String) (value : Value) :
    HeapM H Unit := do
  let n ← HeapM.read (·.node node)
  match n.findPort? name with
  | some (.param, index) => setParam host ⟨node, index⟩ value
  | _ => fail (.unknownParam n.name name)

/-- The last value that an output sent. -/
def outputValue (h : Heap H) (output : PortRef) : Except EvalError Value := do
  let n ← h.node output.node
  let port ← h.outputPort output
  match port.value with
  | some v => return v
  | none => fail (.port (.outputUninitialized n.name port.name))

/-- The value that an input receives from its source. -/
def inputValue (h : Heap H) (input : PortRef) : Except EvalError Value := do
  let n ← h.node input.node
  let port ← h.inputPort input
  match port.source with
  | some source => h.outputValue source
  | none => fail (.port (.inputNotConnected n.name port.name))

end Heap
end Patchbay
