import Patchbay.Value.Operate

/-!
# Dataflow nodes

A node has named ports of three kinds. An input is connected to at most one output, an output fans
out to any number of inputs and keeps the last value that it sent, and a param holds a value that is
set by hand. What a node does when it ticks is its kernel: one of the operator kernels of the
language, or one that a host supplies.
-/

namespace Patchbay

/-- What a host adds to the language: the states of its node kernels, and its native functions. -/
structure HostTypes where
  Kernel : Type
  Native : Type

/-- A plugin library that an object came from, with the text that the library attached to it. -/
structure Library where
  name : String
  payload : String
deriving DecidableEq, Repr

structure InputPort where
  name : String
  /-- The output that the input is connected to. -/
  source : Option PortRef
deriving DecidableEq

structure OutputPort where
  name : String
  /-- The last value that was sent. -/
  value : Option Value
  /-- The inputs that are connected to the output. -/
  targets : Array PortRef
deriving DecidableEq

structure ParamPort where
  name : String
  value : Value
deriving DecidableEq

/-- What a node does when it ticks. -/
inductive Kernel (K : Type) where
  /-- Send the param `value`. -/
  | constant
  /-- Apply the binary operator whose symbol is the param `op`. -/
  | binaryOp
  /-- Apply the unary operator whose symbol is the param `op`. -/
  | unaryOp
  /-- Index the first input with the others. -/
  | index
  /-- Convert to the type named by the param `to`. -/
  | cast
  /-- A kernel of the host in some state. -/
  | host (state : K)

structure Node (H : HostTypes) where
  name : String
  kind : String
  inputs : Array InputPort
  outputs : Array OutputPort
  params : Array ParamPort
  /-- Taken out while the kernel runs. -/
  kernel : Option (Kernel H.Kernel)
  library : Option Library

namespace Node

variable {H : HostTypes}

/-- A node without ports. -/
def new (name kind : String) (kernel : Kernel H.Kernel) : Node H :=
  ⟨name, kind, #[], #[], #[], some kernel, none⟩

def withInput (n : Node H) (name : String) : Node H :=
  { n with inputs := n.inputs.push ⟨name, none⟩ }

def withOutput (n : Node H) (name : String) : Node H :=
  { n with outputs := n.outputs.push ⟨name, none, #[]⟩ }

def withParam (n : Node H) (name : String) (value : Value) : Node H :=
  { n with params := n.params.push ⟨name, value⟩ }

def withLibrary (n : Node H) (library : Library) : Node H := { n with library := some library }

/-- The value of the first param with a given name. -/
def param? (n : Node H) (name : String) : Option Value :=
  (n.params.find? fun p => p.name == name).map ParamPort.value

/-- A port position that fits a port handle. -/
def portIndex? (i : Nat) : Option UInt16 := if i < UInt16.size then some (UInt16.ofNat i) else none

/-- A port position as a handle has it; positions past the last one are all taken for the last. -/
def portIndex (i : Nat) : UInt16 := (portIndex? i).getD (UInt16.ofNat (UInt16.size - 1))

/-- Resolve a port name. Inputs come before outputs, and those before params. -/
def findPort? (n : Node H) (name : String) : Option (PortKind × UInt16) :=
  ((n.inputs.findIdx? fun p => p.name == name).bind portIndex?).map (PortKind.input, ·) <|>
  ((n.outputs.findIdx? fun p => p.name == name).bind portIndex?).map (PortKind.output, ·) <|>
  ((n.params.findIdx? fun p => p.name == name).bind portIndex?).map (PortKind.param, ·)

/-- The handle of the port with a given name, for the node that lives at `id`. -/
def portValue? (n : Node H) (id : ObjectId) (name : String) : Option Value :=
  (n.findPort? name).map fun (kind, index) => .port kind ⟨id, index⟩

/-- The objects that the node refers to: its sources, its params and the values it sent. The nodes
behind its outputs are not among them. -/
def children (n : Node H) : List ObjectId :=
  n.inputs.toList.filterMap (fun p => p.source.map PortRef.node) ++
    n.params.toList.filterMap (fun p => p.value.referent) ++
    n.outputs.toList.filterMap fun p => p.value.bind Value.referent

/-! ## Operator nodes -/

/-- A node that sends one value. It has sent it from the start, so nodes behind it can tick before
it does. -/
def constant (name : String) (value : Value) : Node H :=
  { (new name "constant" .constant).withParam "value" value with
    outputs := #[⟨"out", some value, #[]⟩] }

/-- A node that applies a binary operator to its inputs. -/
def binaryOp (name : String) (op : BinaryOp) : Node H :=
  ((((new name "binaryOp" .binaryOp).withInput "a").withInput "b").withParam "op"
    (.text op.symbol)).withOutput "out"

/-- A node that applies a unary operator to its input. -/
def unaryOp (name : String) (op : UnaryOp) : Node H :=
  (((new name "unaryOp" .unaryOp).withInput "in").withParam "op" (.text op.symbol)).withOutput "out"

/-- A node that indexes its first input with the others, of which there are `count`. -/
def index (name : String) (count : Nat) : Node H :=
  let indices := (Array.range count).map fun i => InputPort.mk ("i" ++ toString i) none
  { (new name "index" .index).withOutput "out" with inputs := #[⟨"source", none⟩] ++ indices }

/-- A node that converts its input to a primitive type. -/
def cast (name : String) (type : PrimType) : Node H :=
  (((new name "cast" .cast).withInput "in").withParam "to" (.text type.name)).withOutput "out"

end Node
end Patchbay
