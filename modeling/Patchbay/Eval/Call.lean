import Patchbay.Eval.Lookup
import Patchbay.Eval.Lift

/-!
# Calls

What a call does depends on the function. A script binds its arguments in a fresh frame under its
closure and runs its body there. A native function gets its arguments in declared order. A node
creator makes a node and sets a param or connects an input for each argument, by label. A builtin
takes its arguments as operands.
-/

namespace Patchbay

variable {H : HostTypes}

/-- Bind arguments to the parameters of a function. -/
def bindArguments (params : List Parameter) (args : List CallArg) : Eval H (List (Name × Value)) :=
  Eval.readHeap fun h => Parameter.bind params args h.names

/-- Run the body of a script function in a fresh frame that holds its arguments. -/
def callScript (env : Environment H) (self : Runner H) (c : Cursor) (f : Callable H) (body : Stmt)
    (args : List CallArg) : Eval H Value := do
  let bound ← bindArguments f.params args
  let frame ← Eval.onHeap (Heap.childFrame (f.closure.getD env.root) id)
  bound.forM fun (name, value) => Eval.onHeap (Heap.define frame name value)
  match ← Eval.withPinned frame (self.stmt { c with frame := frame } body) with
  | .ret v => return v
  | .next => return .absent

/-- Set a param or connect an input of a node. Nothing else can be written. -/
def writePort (env : Environment H) (node : ObjectId) (kind : PortKind) (index : UInt16)
    (value : Value) (otherwise : Cause) : Eval H Unit :=
  match kind with
  | .param => Eval.onHeap (Heap.setParam env.host.toKernelHost ⟨node, index⟩ value)
  | .input => do
    let source ← Lift.sourcePort value
    Eval.onHeap (Heap.connect ⟨node, index⟩ source)
  | .output => fail otherwise

/-- Apply the arguments of a node creator to its node, from a position on. -/
def applyNodeArguments (env : Environment H) (node : ObjectId) : Nat → List CallArg → Eval H Unit
  | _, [] => return ()
  | position, arg :: rest => do
    match arg.label with
    | none => fail (.unlabeledNodeArgument position)
    | some label =>
      let key ← Eval.nameText label
      let n ← Eval.readHeap (·.node node)
      let unknown := Cause.unknownParam n.name key
      match n.findPort? key with
      | some (kind, index) => writePort env node kind index arg.value unknown
      | none => fail unknown
      applyNodeArguments env node (position + 1) rest

/-- Make a node by a factory. A node without a library belongs to that of the function. -/
def createNode (env : Environment H) (f : Callable H) (factory : NodeFactory H)
    (args : List CallArg) : Eval H Value := do
  let kind ← Eval.nameText f.name
  let name ← Eval.nextNodeName kind
  let failure := fun (e : EvalError) =>
    match f.library with
    | some library => Resolve.factoryFailure kind .node library e
    | none => e
  let node ← (Eval.ofExcept (factory ⟨name, kind, f.library⟩)).mapError failure
  let node := { node with library := node.library <|> f.library }
  let id ← Eval.onHeap (HeapM.alloc (.node node))
  applyNodeArguments env id 0 args
  return .node id

/-- The operands of a builtin, which has no labels. -/
def operandsOf : List CallArg → Eval H (List Value)
  | [] => return []
  | arg :: rest => do
    match arg.label with
    | some label => do fail (.unknownArgument (← Eval.nameText label))
    | none => return arg.value :: (← operandsOf rest)

/-- Call a value. The place of the call is recorded on errors that leave a script function. -/
def callValue (env : Environment H) (self : Runner H) (c : Cursor) (callee : Value)
    (args : List CallArg) (site : Location) : Eval H Value :=
  match callee with
  | .function id => do
    let f ← Eval.readHeap (·.callable id)
    match f.body with
    | .script body => (callScript env self c f body args).mapError (·.withCallSite site)
    | .native fn => do
      let bound ← bindArguments f.params args
      Eval.onHeap (env.host.call fn (bound.map Prod.snd))
    | .nodeCreator create => createNode env f create args
    | .builtin b => do callBuiltin b (← operandsOf args) self.stuck
  | other => fail (.notCallable other.typeName)

/-- Call the function that a reserved name means in the current frame. -/
def callReserved (env : Environment H) (self : Runner H) (c : Cursor) (name : Name)
    (operands : List Value) (site : Location) : Eval H Value := do
  let f ← lookup env self c.frame name
  callValue env self c f (operands.map CallArg.positional) site

end Patchbay
