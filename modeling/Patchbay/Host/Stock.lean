import Patchbay.Heap.Tick
import Patchbay.Plugin
import Patchbay.Eval.Monad

/-!
# A stock host

A small host: sources, an amplifier and a few other kernels, functions that make and inspect values,
and factories for both. It is what programs run with when nothing else is plugged in.
-/

namespace Patchbay.Stock

/-- The kernels of the stock host with their states. -/
inductive KernelState where
  /-- Send a param. -/
  | emit (param : String)
  /-- Send a param that holds 64-bit floating-point numbers only. -/
  | picky (param : String)
  /-- Multiply the input by the param `factor`, or by one. -/
  | gain
  /-- Count the ticks so far. -/
  | counter (ticks : Nat)
  /-- Send the same values at every tick. -/
  | fixed (values : List Value)
  /-- Send what comes in. -/
  | pass
  /-- Fail with a message. -/
  | fail (message : String)

/-- The native functions of the stock host. -/
inductive Function where
  | const (value : Value)
  /-- The first argument. -/
  | first
  /-- The number of arguments. -/
  | count
  /-- A sequence of the arguments. -/
  | pack
  /-- A cell that holds the first argument. -/
  | cell
  /-- Tick the node that the first argument refers to. -/
  | tick
  /-- The text that the library of the function came with. -/
  | payload (text : String)
  /-- Fail with a message. -/
  | fail (message : String)

/-- The types of the stock host. -/
def types : HostTypes := ⟨KernelState, Function⟩

/-- The number of something as a 32-bit integer. -/
def countValue (n : Nat) : Value := .int .int32 (.wrap .int32 n)

/-- The number one in 64-bit floating point. -/
def unity : Value := .double (Number.doubleOfInt 1)

/-- What a stock kernel computes. -/
def tick (state : KernelState) (n : Node types) (inputs : List Value) :
    Except EvalError (List Value) × KernelState :=
  match state with
  | .emit param | .picky param => (.ok [(n.param? param).getD .absent], state)
  | .gain =>
    match inputs with
    | [input] =>
      let result := Value.binary .mul input ((n.param? "factor").getD unity)
      (List.singleton <$> result, state)
    | _ => (.error (.custom "gain takes one input"), state)
  | .counter ticks => (.ok [countValue (ticks + 1)], .counter (ticks + 1))
  | .fixed values => (.ok values, state)
  | .pass => (.ok inputs, state)
  | .fail message => (.error (.custom message), state)

/-- The params that a stock kernel refuses. -/
def checkParam (state : KernelState) (name : String) (value : Value) : Except EvalError Unit :=
  match state with
  | .picky param =>
    if name = param ∧ value.tag ≠ .prim .double then
      Patchbay.fail (.typeMismatch PrimType.double.name value.typeName)
    else return ()
  | _ => return ()

/-- The kernels of the stock host. -/
def kernels : KernelHost types where
  tick state _ n inputs :=
    let (result, state) := Stock.tick state n inputs.toList
    (List.toArray <$> result, state)
  checkParam := Stock.checkParam

/-- Call a function of the stock host. -/
def call (f : Function) (args : List Value) : HeapM types Value :=
  match f with
  | .const value => return value
  | .first => return args.head?.getD .absent
  | .count => return countValue args.length
  | .pack => HeapM.allocValue (.sequence args.toArray)
  | .cell => HeapM.allocValue (.ref (args.head?.getD .absent))
  | .tick => do
    match args.head?.bind Value.referent with
    | some id => Heap.tickNode kernels id
    | none => pure ()
    return .absent
  | .payload text => return .text text
  | .fail message => throw (.custom message)

/-- The stock host. -/
def host : Host types := { kernels with call := call }

/-! ## Factories -/

/-- What the nodes of a factory look like. -/
structure NodeSpec where
  kernel : Kernel KernelState
  inputs : List String
  outputs : List String
  params : List (String × Value)
  library : Option Library

/-- A node as specified. -/
def NodeSpec.node (spec : NodeSpec) (name kind : String) : Node types :=
  let n : Node types := .new name kind spec.kernel
  let n := spec.inputs.foldl Node.withInput n
  let n := spec.outputs.foldl Node.withOutput n
  let n := spec.params.foldl (fun n (name, value) => n.withParam name value) n
  { n with library := spec.library }

/-- The factory of nodes as specified. -/
def NodeSpec.factory (spec : NodeSpec) : NodeFactory types := fun request =>
  return spec.node request.name request.kind

/-- The factory that always fails. -/
def brokenNode (message : String) : NodeFactory types := fun _ => throw (.custom message)

/-- What the functions of a factory look like. -/
structure FunctionSpec where
  /-- The function, given the library it is made for. -/
  function : Option Library → Function
  /-- The names of the parameters, with their defaults. -/
  params : List (String × Option Value)

/-- Intern the names of parameters. -/
def declare : List (String × Option Value) → HeapM types (List Parameter)
  | [] => return []
  | (name, default) :: rest => do
    let name ← Heap.internName name
    return ⟨name, default⟩ :: (← declare rest)

/-- A function as specified. -/
def FunctionSpec.callable (spec : FunctionSpec) (name : Name) (library : Option Library) :
    HeapM types (Callable types) := do
  return .native name (← declare spec.params) (spec.function library)

/-- The factory of functions as specified. The functions close over the requesting frame if
`closed`, and belong to the library `own` if there is one. -/
def FunctionSpec.factory (spec : FunctionSpec) (closed : Bool) (own : Option Library) :
    FunctionFactory types := fun request => do
  let f ← spec.callable request.name (some request.library)
  return { f with
    closure := if closed then some request.frame else none
    library := own }

/-- The factory that always fails. -/
def brokenFunction (message : String) : FunctionFactory types := fun _ => throw (.custom message)

end Patchbay.Stock
