import Patchbay.Eval.Monad
import Patchbay.Heap.Scope

/-!
# Looking up names

A name means its nearest binding in the frames around the current one. A frame that stands for a
directory, and the root frame, resolve a name on demand that they do not bind: to a subdirectory, a
function of a plugin, a node of a plugin or a script, in this order. What is found is bound in the
frame, so the next look-up finds it there.
-/

namespace Patchbay

variable {H : HostTypes}

namespace Resolve

/-- The frame that stands for a subdirectory. -/
def namespaceFrame (frame : ObjectId) (dir : Path) : Eval H Value := do
  let id ← Eval.onHeap (Heap.childFrame frame (Frame.withPath · dir))
  return .frame id

/-- The message of a failed factory. -/
def factoryFailure (ident : String) (kind : FactoryKind) (library : Library) (e : EvalError) :
    EvalError :=
  .of (.pluginLoad (factorySymbol ident kind) (e.message ++ " (in " ++ library.name ++ ")"))

/-- The function that a plugin makes for an identifier. -/
def pluginFunction (frame : ObjectId) (name : Name) (plugin : Plugin (FunctionFactory H)) :
    Eval H Value := do
  let request : FunctionRequest := ⟨plugin.ident, name, frame, plugin.library⟩
  let made ← (Eval.onHeap (plugin.factory request)).mapError
    (factoryFailure plugin.ident .function plugin.library)
  let made := if made.library.isSome then made else made.withLibrary plugin.library
  Eval.onHeap (HeapM.allocValue (.callable made))

/-- The function that makes the nodes of a plugin. -/
def pluginNode (name : Name) (plugin : Plugin (NodeFactory H)) : Eval H Value :=
  Eval.onHeap <| HeapM.allocValue <|
    .callable ((Callable.nodeCreator name plugin.factory).withLibrary plugin.library)

/-- Read the program in a script file. -/
def loadProgram (loader : Loader) (path : Path) : Eval H Program := fun s =>
  let (result, names) := loader path s.heap.names
  let s := { s with heap := { s.heap with names := names } }
  match result with
  | .ok program => .ok program s
  | .error e => .error e s

/-- Run a script in a fresh frame and take the binding of `name` that it leaves there. -/
def runScript (self : Runner H) (loader : Loader) (frame : ObjectId) (name : Name) (ident : String)
    (path : Path) : Eval H Value := do
  let loading := fun (e : EvalError) => e.withNote ("while loading " ++ path.text)
  let program ← (loadProgram loader path).mapError loading
  let scriptFrame ← Eval.onHeap (Heap.childFrame frame id)
  let s ← Eval.get
  let cursor : Cursor := ⟨scriptFrame, s.evalDepth⟩
  discard <| (Eval.withPinned scriptFrame (self.block cursor program.body)).mapError loading
  match ← Eval.readHeap (·.lookupLocal scriptFrame name) with
  | some v => return v
  | none => fail (.scriptLoad path.text ("script does not define " ++ inTicks ident))

/-- Run `m` while a path counts as being loaded. If it does already, nothing is found. -/
def whileLoading (path : Path) (m : Eval H Value) : Eval H (Option Value) := do
  let s ← Eval.get
  if s.loading.any path.same then return none
  else
    Eval.modify fun s => { s with loading := path :: s.loading }
    let found ← m.andAlso fun s => { s with loading := s.loading.filter fun p => !path.same p }
    return some found

/-- What the script for an identifier in a directory defines. -/
def script (env : Environment H) (self : Runner H) (frame : ObjectId) (name : Name)
    (ident : String) (dir : Path) : Eval H (Option Value) :=
  let path := dir.join ⟨ident ++ "." ++ env.config.scriptExtension⟩
  match env.tree.isFile path, env.loader with
  | true, some loader => whileLoading path (runScript self loader frame name ident path)
  | _, _ => return none

/-- The subdirectory that an identifier names. -/
def subdirectory? (env : Environment H) (dir : Option Path) (ident : String) : Option Path :=
  (dir.map fun dir => dir.join ⟨ident⟩).filter env.tree.isDir

/-- Find what an identifier names in a frame that resolves names on demand. -/
def find (env : Environment H) (self : Runner H) (frame : ObjectId) (name : Name) :
    Eval H (Option Value) := do
  let ident ← Eval.nameText name
  let dir := (← Eval.readHeap (·.frame frame)).path
  let isRoot := frame = env.root
  match subdirectory? env dir ident with
  | some sub => some <$> namespaceFrame frame sub
  | none =>
    match env.plugins.function? ident dir isRoot with
    | some plugin => some <$> pluginFunction frame name plugin
    | none =>
      match env.plugins.node? ident dir isRoot with
      | some plugin => some <$> pluginNode name plugin
      | none =>
        match dir with
        | some dir => script env self frame name ident dir
        | none => return none

end Resolve

/-- Resolve a name in a frame on demand, and bind what was found. -/
def resolve (env : Environment H) (self : Runner H) (frame : ObjectId) (name : Name) :
    Eval H (Option Value) := do
  match ← Resolve.find env self frame name with
  | some v =>
    Eval.onHeap (Heap.bind frame name v)
    return some v
  | none => return none

/-- What a frame itself has for a name: a binding, or what is found on demand. -/
def lookupIn (env : Environment H) (self : Runner H) (frame : ObjectId) (name : Name) :
    Eval H (Option Value) := do
  let f ← Eval.readHeap (·.frame frame)
  match f.get? name with
  | some v => return some v
  | none => if f.path.isSome || frame = env.root then resolve env self frame name else return none

/-- The first value that the frames of a lineage, which is that of `frame`, have for a name. A frame
without one leaves everything as it is. So if no frame has one and the parents go round, the look-up
does, too. -/
def lookupAlong (env : Environment H) (self : Runner H) (frame : ObjectId) (name : Name) :
    List ObjectId → Eval H Value
  | [] =>
    Eval.barring (·.endless frame) self.stuck do
      fail (.undefinedVariable (← Eval.nameText name))
  | x :: rest => do
    match ← lookupIn env self x name with
    | some v => return v
    | none => lookupAlong env self frame name rest

/-- What a name means in a frame. -/
def lookup (env : Environment H) (self : Runner H) (frame : ObjectId) (name : Name) :
    Eval H Value := do
  let s ← Eval.get
  lookupAlong env self frame name (s.heap.lineage frame)

/-- What a name means as a member of a frame. The frames around it do not count. -/
def frameMember (env : Environment H) (self : Runner H) (frame : ObjectId) (name : Name) :
    Eval H Value := do
  match ← lookupIn env self frame name with
  | some v => return v
  | none => do fail (.undefinedMember ObjectKind.frame.name (← Eval.nameText name))

end Patchbay
