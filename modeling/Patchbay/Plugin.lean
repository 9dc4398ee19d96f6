import Patchbay.Heap.Basic

/-!
# Plugins

A plugin library supplies factories of functions and of nodes, each for an identifier. A factory
belongs to a directory, and then only frames of that directory see it, or to none, and then only the
root frame does. Of several factories that a frame sees for an identifier, the first one registered
counts.
-/

namespace Patchbay

/-- What a function factory is asked for. -/
structure FunctionRequest where
  /-- The identifier that is being resolved. -/
  ident : String
  name : Name
  /-- The frame that the identifier is being resolved in. -/
  frame : ObjectId
  library : Library

/-- Makes the function for an identifier. -/
abbrev FunctionFactory (H : HostTypes) : Type := FunctionRequest → HeapM H (Callable H)

/-- Makes a node each time it is called. -/
abbrev NodeFactory (H : HostTypes) : Type := NodeRequest → Except EvalError (Node H)

/-- The two kinds of factories. -/
inductive FactoryKind where
  | function | node
deriving DecidableEq, Repr

/-- The symbol that a library exports for an identifier. -/
def factorySymbol (ident : String) : FactoryKind → String
  | .function => ident ++ "_create_Function"
  | .node => ident ++ "_create_Node"

/-- A registered factory. -/
structure Plugin (F : Type) where
  ident : String
  factory : F
  library : Library
  /-- The directory of the library. -/
  dir : Option Path

/-- Whether a frame sees the factory: a frame of directory `dir`, or the root frame. -/
def Plugin.visibleFrom {F : Type} (p : Plugin F) (dir : Option Path) (isRoot : Bool) : Bool :=
  match p.dir, dir with
  | none, _ => isRoot
  | some own, some dir => own.same dir
  | some _, none => false

/-- All registered factories, in the order of registration. -/
structure Registry (H : HostTypes) where
  functions : List (Plugin (FunctionFactory H))
  nodes : List (Plugin (NodeFactory H))

namespace Registry

variable {H : HostTypes}

def empty : Registry H := ⟨[], []⟩

def addFunction (r : Registry H) (p : Plugin (FunctionFactory H)) : Registry H :=
  { r with functions := r.functions ++ [p] }

def addNode (r : Registry H) (p : Plugin (NodeFactory H)) : Registry H :=
  { r with nodes := r.nodes ++ [p] }

/-- The function factory that a frame sees for an identifier. -/
def function? (r : Registry H) (ident : String) (dir : Option Path) (isRoot : Bool) :
    Option (Plugin (FunctionFactory H)) :=
  r.functions.find? fun p => p.ident = ident && p.visibleFrom dir isRoot

/-- The node factory that a frame sees for an identifier. -/
def node? (r : Registry H) (ident : String) (dir : Option Path) (isRoot : Bool) :
    Option (Plugin (NodeFactory H)) :=
  r.nodes.find? fun p => p.ident = ident && p.visibleFrom dir isRoot

/-- The exported symbols, each once. -/
def symbols (r : Registry H) : List String :=
  (r.functions.map fun p => factorySymbol p.ident .function).eraseDups ++
    (r.nodes.map fun p => factorySymbol p.ident .node).eraseDups

end Registry
end Patchbay
