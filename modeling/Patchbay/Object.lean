import Patchbay.Node
import Patchbay.Frame
import Patchbay.Grid
import Patchbay.Parameter
import Patchbay.Syntax

/-!
# Heap objects

The objects that live in the heap and the references between them. Garbage collection follows
`HeapObject.children`, which lists an object once for every reference to it.
-/

namespace Patchbay

/-- What a node factory is asked for. -/
structure NodeRequest where
  /-- The name of the new node. -/
  name : String
  /-- The identifier that the factory was found under. -/
  kind : String
  library : Option Library

/-- What happens when a function is called. -/
inductive CallableBody (H : HostTypes) where
  /-- A statement of a program. -/
  | script (body : Stmt)
  /-- A function of the host. -/
  | native (fn : H.Native)
  /-- A factory; the arguments set params and inputs of the new node. -/
  | nodeCreator (create : NodeRequest → Except EvalError (Node H))
  | builtin (b : Builtin)

/-- A function object. -/
structure Callable (H : HostTypes) where
  name : Name
  params : List Parameter
  /-- The frame that the body runs under. Functions of the host have none. -/
  closure : Option ObjectId
  library : Option Library
  body : CallableBody H

namespace Callable

variable {H : HostTypes}

def script (name : Name) (params : List Parameter) (closure : ObjectId) (body : Stmt) :
    Callable H :=
  ⟨name, params, some closure, none, .script body⟩

def native (name : Name) (params : List Parameter) (fn : H.Native) : Callable H :=
  ⟨name, params, none, none, .native fn⟩

def nodeCreator (name : Name) (create : NodeRequest → Except EvalError (Node H)) : Callable H :=
  ⟨name, [], none, none, .nodeCreator create⟩

def builtin (name : Name) (b : Builtin) : Callable H := ⟨name, [], none, none, .builtin b⟩

def withLibrary (c : Callable H) (library : Library) : Callable H :=
  { c with library := some library }

/-- The objects that the function refers to: its closure and its defaults. -/
def children (c : Callable H) : List ObjectId :=
  c.closure.toList ++ c.params.filterMap fun p => p.default.bind Value.referent

end Callable

/-- Anything that lives in the heap. -/
inductive HeapObject (H : HostTypes) where
  | frame (f : Frame)
  | callable (c : Callable H)
  | node (n : Node H)
  | sequence (items : Array Value)
  | grid (g : Grid)
  | ref (value : Value)

namespace HeapObject

variable {H : HostTypes}

def kind : HeapObject H → ObjectKind
  | frame _ => .frame
  | callable _ => .function
  | node _ => .node
  | sequence _ => .sequence
  | grid _ => .array
  | ref _ => .ref

/-- The objects that an object refers to, as often as it does. -/
def children : HeapObject H → List ObjectId
  | frame f => f.children
  | callable c => c.children
  | node n => n.children
  | sequence items => items.toList.filterMap Value.referent
  | grid _ => []
  | ref value => value.referent.toList

end HeapObject
end Patchbay
