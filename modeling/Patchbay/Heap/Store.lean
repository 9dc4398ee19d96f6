import Patchbay.Heap.Basic

/-!
# Writing to containers

Frames, sequences, arrays and cells are written through the operations of this module, which set
back the age of every object that a reference was taken from.
-/

namespace Patchbay.Heap

variable {H : HostTypes}

/-- Put a frame in the place of another one. -/
def putFrame (h : Heap H) (id : ObjectId) (f : Frame) : Heap H :=
  h.modifyObject id fun _ => .frame f

/-- Add a binding to a frame that does not bind the name. -/
def define (frame : ObjectId) (name : Name) (value : Value) : HeapM H Unit := do
  let f ← HeapM.read (·.frame frame)
  match f.insert? name value with
  | some f => HeapM.change (·.putFrame frame f)
  | none => HeapM.read fun h => fail (.duplicateBinding (h.names.lookup name))

/-- Overwrite a binding of the frame itself; tells whether there was one. -/
def assign (frame : ObjectId) (name : Name) (value : Value) : HeapM H Bool := do
  let f ← HeapM.read (·.frame frame)
  match f.replace? name value with
  | some (old, f) =>
    HeapM.change fun h => (h.putFrame frame f).release old
    return true
  | none => return false

/-- Overwrite a binding, or add it. -/
def bind (frame : ObjectId) (name : Name) (value : Value) : HeapM H Unit := do
  if ← assign frame name value then return ()
  else define frame name value

/-- The value that the frame itself binds to a name. -/
def lookupLocal (h : Heap H) (frame : ObjectId) (name : Name) : Except EvalError (Option Value) :=
  (·.get? name) <$> h.frame frame

/-- Append a value to a sequence. -/
def pushElement (sequence : ObjectId) (value : Value) : HeapM H Unit := do
  discard <| HeapM.read (·.sequence sequence)
  HeapM.change fun h => h.modifyObject sequence fun
    | .sequence items => .sequence (items.push value)
    | other => other

/-- Overwrite the value of a cell. -/
def setRef (cell : ObjectId) (value : Value) : HeapM H Unit := do
  let old ← HeapM.read (·.refValue cell)
  HeapM.change fun h => (h.modifyObject cell fun _ => .ref value).release old

/-! ## Indexing -/

/-- The element at an index, which may lie on either side of the array. -/
def elementAt? {α : Type} (items : Array α) (index : Int) : Option α :=
  if index < 0 then none else items[index.toNat]?

/-- Read index operands as integers. -/
def coordinates? (indices : List Value) : Option (List Int) := indices.mapM Value.asIndex

/-- Whether indexing goes past the elements of an array at a coordinate within its extents. -/
def overruns (h : Heap H) (target : Value) (indices : List Value) : Bool :=
  match target, coordinates? indices with
  | .array id, some coords =>
    match h.grid id with
    | .ok g => g.overruns coords
    | .error _ => false
  | _, _ => false

/-- Index a value: a sequence by one integer, an array by one for each dimension, a frame by the
name of a binding, a node by the name of a port, a cell by nothing, a text by the position of a
character. A name that was never interned is bound nowhere. -/
def index (h : Heap H) (target : Value) (indices : List Value) : Except EvalError Value :=
  match target, indices with
  | .sequence id, [index] => do
    let items ← h.sequence id
    match index.asIndex with
    | none => fail (target.notIndexable indices)
    | some i =>
      match elementAt? items i with
      | some v => return v
      | none => fail (.indexOutOfBounds i items.size)
  | .array id, indices =>
    match coordinates? indices with
    | none => fail (target.notIndexable indices)
    | some coords => do
      let g ← h.grid id
      Value.prim <$> g.get coords
  | .frame id, [.text key] => do
    let f ← h.frame id
    match (h.names.get? key).bind f.get? with
    | some v => return v
    | none => fail (.undefinedMember ObjectKind.frame.name key)
  | .node id, [.text key] => do
    let n ← h.node id
    match n.portValue? id key with
    | some v => return v
    | none => fail (.undefinedMember n.name key)
  | .ref id, [] => h.refValue id
  | .prim _, indices => target.indexText indices
  | _, _ => fail (target.notIndexable indices)

/-- Intern a text in the names of the heap. -/
def internName (s : String) : HeapM H Name := modifyGet fun h =>
  let (name, names) := h.names.intern s
  (name, { h with names := names })

/-- Write to a place that `index` reads, ports and characters apart. A name that a frame does not
bind yet becomes one of its bindings. -/
def setIndex (target : Value) (indices : List Value) (value : Value) : HeapM H Unit :=
  match target, indices with
  | .sequence id, [index] =>
    match index.asIndex with
    | none => fail (target.notIndexable indices)
    | some i => do
      let items ← HeapM.read (·.sequence id)
      match elementAt? items i with
      | none => fail (.indexOutOfBounds i items.size)
      | some old =>
        HeapM.change fun h =>
          (h.modifyObject id fun _ => .sequence (items.setIfInBounds i.toNat value)).release old
  | .array id, indices =>
    match coordinates? indices with
    | none => fail (target.notIndexable indices)
    | some coords => do
      let g ← HeapM.read (·.grid id)
      let g ← HeapM.read fun _ => g.set coords value
      HeapM.change fun h => h.modifyObject id fun _ => .grid g
  | .frame id, [.text key] => do
    let name ← internName key
    bind id name value
  | .ref id, [] => setRef id value
  | .prim _, _ => fail (.notAssignable target.typeName "[]")
  | _, _ => fail (target.notIndexable indices)

end Patchbay.Heap
