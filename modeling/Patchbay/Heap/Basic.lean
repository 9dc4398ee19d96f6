import Patchbay.Object

/-!
# The object heap

Objects live in slots and are addressed by handles. A handle carries the stamp that its slot had
when the object came; the stamp changes when the object goes, so a handle that outlives its object
is told from one of whatever lives in the slot next. Vacant slots are reused, the last one first.

Every object has an age and a count of pins. Pinned objects are roots of every collection. The age
counts the collections that the object survived as a root; it falls to zero when the object may have
lost a reference.
-/

namespace Patchbay

/-- An object with its bookkeeping. -/
structure Entry (H : HostTypes) where
  object : HeapObject H
  age : UInt8
  pins : UInt32

/-- A place for an object. -/
structure Slot (H : HostTypes) where
  stamp : UInt32
  entry : Option (Entry H)

/-- The store of all objects. -/
structure Heap (H : HostTypes) where
  slots : Array (Slot H)
  /-- The vacant slots; the first is used next. -/
  free : List Nat
  /-- The number of occupied slots. -/
  live : Nat
  /-- The number of objects stored since the last collection. -/
  allocated : Nat
  /-- The number of allocations after which a collection is due. -/
  threshold : Nat
  /-- The number of collections so far. -/
  collections : Nat
  /-- The extra roots of the last collection. -/
  held : List ObjectId
  /-- The names that bindings are written under. -/
  names : Interner

/-- An operation on the heap. When it fails, the heap is as the operation left it. -/
abbrev HeapM (H : HostTypes) (α : Type) : Type := EStateM EvalError (Heap H) α

namespace Heap

variable {H : HostTypes}

/-- The number of allocations between collections, unless told otherwise. -/
def defaultThreshold : Nat := 10000

/-- A heap without objects. -/
def new (names : Interner) (threshold : Nat) : Heap H where
  slots := #[]
  free := []
  live := 0
  allocated := 0
  threshold := max threshold 1
  collections := 0
  held := []
  names := names

/-- Whether a collection is due. -/
def shouldCollect (h : Heap H) : Bool := h.threshold ≤ h.allocated

/-! ## Looking up objects -/

/-- The entry of a live object. -/
def entry? (h : Heap H) (id : ObjectId) : Option (Entry H) :=
  h.slots[id.index]?.bind fun s => if s.stamp = id.stamp then s.entry else none

/-- Whether the object of a handle is live. -/
def contains (h : Heap H) (id : ObjectId) : Bool := (h.entry? id).isSome

/-- The failure for a handle whose object is gone. -/
def deadObject (id : ObjectId) : Cause := .deadObject ("object " ++ id.display)

/-- The object of a handle. -/
def get (h : Heap H) (id : ObjectId) : Except EvalError (HeapObject H) :=
  match h.entry? id with
  | some e => return e.object
  | none => fail (deadObject id)

/-- The failure for an object of another kind. -/
def wrongKind (expected : ObjectKind) (object : HeapObject H) : Cause :=
  .typeMismatch expected.name object.kind.name

def frame (h : Heap H) (id : ObjectId) : Except EvalError Frame := do
  match ← h.get id with
  | .frame f => return f
  | other => fail (wrongKind .frame other)

def callable (h : Heap H) (id : ObjectId) : Except EvalError (Callable H) := do
  match ← h.get id with
  | .callable c => return c
  | other => fail (wrongKind .function other)

def node (h : Heap H) (id : ObjectId) : Except EvalError (Node H) := do
  match ← h.get id with
  | .node n => return n
  | other => fail (wrongKind .node other)

def sequence (h : Heap H) (id : ObjectId) : Except EvalError (Array Value) := do
  match ← h.get id with
  | .sequence items => return items
  | other => fail (wrongKind .sequence other)

def grid (h : Heap H) (id : ObjectId) : Except EvalError Grid := do
  match ← h.get id with
  | .grid g => return g
  | other => fail (wrongKind .array other)

def refValue (h : Heap H) (id : ObjectId) : Except EvalError Value := do
  match ← h.get id with
  | .ref v => return v
  | other => fail (wrongKind .ref other)

/-- The number of pins on an object. -/
def pinCount (h : Heap H) (id : ObjectId) : UInt32 :=
  match h.entry? id with
  | some e => e.pins
  | none => 0

/-- The age of a live object. -/
def age? (h : Heap H) (id : ObjectId) : Option UInt8 := (h.entry? id).map Entry.age

/-! ## Changing objects -/

/-- Change the entry of a live object; nothing happens to a dead one. -/
def modifyEntry (h : Heap H) (id : ObjectId) (change : Entry H → Entry H) : Heap H :=
  { h with slots := h.slots.modify id.index fun s =>
      if s.stamp = id.stamp then { s with entry := s.entry.map change } else s }

/-- Change a live object and leave its bookkeeping alone. -/
def modifyObject (h : Heap H) (id : ObjectId) (change : HeapObject H → HeapObject H) : Heap H :=
  h.modifyEntry id fun e => { e with object := change e.object }

/-- Change a live node. -/
def modifyNode (h : Heap H) (id : ObjectId) (change : Node H → Node H) : Heap H :=
  h.modifyObject id fun
    | .node n => .node (change n)
    | other => other

/-- Set the age of a live object back to zero. -/
def resetAge (h : Heap H) (id : ObjectId) : Heap H := h.modifyEntry id fun e => { e with age := 0 }

/-- A reference was overwritten: its object may have lost its last one. -/
def release (h : Heap H) (old : Value) : Heap H :=
  match old.referent with
  | some id => h.resetAge id
  | none => h

/-! ## Storing and taking out -/

/-- Store an object. It is not pinned, so the next collection takes it unless something reachable
refers to it by then. -/
def alloc (h : Heap H) (object : HeapObject H) : ObjectId × Heap H :=
  let entry : Entry H := ⟨object, 0, 0⟩
  let h := { h with allocated := h.allocated + 1, live := h.live + 1 }
  match h.free with
  | index :: rest =>
    let stamp := (h.slots[index]?.map Slot.stamp).getD 0
    (⟨index, stamp⟩,
      { h with free := rest, slots := h.slots.modify index fun s =>
        { s with entry := some entry } })
  | [] => (⟨h.slots.size, 0⟩, { h with slots := h.slots.push ⟨0, some entry⟩ })

/-- Store an object and give back its handle as a value. -/
def allocValue (h : Heap H) (object : HeapObject H) : Value × Heap H :=
  let (id, h) := h.alloc object
  (.object object.kind id, h)

/-- Vacate a slot: handles to it are stale from now on, and it is the next one to be used. -/
def vacate (h : Heap H) (index : Nat) : Heap H :=
  { h with
    slots := h.slots.modify index fun s => ⟨s.stamp + 1, none⟩
    free := index :: h.free }

end Heap

namespace HeapM

variable {H : HostTypes} {α : Type}

/-- Read something off the heap. -/
def read (look : Heap H → Except EvalError α) : HeapM H α := fun h =>
  match look h with
  | .ok a => .ok a h
  | .error e => .error e h

/-- Change the heap. -/
def change (f : Heap H → Heap H) : HeapM H Unit := modify f

/-- Store an object. -/
def alloc (object : HeapObject H) : HeapM H ObjectId := modifyGet fun h => h.alloc object

/-- Store an object and give back its handle as a value. -/
def allocValue (object : HeapObject H) : HeapM H Value := modifyGet fun h => h.allocValue object

end HeapM

namespace Heap

variable {H : HostTypes}

/-- Take an object out of the heap. What it referred to may have lost its last reference. -/
def remove (id : ObjectId) : HeapM H (HeapObject H) := do
  let object ← HeapM.read (·.get id)
  HeapM.change fun h =>
    let h := { h.vacate id.index with live := h.live - 1 }
    object.children.foldl resetAge h
  return object

/-- Keep an object and all that it leads to until a matching `unpin`. -/
def pin (id : ObjectId) : HeapM H Unit := do
  discard <| HeapM.read (·.get id)
  HeapM.change fun h => h.modifyEntry id fun e => { e with pins := e.pins + 1 }

/-- Take back one pin. When it was the last one, the age starts again. -/
def unpin (h : Heap H) (id : ObjectId) : Heap H :=
  h.modifyEntry id fun e =>
    let pins := if e.pins = 0 then 0 else e.pins - 1
    { e with pins := pins, age := if pins = 0 then 0 else e.age }

end Heap
end Patchbay
