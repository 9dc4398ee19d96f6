import Patchbay.Heap.Basic
import Patchbay.Heap.Wiring

/-!
# Garbage collection

A collection keeps what the roots lead to. Roots are the pinned objects, the ones older than the
bound of the collection, and extra roots given by the caller. Each root grows older by one.

The rest is reclaimed in three passes, so that nothing is looked at after it went: the slots are
emptied, then what the garbage referred to is told (ages start again, inputs and outputs of
survivors are disconnected), then the slots are vacated.
-/

namespace Patchbay

/-- The figures of one collection. -/
structure CollectStats where
  bound : UInt8
  roots : Nat
  survivors : Nat
  freed : Nat
deriving DecidableEq, Repr

namespace Heap

variable {H : HostTypes}

/-- The bound that no age exceeds. -/
def fullCollection : UInt8 := 255

/-! ## Roots -/

/-- Note the extra roots of a collection. Unpinned objects that were extra roots of the last one and
are none now start their age again. -/
def hold (h : Heap H) (extra : List ObjectId) : Heap H :=
  let dropped := h.held.filter fun id => !extra.contains id && h.pinCount id = 0
  dropped.foldl resetAge { h with held := extra }

/-- Whether a slot holds a root by its pins or its age. -/
def isRootSlot (bound : UInt8) (s : Slot H) : Bool :=
  match s.entry with
  | some e => 0 < e.pins || bound < e.age
  | none => false

/-- Which slots are marked, and which of those are still to be followed. -/
structure Marking where
  marked : Array Bool
  work : List Nat

namespace Marking

def isMarked (m : Marking) (index : Nat) : Bool := m.marked[index]?.getD false

/-- Mark the slot of a live object, unless it is marked. -/
def visit (h : Heap H) (m : Marking) (id : ObjectId) : Marking :=
  if h.contains id && !m.isMarked id.index then
    ⟨m.marked.setIfInBounds id.index true, id.index :: m.work⟩
  else m

/-- The roots of a collection: pinned and old objects, then live extra roots. -/
def ofRoots (h : Heap H) (bound : UInt8) (extra : List ObjectId) : Marking :=
  let marked := h.slots.map (isRootSlot bound)
  let work := (List.range h.slots.size).filter fun i => marked[i]?.getD false
  extra.foldl (visit h) ⟨marked, work⟩

/-- What the object in a slot refers to. -/
def childrenAt (h : Heap H) (index : Nat) : List ObjectId :=
  match (h.slots[index]?).bind Slot.entry with
  | some e => e.object.children
  | none => []

/-- Follow the slots that are still to be followed. Every slot is followed at most once, so their
number is enough fuel. -/
def spread (h : Heap H) : Nat → Marking → Marking
  | 0, m => m
  | fuel + 1, m =>
    match m.work with
    | [] => m
    | index :: work => spread h fuel ((childrenAt h index).foldl (visit h) ⟨m.marked, work⟩)

end Marking

/-- A root survives one more collection; the greatest age stays. -/
def promote (h : Heap H) (index : Nat) : Heap H :=
  { h with slots := h.slots.modify index fun s =>
      { s with entry := s.entry.map fun e =>
          { e with age := if e.age = fullCollection then e.age else e.age + 1 } } }

/-! ## Sweeping -/

/-- The objects in unmarked slots with their handles, in the order of the slots. -/
def garbage (h : Heap H) (m : Marking) : List (ObjectId × HeapObject H) :=
  (List.range h.slots.size).filterMap fun i =>
    if m.isMarked i then none
    else h.slots[i]?.bind fun s => s.entry.map fun e => (⟨i, s.stamp⟩, e.object)

/-- Empty the unmarked slots. -/
def detach (h : Heap H) (m : Marking) : Heap H :=
  { h with slots := h.slots.mapIdx fun i s => if m.isMarked i then s else { s with entry := none } }

/-- Take the inputs of a node that is garbage off the targets of their sources. -/
def unlinkInputs (h : Heap H) (id : ObjectId) (n : Node H) : Heap H :=
  ((List.range n.inputs.size).zip n.inputs.toList).foldl (fun h (i, port) =>
    match port.source with
    | some source => h.unlinkTarget source ⟨id, Node.portIndex i⟩
    | none => h) h

/-- Clear the inputs that a node that is garbage sends to. -/
def unlinkOutputs (h : Heap H) (n : Node H) : Heap H :=
  n.outputs.foldl (fun h port =>
    port.targets.foldl (fun h target => h.setSource target none) h) h

/-- Tell the survivors that an object is garbage. -/
def clearEdges (h : Heap H) (id : ObjectId) (object : HeapObject H) : Heap H :=
  let h := object.children.foldl resetAge h
  match object with
  | .node n => (h.unlinkInputs id n).unlinkOutputs n
  | _ => h

/-- Reclaim what the roots do not lead to. -/
def collect (h : Heap H) (bound : UInt8) (extra : List ObjectId) : CollectStats × Heap H :=
  let h := h.hold extra
  let roots := Marking.ofRoots h bound extra
  let h := roots.work.foldl promote h
  let marking := Marking.spread h h.slots.size roots
  let dead := h.garbage marking
  let h := h.detach marking
  let h := dead.foldl (fun h (id, object) => h.clearEdges id object) h
  let h := dead.foldl (fun h (id, _) => h.vacate id.index) h
  let h := { h with
    live := h.live - dead.length
    allocated := 0
    collections := h.collections + 1 }
  (⟨bound, roots.work.length, h.live, dead.length⟩, h)

/-- Reclaim what pins and extra roots do not lead to, whatever its age. -/
def collectAll (h : Heap H) (extra : List ObjectId) : CollectStats × Heap H :=
  h.collect fullCollection extra

end Heap
end Patchbay
