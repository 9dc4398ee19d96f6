import Patchbay.Heap.Store

/-!
# Frame chains

The lineage of a frame is the frame, its parent, and so on outward. Assignment to a name writes the
nearest binding in the lineage; `this` is the nearest frame of a frame literal. Names that are
resolved on demand are not looked for here.
-/

namespace Patchbay.Heap

variable {H : HostTypes}

/-- The parent of a live frame. -/
def parent? (h : Heap H) (id : ObjectId) : Option ObjectId :=
  match h.frame id with
  | .ok f => f.parent
  | .error _ => none

/-- At most `fuel` parents of a frame, after the frame itself. -/
def lineageOf (h : Heap H) : Nat → ObjectId → List ObjectId
  | 0, id => [id]
  | fuel + 1, id =>
    match h.parent? id with
    | some parent => id :: lineageOf h fuel parent
    | none => [id]

/-- A frame and the frames around it, nearest first. A handle that is no live frame ends it. Parents
that come to an end are no more than there are slots; others are followed once round. -/
def lineage (h : Heap H) (id : ObjectId) : List ObjectId := h.lineageOf h.slots.size id

/-- Whether following parents from a frame does not come to an end. -/
def endless (h : Heap H) (id : ObjectId) : Bool :=
  ((h.lineage id).getLast?.bind h.parent?).isSome

/-- Whether a walk outward from a frame does not come to an end, if it stops at frames for which
`stops` holds. -/
def walksOn (h : Heap H) (stops : Frame → Bool) (id : ObjectId) : Bool :=
  h.endless id && (h.lineage id).all fun x =>
    match h.frame x with
    | .ok f => !stops f
    | .error _ => false

/-- Overwrite the nearest binding of a name; tells whether there was one. -/
def assignNearest (name : Name) (value : Value) : List ObjectId → HeapM H Bool
  | [] => return false
  | id :: rest => do
    let f ← HeapM.read (·.frame id)
    if f.contains name then
      discard <| assign id name value
      return true
    else assignNearest name value rest

/-- Overwrite the nearest binding of a name, or bind it in `frame` if no frame around it does. -/
def setVariable (frame : ObjectId) (name : Name) (value : Value) : HeapM H Unit := do
  let lineage ← HeapM.read fun h => return h.lineage frame
  if ← assignNearest name value lineage then return ()
  else define frame name value

/-- The nearest frame of a frame literal. -/
def nearestThis (h : Heap H) : List ObjectId → Except EvalError ObjectId
  | [] => fail .thisOutsideFrame
  | id :: rest => do
    let f ← h.frame id
    if f.isThis then return id else nearestThis h rest

/-- What `this` means in a frame. -/
def thisFrame (h : Heap H) (frame : ObjectId) : Except EvalError ObjectId :=
  h.nearestThis (h.lineage frame)

/-- Make a frame in `parent`, after `adjust` changed it. -/
def childFrame (parent : ObjectId) (adjust : Frame → Frame) : HeapM H ObjectId := do
  let f ← HeapM.read (·.frame parent)
  HeapM.alloc (.frame (adjust (.child parent f.depth)))

end Patchbay.Heap
