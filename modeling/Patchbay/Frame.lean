import Patchbay.Value.Basic
import Patchbay.Names
import Patchbay.Path

/-!
# Lexical frames

A frame is a table from names to values, in the order of definition, with an optional parent. An
index finds the position of a name. Looking up a name here stays in the frame; walking to the parent
is the business of scopes.
-/

namespace Patchbay

/-- A table of bindings with its place among the frames. -/
structure Frame where
  /-- The bindings in the order of definition. -/
  bindings : Array (Name × Value)
  /-- The position of each bound name. -/
  index : Std.TreeMap Name Nat
  parent : Option ObjectId
  /-- The directory that the frame stands for, if names are resolved in one. -/
  path : Option Path
  /-- The number of frames around it, up to the greatest 32-bit number. -/
  depth : Nat
  /-- Whether the frame belongs to a frame literal, so that `this` finds it. -/
  isThis : Bool
  /-- The index leads to bindings. -/
  indexed : ∀ (name : Name) (i : Nat), index[name]? = some i → i < bindings.size

namespace Frame

/-- A frame without a parent. -/
def root (path : Option Path) : Frame := ⟨#[], ∅, none, path, 0, false, by simp⟩

/-- A frame in `parent`, one level deeper. -/
def child (parent : ObjectId) (parentDepth : Nat) : Frame :=
  ⟨#[], ∅, some parent, none, min (parentDepth + 1) (Nat.pow 2 32 - 1), false, by simp⟩

def withPath (f : Frame) (path : Path) : Frame := { f with path := some path }

/-- Mark the frame as the one that `this` means inside it. -/
def asThis (f : Frame) : Frame := { f with isThis := true }

/-- The value bound to a name in this frame. -/
def get? (f : Frame) (name : Name) : Option Value :=
  f.index[name]?.bind fun i => f.bindings[i]?.map Prod.snd

def contains (f : Frame) (name : Name) : Bool := f.index.contains name

/-- The number of bindings. -/
def size (f : Frame) : Nat := f.bindings.size

/-- The bound values in the order of definition. -/
def values (f : Frame) : List Value := f.bindings.toList.map Prod.snd

theorem indexed_insert {f : Frame} {name n : Name} {value : Value} {i : Nat}
    (hi : (f.index.insert name f.bindings.size)[n]? = some i) :
    i < (f.bindings.push (name, value)).size := by
  rw [Std.TreeMap.getElem?_insert] at hi
  rw [Array.size_push]
  split at hi
  · cases hi
    exact Nat.lt_succ_self _
  · exact Nat.lt_succ_of_lt (f.indexed n i hi)

/-- Add a binding, unless the name is taken. -/
def insert? (f : Frame) (name : Name) (value : Value) : Option Frame :=
  if f.contains name then none
  else some { f with
    bindings := f.bindings.push (name, value)
    index := f.index.insert name f.bindings.size
    indexed := fun _ _ => indexed_insert }

/-- Overwrite a binding, if there is one; the old value comes back. -/
def replace? (f : Frame) (name : Name) (value : Value) : Option (Value × Frame) :=
  match f.index[name]? with
  | none => none
  | some i =>
    match f.bindings[i]? with
    | none => none
    | some (bound, old) => some (old, { f with
        bindings := f.bindings.setIfInBounds i (bound, value)
        indexed := by simpa using f.indexed })

/-- The objects that the frame refers to: its parent and the referents of its values. -/
def children (f : Frame) : List ObjectId := f.parent.toList ++ f.values.filterMap Value.referent

end Frame
end Patchbay
