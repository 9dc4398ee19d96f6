import Patchbay.Value.Basic
import Patchbay.Error
import Patchbay.Builtin

/-!
# Grids of primitives

An array of the language is a dense grid of primitives with any number of dimensions, in row-major
order. Extents, counts and offsets are machine words of 64 bits, so the number of elements that a
shape asks for is a product modulo `2 ^ 64`.
-/

namespace Patchbay

/-- A count as a machine word. -/
def wrapWord (n : Nat) : Nat := n % Nat.pow 2 64

/-- The number of elements of a shape, as a machine word. -/
def shapeSize (dims : List Nat) : Nat := dims.foldl (fun size extent => wrapWord (size * extent)) 1

/-- A list of extents as messages show it. -/
def showShape (dims : List Nat) : String := "[" ++ ", ".intercalate (dims.map toString) ++ "]"

/-- A dense array. Its elements are primitives, so it refers to no object. -/
structure Grid where
  /-- The extent of each dimension. -/
  dims : List Nat
  /-- The elements in row-major order. -/
  items : Array Primitive
deriving DecidableEq

namespace Grid

/-- The failure for an element that is no primitive. -/
def notPrimitive (v : Value) : Cause := .typeMismatch "primitive array element" v.typeName

/-- Read values as primitives; the first one that is none is the failure. -/
def primitives (values : Array Value) : Except EvalError (Array Primitive) :=
  values.mapM fun
    | .prim p => return p
    | v => fail (notPrimitive v)

/-- The grid of a shape with the given elements. -/
def ofValues (dims : List Nat) (values : Array Value) : Except EvalError Grid := do
  if shapeSize dims ≠ values.size then
    fail (.custom ("array of shape " ++ showShape dims ++ " needs " ++ toString (shapeSize dims) ++
      " elements, got " ++ toString values.size))
  return ⟨dims, ← primitives values⟩

/-- The grid of one dimension with the given elements. -/
def vector (values : Array Value) : Except EvalError Grid := ofValues [values.size] values

def size (g : Grid) : Nat := g.items.size

/-- The offset of a coordinate in the remaining dimensions, after the offset of the ones before. -/
def offsetFrom (offset : Nat) : List Int → List Nat → Except EvalError Nat
  | coord :: coords, extent :: dims =>
    if 0 ≤ coord ∧ coord < extent then
      offsetFrom (wrapWord (offset * extent + coord.toNat)) coords dims
    else fail (.indexOutOfBounds coord extent)
  | _, _ => return offset

/-- The row-major offset of a coordinate: one index for each dimension, each below its extent. -/
def offset (g : Grid) (coords : List Int) : Except EvalError Nat :=
  if coords.length = g.dims.length then offsetFrom 0 coords g.dims
  else fail (.wrongOperandCount Builtin.index.reservedName g.dims.length coords.length)

/-- Whether a coordinate within the extents has its place past the elements. That is so for shapes
whose size wrapped. -/
def overruns (g : Grid) (coords : List Int) : Bool :=
  match g.offset coords with
  | .ok offset => g.size ≤ offset
  | .error _ => false

/-- The element at a coordinate. Programs do not come back from one that overruns the elements. -/
def get (g : Grid) (coords : List Int) : Except EvalError Primitive := do
  let offset ← g.offset coords
  match g.items[offset]? with
  | some p => return p
  | none => fail (.indexOutOfBounds offset g.size)

/-- Replace the element at a coordinate. -/
def set (g : Grid) (coords : List Int) (value : Value) : Except EvalError Grid :=
  match value with
  | .prim p => do
    let offset ← g.offset coords
    if offset < g.size then return { g with items := g.items.setIfInBounds offset p }
    else fail (.indexOutOfBounds offset g.size)
  | value => fail (notPrimitive value)

end Grid
end Patchbay
