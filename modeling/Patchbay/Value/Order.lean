import Patchbay.Value.Basic

/-!
# The order of values

Every two values compare. Truth values and numbers come first and compare as numbers: two integers
exactly, any other pair as 64-bit floating point. Texts follow, then handles by tag and identity,
and the absent value is last.
-/

namespace Patchbay

/-- The widest form of a scalar: an integer, or a floating-point number. -/
inductive Scalar where
  | whole (n : Int)
  | real (x : Number.Double)

namespace Scalar

def toDouble : Scalar → Number.Double
  | whole n => Number.doubleOfInt n
  | real x => x

/-- Whether the number is zero, of either sign. -/
def isZero : Scalar → Bool
  | whole n => n = 0
  | real x => x.isZero

/-- Integers compare exactly, other pairs by the total order of their floating-point numbers. A NaN
comes after every number, or before every number if its sign bit is set. -/
def cmp : Scalar → Scalar → Ordering
  | whole m, whole n => compare m n
  | a, b => compare (Number.orderKey a.toDouble) (Number.orderKey b.toDouble)

end Scalar

namespace Primitive

/-- The number of a truth value or of a number. -/
def scalar? : Primitive → Option Scalar
  | bool b => some (.whole (if b then 1 else 0))
  | int _ n => some (.whole n.val)
  | float x => some (.real (Number.widen x))
  | double x => some (.real x)
  | text _ => none

/-- Scalars before texts. -/
def cmp : Primitive → Primitive → Ordering
  | text s, text t => compare s t
  | text _, _ => .gt
  | _, text _ => .lt
  | a, b =>
    match a.scalar?, b.scalar? with
    | some x, some y => x.cmp y
    | _, _ => .eq

end Primitive

namespace Value

/-- The class of values that a value is compared within first. -/
def family : Value → Nat
  | prim (.text _) => 1
  | prim _ => 0
  | object .. | port .. => 2
  | absent => 3

/-- Slot, stamp and port of a handle. -/
def identity : Value → Nat × Nat × Nat
  | object _ id => (id.index, id.stamp.toNat, 0)
  | port _ p => (p.node.index, p.node.stamp.toNat, p.index.toNat)
  | _ => (0, 0, 0)

/-- Compare handles by tag, then by slot, stamp and port. -/
def cmpHandle (a b : Value) : Ordering :=
  (compare a.tag.position b.tag.position).then <|
    (compare a.identity.1 b.identity.1).then <|
      (compare a.identity.2.1 b.identity.2.1).then (compare a.identity.2.2 b.identity.2.2)

/-- The order of all values. -/
def cmp (a b : Value) : Ordering :=
  (compare a.family b.family).then <|
    match a, b with
    | prim p, prim q => p.cmp q
    | _, _ => cmpHandle a b

end Value
end Patchbay
