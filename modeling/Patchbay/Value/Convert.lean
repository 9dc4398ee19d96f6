import Patchbay.Value.Order
import Patchbay.Error
import Patchbay.Number.Numeral
import Patchbay.Text.Blank
import Patchbay.Text.Quoted

/-!
# Conversions

Every primitive converts to every primitive type, text to truth value apart. A number that does not
fit is refused, never wrapped; a fraction is dropped toward zero. A text is read as an integer of at
most 128 bits, else as a 64-bit floating-point number.
-/

namespace Patchbay

namespace Scalar

/-- The integer next to a number on the side of zero; infinities and NaN have none. -/
def whole? : Scalar → Option Int
  | whole n => some n
  | real x => (Number.ofDouble x).truncate?

end Scalar

namespace Primitive

/-- The number that a text writes, for a conversion to the type `target`. -/
def parse (s : String) (target : PrimType) : Except EvalError Scalar :=
  let numeral := Text.trim s.toList
  match Number.wideInteger? 128 numeral with
  | some n => return .whole n
  | none =>
    match Number.double? numeral with
    | some x => return .real x
    | none => fail (.castOutOfRange (Text.quote s) target.name)

/-- The number `n` in the type `target`. The primitive `source` that it came from is named if it
does not fit. -/
def ofScalar (source : Primitive) (n : Scalar) (target : PrimType) : Except EvalError Primitive :=
  let outOfRange := Cause.castOutOfRange source.display target.name
  match target with
  | .bool => return bool !n.isZero
  | .int t =>
    match n.whole?.bind (FixedInt.ofInt? t) with
    | some k => return int t k
    | none => fail outOfRange
  | .float =>
    let wide := n.toDouble
    let near := Number.narrow wide
    match Number.ofDouble wide, Number.ofSingle near with
    | .finite .., .infinite _ => fail outOfRange
    | _, _ => return float near
  | .double => return double n.toDouble
  | .text => return text source.display

/-- Convert a primitive to another primitive type. -/
def cast (p : Primitive) (target : PrimType) : Except EvalError Primitive :=
  if p.type = target then return p
  else
    match p, target with
    | p, .text => return text p.display
    | text _, .bool => fail (.cast PrimType.text.name PrimType.bool.name)
    | text s, target => parse s target >>= fun n => ofScalar p n target
    | p, target =>
      match p.scalar? with
      | some n => ofScalar p n target
      | none => fail (.cast p.type.name target.name)

end Primitive

namespace Value

/-- Convert a value to the type `target`. Only primitives convert to a type that is not theirs. -/
def cast (v : Value) (target : Tag) : Except EvalError Value :=
  if v.tag = target then return v
  else
    match v, target with
    | prim p, .prim t => prim <$> p.cast t
    | _, _ => fail (.cast v.typeName target.name)

/-- Read a value as a condition: numbers hold when they are not zero. -/
def truthy (v : Value) : Except EvalError Bool := do
  match ← v.cast (.prim .bool) with
  | bool b => return b
  | _ => fail (.typeMismatch PrimType.bool.name v.typeName)

end Value
end Patchbay
