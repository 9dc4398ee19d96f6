import Patchbay.Value.Convert
import Patchbay.Builtin
import Patchbay.Operator

/-!
# Operators on values

Both operands of a binary operator are converted to their common type first. Integer arithmetic is
checked against the range of that type, and no number is divided by zero. Integers of any two types
compare exactly, also when their common type is not exact. A text on either side of `+` makes it a
concatenation; other operators on texts only compare.
-/

namespace Patchbay

/-- What a comparison operator says of an ordering. -/
def BinaryOp.holds (op : BinaryOp) (o : Ordering) : Bool :=
  match op with
  | .eq => o.isEq
  | .notEq => o.isNe
  | .lt => o.isLT
  | .ltEq => o.isLE
  | .gt => o.isGT
  | _ => o.isGE

namespace Primitive

/-- The binary operators on two integers of one type, which messages call `typeName`. -/
def binaryInt (op : BinaryOp) {t : IntType} (a b : FixedInt t) (typeName : String) :
    Except EvalError Primitive :=
  let builtin := Builtin.binaryOp.reservedName
  let checked (result : Option (FixedInt t)) (operation : String) : Except EvalError Primitive :=
    match result with
    | some n => return int t n
    | none => fail (.integerOverflow builtin operation typeName)
  match op with
  | .add => checked (a.add? b) "addition"
  | .sub => checked (a.sub? b) "subtraction"
  | .mul => checked (a.mul? b) "multiplication"
  | .div =>
    if b.val = 0 then fail (.divisionByZero builtin typeName) else checked (a.div? b) "division"
  | .mod =>
    if b.val = 0 then fail (.moduloByZero builtin typeName) else checked (a.mod? b) "modulo"
  | .and => return bool (a.val ≠ 0 && b.val ≠ 0)
  | .or => return bool (a.val ≠ 0 || b.val ≠ 0)
  | .bitAnd => return int t (a.and b)
  | .bitOr => return int t (a.or b)
  | .bitXor => return int t (a.xor b)
  | .shl => checked (a.shl? b) "left shift"
  | .shr => checked (a.shr? b) "right shift"
  | op => return bool (op.holds (compare a.val b.val))

/-- The operations that floating-point operators are made of, for numbers of one format. -/
structure RealOps (R : Type) where
  add : R → R → R
  sub : R → R → R
  mul : R → R → R
  div : R → R → R
  rem : R → R → R
  eq : R → R → Bool
  lt : R → R → Bool
  le : R → R → Bool
  isZero : R → Bool
  /-- The primitive that holds a number. -/
  wrap : R → Primitive
  typeName : String

/-- The operations on 32-bit numbers. -/
def singleOps : RealOps Number.Single where
  add x y := .ofValue (x.value + y.value)
  sub x y := .ofValue (x.value - y.value)
  mul x y := .ofValue (x.value * y.value)
  div x y := .ofValue (x.value / y.value)
  rem := .rem
  eq x y := x.value == y.value
  lt x y := x.value < y.value
  le x y := x.value ≤ y.value
  isZero x := x.isZero
  wrap := float
  typeName := PrimType.float.name

/-- The operations on 64-bit numbers. -/
def doubleOps : RealOps Number.Double where
  add x y := .ofValue (x.value + y.value)
  sub x y := .ofValue (x.value - y.value)
  mul x y := .ofValue (x.value * y.value)
  div x y := .ofValue (x.value / y.value)
  rem := .rem
  eq x y := x.value == y.value
  lt x y := x.value < y.value
  le x y := x.value ≤ y.value
  isZero x := x.isZero
  wrap := double
  typeName := PrimType.double.name

/-- The binary operators on two floating-point numbers of one format. There are none on bits;
`invalid` is the failure for those. -/
def binaryReal {R : Type} (ops : RealOps R) (op : BinaryOp) (a b : R) (invalid : Cause) :
    Except EvalError Primitive :=
  let builtin := Builtin.binaryOp.reservedName
  match op with
  | .add => return ops.wrap (ops.add a b)
  | .sub => return ops.wrap (ops.sub a b)
  | .mul => return ops.wrap (ops.mul a b)
  | .div =>
    if ops.isZero b then fail (.divisionByZero builtin ops.typeName)
    else return ops.wrap (ops.div a b)
  | .mod =>
    if ops.isZero b then fail (.moduloByZero builtin ops.typeName)
    else return ops.wrap (ops.rem a b)
  | .eq => return bool (ops.eq a b)
  | .notEq => return bool !(ops.eq a b)
  | .lt => return bool (ops.lt a b)
  | .ltEq => return bool (ops.le a b)
  | .gt => return bool (ops.lt b a)
  | .gtEq => return bool (ops.le b a)
  | .and => return bool (!ops.isZero a && !ops.isZero b)
  | .or => return bool (!ops.isZero a || !ops.isZero b)
  | .bitAnd | .bitOr | .bitXor | .shl | .shr => fail invalid

/-- The number zero or one for a truth value. -/
def bitOf (b : Bool) : FixedInt .int64 :=
  if b then ⟨1, IntType.holds_one _⟩ else ⟨0, IntType.holds_zero _⟩

/-- Truth values compute as the numbers zero and one; a number that comes out is true unless it is
zero. -/
def binaryBool (op : BinaryOp) (a b : Bool) : Except EvalError Primitive := do
  match ← binaryInt op (bitOf a) (bitOf b) PrimType.bool.name with
  | int _ n => return bool (n.val ≠ 0)
  | result => return result

/-- The binary operators on two primitives of one type. -/
def binarySame (op : BinaryOp) (a b : Primitive) (invalid : Cause) : Except EvalError Primitive :=
  match a, b with
  | bool a, bool b => binaryBool op a b
  | int s a, int t b =>
    if h : t = s then binaryInt op a (h ▸ b) s.name else fail invalid
  | float a, float b => binaryReal singleOps op a b invalid
  | double a, double b => binaryReal doubleOps op a b invalid
  | text a, text b =>
    if op.isComparison then return bool (op.holds (compare a b)) else fail invalid
  | _, _ => fail invalid

/-- The binary operators on primitives. -/
def binary (op : BinaryOp) (a b : Primitive) : Except EvalError Primitive :=
  let invalid := Cause.invalidBinaryOp Builtin.binaryOp.reservedName op.symbol a.type.name
    b.type.name
  match op, a, b with
  | .add, text _, _ | .add, _, text _ => return text (a.display ++ b.display)
  | op, a, b =>
    match op.isComparison, a, b with
    | true, int _ m, int _ n => return bool (op.holds (compare m.val n.val))
    | _, a, b => do
      let type := a.type.common b.type
      binarySame op (← a.cast type) (← b.cast type) invalid

/-- The unary operators on primitives. -/
def unary (op : UnaryOp) (p : Primitive) : Except EvalError Primitive :=
  let builtin := Builtin.unaryOp.reservedName
  let invalid := Cause.invalidUnaryOp builtin op.symbol p.type.name
  match op, p with
  | .not, text _ => fail invalid
  | .not, p => do
    match ← p.cast .bool with
    | bool b => return bool !b
    | _ => fail invalid
  | .neg, int t n =>
    match n.neg? with
    | some n => return int t n
    | none => fail (.integerOverflow builtin "negation" t.name)
  | .neg, float x => return float x.neg
  | .neg, double x => return double x.neg
  | .bitNot, bool b => return bool !b
  | .bitNot, int t n => return int t n.not
  | _, _ => fail invalid

/-- Index a text by the position of a character. -/
def charAt (s : String) (index : Int) : Except EvalError Primitive :=
  let chars := s.toList
  match if index < 0 then none else chars[index.toNat]? with
  | some c => return text (String.ofList [c])
  | none => fail (.indexOutOfBounds index chars.length)

end Primitive

namespace Value

/-- The binary operators on values. Values that are not both primitive can only be compared for
identity. -/
def binary (op : BinaryOp) (left right : Value) : Except EvalError Value :=
  match left, right with
  | prim a, prim b => prim <$> a.binary op b
  | left, right =>
    match op with
    | .eq => return bool (left = right)
    | .notEq => return bool (left ≠ right)
    | op =>
      fail (.invalidBinaryOp Builtin.binaryOp.reservedName op.symbol left.typeName right.typeName)

/-- The unary operators on values. -/
def unary (op : UnaryOp) (operand : Value) : Except EvalError Value :=
  match operand with
  | prim p => prim <$> p.unary op
  | operand =>
    fail (.invalidUnaryOp Builtin.unaryOp.reservedName op.symbol operand.typeName)

/-- The failure of an index operation on operands that do not go together. -/
def notIndexable (target : Value) (indices : List Value) : Cause :=
  .notIndexable Builtin.index.reservedName target.typeName
    (", ".intercalate (indices.map typeName))

/-- Index a value that is no container: a text takes the position of a character. -/
def indexText (target : Value) (indices : List Value) : Except EvalError Value :=
  match target, indices with
  | text s, [index] =>
    match index.asIndex with
    | some i => prim <$> Primitive.charAt s i
    | none => fail (target.notIndexable indices)
  | _, _ => fail (target.notIndexable indices)

end Value
end Patchbay
