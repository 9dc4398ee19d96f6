import Patchbay.Number.Integer

/-!
# Type tags

The dynamic types of values. Primitive types stand in a promotion order; mixed operands are
converted to a common type, which `PrimType.common` chooses.
-/

namespace Patchbay

/-- The types of values that are stored inline. -/
inductive PrimType where
  | bool
  | int (t : IntType)
  | float
  | double
  | text
deriving DecidableEq, Repr, Inhabited

namespace PrimType

/-- The primitive types in promotion order. -/
def all : List PrimType := bool :: IntType.all.map int ++ [float, double, text]

/-- The position in the promotion order. -/
def rank : PrimType → Nat
  | bool => 0
  | int t => t.rank + 1
  | float => 9
  | double => 10
  | text => 11

/-- The name of the type in messages, which is also the name of the conversion to it. -/
def name : PrimType → String
  | bool => "bool"
  | int t => t.name
  | float => "float"
  | double => "double"
  | text => "string"

/-- The primitive type with a given name. -/
def ofName? (s : String) : Option PrimType := all.find? fun p => p.name == s

theorem ofName?_name (p : PrimType) : ofName? p.name = some p := by
  cases p with
  | int t => cases t <;> decide
  | _ => decide

/-- The later of two types in the promotion order. -/
def later (a b : PrimType) : PrimType := if b.rank ≤ a.rank then a else b

/-- The narrowest signed type that holds every value of an unsigned and of a signed type, or
`double` if no integer type does. -/
def signedOver (unsigned signed : IntType) : PrimType :=
  match max (2 * unsigned.bits) signed.bits with
  | 16 => int .int16
  | 32 => int .int32
  | 64 => int .int64
  | _ => double

/-- The type that the operands of a binary operator are converted to: the later one in promotion
order, unless a signed and an unsigned integer type meet. -/
def common : PrimType → PrimType → PrimType
  | int s, int t =>
    if s.isSigned = t.isSigned then later (int s) (int t)
    else if s.isSigned then signedOver t s
    else signedOver s t
  | a, b => later a b

end PrimType

/-- The kinds of heap objects. -/
inductive ObjectKind where
  | frame | function | node | sequence | array | ref
deriving DecidableEq, Repr, Inhabited

namespace ObjectKind

def name : ObjectKind → String
  | frame => "frame"
  | function => "function"
  | node => "node"
  | sequence => "sequence"
  | array => "array"
  | ref => "ref"

end ObjectKind

/-- The three kinds of ports of a node. -/
inductive PortKind where
  | input | output | param
deriving DecidableEq, Repr, Inhabited

namespace PortKind

def name : PortKind → String
  | input => "input"
  | output => "output"
  | param => "param"

end PortKind

/-- The dynamic type of a value. -/
inductive Tag where
  | prim (p : PrimType)
  | absent
  | object (k : ObjectKind)
  | port (k : PortKind)
deriving DecidableEq, Repr, Inhabited

namespace Tag

/-- All tags in their order. -/
def all : List Tag :=
  PrimType.all.map prim ++
    [absent, object .frame, object .function, object .node, port .output, port .input, port .param,
      object .sequence, object .array, object .ref]

/-- The position in the order of tags, primitives first. -/
def position : Tag → Nat
  | prim p => p.rank
  | absent => 12
  | object .frame => 13
  | object .function => 14
  | object .node => 15
  | port .output => 16
  | port .input => 17
  | port .param => 18
  | object .sequence => 19
  | object .array => 20
  | object .ref => 21

def name : Tag → String
  | prim p => p.name
  | absent => "absent"
  | object k => k.name
  | port k => k.name

/-- The position in the promotion order, for primitive tags. -/
def rank? : Tag → Option Nat
  | prim p => some p.rank
  | _ => none

def isPrimitive : Tag → Bool
  | prim _ => true
  | _ => false

def isInteger : Tag → Bool
  | prim (.int _) => true
  | _ => false

def isSigned : Tag → Bool
  | prim (.int t) => t.isSigned
  | _ => false

def isFloat : Tag → Bool
  | prim .float | prim .double => true
  | _ => false

/-- The type that operands with two tags are converted to, if both are primitive. -/
def common? : Tag → Tag → Option Tag
  | prim a, prim b => some (prim (a.common b))
  | _, _ => none

end Tag
end Patchbay
