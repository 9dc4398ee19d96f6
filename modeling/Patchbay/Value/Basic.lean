import Patchbay.Value.Tag
import Patchbay.Number.Shortest

/-!
# Values

A value is nothing at all, a primitive stored inline, a handle to a heap object or a handle to a
port of a node. Handles do not keep their object alive. Two values are equal when they are the same
primitive or the same handle; numbers in floating point are the same when their bit patterns are.
-/

namespace Patchbay

/-- The handle of a heap object: the slot it lives in, and the stamp of the slot at the time. -/
structure ObjectId where
  index : Nat
  stamp : UInt32
deriving DecidableEq, Repr, Inhabited

namespace ObjectId

/-- The handle as messages show it. -/
def display (id : ObjectId) : String := "#" ++ toString id.index

end ObjectId

/-- One port of a node. -/
structure PortRef where
  node : ObjectId
  index : UInt16
deriving DecidableEq, Repr, Inhabited

/-- A value that refers to no object. -/
inductive Primitive where
  | bool (b : Bool)
  | int (t : IntType) (n : FixedInt t)
  | float (x : Number.Single)
  | double (x : Number.Double)
  | text (s : String)
deriving DecidableEq

instance : Inhabited Primitive := ⟨.bool false⟩

namespace Primitive

def type : Primitive → PrimType
  | bool _ => .bool
  | int t _ => .int t
  | float _ => .float
  | double _ => .double
  | text _ => .text

/-- The text of a primitive: texts bare, numbers with the fewest digits that identify them. -/
def display : Primitive → String
  | bool b => if b then "true" else "false"
  | int _ n => toString n.val
  | float x => Number.textOfSingle x
  | double x => Number.textOfDouble x
  | text s => s

end Primitive

/-- A value of a running program. -/
inductive Value where
  | absent
  | prim (p : Primitive)
  | object (kind : ObjectKind) (id : ObjectId)
  | port (kind : PortKind) (port : PortRef)
deriving DecidableEq, Inhabited

namespace Value

@[match_pattern] abbrev bool (b : Bool) : Value := prim (.bool b)

@[match_pattern] abbrev int (t : IntType) (n : FixedInt t) : Value := prim (.int t n)

@[match_pattern] abbrev float (x : Number.Single) : Value := prim (.float x)

@[match_pattern] abbrev double (x : Number.Double) : Value := prim (.double x)

@[match_pattern] abbrev text (s : String) : Value := prim (.text s)

@[match_pattern] abbrev frame (id : ObjectId) : Value := object .frame id

@[match_pattern] abbrev function (id : ObjectId) : Value := object .function id

@[match_pattern] abbrev node (id : ObjectId) : Value := object .node id

@[match_pattern] abbrev sequence (id : ObjectId) : Value := object .sequence id

@[match_pattern] abbrev array (id : ObjectId) : Value := object .array id

@[match_pattern] abbrev ref (id : ObjectId) : Value := object .ref id

@[match_pattern] abbrev output (p : PortRef) : Value := port .output p

def tag : Value → Tag
  | absent => .absent
  | prim p => .prim p.type
  | object kind _ => .object kind
  | port kind _ => .port kind

def typeName (v : Value) : String := v.tag.name

def isPrimitive : Value → Bool
  | prim _ => true
  | _ => false

def isAbsent : Value → Bool
  | absent => true
  | _ => false

/-- Whether the value is a streaming signal, so that operators on it build nodes. -/
def isOutput : Value → Bool
  | output _ => true
  | _ => false

/-- The object that the value refers to. A port refers to its node. -/
def referent : Value → Option ObjectId
  | object _ id => some id
  | port _ p => some p.node
  | _ => none

/-- The number of an index operand, of any integer type, up to the greatest 64-bit one. -/
def asIndex : Value → Option Int
  | int _ n => if n.val < IntType.int64.bound then some n.val else none
  | _ => none

def asText : Value → Option String
  | text s => some s
  | _ => none

/-- Whether two values are the same handle. Primitives are handles of nothing. -/
def sameObject (a b : Value) : Bool := a.referent.isSome && a = b

/-- The text of a value. -/
def display : Value → String
  | absent => "absent"
  | prim p => p.display
  | object kind id => "<" ++ kind.name ++ " " ++ id.display ++ ">"
  | port kind p =>
    "<" ++ kind.name ++ " " ++ p.node.display ++ "." ++ toString p.index.toNat ++ ">"

end Value
end Patchbay
