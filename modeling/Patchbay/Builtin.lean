import Patchbay.Value.Tag

/-!
# Reserved builtins

Operators, indexing and conversions are calls of reserved functions, which every root frame binds.
The names of the first three cannot be written in programs.
-/

namespace Patchbay

/-- The reserved functions, with their operands. -/
inductive Builtin where
  /-- Operator symbol, left operand, right operand. -/
  | binaryOp
  /-- Operator symbol, operand. -/
  | unaryOp
  /-- Target, then any number of indices. -/
  | index
  /-- One operand, converted to the type. -/
  | cast (type : PrimType)
deriving DecidableEq, Repr, Inhabited

namespace Builtin

/-- The name that the root frame binds the builtin under. -/
def reservedName : Builtin → String
  | binaryOp => ".binaryOp"
  | unaryOp => ".unaryOp"
  | index => ".index"
  | cast type => type.name

/-- Every builtin, in the order in which a root frame binds them. -/
def all : List Builtin := [binaryOp, unaryOp, index] ++ PrimType.all.map cast

end Builtin
end Patchbay
