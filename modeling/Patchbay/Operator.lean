/-!
# Operators

The binary and unary operators with their symbols. Operator nodes keep the symbol of their operator
as a parameter, so a symbol determines its operator.
-/

namespace Patchbay

inductive BinaryOp where
  | add | sub | mul | div | mod
  | eq | notEq | lt | ltEq | gt | gtEq
  | and | or
  | bitAnd | bitOr | bitXor | shl | shr
deriving DecidableEq, Repr, Inhabited

namespace BinaryOp

def all : List BinaryOp :=
  [add, sub, mul, div, mod, eq, notEq, lt, ltEq, gt, gtEq, and, or, bitAnd, bitOr, bitXor, shl, shr]

def symbol : BinaryOp → String
  | add => "+"
  | sub => "-"
  | mul => "*"
  | div => "/"
  | mod => "%"
  | eq => "=="
  | notEq => "!="
  | lt => "<"
  | ltEq => "<="
  | gt => ">"
  | gtEq => ">="
  | and => "&&"
  | or => "||"
  | bitAnd => "&"
  | bitOr => "|"
  | bitXor => "^"
  | shl => "<<"
  | shr => ">>"

/-- The operator with a given symbol. -/
def ofSymbol? (s : String) : Option BinaryOp := all.find? fun op => op.symbol == s

theorem ofSymbol?_symbol (op : BinaryOp) : ofSymbol? op.symbol = some op := by
  cases op <;> decide

/-- Operators that compare their operands. -/
def isComparison : BinaryOp → Bool
  | eq | notEq | lt | ltEq | gt | gtEq => true
  | _ => false

/-- Operators on truth values. -/
def isLogical : BinaryOp → Bool
  | and | or => true
  | _ => false

/-- Operators on bit patterns, shifts included. -/
def isBitwise : BinaryOp → Bool
  | bitAnd | bitOr | bitXor | shl | shr => true
  | _ => false

end BinaryOp

inductive UnaryOp where
  | neg | not | bitNot
deriving DecidableEq, Repr, Inhabited

namespace UnaryOp

def all : List UnaryOp := [neg, not, bitNot]

def symbol : UnaryOp → String
  | neg => "-"
  | not => "!"
  | bitNot => "~"

/-- The operator with a given symbol. -/
def ofSymbol? (s : String) : Option UnaryOp := all.find? fun op => op.symbol == s

theorem ofSymbol?_symbol (op : UnaryOp) : ofSymbol? op.symbol = some op := by
  cases op <;> decide

end UnaryOp
end Patchbay
