import Patchbay.Location
import Patchbay.Operator
import Patchbay.Number.Binary
import Patchbay.Number.Integer

/-!
# Programs

The syntax trees of the language. Expressions and statements carry the place where they stand. A
program is the list of statements of one source file.
-/

namespace Patchbay

/-- A literal. Integers carry their type, texts are interned. -/
inductive Literal where
  | absent
  | bool (b : Bool)
  | int (t : IntType) (n : FixedInt t)
  | float (x : Number.Single)
  | double (x : Number.Double)
  | text (name : Name)

mutual

/-- An expression at its place. -/
inductive Expr where
  | mk (kind : ExprKind) (loc : Location)

inductive ExprKind where
  | literal (l : Literal)
  /-- Primitives in a row, or arrays of one shape stacked along a new first dimension. -/
  | array (items : List Expr)
  /-- Values of any kinds in a row. -/
  | sequence (items : List Expr)
  /-- A statement run in a frame of its own; the frame is the value. -/
  | frame (body : Stmt)
  | ident (name : Name)
  /-- The frame of the nearest enclosing frame literal. -/
  | this
  | member (object : Expr) (name : Name)
  | index (object : Expr) (indices : List Expr)
  | call (callee : Expr) (args : List Argument)
  | unary (op : UnaryOp) (operand : Expr)
  | binary (op : BinaryOp) (left right : Expr)
  | ternary (cond thenExpr elseExpr : Expr)

/-- An argument at a call, with or without a label. -/
inductive Argument where
  | mk (label : Option Name) (value : Expr)

/-- A statement at its place. -/
inductive Stmt where
  | mk (kind : StmtKind) (loc : Location)

inductive StmtKind where
  /-- Statements in a row. A body whose frame already exists makes no frame of its own. -/
  | block (newFrame : Bool) (body : List Stmt)
  | function (name : Name) (params : List Param) (body : Stmt)
  | var (name : Name) (init : Option Expr)
  /-- Assignment; with an operator, the old value is its left operand. -/
  | assign (target : Target) (op : Option BinaryOp) (value : Expr)
  | branch (cond : Expr) (thenBranch : Stmt) (elseBranch : Option Stmt)
  /-- A counted loop: start, test, step, body. -/
  | loop (init : Option Stmt) (cond : Option Expr) (step : Option Stmt) (body : Stmt)
  /-- A loop over the values of a container. -/
  | each (var : Name) (items : Expr) (body : Stmt)
  | expr (e : Expr)
  | ret (value : Option Expr)

/-- A declared parameter, with or without a default. -/
inductive Param where
  | mk (name : Name) (default : Option Expr)

/-- What an assignment writes to. -/
inductive Target where
  | ident (name : Name)
  | member (object : Expr) (name : Name)
  | index (object : Expr) (indices : List Expr)

end

namespace Expr

def kind : Expr → ExprKind
  | mk kind _ => kind

def loc : Expr → Location
  | mk _ loc => loc

end Expr

namespace Stmt

def kind : Stmt → StmtKind
  | mk kind _ => kind

def loc : Stmt → Location
  | mk _ loc => loc

end Stmt

namespace Argument

def label : Argument → Option Name
  | mk label _ => label

def value : Argument → Expr
  | mk _ value => value

end Argument

namespace Param

def name : Param → Name
  | mk name _ => name

def default : Param → Option Expr
  | mk _ default => default

end Param

/-- One source file. -/
structure Program where
  file : Name
  body : List Stmt

/-! ## Size -/

/-- How many expressions and how many statements a tree is made of. -/
structure NodeCount where
  exprs : Nat
  stmts : Nat
deriving DecidableEq, Repr, Inhabited

namespace NodeCount

def zero : NodeCount := ⟨0, 0⟩

instance : Add NodeCount := ⟨fun a b => ⟨a.exprs + b.exprs, a.stmts + b.stmts⟩⟩

end NodeCount

mutual

def Expr.nodeCount : Expr → NodeCount
  | .mk kind _ => ⟨1, 0⟩ + kind.nodeCount

def ExprKind.nodeCount : ExprKind → NodeCount
  | .literal _ | .ident _ | .this => .zero
  | .array items | .sequence items => Expr.nodeCounts items
  | .frame body => body.nodeCount
  | .member object _ => object.nodeCount
  | .index object indices => object.nodeCount + Expr.nodeCounts indices
  | .call callee args => callee.nodeCount + Argument.nodeCounts args
  | .unary _ operand => operand.nodeCount
  | .binary _ left right => left.nodeCount + right.nodeCount
  | .ternary cond thenExpr elseExpr => cond.nodeCount + thenExpr.nodeCount + elseExpr.nodeCount

def Expr.nodeCounts : List Expr → NodeCount
  | [] => .zero
  | e :: rest => e.nodeCount + Expr.nodeCounts rest

def Expr.nodeCount? : Option Expr → NodeCount
  | none => .zero
  | some e => e.nodeCount

def Argument.nodeCount : Argument → NodeCount
  | .mk _ value => value.nodeCount

def Argument.nodeCounts : List Argument → NodeCount
  | [] => .zero
  | a :: rest => a.nodeCount + Argument.nodeCounts rest

def Stmt.nodeCount : Stmt → NodeCount
  | .mk kind _ => ⟨0, 1⟩ + kind.nodeCount

def StmtKind.nodeCount : StmtKind → NodeCount
  | .block _ body => Stmt.nodeCounts body
  | .function _ params body => Param.nodeCounts params + body.nodeCount
  | .var _ init => Expr.nodeCount? init
  | .assign target _ value => target.nodeCount + value.nodeCount
  | .branch cond thenBranch elseBranch =>
    cond.nodeCount + thenBranch.nodeCount + Stmt.nodeCount? elseBranch
  | .loop init cond step body =>
    Stmt.nodeCount? init + Expr.nodeCount? cond + Stmt.nodeCount? step + body.nodeCount
  | .each _ items body => items.nodeCount + body.nodeCount
  | .expr e => e.nodeCount
  | .ret value => Expr.nodeCount? value

def Stmt.nodeCounts : List Stmt → NodeCount
  | [] => .zero
  | s :: rest => s.nodeCount + Stmt.nodeCounts rest

def Stmt.nodeCount? : Option Stmt → NodeCount
  | none => .zero
  | some s => s.nodeCount

def Param.nodeCount : Param → NodeCount
  | .mk _ default => Expr.nodeCount? default

def Param.nodeCounts : List Param → NodeCount
  | [] => .zero
  | p :: rest => p.nodeCount + Param.nodeCounts rest

def Target.nodeCount : Target → NodeCount
  | .ident _ => .zero
  | .member object _ => object.nodeCount
  | .index object indices => object.nodeCount + Expr.nodeCounts indices

end

/-- The size of a program. -/
def Program.nodeCount (p : Program) : NodeCount := Stmt.nodeCounts p.body

end Patchbay
