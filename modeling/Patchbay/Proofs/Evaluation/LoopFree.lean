import Patchbay.Heap.Basic

/-!
# Programs without counted loops

A tree is loop-free if no counted loop stands in it, at whatever depth, in the bodies of functions
and in their defaults too. Loops over the values of a container do not count.
-/

namespace Patchbay

mutual

/-- Whether no counted loop stands in an expression. -/
def Expr.loopFree : Expr → Bool
  | .mk kind _ => kind.loopFree

def ExprKind.loopFree : ExprKind → Bool
  | .literal _ | .ident _ | .this => true
  | .array items | .sequence items => Expr.allLoopFree items
  | .frame body => body.loopFree
  | .member object _ => object.loopFree
  | .index object indices => object.loopFree && Expr.allLoopFree indices
  | .call callee args => callee.loopFree && Argument.allLoopFree args
  | .unary _ operand => operand.loopFree
  | .binary _ left right => left.loopFree && right.loopFree
  | .ternary cond thenExpr elseExpr => cond.loopFree && (thenExpr.loopFree && elseExpr.loopFree)

def Expr.allLoopFree : List Expr → Bool
  | [] => true
  | e :: rest => e.loopFree && Expr.allLoopFree rest

def Expr.loopFree? : Option Expr → Bool
  | none => true
  | some e => e.loopFree

def Argument.loopFree : Argument → Bool
  | .mk _ value => value.loopFree

def Argument.allLoopFree : List Argument → Bool
  | [] => true
  | a :: rest => a.loopFree && Argument.allLoopFree rest

/-- Whether no counted loop stands in a statement. -/
def Stmt.loopFree : Stmt → Bool
  | .mk kind _ => kind.loopFree

def StmtKind.loopFree : StmtKind → Bool
  | .block _ body => Stmt.allLoopFree body
  | .function _ params body => Param.allLoopFree params && body.loopFree
  | .var _ init => Expr.loopFree? init
  | .assign target _ value => target.loopFree && value.loopFree
  | .branch cond thenBranch elseBranch =>
    cond.loopFree && (thenBranch.loopFree && Stmt.loopFree? elseBranch)
  | .loop _ _ _ _ => false
  | .each _ items body => items.loopFree && body.loopFree
  | .expr e => e.loopFree
  | .ret value => Expr.loopFree? value

def Stmt.allLoopFree : List Stmt → Bool
  | [] => true
  | s :: rest => s.loopFree && Stmt.allLoopFree rest

def Stmt.loopFree? : Option Stmt → Bool
  | none => true
  | some s => s.loopFree

def Param.loopFree : Param → Bool
  | .mk _ default => Expr.loopFree? default

def Param.allLoopFree : List Param → Bool
  | [] => true
  | p :: rest => p.loopFree && Param.allLoopFree rest

def Target.loopFree : Target → Bool
  | .ident _ => true
  | .member object _ => object.loopFree
  | .index object indices => object.loopFree && Expr.allLoopFree indices

end

/-- Whether no counted loop stands in a program. -/
def Program.loopFree (p : Program) : Bool := Stmt.allLoopFree p.body

variable {H : HostTypes}

/-- A function whose body, if it is a statement, has no counted loop. -/
def Callable.LoopFree (f : Callable H) : Prop :=
  ∀ body, f.body = .script body → body.loopFree = true

end Patchbay
