import Patchbay.Syntax

/-!
# Arenas

An interpreter holds no syntax trees, but an arena with the statements of one source file, and ids.
An id tells where in an arena an expression or a statement stands: which statement it is, or which
part of a larger tree. So the same id means something else in another arena, or nothing.
-/

namespace Patchbay

/-- An expression or a statement. -/
inductive Tree where
  | expr (e : Expr)
  | stmt (s : Stmt)

/-! ## Parts

Every part has its place in the list of parts, and a part that is optional keeps its place if it is
left out.
-/

/-- The parts of a list of expressions. -/
def Expr.all (es : List Expr) : List (Option Tree) := es.map (some ∘ Tree.expr)

def ExprKind.parts : ExprKind → List (Option Tree)
  | .literal _ | .ident _ | .this => []
  | .array items | .sequence items => Expr.all items
  | .frame body => [some (.stmt body)]
  | .member object _ => Expr.all [object]
  | .index object indices => Expr.all (object :: indices)
  | .call callee args => Expr.all (callee :: args.map Argument.value)
  | .unary _ operand => Expr.all [operand]
  | .binary _ left right => Expr.all [left, right]
  | .ternary cond thenExpr elseExpr => Expr.all [cond, thenExpr, elseExpr]

def Target.parts : Target → List (Option Tree)
  | .ident _ => []
  | .member object _ => Expr.all [object]
  | .index object indices => Expr.all (object :: indices)

def StmtKind.parts : StmtKind → List (Option Tree)
  | .block _ body => body.map (some ∘ Tree.stmt)
  | .function _ params body => some (.stmt body) :: params.map fun p => p.default.map .expr
  | .var _ init => [init.map .expr]
  | .assign target _ value => some (.expr value) :: target.parts
  | .branch cond thenBranch elseBranch =>
    [some (.expr cond), some (.stmt thenBranch), elseBranch.map .stmt]
  | .loop init cond step body => [init.map .stmt, cond.map .expr, step.map .stmt, some (.stmt body)]
  | .each _ items body => [some (.expr items), some (.stmt body)]
  | .expr e => [some (.expr e)]
  | .ret value => [value.map .expr]

def Tree.parts : Tree → List (Option Tree)
  | expr e => e.kind.parts
  | stmt s => s.kind.parts

/-! ## Ids -/

/-- Where a tree stands in an arena. -/
inductive TreeId where
  /-- A statement of the source file. -/
  | top (i : Nat)
  /-- A part of another tree. -/
  | part (whole : TreeId) (i : Nat)

/-- Some of the parts of a tree, from one on. -/
def TreeId.parts (whole : TreeId) (start count : Nat) : List TreeId :=
  (List.range' start count).map whole.part

/-- The statements of a source file. -/
structure Arena where
  stmts : List Stmt

namespace Arena

/-- The ids of the statements of the file. -/
def tops (a : Arena) : List TreeId := (List.range a.stmts.length).map .top

/-- What stands at an id. -/
def tree? (a : Arena) : TreeId → Option Tree
  | .top i => a.stmts[i]?.map .stmt
  | .part whole i => (a.tree? whole).bind fun t => t.parts[i]?.join

/-- The expression at an id. -/
def expr? (a : Arena) (id : TreeId) : Option Expr :=
  match a.tree? id with
  | some (.expr e) => some e
  | _ => none

/-- The statement at an id. -/
def stmt? (a : Arena) (id : TreeId) : Option Stmt :=
  match a.tree? id with
  | some (.stmt s) => some s
  | _ => none

end Arena

end Patchbay
