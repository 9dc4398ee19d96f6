import Patchbay.Config
import Patchbay.Plugin
import Patchbay.Heap.Wiring

/-!
# Evaluations

An evaluation works on a session: the heap and a few counters. It ends with a value or with an
error, and either way leaves a session behind; or it runs out of fuel, which stands for an
evaluation that has not come back. Some never do, with any amount of fuel: a walk outward through
frames that are each other's parents goes round for ever, and reading past the elements of an array
aborts the program. What surrounds all evaluations and never changes is in the
`Environment`.
-/

namespace Patchbay

/-- How the host takes part in evaluations. -/
structure Host (H : HostTypes) extends KernelHost H where
  /-- Call a native function with its arguments in the order of its parameters. -/
  call : H.Native → List Value → HeapM H Value

/-- Reads the program in a script file and interns its names. -/
abbrev Loader : Type := Path → Interner → Except EvalError Program × Interner

/-- The names that operators and indexing are looked up under. -/
structure ReservedNames where
  binaryOp : Name
  unaryOp : Name
  index : Name

/-- What surrounds an evaluation. -/
structure Environment (H : HostTypes) where
  config : Config
  host : Host H
  plugins : Registry H
  tree : DirectoryTree
  loader : Option Loader
  /-- The root frame. -/
  root : ObjectId
  reserved : ReservedNames

/-- What evaluations change. -/
structure Session (H : HostTypes) where
  heap : Heap H
  /-- The number of nodes that were named. -/
  nodesNamed : Nat
  /-- The depth of the innermost running evaluation, where scripts that a lookup runs start. -/
  evalDepth : Nat
  /-- The script files that are being loaded. -/
  loading : List Path

/-- Where an evaluation stands: its frame, and how deep it is nested. -/
structure Cursor where
  frame : ObjectId
  depth : Nat
deriving DecidableEq, Repr

/-- How an evaluation ends. -/
inductive Outcome (S α : Type) where
  | ok (value : α) (state : S)
  | error (e : EvalError) (state : S)
  | outOfFuel

/-- A computation on a session. -/
def Eval (H : HostTypes) (α : Type) : Type := Session H → Outcome (Session H) α

namespace Eval

variable {H : HostTypes} {α β : Type}

@[always_inline, inline]
protected def pure (a : α) : Eval H α := fun s => .ok a s

@[always_inline, inline]
protected def bind (m : Eval H α) (f : α → Eval H β) : Eval H β := fun s =>
  match m s with
  | .ok a s => f a s
  | .error e s => .error e s
  | .outOfFuel => .outOfFuel

@[always_inline, inline]
protected def throw (e : EvalError) : Eval H α := fun s => .error e s

@[always_inline, inline]
protected def tryCatch (m : Eval H α) (handle : EvalError → Eval H α) : Eval H α := fun s =>
  match m s with
  | .error e s => handle e s
  | outcome => outcome

instance : Monad (Eval H) where
  pure := Eval.pure
  bind := Eval.bind

instance : MonadExceptOf EvalError (Eval H) where
  throw := Eval.throw
  tryCatch := Eval.tryCatch

instance : LawfulMonad (Eval H) :=
  LawfulMonad.mk' (Eval H)
    (by
      intro α m
      funext s
      change Eval.bind m _ s = m s
      unfold Eval.bind
      cases h : m s <;> rfl)
    (by
      intros
      rfl)
    (by
      intro α β γ m f g
      funext s
      change Eval.bind (Eval.bind m f) g s = Eval.bind m (fun a => Eval.bind (f a) g) s
      unfold Eval.bind
      cases h : m s <;> rfl)

/-- The evaluation that does not end. -/
def diverge : Eval H α := fun _ => .outOfFuel

/-- Read the session. -/
@[inline] def get : Eval H (Session H) := fun s => .ok s s

/-- Change the session. -/
@[inline] def modify (f : Session H → Session H) : Eval H Unit := fun s => .ok () (f s)

/-- Run a heap operation on the heap of the session. -/
@[inline] def onHeap (m : HeapM H α) : Eval H α := fun ⟨heap, nodesNamed, evalDepth, loading⟩ =>
  match m heap with
  | .ok a heap => .ok a ⟨heap, nodesNamed, evalDepth, loading⟩
  | .error e heap => .error e ⟨heap, nodesNamed, evalDepth, loading⟩

/-- Read something off the heap. -/
@[inline] def readHeap (look : Heap H → Except EvalError α) : Eval H α := onHeap (HeapM.read look)

/-- Take over a result or a failure. -/
@[inline] def ofExcept : Except EvalError α → Eval H α
  | .ok a => Eval.pure a
  | .error e => Eval.throw e

/-- Change an error on its way out. -/
@[inline] def mapError (change : EvalError → EvalError) (m : Eval H α) : Eval H α := fun s =>
  match m s with
  | .error e s => .error (change e) s
  | outcome => outcome

/-- Take a failure as a result. -/
@[inline] def attempt (m : Eval H α) : Eval H (Except EvalError α) := fun s =>
  match m s with
  | .ok a s => .ok (.ok a) s
  | .error e s => .ok (.error e) s
  | .outOfFuel => .outOfFuel

/-- Change the session when a computation has ended, with a value or with an error. -/
@[inline] def andAlso (m : Eval H α) (restore : Session H → Session H) : Eval H α := fun s =>
  match m s with
  | .ok a s => .ok a (restore s)
  | .error e s => .error e (restore s)
  | .outOfFuel => .outOfFuel

/-- The text of a name. -/
def nameText (name : Name) : Eval H String := fun s => .ok (s.heap.names.lookup name) s

/-- Run `m` with a frame pinned. -/
@[inline] def withPinned (frame : ObjectId) (m : Eval H α) : Eval H α := do
  onHeap (Heap.pin frame)
  m.andAlso fun s => { s with heap := s.heap.unpin frame }

/-- Run `m` one level deeper, unless the depth limit is reached. -/
@[inline] def nested (env : Environment H) (c : Cursor) (m : Cursor → Eval H α) : Eval H α := do
  if env.config.maxDepth ≤ c.depth then fail (.recursionLimit env.config.maxDepth)
  else
    modify fun s => { s with evalDepth := c.depth + 1 }
    (m { c with depth := c.depth + 1 }).andAlso fun s => { s with evalDepth := c.depth }

/-- Run `m`, unless the heap is one from which it does not come back. -/
def barring (hangs : Heap H → Bool) (stuck : Eval H Empty) (m : Eval H α) : Eval H α := do
  let s ← get
  if hangs s.heap then Empty.elim <$> stuck else m

/-- A name that no other node has. -/
def nextNodeName (kind : String) : Eval H String := fun s =>
  let n := s.nodesNamed + 1
  .ok (kind ++ "#" ++ toString n) { s with nodesNamed := n }

end Eval

/-! ## Recursive calls -/

/-- How a statement ended: the next one follows, or a value is returned. -/
inductive Flow where
  | next
  | ret (value : Value)
deriving DecidableEq

/-- The parts of a counted loop that are repeated. -/
structure LoopBody where
  cond : Option Expr
  step : Option Stmt
  body : Stmt

/-- The evaluations that the rules for expressions and statements refer to. -/
structure Runner (H : HostTypes) where
  expr : Cursor → Expr → Eval H Value
  stmt : Cursor → Stmt → Eval H Flow
  /-- Test, body and step, over and over. -/
  loop : Cursor → LoopBody → Eval H Flow
  /-- What is done where there is no coming back. -/
  stuck : Eval H Empty

/-- Run statements until one returns. -/
def Runner.block {H : HostTypes} (self : Runner H) (c : Cursor) : List Stmt → Eval H Flow
  | [] => return .next
  | s :: rest => do
    match ← self.stmt c s with
    | .ret v => return .ret v
    | .next => self.block c rest

end Patchbay
