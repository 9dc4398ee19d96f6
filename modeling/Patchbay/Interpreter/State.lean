import Patchbay.Eval.Run
import Patchbay.Interpreter.Arena

/-!
# Interpreters

An interpreter stands in a frame, counts how deep it is nested, and reads what it evaluates from its
arena. While it runs it changes all of this, and whoever changes something has to put it back:
entering a frame tells the frame to return to, leaving returns there, and nesting counts up and
down. Sessions are shared by all interpreters; a function runs in an interpreter of its own, and so
does a script that is being loaded.
-/

namespace Patchbay

variable {H : HostTypes} {α β : Type}

/-- What an interpreter keeps to itself. -/
structure Interpreter where
  /-- The current frame. -/
  frame : ObjectId
  depth : Nat
  ast : Arena

/-- An interpreter and the session that it works on. -/
structure Running (H : HostTypes) where
  interpreter : Interpreter
  session : Session H

/-- A computation of an interpreter. With a value or with an error, it leaves the interpreter in
some state. -/
def Interp (H : HostTypes) (α : Type) : Type := Running H → Outcome (Running H) α

namespace Interp

protected def pure (a : α) : Interp H α := fun r => .ok a r

protected def bind (m : Interp H α) (f : α → Interp H β) : Interp H β := fun r =>
  match m r with
  | .ok a r => f a r
  | .error e r => .error e r
  | .outOfFuel => .outOfFuel

instance : Monad (Interp H) where
  pure := Interp.pure
  bind := Interp.bind

/-- A computation on the session. -/
def lift (m : Eval H α) : Interp H α := fun r =>
  match m r.session with
  | .ok a s => .ok a { r with session := s }
  | .error e s => .error e { r with session := s }
  | .outOfFuel => .outOfFuel

/-- The state of the interpreter. -/
def current : Interp H Interpreter := fun r => .ok r.interpreter r

def modify (f : Running H → Running H) : Interp H Unit := fun r => .ok () (f r)

/-- Change an error on its way out. -/
def mapError (change : EvalError → EvalError) (m : Interp H α) : Interp H α := fun r =>
  match m r with
  | .error e r => .error (change e) r
  | outcome => outcome

/-- What is done when a computation has ended, with a value or with an error. -/
def andAlso (m : Interp H α) (restore : Running H → Running H) : Interp H α := fun r =>
  match m r with
  | .ok a r => .ok a (restore r)
  | .error e r => .error e (restore r)
  | .outOfFuel => .outOfFuel

/-- Take a failure as a result. -/
def attempt (m : Interp H α) : Interp H (Except EvalError α) := fun r =>
  match m r with
  | .ok a r => .ok (.ok a) r
  | .error e r => .ok (.error e) r
  | .outOfFuel => .outOfFuel

/-- A computation of another interpreter, which is of no use afterwards. -/
def start (interpreter : Interpreter) (m : Interp H α) : Eval H α := fun s =>
  match m ⟨interpreter, s⟩ with
  | .ok a r => .ok a r.session
  | .error e r => .error e r.session
  | .outOfFuel => .outOfFuel

/-! ## Frames -/

/-- Pin a frame and make it the current one. The answer is the frame that was current before. -/
def switchTo (frame : ObjectId) : Interp H ObjectId := do
  lift (Eval.onHeap (Heap.pin frame))
  let before ← current
  modify fun r => { r with interpreter := { r.interpreter with frame := frame } }
  return before.frame

/-- Make the previous frame the current one again, and unpin the one that was. -/
def leave (previous : ObjectId) (r : Running H) : Running H :=
  { interpreter := { r.interpreter with frame := previous }
    session := { r.session with heap := r.session.heap.unpin r.interpreter.frame } }

/-- Run `m` with a frame current. -/
def withFrame (frame : ObjectId) (m : Interp H α) : Interp H α := do
  let previous ← switchTo frame
  m.andAlso (leave previous)

/-! ## Nesting -/

/-- Count one level more, and note that in the session. -/
def descend (r : Running H) : Running H :=
  { interpreter := { r.interpreter with depth := r.interpreter.depth + 1 }
    session := { r.session with evalDepth := r.interpreter.depth + 1 } }

/-- Count one level less, and note that in the session. -/
def ascend (r : Running H) : Running H :=
  { interpreter := { r.interpreter with depth := r.interpreter.depth - 1 }
    session := { r.session with evalDepth := r.interpreter.depth - 1 } }

/-- Run `m` one level deeper, unless the depth limit is reached. -/
def nested (env : Environment H) (m : Interp H α) : Interp H α := do
  let before ← current
  if env.config.maxDepth ≤ before.depth then lift (fail (.recursionLimit env.config.maxDepth))
  else
    modify descend
    m.andAlso ascend

/-! ## Reading the arena -/

/-- Looking in an arena for what it does not have aborts the program. -/
def orAbort : Option α → Interp H α
  | some a => return a
  | none => lift Eval.diverge

/-- What a reading of the arena finds. -/
def fetch (read : Arena → Option α) : Interp H α := do
  let interpreter ← current
  orAbort (read interpreter.ast)

end Interp

end Patchbay
