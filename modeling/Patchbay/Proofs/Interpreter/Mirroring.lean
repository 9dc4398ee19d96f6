import Mathlib.Data.List.Forall2
import Patchbay.Interpreter.Walker
import Patchbay.Proofs.Evaluation.Steps

/-!
# Interpreters and cursors

An evaluation at a cursor is given its frame, its depth and its tree, and cannot change them. An
interpreter looks all of this up in its own state, and may change that. It mirrors the evaluation if
it does the same to the session and leaves its own state as it was. There is one rule for each way
to put computations together; the ones for frames and for nesting say that what was changed is put
back.
-/

namespace Patchbay

variable {H : HostTypes} {α β : Type}

/-! ## Reading arenas -/

namespace Arena

variable {a : Arena} {t : TreeId} {whole : Tree} {ts : List TreeId}

lemma expr?_of_tree? {e : Expr} (ht : a.tree? t = some (.expr e)) : a.expr? t = some e := by
  rw [expr?, ht]

lemma stmt?_of_tree? {s : Stmt} (ht : a.tree? t = some (.stmt s)) : a.stmt? t = some s := by
  rw [stmt?, ht]

lemma tree?_of_expr? {e : Expr} (he : a.expr? t = some e) : a.tree? t = some (.expr e) := by
  unfold expr? at he
  split at he
  · next ht =>
    cases he
    exact ht
  · cases he

lemma tree?_of_stmt? {s : Stmt} (hs : a.stmt? t = some s) : a.tree? t = some (.stmt s) := by
  unfold stmt? at hs
  split at hs
  · next ht =>
    cases hs
    exact ht
  · cases hs

lemma tree?_part (ht : a.tree? t = some whole) {i : Nat} {part : Option Tree}
    (hpart : whole.parts[i]? = some part) : a.tree? (t.part i) = part := by
  rw [tree?, ht, Option.bind_some, hpart, Option.join_some]

/-- What stands at the ids of the last parts of a tree. -/
lemma tree?_parts (ht : a.tree? t = some whole) {xs : List α} {g : α → Option Tree} {start : Nat}
    (hparts : whole.parts.drop start = xs.map g) :
    List.Forall₂ (fun t x => a.tree? t = g x) (t.parts start xs.length) xs := by
  induction xs generalizing start with
  | nil => exact .nil
  | cons x rest ih =>
    have hfirst : whole.parts[start]? = some (g x) := by
      rw [← List.head?_drop, hparts, List.map_cons, List.head?_cons]
    have hrest : whole.parts.drop (start + 1) = rest.map g := by
      rw [← List.tail_drop, hparts, List.map_cons, List.tail_cons]
    exact .cons (tree?_part ht hfirst) (ih hrest)

/-- The statements of a file stand at its first ids. -/
lemma tree?_tops : List.Forall₂ (fun t s => a.tree? t = some (.stmt s)) a.tops a.stmts := by
  refine List.forall₂_iff_get.mpr ⟨by simp [tops], fun i hi hi' => ?_⟩
  simp [tops, tree?]

end Arena

/-! ## Mirroring -/

/-- Where an interpreter stands. -/
def Interpreter.cursor (st : Interpreter) : Cursor := ⟨st.frame, st.depth⟩

/-- The outcome of an evaluation, with an interpreter beside the session. -/
def Outcome.beside (st : Interpreter) : Outcome (Session H) α → Outcome (Running H) α
  | .ok a s => .ok a ⟨st, s⟩
  | .error e s => .error e ⟨st, s⟩
  | .outOfFuel => .outOfFuel

namespace Interp

/-- An interpreter in a certain state does what an evaluation does, and is in the same state
afterwards. -/
def Mirrors (st : Interpreter) (m : Interp H α) (e : Eval H α) : Prop :=
  ∀ s, m ⟨st, s⟩ = (e s).beside st

variable {st : Interpreter} {m : Interp H α} {e : Eval H α} {f : α → Interp H β} {g : α → Eval H β}
  {frame : ObjectId} {env : Environment H}

lemma mirrors_pure {a : α} : Mirrors st (pure a : Interp H α) (pure a) := fun _ => rfl

lemma mirrors_lift : Mirrors st (lift e) e := fun s => by
  unfold lift
  cases e s <;> rfl

lemma Mirrors.bind (hm : Mirrors st m e) (hf : ∀ a, Mirrors st (f a) (g a)) :
    Mirrors st (m >>= f) (e >>= g) := by
  intro s
  change Interp.bind m f ⟨st, s⟩ = (Eval.bind e g s).beside st
  unfold Interp.bind Eval.bind
  rw [hm s]
  cases e s with
  | ok a t => exact hf a t
  | error err t => rfl
  | outOfFuel => rfl

lemma Mirrors.map {k : α → β} (hm : Mirrors st m e) : Mirrors st (k <$> m) (k <$> e) :=
  hm.bind fun _ => mirrors_pure

lemma Mirrors.discard (hm : Mirrors st m e) : Mirrors st (discard m) (discard e) := hm.map

/-- What is done with the state of the interpreter is done with the one that it is in. -/
lemma mirrors_current_bind {k : Interpreter → Interp H α} (hk : Mirrors st (k st) e) :
    Mirrors st (current >>= k) e := hk

lemma fetch_eq {read : Arena → Option β} {s : Session H} :
    fetch read ⟨st, s⟩ = orAbort (read st.ast) ⟨st, s⟩ :=
  rfl

lemma mirrors_fetch_bind {read : Arena → Option β} {b : β} {k : β → Interp H α}
    (hread : read st.ast = some b) (hk : Mirrors st (k b) e) : Mirrors st (fetch read >>= k) e := by
  intro s
  change Interp.bind (fetch read) k ⟨st, s⟩ = _
  rw [Interp.bind, fetch_eq, hread]
  exact hk s

lemma fetch_of_none {read : Arena → Option β} {s : Session H} (hread : read st.ast = none) :
    fetch read ⟨st, s⟩ = .outOfFuel := by
  rw [fetch_eq, hread]
  rfl

lemma bind_outOfFuel {s : Session H} (hm : m ⟨st, s⟩ = .outOfFuel) :
    (m >>= f) ⟨st, s⟩ = .outOfFuel := by
  change Interp.bind m f ⟨st, s⟩ = _
  rw [Interp.bind, hm]

lemma Mirrors.mapError {change : EvalError → EvalError} (hm : Mirrors st m e) :
    Mirrors st (m.mapError change) (e.mapError change) := by
  intro s
  unfold Interp.mapError Eval.mapError
  rw [hm s]
  cases e s <;> rfl

lemma Mirrors.attempt (hm : Mirrors st m e) : Mirrors st m.attempt e.attempt := by
  intro s
  unfold Interp.attempt Eval.attempt
  rw [hm s]
  cases e s <;> rfl

/-- Nothing but the session is left of an interpreter that was started for one computation. -/
lemma start_eq (hm : Mirrors st m e) : start st m = e := by
  funext s
  unfold start
  rw [hm s]
  cases e s <;> rfl

lemma mirrors_start {other : Interpreter} (hm : Mirrors other m e) :
    Mirrors st (lift (start other m)) e := by
  rw [start_eq hm]
  exact mirrors_lift

/-- Entering a frame, the interpreter tells where it was. -/
lemma switchTo_eq (st : Interpreter) (s : Session H) :
    switchTo frame ⟨st, s⟩ =
      match Eval.onHeap (Heap.pin frame) s with
      | .ok _ t => .ok st.frame ⟨{ st with frame := frame }, t⟩
      | .error err t => .error err ⟨st, t⟩
      | .outOfFuel => .outOfFuel := by
  change Interp.bind (lift (Eval.onHeap (Heap.pin frame))) _ ⟨st, s⟩ = _
  unfold Interp.bind lift
  cases Eval.onHeap (Heap.pin frame) s <;> rfl

/-- The frame that is entered is left again, and the previous one is current as before. -/
lemma Mirrors.withFrame (hm : Mirrors { st with frame := frame } m e) :
    Mirrors st (withFrame frame m) (Eval.withPinned frame e) := by
  intro s
  change Interp.bind (switchTo frame) (fun previous => m.andAlso (leave previous)) ⟨st, s⟩ =
    Outcome.beside st (Eval.bind (Eval.onHeap (Heap.pin frame)) (fun _ => e.andAlso _) s)
  unfold Interp.bind Eval.bind
  rw [switchTo_eq]
  cases Eval.onHeap (Heap.pin frame) s with
  | ok _ t =>
    -- the computation starts in the frame, and ends in it
    change (m.andAlso (leave st.frame)) ⟨{ st with frame := frame }, t⟩ =
      Outcome.beside st (e.andAlso (fun s => { s with heap := s.heap.unpin frame }) t)
    unfold Interp.andAlso Eval.andAlso
    rw [hm t]
    cases e t <;> rfl
  | error err t => rfl
  | outOfFuel => rfl

/-- What is counted up is counted down again. -/
lemma Mirrors.nested {k : Cursor → Eval H α}
    (hm : Mirrors { st with depth := st.depth + 1 } m
      (k { st.cursor with depth := st.depth + 1 })) :
    Mirrors st (nested env m) (Eval.nested env st.cursor k) := by
  intro s
  change (if env.config.maxDepth ≤ st.depth then _ else _ : Interp H α) ⟨st, s⟩ = _
  unfold Eval.nested
  change _ = Outcome.beside st ((if env.config.maxDepth ≤ st.depth then _ else _ : Eval H α) s)
  split
  · exact mirrors_lift s
  · change (m.andAlso ascend) ⟨{ st with depth := st.depth + 1 },
      { s with evalDepth := st.depth + 1 }⟩ =
      Outcome.beside st ((k { st.cursor with depth := st.depth + 1 }).andAlso
        (fun s => { s with evalDepth := st.depth }) { s with evalDepth := st.depth + 1 })
    unfold Interp.andAlso Eval.andAlso
    rw [hm]
    cases k { st.cursor with depth := st.depth + 1 } { s with evalDepth := st.depth + 1 } <;> rfl

end Interp
end Patchbay
