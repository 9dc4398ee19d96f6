import Mathlib.Tactic.Common
import Patchbay.Eval.Run

/-!
# Evaluations, step by step

An evaluation in sequence ends as its first part does, or goes on from there. A round of a counted
loop is its test and what follows the test. A program is run by running its first statement,
collecting, and running the rest.
-/

namespace Patchbay

variable {H : HostTypes} {env : Environment H} {self : Runner H} {c : Cursor} {s t : Session H}

/-! ## Outcomes -/

/-- What `look` reads off the value of an evaluation that succeeds. -/
def Outcome.read? {S α β : Type} (o : Outcome S α) (look : α → β) : Option β :=
  match o with
  | .ok a _ => some (look a)
  | _ => none

lemma Outcome.exists_of_read? {S α β : Type} {o : Outcome S α} {look : α → β} {b : β}
    (ho : o.read? look = some b) : ∃ a t, o = .ok a t ∧ look a = b := by
  unfold read? at ho
  split at ho
  · next a t =>
    cases ho
    exact ⟨a, t, rfl, rfl⟩
  · cases ho

/-! ## Sequences -/

namespace Eval

variable {α β : Type} {s s' : Session H} {a : α}

lemma bind_of_ok {m : Eval H α} {f : α → Eval H β} (hm : m s = .ok a s') :
    (m >>= f) s = f a s' := by
  change Eval.bind m f s = f a s'
  rw [Eval.bind, hm]

lemma bind_of_error {m : Eval H α} {f : α → Eval H β} {e : EvalError} (hm : m s = .error e s') :
    (m >>= f) s = .error e s' := by
  change Eval.bind m f s = .error e s'
  rw [Eval.bind, hm]

lemma bind_eq_ok {m : Eval H α} {f : α → Eval H β} {r : β} :
    (m >>= f) s = .ok r s' ↔ ∃ a s1, m s = .ok a s1 ∧ f a s1 = .ok r s' := by
  change Eval.bind m f s = _ ↔ _
  unfold Eval.bind
  cases hm : m s with
  | ok a s1 => simp
  | error e s1 => simp
  | outOfFuel => simp

lemma onHeap_eq_ok {m : HeapM H α} :
    onHeap m s = .ok a s' ↔ ∃ h, m s.heap = .ok a h ∧ s' = { s with heap := h } := by
  unfold onHeap
  dsimp only
  cases hm : m s.heap with
  | ok a' h => simp [eq_comm]
  | error e h => simp

lemma onHeap_of_ok {m : HeapM H α} {h : Heap H} (hm : m s.heap = .ok a h) :
    onHeap m s = .ok a { s with heap := h } := by
  unfold onHeap
  dsimp only
  rw [hm]

lemma readHeap_of_ok {look : Heap H → Except EvalError α} (hl : look s.heap = .ok a) :
    readHeap look s = .ok a s := by
  refine onHeap_of_ok (h := s.heap) ?_
  simp only [HeapM.read, hl]

lemma readHeap_of_error {look : Heap H → Except EvalError α} {e : EvalError}
    (hl : look s.heap = .error e) : readHeap look s = .error e s := by
  simp only [readHeap, onHeap, HeapM.read, hl]

lemma readHeap_eq_ok {look : Heap H → Except EvalError α} :
    readHeap look s = .ok a s' ↔ look s.heap = .ok a ∧ s' = s := by
  refine onHeap_eq_ok.trans ?_
  unfold HeapM.read
  cases hl : look s.heap with
  | ok a' =>
    simp only [EStateM.Result.ok.injEq, Except.ok.injEq]
    constructor
    · rintro ⟨h, ⟨ha, rfl⟩, rfl⟩
      exact ⟨ha, rfl⟩
    · rintro ⟨ha, rfl⟩
      exact ⟨_, ⟨ha, rfl⟩, rfl⟩
  | error e => simp

/-! ## Places without coming back -/

variable {hangs : Heap H → Bool} {stuck : Eval H Empty} {m : Eval H α}

lemma barring_of_clear (hclear : hangs s.heap = false) : barring hangs stuck m s = m s := by
  change (if hangs s.heap then Empty.elim <$> stuck else m) s = m s
  rw [hclear]
  rfl

lemma barring_of_hangs (hhangs : hangs s.heap = true) :
    barring hangs stuck m s = (Empty.elim <$> stuck : Eval H α) s := by
  change (if hangs s.heap then Empty.elim <$> stuck else m) s = _
  rw [hhangs]
  rfl

/-- Whatever is done where there is no coming back, no value comes of it. -/
lemma stuck_ne_ok : (Empty.elim <$> stuck : Eval H α) s ≠ .ok a s' := fun h => by
  obtain ⟨b, -, -, -⟩ := bind_eq_ok.mp h
  exact b.elim

lemma barring_eq_ok : barring hangs stuck m s = .ok a s' ↔
    hangs s.heap = false ∧ m s = .ok a s' := by
  cases h : hangs s.heap with
  | true => simp [barring_of_hangs h, stuck_ne_ok]
  | false => simp [barring_of_clear h]

end Eval

/-! ## Rounds of a counted loop -/

/-- The test of a counted loop; without one, every round takes place. -/
def roundTest (self : Runner H) (c : Cursor) (l : LoopBody) : Eval H Bool :=
  match l.cond with
  | some cond => do
    let v ← self.expr c cond
    Eval.ofExcept v.truthy
  | none => pure true

/-- The rest of a round, after the test. -/
def roundBody (self : Runner H) (c : Cursor) (l : LoopBody) (holds : Bool) : Eval H Flow := do
  if !holds then return .next
  match ← self.stmt c l.body with
  | .ret v => return .ret v
  | .next =>
    match l.step with
    | some step => discard <| self.stmt c step
    | none => pure ()
    self.loop c l

lemma loopRound_eq {self : Runner H} {c : Cursor} {l : LoopBody} :
    loopRound self c l = roundTest self c l >>= roundBody self c l := by
  unfold loopRound roundTest
  cases l.cond with
  | some cond => exact (bind_assoc _ _ _).symm
  | none => rfl

/-! ## Programs -/

lemma runStatements_cons {report : RunReport} {st : Stmt} {rest : List Stmt} :
    runStatements env self c report (st :: rest) s =
      match Eval.attempt (self.stmt c st) s with
      | .ok result s1 =>
        if (report.add result).returned.isSome then .ok (report.add result) s1
        else
          match Eval.collectIfNeeded env s1 with
          | .ok _ s2 => runStatements env self c (report.add result) rest s2
          | .error e s2 => .error e s2
          | .outOfFuel => .outOfFuel
      | .error e s1 => .error e s1
      | .outOfFuel => .outOfFuel := by
  have hrun : runStatements env self c report (st :: rest) s =
      Eval.bind (Eval.attempt (self.stmt c st)) (fun result =>
        if (report.add result).returned.isSome then pure (report.add result)
        else Eval.bind (Eval.bind (Eval.collectIfNeeded env) fun _ => pure ()) fun _ =>
          runStatements env self c (report.add result) rest) s := rfl
  rw [hrun, Eval.bind]
  cases Eval.attempt (self.stmt c st) s with
  | ok result s1 =>
    dsimp only
    split
    · rfl
    · simp only [Eval.bind]
      cases Eval.collectIfNeeded env s1 <;> rfl
  | error e s1 => rfl
  | outOfFuel => rfl

lemma attempt_ne_error {α : Type} {m : Eval H α} {e : EvalError} :
    Eval.attempt m s ≠ .error e t := by
  unfold Eval.attempt
  cases m s <;> exact nofun

lemma collectIfNeeded_eq_ok (env : Environment H) (s : Session H) :
    ∃ stats s', Eval.collectIfNeeded env s = .ok stats s' := by
  unfold Eval.collectIfNeeded
  split
  · exact ⟨_, _, rfl⟩
  · exact ⟨_, _, rfl⟩

/-- The session after the collection that may follow a statement. -/
def Session.collected (env : Environment H) (s : Session H) : Session H :=
  if s.heap.shouldCollect then { s with heap := (s.heap.collect env.config.gcGeneration []).2 } else
    s

lemma collectIfNeeded_eq (env : Environment H) (s : Session H) :
    ∃ stats, Eval.collectIfNeeded env s = .ok stats (s.collected env) := by
  unfold Eval.collectIfNeeded Session.collected
  split
  · exact ⟨_, rfl⟩
  · exact ⟨_, rfl⟩

/-- What a program does when a statement has ended. -/
def runRest (env : Environment H) (self : Runner H) (c : Cursor) (report : RunReport)
    (rest : List Stmt)
    (result : Except EvalError Flow) (s : Session H) : Outcome (Session H) RunReport :=
  if (report.add result).returned.isSome then .ok (report.add result) s
  else runStatements env self c (report.add result) rest (s.collected env)

/-- Running a program is running its first statement, which ends with a flow or with a failure, and
then the rest. -/
lemma runStatements_eq {report : RunReport} {st : Stmt} {rest : List Stmt} :
    runStatements env self c report (st :: rest) s =
      match self.stmt c st s with
      | .ok flow t => runRest env self c report rest (.ok flow) t
      | .error e t => runRest env self c report rest (.error e) t
      | .outOfFuel => .outOfFuel := by
  have hrest : ∀ result t, runRest env self c report rest result t =
      if (report.add result).returned.isSome then .ok (report.add result) t
      else
        match Eval.collectIfNeeded env t with
        | .ok _ s2 => runStatements env self c (report.add result) rest s2
        | .error e s2 => .error e s2
        | .outOfFuel => .outOfFuel := by
    intro result t
    obtain ⟨stats, hcollect⟩ := collectIfNeeded_eq env t
    rw [hcollect]
    rfl
  rw [runStatements_cons]
  unfold Eval.attempt
  cases self.stmt c st s with
  | ok flow t => exact (hrest (.ok flow) t).symm
  | error e t => exact (hrest (.error e) t).symm
  | outOfFuel => rfl

end Patchbay
