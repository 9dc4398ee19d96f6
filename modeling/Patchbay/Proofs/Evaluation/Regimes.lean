import Patchbay.Eval.Run
import Patchbay.Proofs.Evaluation.LoopFree
import Patchbay.Proofs.Heap.Ends

/-!
# Comparing two evaluations

Several facts about evaluations are facts about two of them side by side: one that is given, and one
that differs in its depth limit, its fuel or in what counted loops do. They run on the same session,
and as long as they have not come apart they do the same. A regime says how far they are compared:
what holds of the heap all along, what programs may contain, and what is asked of the second
evaluation when the first one fails or runs out of fuel. There is one rule for each way to put two
such evaluations together.
-/

namespace Patchbay

variable {H : HostTypes} {α β : Type}

/-- What is asked of a second evaluation where the first one runs out of fuel. -/
inductive Stall where
  /-- The first one does not run out of fuel. -/
  | never
  /-- The second one runs out of fuel, too. -/
  | alike
  | anything

/-- Whether the first evaluation may run out of fuel, given whether the second one does. -/
def Stall.Allows : Stall → Prop → Prop
  | never, _ => False
  | alike, both => both
  | anything, _ => True

lemma Stall.Allows.imp {stall : Stall} {p q : Prop} (hs : stall.Allows p) (hpq : p → q) :
    stall.Allows q := by
  cases stall with
  | never => exact hs
  | alike => exact hpq hs
  | anything => trivial

lemma Stall.Allows.of_ne_alike {stall : Stall} {p q : Prop} (hs : stall.Allows p)
    (hne : stall ≠ alike) : stall.Allows q := by
  cases stall with
  | never => exact hs
  | alike => exact absurd rfl hne
  | anything => trivial

/-- The environment with another depth limit. -/
def Environment.withLimit (env : Environment H) (limit : Nat) : Environment H :=
  { env with config := env.config.withMaxDepth limit }

/-- How far two evaluations are compared. -/
structure Regime (H : HostTypes) where
  /-- What holds of the heap before and after every evaluation. -/
  Holds : Heap H → Prop
  /-- Whether programs may contain counted loops. -/
  loops : Prop
  /-- The failures that the second evaluation repeats. -/
  Repeats : Cause → Prop
  stall : Stall
  /-- If the second evaluation runs out of fuel whenever the first one does, it does not get ahead
  of it by other failures. -/
  strict : stall = .alike → ∀ cause, Repeats cause

namespace Regime

variable {R : Regime H}

/-- Whether a tree may be evaluated, given whether it is loop-free. -/
def Permits (R : Regime H) (free : Bool) : Prop := R.loops ∨ free = true

@[simp] lemma permits_and {a b : Bool} : R.Permits (a && b) ↔ R.Permits a ∧ R.Permits b := by
  simp only [Permits, Bool.and_eq_true]
  constructor
  · rintro (hl | ⟨ha, hb⟩)
    · exact ⟨.inl hl, .inl hl⟩
    · exact ⟨.inr ha, .inr hb⟩
  · rintro ⟨hl | ha, hl' | hb⟩
    · exact .inl hl
    · exact .inl hl
    · exact .inl hl'
    · exact .inr ⟨ha, hb⟩

/-- Whether a function may be called. -/
def PermitsCallable (R : Regime H) (f : Callable H) : Prop :=
  ∀ body, f.body = .script body → R.Permits body.loopFree

/-- A heap operation keeps what holds of the heap. -/
def Keeps (R : Regime H) (op : HeapM H α) : Prop :=
  ∀ h, R.Holds h → op.Ends h (fun _ => R.Holds) fun _ => R.Holds

/-! ## Outcomes -/

/-- How a second outcome relates to a first one. If that is a value or a failure, `P` holds of the
session that is left. -/
inductive Matches (R : Regime H) (P : Session H → Prop) :
    Outcome (Session H) α → Outcome (Session H) α → Prop where
  | ok {a : α} {t : Session H} : P t → Matches R P (.ok a t) (.ok a t)
  | error {e : EvalError} {t : Session H} {o : Outcome (Session H) α} : P t →
      (R.Repeats e.cause → o = .error e t) → Matches R P (.error e t) o
  | outOfFuel {o : Outcome (Session H) α} : R.stall.Allows (o = .outOfFuel) →
      Matches R P .outOfFuel o

variable {P P' : Session H → Prop} {m m' : Eval H α} {f f' : α → Eval H β} {s : Session H}
  {depth : Nat}

lemma Matches.mono {o o' : Outcome (Session H) α} (hm : R.Matches P o o') (hP : ∀ t, P t → P' t) :
    R.Matches P' o o' := by
  cases hm with
  | ok ht => exact .ok (hP _ ht)
  | error ht hrep => exact .error (hP _ ht) hrep
  | outOfFuel hs => exact .outOfFuel hs

lemma Matches.bind (hm : R.Matches P (m s) (m' s))
    (hf : ∀ a t, P t → R.Matches P (f a t) (f' a t)) :
    R.Matches P ((m >>= f) s) ((m' >>= f') s) := by
  change R.Matches P (Eval.bind m f s) (Eval.bind m' f' s)
  unfold Eval.bind
  generalize m s = o, m' s = o' at hm ⊢
  cases hm with
  | ok ht => exact hf _ _ ht
  | error ht hrep =>
    refine .error ht fun he => ?_
    rw [hrep he]
  | outOfFuel hs =>
    refine .outOfFuel (hs.imp fun ho => ?_)
    rw [ho]

/-- What is done at the end of an evaluation, whichever end it is. -/
lemma Matches.andAlso (hm : R.Matches P (m s) (m' s)) (leave : Session H → Session H)
    (hleave : ∀ t, P t → P' (leave t)) :
    R.Matches P' (m.andAlso leave s) (m'.andAlso leave s) := by
  unfold Eval.andAlso
  generalize m s = o, m' s = o' at hm ⊢
  cases hm with
  | ok ht => exact .ok (hleave _ ht)
  | error ht hrep =>
    refine .error (hleave _ ht) fun he => ?_
    rw [hrep he]
  | outOfFuel hs =>
    refine .outOfFuel (hs.imp fun ho => ?_)
    rw [ho]

/-- An error may be told more of on its way out, but its cause stays. -/
lemma Matches.mapError {change : EvalError → EvalError} (hm : R.Matches P (m s) (m' s))
    (hchange : ∀ e, (change e).cause = e.cause) :
    R.Matches P (m.mapError change s) (m'.mapError change s) := by
  unfold Eval.mapError
  generalize m s = o, m' s = o' at hm ⊢
  cases hm with
  | ok ht => exact .ok ht
  | error ht hrep =>
    refine .error ht fun he => ?_
    rw [hchange] at he
    rw [hrep he]
  | outOfFuel hs =>
    refine .outOfFuel (hs.imp fun ho => ?_)
    rw [ho]

/-! ## Evaluations -/

/-- The sessions on which evaluations of a depth are compared. -/
structure Stands (R : Regime H) (depth : Nat) (s : Session H) : Prop where
  holds : R.Holds s.heap
  evalDepth : s.evalDepth = depth

/-- From every session that stands so, the two evaluations do the same as far as the regime asks,
and the session that they leave stands so again. -/
def Compares (R : Regime H) (depth : Nat) (m m' : Eval H α) : Prop :=
  ∀ s, R.Stands depth s → R.Matches (R.Stands depth) (m s) (m' s)

lemma compares_pure {a : α} : R.Compares depth (pure a : Eval H α) (pure a) := fun _ hs => .ok hs

lemma compares_fail {cause : Cause} : R.Compares depth (fail cause : Eval H α) (fail cause) :=
  fun _ hs => .error hs fun _ => rfl

/-- Looking at the session. -/
lemma compares_look {look : Session H → α} :
    R.Compares depth (fun s => .ok (look s) s) fun s => .ok (look s) s := fun _ hs => .ok hs

lemma Compares.bind (hm : R.Compares depth m m') (hf : ∀ a, R.Compares depth (f a) (f' a)) :
    R.Compares depth (m >>= f) (m' >>= f') := fun s hs => (hm s hs).bind fun a t ht => hf a t ht

lemma Compares.map {g : α → β} (hm : R.Compares depth m m') :
    R.Compares depth (g <$> m) (g <$> m') :=
  hm.bind fun _ => compares_pure

lemma Compares.discard (hm : R.Compares depth m m') :
    R.Compares depth (Functor.discard m) (Functor.discard m') :=
  hm.map

/-- What an evaluation does with the session that it reads may rely on how that session stands. -/
lemma compares_get_bind {k k' : Session H → Eval H β}
    (hk : ∀ s, R.Stands depth s → R.Compares depth (k s) (k' s)) :
    R.Compares depth (Eval.get >>= k) (Eval.get >>= k') := fun s hs => hk s hs s hs

/-- Evaluations that are barred alike. Either there is no coming back from any heap that the regime
allows for, or it is compared what is done there. -/
lemma Compares.barring {hangs : Heap H → Bool} {stuck stuck' : Eval H Empty}
    (hm : R.Compares depth m m')
    (hstuck : (∀ h, R.Holds h → hangs h = false) ∨ R.Compares depth stuck stuck') :
    R.Compares depth (Eval.barring hangs stuck m) (Eval.barring hangs stuck' m') := by
  refine compares_get_bind fun s hs => ?_
  split
  · next hhangs =>
    rcases hstuck with hclear | hstuck
    · rw [hclear s.heap hs.holds] at hhangs
      cases hhangs
    · exact hstuck.map
  · exact hm

lemma Compares.mapError {change : EvalError → EvalError} (hm : R.Compares depth m m')
    (hchange : ∀ e, (change e).cause = e.cause) :
    R.Compares depth (m.mapError change) (m'.mapError change) := fun s hs =>
  (hm s hs).mapError hchange

/-- A result or a failure that both take over, whatever is made of the failure. -/
lemma compares_ofExcept_mapError {x : Except EvalError α} {change : EvalError → EvalError} :
    R.Compares depth ((Eval.ofExcept x).mapError change) ((Eval.ofExcept x).mapError change) := by
  cases x with
  | ok a => exact compares_pure
  | error e => exact fun _ hs => .error hs fun _ => rfl

lemma compares_ofExcept {x : Except EvalError α} :
    R.Compares depth (Eval.ofExcept x : Eval H α) (Eval.ofExcept x) := by
  cases x with
  | ok a => exact compares_pure
  | error e => exact fun _ hs => .error hs fun _ => rfl

/-- An operation on the heap that both do, and what they go on with. -/
lemma compares_onHeap_bind {op : HeapM H α} {ok : α → Heap H → Prop} {k k' : α → Eval H β}
    (hop : ∀ h, R.Holds h → op.Ends h (fun a h' => R.Holds h' ∧ ok a h') fun _ => R.Holds)
    (hk : ∀ a h, R.Holds h → ok a h → R.Compares depth (k a) (k' a)) :
    R.Compares depth (Eval.onHeap op >>= k) (Eval.onHeap op >>= k') := by
  intro s hs
  obtain ⟨heap, nodesNamed, evalDepth, loading⟩ := s
  change R.Matches _ (Eval.bind (Eval.onHeap op) k _) (Eval.bind (Eval.onHeap op) k' _)
  rcases (hop heap hs.holds).ok_or_error with ⟨a, h, hrun, hh, hok⟩ | ⟨e, h, hrun, hh⟩
  · simp only [Eval.bind, Eval.onHeap, hrun]
    exact hk a h hh hok _ ⟨hh, hs.evalDepth⟩
  · simp only [Eval.bind, Eval.onHeap, hrun]
    exact .error ⟨hh, hs.evalDepth⟩ fun _ => rfl

lemma compares_onHeap {op : HeapM H α} (hop : R.Keeps op) :
    R.Compares depth (Eval.onHeap op) (Eval.onHeap op) := by
  have hkeeps : ∀ h, R.Holds h → op.Ends h (fun _ h' => R.Holds h' ∧ True) fun _ => R.Holds :=
    fun h hh => (hop h hh).mono (fun _ _ hh' => ⟨hh', trivial⟩) fun _ _ hh' => hh'
  rw [← bind_pure (Eval.onHeap op)]
  exact compares_onHeap_bind hkeeps fun _ _ _ _ => compares_pure

lemma Keeps.bind {op : HeapM H α} {f : α → HeapM H β} (hop : R.Keeps op) (hf : ∀ a, R.Keeps (f a)) :
    R.Keeps (op >>= f) := fun h hh => (hop h hh).bind fun a h' hh' => hf a h' hh'

lemma keeps_pure {a : α} : R.Keeps (pure a) := fun _ hh => hh

lemma keeps_read {look : Heap H → Except EvalError α} : R.Keeps (HeapM.read look) := fun _ hh =>
  HeapM.ends_read.mpr ⟨fun _ _ => hh, fun _ _ => hh⟩

/-- An assignment overwrites one binding or adds one. -/
lemma keeps_setVariable {frame : ObjectId} {name : Name} {v : Value}
    (hassign : ∀ x, R.Keeps (Functor.discard <| Heap.assign x name v))
    (hdefine : R.Keeps (Heap.define frame name v)) : R.Keeps (Heap.setVariable frame name v) := by
  have hnearest : ∀ ids, R.Keeps (Heap.assignNearest name v ids) := by
    intro ids
    induction ids with
    | nil => exact keeps_pure
    | cons x rest ih =>
      refine Keeps.bind keeps_read fun f => ?_
      split
      · exact Keeps.bind (hassign x) fun _ => keeps_pure
      · exact ih
  refine Keeps.bind keeps_read fun ids => Keeps.bind (hnearest ids) fun found => ?_
  cases found with
  | true => exact keeps_pure
  | false => exact hdefine

lemma compares_read {look : Heap H → Except EvalError α} :
    R.Compares depth (Eval.readHeap look) (Eval.readHeap look) := compares_onHeap keeps_read

/-- What is read off the heap was on one of which the regime holds. -/
lemma compares_read_bind {look : Heap H → Except EvalError α} {k k' : α → Eval H β}
    (hk : ∀ a h, R.Holds h → look h = .ok a → R.Compares depth (k a) (k' a)) :
    R.Compares depth (Eval.readHeap look >>= k) (Eval.readHeap look >>= k') :=
  compares_onHeap_bind (fun _ hh => HeapM.ends_read.mpr ⟨fun _ ha => ⟨hh, ha⟩, fun _ _ => hh⟩) hk

lemma compares_nameText {name : Name} :
    R.Compares depth (Eval.nameText name : Eval H String) (Eval.nameText name) := compares_look

lemma compares_nextNodeName {kind : String} :
    R.Compares depth (Eval.nextNodeName kind : Eval H String) (Eval.nextNodeName kind) :=
  fun _ hs => .ok ⟨hs.holds, hs.evalDepth⟩

/-- Evaluations with a frame pinned. -/
lemma Compares.pinning {frame : ObjectId} (hpin : R.Keeps (Heap.pin frame))
    (hunpin : ∀ h, R.Holds h → R.Holds (h.unpin frame)) (hm : R.Compares depth m m') :
    R.Compares depth (Eval.withPinned frame m) (Eval.withPinned frame m') :=
  (compares_onHeap hpin).bind fun _ s hs =>
    (hm s hs).andAlso _ fun t ht => ⟨hunpin t.heap ht.holds, ht.evalDepth⟩

/-! ## Nesting -/

/-- What a limit of the second evaluation has to be: no lower, and the same if reaching it is a
failure to repeat. -/
structure Admits (R : Regime H) (limit limit' : Nat) : Prop where
  le : limit ≤ limit'
  same : R.Repeats (.recursionLimit limit) → limit' = limit

lemma Admits.refl {limit : Nat} : R.Admits limit limit := ⟨Nat.le_refl _, fun _ => rfl⟩

/-- Nested evaluations note the depth of their cursor, whatever depth is noted when they start. They
are compared only if the first one is not at its limit. -/
lemma matches_nested {env : Environment H} {limit : Nat} {c : Cursor} {m m' : Cursor → Eval H α}
    (hlimit : R.Admits env.config.maxDepth limit) (hs : R.Holds s.heap)
    (hm : c.depth < env.config.maxDepth → R.Compares (c.depth + 1)
      (m { c with depth := c.depth + 1 }) (m' { c with depth := c.depth + 1 })) :
    R.Matches (fun t => R.Holds t.heap ∧ (s.evalDepth = c.depth → t.evalDepth = c.depth))
      (Eval.nested env c m s) (Eval.nested (env.withLimit limit) c m' s) := by
  unfold Eval.nested
  by_cases hreached : env.config.maxDepth ≤ c.depth
  · -- the first evaluation is at its limit, and so is the second one if it has to repeat that
    rw [if_pos hreached]
    refine .error ⟨hs, id⟩ fun hrep => ?_
    have hsame : (env.withLimit limit).config.maxDepth = env.config.maxDepth := hlimit.same hrep
    rw [hsame, if_pos hreached]
    rfl
  · -- both go one level deeper, and note the depth again when they are back
    have hroom : ¬ (env.withLimit limit).config.maxDepth ≤ c.depth := fun hle =>
      hreached (Nat.le_trans hlimit.le hle)
    rw [if_neg hreached, if_neg hroom]
    have hbody := hm (by omega) { s with evalDepth := c.depth + 1 } ⟨hs, rfl⟩
    exact hbody.andAlso _ fun t ht => ⟨ht.holds, fun _ => rfl⟩

end Regime
end Patchbay
