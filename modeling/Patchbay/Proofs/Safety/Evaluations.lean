import Patchbay.Proofs.Evaluation.Steps
import Patchbay.Proofs.Safety.Host

/-!
# Safe evaluations

An evaluation is safe if it takes nothing from the heap of its session, leaves it sound and does not
fail for a dead object; one that does not end owes nothing. There is one rule for each way to put
evaluations together. A frame may be pinned meanwhile if it was not pinned before.
-/

namespace Patchbay

variable {H : HostTypes} {T : Trust H} {α β : Type}

namespace Heap

variable {h h' : Heap H} {id x : ObjectId} {v : Value}

/-! ## Pinned frames -/

lemma shape?_unpin : (h.unpin id).shape? x = h.shape? x := by
  have hobj : (h.unpin id).object? x = h.object? x := object?_modifyEntry fun _ => rfl
  rw [shape?, hobj, shape?]

lemma pinCount_unpin_of_ne (hx : x ≠ id) : (h.unpin id).pinCount x = h.pinCount x := by
  rw [pinCount_eq, unpin, entry?_modifyEntry, if_neg hx, pinCount_eq]

lemma pin_eq_ok (hc : h.contains id = true) : pin id h = .ok () (h.pinned id) := by
  obtain ⟨e, he⟩ := contains_iff.mp hc
  exact HeapM.check_bind_of_ok (get_of_entry he)

/-- What was done while an unpinned frame was pinned. -/
lemma Later.unpin (hk : h.HasKind .frame id) (hpin : h.pinCount id = 0)
    (hl : Later T (h.pinned id) h') : Later T h (h'.unpin id) := by
  have hroom : h.pinCount id < h.pinCount id + 1 := by
    rw [hpin]
    decide
  have he := (extends_pinned hroom).trans hl.grown
  refine ⟨⟨fun x s hs => ?_, fun x => ?_⟩, hl.sound.unpin (he.hasKind hk)⟩
  · rw [shape?_unpin]
    exact he.shape x s hs
  · by_cases hx : x = id
    · rw [hx, hpin]
      exact UInt32.zero_le
    · rw [pinCount_unpin_of_ne hx]
      exact he.pins x

lemma validIn_unpin (hv : v.ValidIn h) : v.ValidIn (h.unpin id) := by
  cases v with
  | absent => trivial
  | prim p => trivial
  | object kind x =>
    obtain ⟨s, hs, hkind⟩ := hv
    exact ⟨s, shape?_unpin.trans hs, hkind⟩
  | port kind p =>
    obtain ⟨s, hs, hport⟩ := hv
    exact ⟨s, shape?_unpin.trans hs, hport⟩

end Heap

/-- Whether the value of a return statement is valid. -/
def Flow.ValidIn (h : Heap H) : Flow → Prop
  | .next => True
  | .ret v => v.ValidIn h

lemma Flow.validIn_unpin {h : Heap H} {flow : Flow} {id : ObjectId} (hf : flow.ValidIn h) :
    flow.ValidIn (h.unpin id) := by
  cases flow with
  | next => trivial
  | ret v => exact Heap.validIn_unpin hf

namespace Eval

open Heap (Later Sound)

variable {m : Eval H α} {f : α → Eval H β} {s : Session H} {Q Q' : α → Heap H → Prop}
  {R : β → Heap H → Prop} {env : Environment H} {c : Cursor}

/-- The evaluation takes nothing from the heap, keeps it sound, does not fail for a dead object, and
its result satisfies `Q`. -/
def Safe (T : Trust H) (m : Eval H α) (s : Session H) (Q : α → Heap H → Prop) : Prop :=
  match m s with
  | .ok a s' => Later T s.heap s'.heap ∧ Q a s'.heap
  | .error e s' => Later T s.heap s'.heap ∧ e.isDead = false
  | .outOfFuel => True

lemma safe_pure {a : α} (hs : Sound T s.heap) (hQ : Q a s.heap) : Safe T (pure a : Eval H α) s Q :=
  ⟨hs.later, hQ⟩

lemma safe_fail {cause : Cause} (hs : Sound T s.heap) (hc : (EvalError.of cause).isDead = false) :
    Safe T (fail cause : Eval H α) s Q :=
  ⟨hs.later, hc⟩

lemma Safe.bind (hm : Safe T m s Q)
    (hf : ∀ a s', Later T s.heap s'.heap → Q a s'.heap → Safe T (f a) s' R) :
    Safe T (m >>= f) s R := by
  have hrun : (m >>= f) s = Eval.bind m f s := rfl
  unfold Safe at hm ⊢
  rw [hrun, Eval.bind]
  cases hr : m s with
  | ok a s' =>
    rw [hr] at hm
    have hnext := hf a s' hm.1 hm.2
    unfold Safe at hnext
    dsimp only
    cases hr' : f a s' with
    | ok b s'' =>
      rw [hr'] at hnext
      exact ⟨hm.1.trans hnext.1, hnext.2⟩
    | error e s'' =>
      rw [hr'] at hnext
      exact ⟨hm.1.trans hnext.1, hnext.2⟩
    | outOfFuel => trivial
  | error e s' =>
    rw [hr] at hm
    exact hm
  | outOfFuel => trivial

lemma Safe.mono (hm : Safe T m s Q) (hQ : ∀ a h', Later T s.heap h' → Q a h' → Q' a h') :
    Safe T m s Q' := by
  unfold Safe at hm ⊢
  cases hr : m s with
  | ok a s' =>
    rw [hr] at hm
    exact ⟨hm.1, hQ a _ hm.1 hm.2⟩
  | error e s' =>
    rw [hr] at hm
    exact hm
  | outOfFuel => trivial

lemma Safe.map {g : α → β} (hm : Safe T m s fun a h => R (g a) h) : Safe T (g <$> m) s R :=
  Safe.bind (f := fun a => pure (g a)) hm fun _ _ hl hR => safe_pure hl.sound hR

lemma Safe.discard (hm : Safe T m s Q) : Safe T (discard m) s fun _ _ => True :=
  Safe.map (hm.mono fun _ _ _ _ => trivial)

lemma safe_onHeap {m : HeapM H α} (hm : HeapM.Safe T m s.heap Q) : Safe T (onHeap m) s Q := by
  obtain ⟨h, n, d, l⟩ := s
  unfold HeapM.Safe HeapM.Keeps HeapM.Ends at hm
  unfold Safe onHeap
  dsimp only at hm ⊢
  cases hr : m h with
  | ok a h' =>
    rw [hr] at hm
    exact hm
  | error e h' =>
    rw [hr] at hm
    exact ⟨hm.1, hm.2 trivial⟩

lemma safe_read {look : Heap H → Except EvalError α} (hs : Sound T s.heap)
    (hq : Quiet (look s.heap))
    (hQ : ∀ a, look s.heap = .ok a → Q a s.heap) : Safe T (readHeap look) s Q :=
  safe_onHeap (HeapM.safe_read hs hq hQ)

lemma safe_ofExcept {r : Except EvalError α} (hs : Sound T s.heap) (hq : Quiet r)
    (hQ : ∀ a, r = .ok a → Q a s.heap) : Safe T (ofExcept r) s Q := by
  cases hr : r with
  | ok a => exact ⟨hs.later, hQ a hr⟩
  | error e => exact ⟨hs.later, hq e hr⟩

lemma Safe.mapError {change : EvalError → EvalError} (hm : Safe T m s Q)
    (hc : ∀ e, e.isDead = false → (change e).isDead = false) : Safe T (m.mapError change) s Q := by
  unfold Safe Eval.mapError at *
  cases hr : m s with
  | ok a s' =>
    rw [hr] at hm
    exact hm
  | error e s' =>
    rw [hr] at hm
    exact ⟨hm.1, hc e hm.2⟩
  | outOfFuel => trivial

lemma Safe.withNote {note : String} (hm : Safe T m s Q) :
    Safe T (m.mapError fun e => e.withNote note) s Q :=
  hm.mapError fun _ he => he

lemma Safe.withCallSite {site : Location} (hm : Safe T m s Q) :
    Safe T (m.mapError fun e => e.withCallSite site) s Q :=
  hm.mapError fun e he => by
    unfold EvalError.withCallSite
    split <;> exact he

lemma Safe.locatedAt {loc : Location} (hm : Safe T m s Q) :
    Safe T (m.mapError fun e => e.locatedAt loc) s Q :=
  hm.mapError fun e he => by
    unfold EvalError.locatedAt
    split <;> exact he

/-- What is restored after an evaluation and leaves the heap alone. -/
lemma Safe.andAlso {restore : Session H → Session H} (hm : Safe T m s Q)
    (hr : ∀ s, (restore s).heap = s.heap) : Safe T (m.andAlso restore) s Q := by
  unfold Safe Eval.andAlso at *
  cases hrun : m s with
  | ok a s' =>
    rw [hrun] at hm
    exact ⟨hr s' ▸ hm.1, hr s' ▸ hm.2⟩
  | error e s' =>
    rw [hrun] at hm
    exact ⟨hr s' ▸ hm.1, hm.2⟩
  | outOfFuel => trivial

/-- A change of the session that leaves the heap alone. -/
lemma safe_modify_bind {g : Session H → Session H} {k : Unit → Eval H β} (hg : (g s).heap = s.heap)
    (hk : Safe T (k ()) (g s) R) : Safe T (Eval.modify g >>= k) s R := by
  have hrun : (Eval.modify g >>= k) s = k () (g s) := rfl
  unfold Safe at hk ⊢
  rw [hrun, ← hg]
  exact hk

lemma safe_get_bind {k : Session H → Eval H β} (hk : Safe T (k s) s R) :
    Safe T (Eval.get >>= k) s R := hk

/-- An evaluation that may be barred. -/
lemma Safe.barring {hangs : Heap H → Bool} {stuck : Eval H Empty} (hm : Safe T m s Q)
    (hstuck : Safe T stuck s fun _ _ => True) : Safe T (barring hangs stuck m) s Q := by
  refine safe_get_bind ?_
  split
  · exact (hstuck.mono fun a _ _ _ => a.elim).map
  · exact hm

lemma safe_nameText_bind {name : Name} {k : String → Eval H β}
    (hk : ∀ text, Safe T (k text) s R) : Safe T (nameText name >>= k) s R :=
  hk _

lemma safe_nextNodeName_bind {kind : String} {k : String → Eval H β}
    (hk : ∀ text s', s'.heap = s.heap → Safe T (k text) s' R) :
    Safe T (nextNodeName kind >>= k) s R :=
  hk _ { s with nodesNamed := s.nodesNamed + 1 } rfl

lemma safe_nested {m : Cursor → Eval H α} (hs : Sound T s.heap)
    (hm : ∀ s', s'.heap = s.heap → Safe T (m { c with depth := c.depth + 1 }) s' Q) :
    Safe T (nested env c m) s Q := by
  unfold nested
  split
  · exact safe_fail hs rfl
  · refine safe_modify_bind rfl ?_
    exact (hm { s with evalDepth := c.depth + 1 } rfl).andAlso fun _ => rfl

/-- An evaluation with a frame pinned that was not pinned before. -/
lemma safe_withPinned {frame : ObjectId} {m : Eval H Flow} (hs : Sound T s.heap)
    (hk : s.heap.HasKind .frame frame) (hpin : s.heap.pinCount frame = 0)
    (hm : ∀ s', Later T s.heap s'.heap → Safe T m s' fun flow h => flow.ValidIn h) :
    Safe T (withPinned frame m) s fun flow h => flow.ValidIn h := by
  have hroom : s.heap.pinCount frame < s.heap.pinCount frame + 1 := by
    rw [hpin]
    decide
  obtain ⟨h, n, d, l⟩ := s
  have hrun : withPinned frame m ⟨h, n, d, l⟩ =
      (m.andAlso fun s => { s with heap := s.heap.unpin frame }) ⟨h.pinned frame, n, d, l⟩ := by
    have hstart : onHeap (Heap.pin frame) ⟨h, n, d, l⟩ = .ok () ⟨h.pinned frame, n, d, l⟩ := by
      simp [onHeap, Heap.pin_eq_ok hk.contains]
    simp [withPinned, Bind.bind, Eval.bind, hstart]
  -- with the frame pinned, which `unpin` takes back whether the evaluation fails or not
  have hinner := hm ⟨h.pinned frame, n, d, l⟩ ⟨Heap.extends_pinned hroom, hs.pinned hroom⟩
  unfold Safe at hinner ⊢
  rw [hrun]
  unfold Eval.andAlso
  cases hr : m ⟨h.pinned frame, n, d, l⟩ with
  | ok a s' =>
    rw [hr] at hinner
    exact ⟨hinner.1.unpin hk hpin, Flow.validIn_unpin hinner.2⟩
  | error e s' =>
    rw [hr] at hinner
    exact ⟨hinner.1.unpin hk hpin, hinner.2⟩
  | outOfFuel => trivial

end Eval

end Patchbay
