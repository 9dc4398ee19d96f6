import Patchbay.Proofs.Courses.Conduct

/-!
# Evaluations that take a course

`Takes` says that an evaluation takes a course, whichever way it ends, and what holds of its result
in the end; running out of fuel has to be allowed. There is one rule for each way to put evaluations
together.
-/

namespace Patchbay

variable {H : HostTypes} {K : Customs H} {env : Environment H} {α β : Type}

/-! ## Operations on the heap -/

namespace HeapM

variable {m : HeapM H α} {f : α → HeapM H β} {h : Heap H} {l : Ledger}
  {Q Q' : α → Heap H → Ledger → Prop} {R : β → Heap H → Ledger → Prop}

/-- The operation takes a course. -/
def Takes (K : Customs H) (env : Environment H) (m : HeapM H α) (h : Heap H) (l : Ledger)
    (Q : α → Heap H → Ledger → Prop) : Prop :=
  m.Ends h (fun a h' => ∃ l', Course K env (h, l) (h', l') ∧ Q a h' l')
    fun _ h' => ∃ l', Course K env (h, l) (h', l')

lemma takes_pure {a : α} (hQ : Q a h l) : Takes K env (pure a : HeapM H α) h l Q := ⟨l, .refl, hQ⟩

lemma takes_read {look : Heap H → Except EvalError α} (hQ : ∀ a, look h = .ok a → Q a h l) :
    Takes K env (read look) h l Q :=
  ends_read.mpr ⟨fun a ha => ⟨l, .refl, hQ a ha⟩, fun _ _ => ⟨l, .refl⟩⟩

lemma Takes.bind (hm : Takes K env m h l Q)
    (hf : ∀ a h' l', Course K env (h, l) (h', l') → Q a h' l' → Takes K env (f a) h' l' R) :
    Takes K env (m >>= f) h l R := by
  refine Ends.bind hm fun a h' ⟨l', hc, hQ⟩ => ?_
  exact Ends.mono (hf a h' l' hc hQ) (fun b h'' ⟨l'', hc', hR⟩ => ⟨l'', hc.trans hc', hR⟩)
    fun _ h'' ⟨l'', hc'⟩ => ⟨l'', hc.trans hc'⟩

lemma Takes.mono (hm : Takes K env m h l Q)
    (hQ : ∀ a h' l', Course K env (h, l) (h', l') → Q a h' l' → Q' a h' l') :
    Takes K env m h l Q' :=
  Ends.mono hm (fun a h' ⟨l', hc, hq⟩ => ⟨l', hc, hQ a h' l' hc hq⟩) fun _ _ he => he

/-- An operation of the language on its own. -/
lemma takes_own {op : Operation H} (ho : K.Own env.root l op) (hsame : l.after h op = l) :
    Takes K env (op.run env.host.toKernelHost) h l fun _ _ l' => l' = l := by
  have hstep : Course K env (h, l) (op.after env.host.toKernelHost h, l) := by
    have hone : Step K env (h, l) (op.after env.host.toKernelHost h, l.after h op) := .own ho
    rw [hsame] at hone
    exact .single hone
  have hends := ends_of_leaves (Q := fun h' => Course K env (h, l) (h', l)) hstep
  exact hends.mono (fun _ _ hc => ⟨l, hc, rfl⟩) fun _ _ hc => ⟨l, hc⟩

/-- Host code that runs an errand, where its errands are steps. -/
lemma takes_errand {P : α → Ledger → Prop}
    (hstep : ∀ {h' l'}, m.leaves h = h' → K.Errand env.host.toKernelHost (h, l) (h', l') →
      Step K env (h, l) (h', l'))
    (hm : m.Ends h (fun a h' => ∃ l', K.Errand env.host.toKernelHost (h, l) (h', l') ∧ P a l')
      fun _ h' => ∃ l', K.Errand env.host.toKernelHost (h, l) (h', l')) :
    Takes K env m h l fun a _ l' => P a l' := by
  unfold leaves at hstep
  unfold Takes Ends at *
  cases hr : m h with
  | ok a h' =>
    rw [hr] at hm hstep
    obtain ⟨l', herrand, hP⟩ := hm
    exact ⟨l', .single (hstep rfl herrand), hP⟩
  | error e h' =>
    rw [hr] at hm hstep
    obtain ⟨l', herrand⟩ := hm
    exact ⟨l', .single (hstep rfl herrand)⟩

/-- A new object; its handle becomes known. -/
lemma takes_alloc {o : HeapObject H} (ho : K.Own env.root l (.alloc o)) :
    Takes K env (alloc o) h l fun id h' l' => id = h.nextId ∧ h' = (h.alloc o).2 ∧
      l'.knows (.object o.kind id) := by
  exact ⟨_, .single (.own ho), Heap.alloc_fst, rfl,
    .inr (congrArg (Value.object o.kind) Heap.alloc_fst)⟩

lemma takes_allocValue {o : HeapObject H} (ho : K.Own env.root l (.alloc o)) :
    Takes K env (allocValue o) h l fun v _ l' => l'.knows v := by
  have halloc : Takes K env (alloc o) h l _ := takes_alloc ho
  obtain ⟨l', hc, -, -, hk⟩ := halloc
  exact ⟨l', hc, hk⟩

end HeapM

/-! ## Evaluations -/

/-- Whether the value of a return statement is known. -/
def Flow.Known (l : Ledger) : Flow → Prop
  | .next => True
  | .ret v => l.knows v

namespace Eval

variable {m : Eval H α} {f : α → Eval H β} {s : Session H} {l : Ledger} {c : Cursor}
  {Q Q' : α → Heap H → Ledger → Prop} {R : β → Heap H → Ledger → Prop}

/-- The evaluation takes a course from `l`, at the end of which `Q` holds of its result, unless it
may run out of fuel and does. -/
def Takes (K : Customs H) (env : Environment H) (m : Eval H α) (s : Session H) (l : Ledger)
    (Q : α → Heap H → Ledger → Prop) : Prop :=
  match m s with
  | .ok a s' => ∃ l', Course K env (s.heap, l) (s'.heap, l') ∧ Q a s'.heap l'
  | .error _ s' => ∃ l', Course K env (s.heap, l) (s'.heap, l')
  | .outOfFuel => K.stalls

lemma takes_pure {a : α} (hQ : Q a s.heap l) : Takes K env (pure a : Eval H α) s l Q :=
  ⟨l, .refl, hQ⟩

lemma takes_fail {cause : Cause} : Takes K env (fail cause : Eval H α) s l Q := ⟨l, .refl⟩

lemma takes_diverge (hstalls : K.stalls) : Takes K env (diverge : Eval H α) s l Q := hstalls

lemma Takes.bind (hm : Takes K env m s l Q)
    (hf : ∀ a s' l', Course K env (s.heap, l) (s'.heap, l') → Q a s'.heap l' →
      Takes K env (f a) s' l' R) :
    Takes K env (m >>= f) s l R := by
  unfold Takes at hm
  change match Eval.bind m f s with
    | .ok a s' => _
    | .error _ s' => _
    | .outOfFuel => K.stalls
  unfold Eval.bind
  cases hr : m s with
  | ok a s' =>
    rw [hr] at hm
    obtain ⟨l', hc, hQ⟩ := hm
    have hnext := hf a s' l' hc hQ
    unfold Takes at hnext
    dsimp only
    cases hr' : f a s' with
    | ok b s'' =>
      rw [hr'] at hnext
      obtain ⟨l'', hc', hR⟩ := hnext
      exact ⟨l'', hc.trans hc', hR⟩
    | error e s'' =>
      rw [hr'] at hnext
      obtain ⟨l'', hc'⟩ := hnext
      exact ⟨l'', hc.trans hc'⟩
    | outOfFuel =>
      rw [hr'] at hnext
      exact hnext
  | error e s' =>
    rw [hr] at hm
    exact hm
  | outOfFuel =>
    rw [hr] at hm
    exact hm

lemma Takes.mono (hm : Takes K env m s l Q)
    (hQ : ∀ a h' l', Course K env (s.heap, l) (h', l') → Q a h' l' → Q' a h' l') :
    Takes K env m s l Q' := by
  unfold Takes at hm ⊢
  cases hr : m s with
  | ok a s' =>
    rw [hr] at hm
    obtain ⟨l', hc, hq⟩ := hm
    exact ⟨l', hc, hQ a _ l' hc hq⟩
  | error e s' =>
    rw [hr] at hm
    exact hm
  | outOfFuel =>
    rw [hr] at hm
    exact hm

lemma Takes.map {g : α → β} (hm : Takes K env m s l fun a => R (g a)) :
    Takes K env (g <$> m) s l R :=
  Takes.bind (f := fun a => pure (g a)) hm fun _ _ _ _ hR => takes_pure hR

lemma Takes.discard (hm : Takes K env m s l Q) :
    Takes K env (discard m) s l fun _ _ _ => True :=
  Takes.map (hm.mono fun _ _ _ _ _ => trivial)

lemma takes_onHeap {m : HeapM H α} (hm : HeapM.Takes K env m s.heap l Q) :
    Takes K env (onHeap m) s l Q := by
  unfold HeapM.Takes HeapM.Ends at hm
  unfold Takes onHeap
  dsimp only
  cases hr : m s.heap with
  | ok a h' =>
    rw [hr] at hm
    exact hm
  | error e h' =>
    rw [hr] at hm
    exact hm

lemma takes_read {look : Heap H → Except EvalError α}
    (hQ : ∀ a, look s.heap = .ok a → Q a s.heap l) : Takes K env (readHeap look) s l Q :=
  takes_onHeap (HeapM.takes_read hQ)

lemma takes_ofExcept {r : Except EvalError α} (hQ : ∀ a, r = .ok a → Q a s.heap l) :
    Takes K env (ofExcept r) s l Q := by
  cases hr : r with
  | ok a => exact ⟨l, .refl, hQ a hr⟩
  | error e => exact ⟨l, .refl⟩

lemma Takes.mapError {change : EvalError → EvalError} (hm : Takes K env m s l Q) :
    Takes K env (m.mapError change) s l Q := by
  unfold Takes Eval.mapError at *
  cases hr : m s with
  | ok a s' =>
    rw [hr] at hm
    exact hm
  | error e s' =>
    rw [hr] at hm
    exact hm
  | outOfFuel =>
    rw [hr] at hm
    exact hm

/-- What is restored after an evaluation and leaves the heap alone. -/
lemma Takes.andAlso {restore : Session H → Session H} (hm : Takes K env m s l Q)
    (hr : ∀ s, (restore s).heap = s.heap) : Takes K env (m.andAlso restore) s l Q := by
  unfold Takes Eval.andAlso at *
  cases hrun : m s with
  | ok a s' =>
    rw [hrun] at hm
    simpa only [hr] using hm
  | error e s' =>
    rw [hrun] at hm
    simpa only [hr] using hm
  | outOfFuel =>
    rw [hrun] at hm
    exact hm

/-- A change of the session that leaves the heap alone. -/
lemma takes_modify_bind {g : Session H → Session H} {k : Unit → Eval H β} (hg : (g s).heap = s.heap)
    (hk : Takes K env (k ()) (g s) l R) : Takes K env (Eval.modify g >>= k) s l R := by
  have hrun : (Eval.modify g >>= k) s = k () (g s) := rfl
  unfold Takes at hk ⊢
  rw [hrun, ← hg]
  exact hk

lemma takes_get_bind {k : Session H → Eval H β} (hk : Takes K env (k s) s l R) :
    Takes K env (Eval.get >>= k) s l R := hk

/-- An evaluation that may be barred. -/
lemma Takes.barring {hangs : Heap H → Bool} {stuck : Eval H Empty} (hm : Takes K env m s l Q)
    (hstuck : Takes K env stuck s l fun _ _ _ => True) :
    Takes K env (barring hangs stuck m) s l Q := by
  refine takes_get_bind ?_
  split
  · exact (hstuck.mono fun a _ _ _ _ => a.elim).map
  · exact hm

lemma takes_nameText_bind {name : Name} {k : String → Eval H β}
    (hk : ∀ text, Takes K env (k text) s l R) : Takes K env (nameText name >>= k) s l R :=
  hk _

lemma takes_nextNodeName_bind {kind : String} {k : String → Eval H β}
    (hk : ∀ text s', s'.heap = s.heap → Takes K env (k text) s' l R) :
    Takes K env (nextNodeName kind >>= k) s l R :=
  hk _ { s with nodesNamed := s.nodesNamed + 1 } rfl

lemma takes_nested {m : Cursor → Eval H α}
    (hm : ∀ s', s'.heap = s.heap → Takes K env (m { c with depth := c.depth + 1 }) s' l Q) :
    Takes K env (nested env c m) s l Q := by
  unfold nested
  split
  · exact takes_fail
  · refine takes_modify_bind rfl ?_
    exact (hm { s with evalDepth := c.depth + 1 } rfl).andAlso fun _ => rfl

/-- A frame other than the root frame is pinned for the time of an evaluation. -/
lemma takes_withPinned {frame : ObjectId} {m : Eval H α} {Q : α → Ledger → Prop}
    (hframe : K.trusting ∨ frame ≠ env.root)
    (hm : ∀ s', Course K env (s.heap, l) (s'.heap, l) → Takes K env m s' l fun a _ => Q a) :
    Takes K env (withPinned frame m) s l fun a _ => Q a := by
  have hpin : HeapM.Takes K env (Heap.pin frame) s.heap l fun _ _ l' => l' = l :=
    HeapM.takes_own (show K.Own env.root l (.pin frame) from hframe) rfl
  refine (takes_onHeap hpin).bind fun _ s1 l1 h1 hl => ?_
  subst hl
  have hinner := hm s1 h1
  have hunpin : ∀ h l, Course K env (h, l) (h.unpin frame, l) := fun h l =>
    .single (.own (show K.Own env.root l (.unpin frame) from hframe))
  unfold Takes Eval.andAlso at *
  cases hr : m s1 with
  | ok a s' =>
    rw [hr] at hinner
    obtain ⟨l', hc, hQ⟩ := hinner
    exact ⟨l', hc.trans (hunpin _ _), hQ⟩
  | error e s' =>
    rw [hr] at hinner
    obtain ⟨l', hc⟩ := hinner
    exact ⟨l', hc.trans (hunpin _ _)⟩
  | outOfFuel =>
    rw [hr] at hinner
    exact hinner

end Eval

end Patchbay
