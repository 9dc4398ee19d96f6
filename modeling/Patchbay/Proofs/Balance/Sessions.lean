import Patchbay.Proofs.Heap.Slots
import Patchbay.Proofs.Safety.Evaluations

/-!
# What evaluations give back

While an evaluation runs it pins frames, nests, and notes the scripts that it loads. It is balanced
if it takes all of that back, whether it ends with a value or with an error; one that does not end
owes nothing. That scripts are not loaded twice at a time is said by a second evaluation beside it,
whose loader answers as it likes for the paths that are being loaded: no answer of a loader is
noticed unless it is asked for. So there is one rule for each way to put two such evaluations
together.
-/

namespace Patchbay

variable {H : HostTypes} {α β : Type}

/-! ## Pins -/

namespace Heap

variable {h h' h'' : Heap H} {id x : ObjectId} {o : HeapObject H}

/-- A heap in order on which every object is pinned as often as on `h`. -/
structure Undisturbed (h h' : Heap H) : Prop where
  tidy : Tidy h'
  pins : SamePins h h'

namespace Undisturbed

lemma refl (ht : Tidy h) : Undisturbed h h := ⟨ht, fun _ => rfl⟩

lemma trans (h1 : Undisturbed h h') (h2 : Undisturbed h' h'') : Undisturbed h h'' :=
  ⟨h2.tidy, fun x => (h2.pins x).trans (h1.pins x)⟩

end Undisturbed

lemma pinCount_of_not_contains (hc : h.contains id = false) : h.pinCount id = 0 := by
  rw [pinCount_eq, entry?_eq_none_iff.mpr hc]
  rfl

lemma Undisturbed.touched {R : HeapObject H → HeapObject H → Prop} (ht : Tidy h)
    (hr : Touched R h h') : Undisturbed h h' :=
  ⟨hr.sameSlots.tidy ht, fun _ => hr.pinCount⟩

/-- Nobody has pinned a new object yet. -/
lemma undisturbed_alloc (ht : Tidy h) :
    Undisturbed h (h.alloc o).2 ∧ (h.alloc o).2.pinCount h.nextId = 0 := by
  have hpins : ∀ x, (h.alloc o).2.pinCount x = if x = h.nextId then 0 else h.pinCount x :=
    fun x => by
    rw [pinCount_eq, entry?_alloc ht, pinCount_eq]
    split <;> rfl
  refine ⟨⟨ht.alloc o, fun x => ?_⟩, (hpins _).trans (if_pos rfl)⟩
  rw [hpins]
  split
  · next hx => rw [hx, pinCount_of_not_contains (contains_nextId ht)]
  · rfl

lemma Tidy.modifyEntry (ht : Tidy h) {f : Entry H → Entry H} : Tidy (h.modifyEntry id f) :=
  sameSlots_modifyEntry.tidy ht

/-- What was done while a frame was pinned once more, if that pin could be counted. -/
lemma Undisturbed.unpin (hc : h.contains id = true) (hroom : h.pinCount id < h.pinCount id + 1)
    (hu : Undisturbed (h.pinned id) h') : Undisturbed h (h'.unpin id) := by
  refine ⟨hu.tidy.modifyEntry, fun x => ?_⟩
  have hpins : h'.pinCount x = (h.pinned id).pinCount x := hu.pins x
  by_cases hx : x = id
  · subst hx
    rw [pinCount_pinned hc, pinCount_eq] at hpins
    rw [pinCount_eq, entry?_unpin, if_pos rfl]
    -- the count did not overflow, so what was pinned is live still and loses one pin
    have hpos : h.pinCount x + 1 ≠ 0 := by
      intro hzero
      simp [hzero] at hroom
    cases he : h'.entry? x with
    | none =>
      rw [he] at hpins
      exact absurd hpins.symm hpos
    | some e =>
      rw [he] at hpins
      have hpins : e.pins = h.pinCount x + 1 := hpins
      simp [hpins, hpos]
  · rw [pinCount_unpin_of_ne hx, hpins, pinCount_eq, pinned, entry?_modifyEntry, if_neg hx,
      pinCount_eq]

end Heap

/-! ## Operations that leave pins alone -/

namespace HeapM

open Heap

variable {m : HeapM H α} {id : ObjectId} {v : Value} {name : Name}

/-- However the operation ends, every object is pinned as often as before. -/
def LeavesPins (m : HeapM H α) : Prop :=
  ∀ h, h.Tidy → m.Ends h (fun _ h' => Undisturbed h h') fun _ h' => Undisturbed h h'

lemma leavesPins_read {look : Heap H → Except EvalError α} : LeavesPins (read look) := fun _ ht =>
  ends_read.mpr ⟨fun _ _ => .refl ht, fun _ _ => .refl ht⟩

lemma leavesPins_alloc {o : HeapObject H} : LeavesPins (alloc o) :=
  fun _ ht => (undisturbed_alloc ht).1

lemma leavesPins_allocValue {o : HeapObject H} : LeavesPins (allocValue o) := fun _ ht =>
  (undisturbed_alloc ht).1

lemma leavesPins_of_writes {fine : Heap H → Prop}
    (hm : ∀ h, Writes (fun _ => True) (fun _ => True) (fine h) m h) : LeavesPins m := fun h ht =>
  (hm h).mono (fun _ _ hs => .touched ht hs) fun _ _ he => .touched ht he.1

lemma leavesPins_connect {input output : PortRef} :
    LeavesPins (connect input output : HeapM H Unit) := fun _ ht =>
  ends_connect_either (.refl ht) fun _ _ => .touched ht (rewired_unplug.trans rewired_plug)

lemma leavesPins_define : LeavesPins (define id name v : HeapM H Unit) :=
  leavesPins_of_writes fun _ => writes_define trivial

lemma leavesPins_bind : LeavesPins (Heap.bind id name v : HeapM H Unit) :=
  leavesPins_of_writes fun _ => writes_bind trivial

lemma leavesPins_setVariable : LeavesPins (setVariable id name v : HeapM H Unit) :=
  leavesPins_of_writes fun _ => writes_setVariable trivial

lemma leavesPins_setIndex {target : Value} {indices : List Value} :
    LeavesPins (setIndex target indices v : HeapM H Unit) :=
  leavesPins_of_writes fun _ => writes_setIndex trivial

lemma leavesPins_setParam {host : KernelHost H} {param : PortRef} :
    LeavesPins (setParam host param v) :=
  leavesPins_of_writes fun _ => writes_setParam trivial

/-- A new frame is not pinned. -/
lemma ends_childFrame {h : Heap H} (ht : Tidy h) {parent : ObjectId} {adjust : Frame → Frame} :
    (childFrame parent adjust).Ends h (fun id h' => Undisturbed h h' ∧ h'.pinCount id = 0)
      fun _ h' => Undisturbed h h' := by
  refine ends_read_bind (fun f _ => ends_alloc.mpr ?_) fun _ _ => .refl ht
  rw [alloc_fst]
  exact undisturbed_alloc ht

lemma leavesPins_childFrame {parent : ObjectId} {adjust : Frame → Frame} :
    LeavesPins (childFrame parent adjust : HeapM H ObjectId) := fun _ ht =>
  (ends_childFrame ht).mono (fun _ _ hu => hu.1) fun _ _ hu => hu

end HeapM

/-! ## Sessions -/

/-- What holds of the state that is left behind, with a value or with an error. -/
def Outcome.Leaves {S : Type} (o : Outcome S α) (P : S → Prop) : Prop :=
  match o with
  | .ok _ s => P s
  | .error _ s => P s
  | .outOfFuel => True

lemma Outcome.Leaves.mono {S : Type} {o : Outcome S α} {P Q : S → Prop} (ho : o.Leaves P)
    (hPQ : ∀ s, P s → Q s) : o.Leaves Q := by
  cases o with
  | ok a s => exact hPQ s ho
  | error e s => exact hPQ s ho
  | outOfFuel => trivial

/-- All that evaluations have to give back is as it was in `s`. -/
structure Session.Restored (s s' : Session H) : Prop where
  heap : s.heap.Undisturbed s'.heap
  evalDepth : s'.evalDepth = s.evalDepth
  loading : s'.loading = s.loading

/-- The sessions that a balanced evaluation of depth `depth` is run on: the paths of `barred` are
being loaded, and one more pin on a frame of `spare` can be counted. -/
structure Session.Standing (barred : List Path) (depth : Nat) (spare : List ObjectId)
    (s : Session H) : Prop where
  tidy : s.heap.Tidy
  evalDepth : s.evalDepth = depth
  loading : barred ⊆ s.loading
  room : ∀ id ∈ spare, s.heap.pinCount id < s.heap.pinCount id + 1

namespace Session

variable {s s' s'' : Session H} {barred : List Path} {depth : Nat} {spare : List ObjectId}

lemma Restored.refl (ht : s.heap.Tidy) : Restored s s := ⟨.refl ht, rfl, rfl⟩

lemma Restored.trans (h1 : Restored s s') (h2 : Restored s' s'') : Restored s s'' :=
  ⟨h1.heap.trans h2.heap, h2.evalDepth.trans h1.evalDepth, h2.loading.trans h1.loading⟩

lemma Standing.restored (hs : Standing barred depth spare s) (hr : Restored s s') :
    Standing barred depth spare s' where
  tidy := hr.heap.tidy
  evalDepth := hr.evalDepth.trans hs.evalDepth
  loading := hr.loading.symm ▸ hs.loading
  room id hid := by
    rw [hr.heap.pins id]
    exact hs.room id hid

end Session

/-! ## Balanced evaluations -/

namespace Eval

open Session (Restored Standing)

variable {barred : List Path} {depth : Nat} {spare : List ObjectId} {m m' : Eval H α}
  {f f' : α → Eval H β} {s r : Session H}

/-- Two evaluations end in the same way, and leave a session behind in which all is as it was in
`s`. -/
inductive Alike (s : Session H) : Outcome (Session H) α → Outcome (Session H) α → Prop where
  | ok {a : α} {t : Session H} : Restored s t → Alike s (.ok a t) (.ok a t)
  | error {e : EvalError} {t : Session H} : Restored s t → Alike s (.error e t) (.error e t)
  | outOfFuel : Alike s .outOfFuel .outOfFuel

lemma Alike.eq {o o' : Outcome (Session H) α} (ha : Alike s o o') : o' = o := by
  cases ha <;> rfl

lemma Alike.leaves {o o' : Outcome (Session H) α} (ha : Alike s o o') : o.Leaves (Restored s) := by
  cases ha with
  | ok hr => exact hr
  | error hr => exact hr
  | outOfFuel => trivial

lemma Alike.trans {o o' : Outcome (Session H) α} (hr : Restored r s) (ha : Alike s o o') :
    Alike r o o' := by
  cases ha with
  | ok hs => exact .ok (hr.trans hs)
  | error hs => exact .error (hr.trans hs)
  | outOfFuel => exact .outOfFuel

lemma Alike.map {g : α → β} (ha : Alike s (m r) (m' r)) : Alike s ((g <$> m) r) ((g <$> m') r) := by
  change Alike s (Eval.bind m (fun a => pure (g a)) r) (Eval.bind m' (fun a => pure (g a)) r)
  unfold Eval.bind
  generalize m r = o, m' r = o' at ha ⊢
  cases ha with
  | ok hr => exact .ok hr
  | error hr => exact .error hr
  | outOfFuel => exact .outOfFuel

/-- From every session that stands so, the two evaluations end in the same way and restore it. The
second one is the first one with another loader. -/
def Balanced (barred : List Path) (depth : Nat) (spare : List ObjectId) (m m' : Eval H α) : Prop :=
  ∀ s, Standing barred depth spare s → Alike s (m s) (m' s)

/-- Fewer sessions stand so when more paths are barred. -/
lemma Balanced.barring {barred' : List Path} (hm : Balanced barred depth spare m m')
    (hsub : barred ⊆ barred') : Balanced barred' depth spare m m' := fun s hs =>
  hm s ⟨hs.tidy, hs.evalDepth, fun _ hp => hs.loading (hsub hp), hs.room⟩

lemma balanced_pure {a : α} : Balanced barred depth spare (pure a : Eval H α) (pure a) :=
  fun _ hs => .ok (.refl hs.tidy)

lemma balanced_fail {cause : Cause} :
    Balanced barred depth spare (fail cause : Eval H α) (fail cause) :=
  fun _ hs => .error (.refl hs.tidy)

lemma balanced_diverge : Balanced barred depth spare (diverge : Eval H α) diverge :=
  fun _ _ => .outOfFuel

/-- Looking at the session. -/
lemma balanced_look {look : Session H → α} :
    Balanced barred depth spare (fun s => .ok (look s) s) fun s => .ok (look s) s := fun _ hs =>
  .ok (.refl hs.tidy)

lemma Balanced.bind (hm : Balanced barred depth spare m m')
    (hf : ∀ a, Balanced barred depth spare (f a) (f' a)) :
    Balanced barred depth spare (m >>= f) (m' >>= f') := by
  intro s hs
  have ha := hm s hs
  change Alike s (Eval.bind m f s) (Eval.bind m' f' s)
  unfold Eval.bind
  generalize m s = o, m' s = o' at ha ⊢
  cases ha with
  | ok hr => exact (hf _ _ (hs.restored hr)).trans hr
  | error hr => exact .error hr
  | outOfFuel => exact .outOfFuel

lemma Balanced.map {g : α → β} (hm : Balanced barred depth spare m m') :
    Balanced barred depth spare (g <$> m) (g <$> m') := fun s hs => (hm s hs).map

lemma Balanced.discard (hm : Balanced barred depth spare m m') :
    Balanced barred depth spare (discard m) (discard m') :=
  hm.map

/-- What an evaluation does with the session that it reads may rely on how that session stands. -/
lemma balanced_get_bind {k k' : Session H → Eval H β}
    (hk : ∀ s, Standing barred depth spare s → Balanced barred depth spare (k s) (k' s)) :
    Balanced barred depth spare (get >>= k) (get >>= k') := fun s hs => hk s hs s hs

lemma Balanced.mapError {change : EvalError → EvalError} (hm : Balanced barred depth spare m m') :
    Balanced barred depth spare (m.mapError change) (m'.mapError change) := by
  intro s hs
  have ha := hm s hs
  unfold Eval.mapError
  generalize m s = o, m' s = o' at ha ⊢
  cases ha with
  | ok hr => exact .ok hr
  | error hr => exact .error hr
  | outOfFuel => exact .outOfFuel

lemma balanced_ofExcept {x : Except EvalError α} :
    Balanced barred depth spare (ofExcept x : Eval H α) (ofExcept x) := by
  cases x with
  | ok a => exact balanced_pure
  | error e => exact fun _ hs => .error (.refl hs.tidy)

lemma balanced_onHeap {op : HeapM H α} (hop : op.LeavesPins) :
    Balanced barred depth spare (onHeap op) (onHeap op) := by
  intro s hs
  rcases (hop s.heap hs.tidy).ok_or_error with ⟨a, h, hrun, hu⟩ | ⟨e, h, hrun, hu⟩
  · simp only [onHeap, hrun]
    exact .ok ⟨hu, rfl, rfl⟩
  · simp only [onHeap, hrun]
    exact .error ⟨hu, rfl, rfl⟩

lemma balanced_read {look : Heap H → Except EvalError α} :
    Balanced barred depth spare (readHeap look) (readHeap look) :=
  balanced_onHeap HeapM.leavesPins_read

lemma balanced_nameText {name : Name} :
    Balanced barred depth spare (nameText name : Eval H String) (nameText name) := balanced_look

lemma balanced_nextNodeName {kind : String} :
    Balanced barred depth spare (nextNodeName kind : Eval H String) (nextNodeName kind) :=
  fun _ hs => .ok ⟨.refl hs.tidy, rfl, rfl⟩

/-! ## Brackets -/

/-- A new frame has room for a pin. -/
lemma balanced_childFrame_bind {parent : ObjectId} {adjust : Frame → Frame}
    {k k' : ObjectId → Eval H β} (hk : ∀ id, Balanced barred depth (id :: spare) (k id) (k' id)) :
    Balanced barred depth spare (onHeap (Heap.childFrame parent adjust) >>= k)
      (onHeap (Heap.childFrame parent adjust) >>= k') := by
  intro s hs
  have hends : (Heap.childFrame parent adjust).Ends s.heap _ _ := HeapM.ends_childFrame hs.tidy
  show Alike s (Eval.bind (onHeap _) k s) (Eval.bind (onHeap _) k' s)
  rcases hends.ok_or_error with ⟨id, h, hrun, hu, hpin⟩ | ⟨e, h, hrun, hu⟩
  · simp only [Eval.bind, onHeap, hrun]
    have hr : Restored s { s with heap := h } := ⟨hu, rfl, rfl⟩
    have hstands := hs.restored hr
    -- nobody has pinned the new frame, so it is one more with room
    refine (hk id _ ⟨hstands.tidy, hstands.evalDepth, hstands.loading, fun x hx => ?_⟩).trans hr
    rcases List.mem_cons.mp hx with rfl | hx
    · show h.pinCount x < h.pinCount x + 1
      simp [hpin]
    · exact hstands.room x hx
  · simp only [Eval.bind, onHeap, hrun]
    exact .error ⟨hu, rfl, rfl⟩

/-- What is done at the end of an evaluation, whichever end it is. -/
lemma Alike.andAlso (ha : Alike s (m s) (m' s)) (leave : Session H → Session H)
    (hleave : ∀ t, Restored s t → Restored r (leave t)) :
    Alike r (m.andAlso leave s) (m'.andAlso leave s) := by
  unfold Eval.andAlso
  generalize m s = o, m' s = o' at ha ⊢
  cases ha with
  | ok hr => exact .ok (hleave _ hr)
  | error hr => exact .error (hleave _ hr)
  | outOfFuel => exact .outOfFuel

/-- The pin that is put on a frame is taken back. -/
lemma Balanced.pinning {frame : ObjectId} (hframe : frame ∈ spare)
    (hm : Balanced barred depth [] m m') :
    Balanced barred depth spare (withPinned frame m) (withPinned frame m') := by
  intro s hs
  have hends : (Heap.pin frame).Ends s.heap _ _ := Heap.ends_pin
  show Alike s (Eval.bind (onHeap _) _ s) (Eval.bind (onHeap _) _ s)
  rcases hends.ok_or_error with ⟨_, h, hrun, hc, rfl⟩ | ⟨e, h, hrun, rfl, -⟩
  · simp only [Eval.bind, onHeap, hrun]
    refine (hm { s with heap := s.heap.pinned frame }
      ⟨hs.tidy.modifyEntry, hs.evalDepth, hs.loading, fun _ hid => by cases hid⟩).andAlso _
        fun t ht => ?_
    exact ⟨ht.heap.unpin hc (hs.room frame hframe), ht.evalDepth, ht.loading⟩
  · -- the frame is not live: nothing was pinned, and the body does not run
    simp only [Eval.bind, onHeap, hrun]
    exact .error (.refl hs.tidy)

/-- The depth that evaluations note is set back. -/
lemma balanced_nested {env : Environment H} {c : Cursor} {m m' : Cursor → Eval H α}
    {load : Option Loader}
    (hm : Balanced barred (c.depth + 1) spare (m { c with depth := c.depth + 1 })
      (m' { c with depth := c.depth + 1 })) :
    Balanced barred c.depth spare (nested env c m) (nested { env with loader := load } c m') := by
  unfold nested
  split
  · exact balanced_fail
  · intro s hs
    refine (hm { s with evalDepth := c.depth + 1 } ⟨hs.tidy, rfl, hs.loading, hs.room⟩).andAlso _
      fun t ht => ?_
    exact ⟨ht.heap, hs.evalDepth.symm, ht.loading⟩

end Eval
end Patchbay
