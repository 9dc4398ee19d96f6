import Patchbay.Proofs.Scopes.Assignment
import Patchbay.Proofs.Scopes.Chains

/-!
# Walks along parents

Looking up a name, assigning to one and looking for `this` go from frame to frame along the parents,
with no bound on their number: what the walk does at a frame, and where it goes on, depends on that
frame alone. It ends because parents lead back. A frame that is made in another one is one level
deeper.
-/

namespace Patchbay

variable {H : HostTypes} {α β : Type}

/-! ## Evaluations that end -/

namespace Eval

/-- The evaluation ends, unless `P`. -/
def EndsUnless (P : Prop) (m : Eval H α) : Prop := ∀ s, m s = .outOfFuel → P

variable {P : Prop} {m : Eval H α} {f : α → Eval H β}

lemma endsUnless_pure {a : α} : EndsUnless P (pure a : Eval H α) := nofun

lemma endsUnless_nameText {name : Name} : EndsUnless P (nameText name : Eval H String) := nofun

lemma endsUnless_onHeap {op : HeapM H α} : EndsUnless P (onHeap op) := by
  rintro ⟨heap, nodesNamed, evalDepth, loading⟩ hr
  unfold onHeap at hr
  dsimp only at hr
  split at hr <;> cases hr

lemma EndsUnless.bind (hm : EndsUnless P m) (hf : ∀ a, EndsUnless P (f a)) :
    EndsUnless P (m >>= f) := by
  intro s hr
  change Eval.bind m f s = _ at hr
  unfold Eval.bind at hr
  split at hr
  · exact hf _ _ hr
  · cases hr
  · next hrun => exact hm s hrun

lemma EndsUnless.map {g : α → β} (hm : EndsUnless P m) : EndsUnless P (g <$> m) :=
  hm.bind fun _ => endsUnless_pure

lemma EndsUnless.mapError {change : EvalError → EvalError} (hm : EndsUnless P m) :
    EndsUnless P (m.mapError change) := by
  intro s hr
  unfold Eval.mapError at hr
  split at hr
  · cases hr
  · exact hm s hr

lemma EndsUnless.andAlso {leave : Session H → Session H} (hm : EndsUnless P m) :
    EndsUnless P (m.andAlso leave) := by
  intro s hr
  unfold Eval.andAlso at hr
  split at hr
  · cases hr
  · cases hr
  · next hrun => exact hm s hrun

end Eval

open Eval

variable {env : Environment H} {self : Runner H} {s t : Session H} {x p : ObjectId} {name : Name}
  {f : Frame}

/-- Some script that is run for a name in one of the frames does not end. -/
def ScriptStalls (env : Environment H) (self : Runner H) (name : Name) (ids : List ObjectId) :
    Prop :=
  ∃ y ∈ ids, ∃ load ident path t, env.loader = some load ∧
    Resolve.runScript self load y name ident path t = .outOfFuel

variable {ids : List ObjectId}

lemma endsUnless_script (hx : x ∈ ids) {ident : String} {dir : Path} :
    EndsUnless (ScriptStalls env self name ids) (Resolve.script env self x name ident dir) := by
  unfold Resolve.script Resolve.whileLoading
  dsimp only
  split
  · next load _ hload =>
    refine EndsUnless.bind nofun fun s => ?_
    split
    · exact endsUnless_pure
    · refine EndsUnless.bind nofun fun _ => EndsUnless.bind ?_ fun _ => endsUnless_pure
      exact EndsUnless.andAlso fun t hr => ⟨x, hx, load, ident, _, t, hload, hr⟩
  · exact endsUnless_pure

lemma endsUnless_find (hx : x ∈ ids) :
    EndsUnless (ScriptStalls env self name ids) (Resolve.find env self x name) := by
  refine endsUnless_nameText.bind fun ident => endsUnless_onHeap.bind fun f => ?_
  dsimp only
  split
  · exact (endsUnless_onHeap.bind fun _ => endsUnless_pure).map
  · split
    · exact (endsUnless_onHeap.mapError.bind fun _ => endsUnless_onHeap).map
    · split
      · exact EndsUnless.map endsUnless_onHeap
      · split
        · exact endsUnless_script hx
        · exact endsUnless_pure

/-- All that a look-up does in a frame ends, scripts apart. -/
lemma endsUnless_lookupIn (hx : x ∈ ids) :
    EndsUnless (ScriptStalls env self name ids) (lookupIn env self x name) := by
  refine EndsUnless.bind endsUnless_onHeap fun f => ?_
  split
  · exact endsUnless_pure
  · split
    · refine (endsUnless_find hx).bind fun found => ?_
      split
      · exact endsUnless_onHeap.bind fun _ => endsUnless_pure
      · exact endsUnless_pure
    · exact endsUnless_pure

/-- A frame that has nothing for a name leaves everything as it was. -/
lemma eq_of_lookupIn_none (hr : lookupIn env self x name s = .ok none t) : t = s := by
  obtain ⟨f, hf, ⟨v, -, hfound, -⟩ | ⟨hget, hdemand, hplain⟩⟩ := lookupIn_eq_ok hr
  · cases hfound
  · cases hd : (f.path.isSome || x = env.root : Bool) with
    | false => exact (hplain hd).2
    | true =>
      have hm := misses_of_resolve hf (hdemand hd)
      rw [lookupIn_eq hf hget fun _ => hm] at hr
      cases hr
      rfl

/-- A look-up along frames from which a walk comes to an end does so, unless a script that it runs
does not. -/
lemma scriptStalls_of_lookupAlong (hends : s.heap.endless x = false) (rest : List ObjectId)
    (hrest : rest ⊆ ids) (hr : lookupAlong env self x name rest s = .outOfFuel) :
    ScriptStalls env self name ids := by
  induction rest with
  | nil =>
    rw [lookupAlong, barring_of_clear hends] at hr
    cases hr
  | cons y rest ih =>
    obtain ⟨hy, hrest⟩ := List.cons_subset.mp hrest
    change Eval.bind _ _ s = _ at hr
    unfold Eval.bind at hr
    cases hin : lookupIn env self y name s with
    | error e t => simp [hin] at hr
    | outOfFuel => exact endsUnless_lookupIn hy s hin
    | ok found t =>
      cases found with
      | some v =>
        rw [hin] at hr
        cases hr
      | none =>
        -- nothing was found in the frame, so the look-up goes on from `s`
        rw [hin, eq_of_lookupIn_none hin] at hr
        exact ih hrest hr

/-- It makes no difference where a look-up along frames started, if walks from there come to an
end. -/
lemma lookupAlong_congr {y : ObjectId} (hx : s.heap.endless x = false)
    (hy : s.heap.endless y = false) (ids : List ObjectId) :
    lookupAlong env self x name ids s = lookupAlong env self y name ids s := by
  induction ids with
  | nil => rw [lookupAlong, lookupAlong, barring_of_clear hx, barring_of_clear hy]
  | cons z rest ih =>
    change Eval.bind _ _ s = Eval.bind _ _ s
    unfold Eval.bind
    cases hin : lookupIn env self z name s with
    | error e t => rfl
    | outOfFuel => rfl
    | ok found t =>
      cases found with
      | some v => rfl
      | none =>
        rw [eq_of_lookupIn_none hin]
        exact ih

namespace Heap

variable {h : Heap H} {strict : Prop} {v : Value} {e : EvalError}

/-! ## One frame of a walk -/

/-- What a look-up does in a frame: what the frame has for the name, or else what is found in its
parent. -/
lemma Ancestral.lookup_eq (ha : Ancestral strict s.heap) (hf : s.heap.object? x = some (.frame f)) :
    lookup env self x name s = (do
      match ← lookupIn env self x name with
      | some v => return v
      | none =>
        match f.parent with
        | some p => lookup env self p name
        | none => fail (.undefinedVariable (← Eval.nameText name)) : Eval H Value) s := by
  have hlook : ∀ y, lookup env self y name s = lookupAlong env self y name (s.heap.lineage y) s :=
    fun _ => rfl
  rw [hlook, ha.lineage_eq, parent?_of_frame hf]
  change Eval.bind _ _ s = Eval.bind _ _ s
  unfold Eval.bind
  cases hin : lookupIn env self x name s with
  | error e t => rfl
  | outOfFuel => rfl
  | ok found t =>
    cases found with
    | some v => rfl
    | none =>
      -- nothing happened in the frame, so the walk goes on along the same lineage
      rw [eq_of_lookupIn_none hin]
      cases f.parent with
      | none => exact barring_of_clear (ha.ends x)
      | some p => exact lookupAlong_congr (ha.ends x) (ha.ends p) _

/-- What an assignment does in a frame. -/
lemma Ancestral.assignNearest_eq (ha : Ancestral strict h) (hf : h.object? x = some (.frame f)) :
    assignNearest name v (h.lineage x) h =
      if f.contains name then (do discard <| assign x name v; return true : HeapM H Bool) h else
        match f.parent with
        | some p => assignNearest name v (h.lineage p) h
        | none => .ok false h := by
  rw [ha.lineage_eq, parent?_of_frame hf, assignNearest, HeapM.read_bind_of_ok (frame_eq_ok.mpr hf)]
  split
  · rfl
  · cases f.parent <;> rfl

/-- What a look for `this` does in a frame. -/
lemma Ancestral.thisFrame_eq (ha : Ancestral strict h) (hf : h.object? x = some (.frame f)) :
    h.thisFrame x = if f.isThis then .ok x else
      match f.parent with
      | some p => h.thisFrame p
      | none => fail .thisOutsideFrame := by
  rw [thisFrame, ha.lineage_eq, parent?_of_frame hf, nearestThis, frame_eq_ok.mpr hf]
  change (if f.isThis = true then _ else _) = _
  split
  · rfl
  · cases f.parent <;> rfl

lemma lineage_of_error (he : h.frame x = .error e) : h.lineage x = [x] := by
  have hp : h.parent? x = none := by rw [parent?, he]
  exact (ParentChain.outermost hp).lineage_eq

/-! ## New frames -/

/-- A frame is made in a live one, which stays what it is. -/
lemma exists_childFrame (ht : Tidy h) (hf : h.object? p = some (.frame f))
    (adjust : Frame → Frame) : ∃ x h', childFrame p adjust h = .ok x h' ∧
      h'.object? x = some (.frame (adjust (.child p f.depth))) ∧
      h'.object? p = some (.frame f) := by
  have hrun : childFrame p adjust h =
      .ok h.nextId (h.alloc (.frame (adjust (.child p f.depth)))).2 := by
    rw [← alloc_fst]
    exact HeapM.read_bind_of_ok (frame_eq_ok.mpr hf)
  refine ⟨_, _, hrun, ?_, ?_⟩
  · rw [object?_alloc ht, if_pos rfl]
  · rw [object?_alloc_of_contains ht (contains_of_object? hf), hf]

/-- The frame of a subdirectory is made in the frame that resolves its name. -/
lemma exists_namespaceFrame (ht : Tidy s.heap) (hf : s.heap.object? p = some (.frame f))
    (dir : Path) : ∃ x t, Resolve.namespaceFrame p dir s = .ok (.frame x) t ∧
      t.heap.object? x = some (.frame ((Frame.child p f.depth).withPath dir)) ∧
      t.heap.object? p = some (.frame f) := by
  obtain ⟨x, h', hrun, hnew, hold⟩ := exists_childFrame ht hf (Frame.withPath · dir)
  refine ⟨x, { s with heap := h' }, ?_, hnew, hold⟩
  exact Eval.bind_of_ok (Eval.onHeap_of_ok hrun)

/-! ## Scopes -/

/-- Scope chains end, the walks along them go from frame to parent, and a frame is one level deeper
than the one that it is made in. -/
structure ScopesEnd (strict : Prop) (h : Heap H) : Prop where
  /-- Following parents from a live frame visits no handle twice and comes to an end. -/
  chain : ∀ x f, h.object? x = some (.frame f) →
    h.ParentChain x (h.lineage x) ∧ (h.lineage x).Nodup ∧
      ∃ last, (h.lineage x).getLast? = some last ∧ h.ChainEnd strict last
  /-- No walk outward goes on for ever. -/
  ends : ∀ x, h.endless x = false
  /-- Looking for `this`. -/
  this : ∀ x f, h.object? x = some (.frame f) →
    h.thisFrame x = if f.isThis then .ok x else
      match f.parent with
      | some p => h.thisFrame p
      | none => fail .thisOutsideFrame
  /-- Looking for the binding that an assignment overwrites. -/
  assign : ∀ x f name v, h.object? x = some (.frame f) →
    assignNearest name v (h.lineage x) h =
      if f.contains name then (do discard <| Heap.assign x name v; return true : HeapM H Bool)
        h else
        match f.parent with
        | some p => assignNearest name v (h.lineage p) h
        | none => .ok false h
  /-- Looking up a name. -/
  lookup : ∀ (env : Environment H) self name s x f, s.heap = h → h.object? x = some (.frame f) →
    Patchbay.lookup env self x name s = (do
      match ← lookupIn env self x name with
      | some v => return v
      | none =>
        match f.parent with
        | some p => Patchbay.lookup env self p name
        | none => fail (.undefinedVariable (← Eval.nameText name)) : Eval H Value) s
  /-- A walk that comes to a handle which is no live frame fails there. -/
  stuck : ∀ x e, h.frame x = .error e → h.thisFrame x = .error e ∧
    (∀ name v, assignNearest name v (h.lineage x) h = .error e h) ∧
    ∀ (env : Environment H) self name s, s.heap = h → Patchbay.lookup env self x name s = .error e s
  /-- A look-up that does not end runs a script that does not end. -/
  stalls : ∀ (env : Environment H) self name s x, s.heap = h →
    Patchbay.lookup env self x name s = .outOfFuel → ScriptStalls env self name (h.lineage x)
  /-- Making a frame in a live one, and changing neither its parent nor its depth. -/
  child : ∀ p f (adjust : Frame → Frame), h.object? p = some (.frame f) →
    (∀ g, (adjust g).parent = g.parent ∧ (adjust g).depth = g.depth) →
    ∃ x h' g, childFrame p adjust h = .ok x h' ∧ h'.object? x = some (.frame g) ∧
      h'.object? p = some (.frame f) ∧ g.parent = some p ∧ g.depth = min (f.depth + 1) (2 ^ 32 - 1)
  /-- Making the frame of a directory. -/
  directory : ∀ s p f dir, s.heap = h → h.object? p = some (.frame f) →
    ∃ x t g, Resolve.namespaceFrame p dir s = .ok (.frame x) t ∧
      t.heap.object? x = some (.frame g) ∧ t.heap.object? p = some (.frame f) ∧
      g.parent = some p ∧ g.path = some dir ∧ g.depth = min (f.depth + 1) (2 ^ 32 - 1)

lemma Ancestral.scopesEnd (ha : Ancestral strict h) (ht : Tidy h) : ScopesEnd strict h where
  chain x f hf := ⟨ha.chain_lineage x, (ha.chain_lineage x).nodup, ha.exists_end hf⟩
  ends := ha.ends
  this _ _ hf := ha.thisFrame_eq hf
  assign _ _ _ _ hf := ha.assignNearest_eq hf
  lookup env self name s x f hs hf := by
    subst hs
    exact ha.lookup_eq hf
  stuck x e he := by
    refine ⟨?_, fun name v => ?_, fun env self name s hs => ?_⟩
    · rw [thisFrame, lineage_of_error he, nearestThis, he]
      rfl
    · rw [lineage_of_error he]
      exact HeapM.read_bind_of_error he
    · subst hs
      change lookupAlong env self x name (s.heap.lineage x) s = _
      rw [lineage_of_error he]
      exact Eval.bind_of_error (Eval.bind_of_error (Eval.readHeap_of_error he))
  stalls env self name s x hs hr := by
    subst hs
    exact scriptStalls_of_lookupAlong (ha.ends x) _ (List.Subset.refl _) hr
  child p f adjust hf hkeeps := by
    obtain ⟨x, h', hrun, hnew, hold⟩ := exists_childFrame ht hf adjust
    obtain ⟨hparent, hdepth⟩ := hkeeps (.child p f.depth)
    exact ⟨x, h', _, hrun, hnew, hold, hparent, hdepth⟩
  directory s p f dir hs hf := by
    subst hs
    obtain ⟨x, t, hrun, hnew, hold⟩ := exists_namespaceFrame ht hf dir
    exact ⟨x, t, _, hrun, hnew, hold, rfl, rfl, rfl⟩

end Heap
end Patchbay
