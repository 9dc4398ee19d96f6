import Patchbay.Eval.Run
import Patchbay.Host.Stock
import Patchbay.Proofs.Lifting.Meanings

/-!
# Reading what was assigned

Assignment writes the nearest binding of a name, and a look-up finds the nearest binding too; but on
its way there it asks the frames of directories, and the root frame, what they have for the name on
demand. So a value that was assigned is read back exactly if none of the frames on the way has
anything.
-/

namespace Patchbay

variable {H : HostTypes} {name : Name} {v old : Value}

namespace Heap

variable {h h' : Heap H} {id x y : ObjectId} {frame : ObjectId} {ids : List ObjectId} {f : Frame}

/-! ## Writing one binding -/

/-- A heap after a frame has got a binding. -/
structure Bound (x : ObjectId) (name : Name) (v : Value) (h h' : Heap H) : Prop where
  others : ∀ y, y ≠ x → h'.object? y = h.object? y
  frame : ∃ f f', h.object? x = some (.frame f) ∧ h'.object? x = some (.frame f') ∧
    f'.parent = f.parent ∧ f'.get? name = some v
  size : h'.slots.size = h.slots.size

@[simp] lemma size_modifyEntry {g : Entry H → Entry H} :
    (h.modifyEntry id g).slots.size = h.slots.size := by
  simp [modifyEntry]

@[simp] lemma size_putFrame : (h.putFrame id f).slots.size = h.slots.size := size_modifyEntry

@[simp] lemma size_release : (h.release v).slots.size = h.slots.size := by
  unfold release
  split
  · exact size_modifyEntry
  · rfl

/-- A frame is put in the place of another. -/
lemma Bound.putFrame {f' : Frame} (hf : h.object? x = some (.frame f))
    (hparent : f'.parent = f.parent)
    (hget : f'.get? name = some v) : Bound x name v h (h.putFrame x f') := by
  refine ⟨fun y hy => ?_, ⟨f, f', hf, ?_, hparent, hget⟩, size_putFrame⟩
  · rw [Heap.putFrame, object?_modifyObject, if_neg hy]
  · rw [Heap.putFrame, object?_modifyObject, if_pos rfl, hf]
    rfl

lemma Bound.release (hb : Bound x name v h h') (old : Value) :
    Bound x name v h (h'.release old) := by
  obtain ⟨hothers, ⟨f, f', hf, hf', hparent, hget⟩, hsize⟩ := hb
  refine ⟨fun y hy => ?_, ⟨f, f', hf, ?_, hparent, hget⟩, by rw [size_release, hsize]⟩
  · rw [object?_release, hothers y hy]
  · rw [object?_release, hf']

lemma ends_define :
    (define id name v).Ends h (fun _ h' => Bound id name v h h') fun _ _ => True := by
  refine HeapM.ends_read_bind (fun f hf => ?_) fun _ _ => trivial
  split
  · next f' hins =>
    exact Bound.putFrame (frame_eq_ok.mp hf) (Frame.samePlace_insert hins).parent
      (Frame.get?_insert hins)
  · exact HeapM.ends_read.mpr ⟨nofun, fun _ _ => trivial⟩

/-- Whether a live frame does not bind a name itself. -/
def unbound (h : Heap H) (name : Name) (x : ObjectId) : Bool :=
  match h.frame x with
  | .ok f => (f.get? name).isNone
  | .error _ => false

lemma unbound_of_frame (hf : h.object? x = some (.frame f)) :
    h.unbound name x = (f.get? name).isNone := by
  rw [unbound, frame_eq_ok.mpr hf]

lemma unbound_of_get? (hf : h.object? x = some (.frame f)) (hget : f.get? name = none) :
    h.unbound name x = true := by
  rw [unbound_of_frame hf, hget]
  rfl

lemma exists_frame_of_unbound (hu : h.unbound name x = true) :
    ∃ f, h.object? x = some (.frame f) ∧ f.get? name = none := by
  unfold unbound at hu
  split at hu
  · next f hf => exact ⟨f, frame_eq_ok.mp hf, Option.isNone_iff_eq_none.mp hu⟩
  · cases hu

/-- Overwriting a binding, if the frame has it. -/
lemma ends_assign :
    (assign id name v).Ends h
      (fun found h' => if found then Bound id name v h h' else h' = h ∧ h.unbound name id = true)
      fun _ _ => True := by
  refine HeapM.ends_read_bind (fun f hf => ?_) fun _ _ => trivial
  rw [frame_eq_ok] at hf
  split
  · next old f' hrep =>
    exact (Bound.putFrame hf (Frame.samePlace_replace hrep).parent
      (Frame.get?_replace hrep)).release old
  · next hrep =>
    exact ⟨rfl, unbound_of_get? hf (Frame.get?_eq_none_of_replace hrep)⟩

lemma ends_bind :
    (bind id name v).Ends h (fun _ h' => Bound id name v h h') fun _ _ => True := by
  refine HeapM.Ends.bind ends_assign fun found h' hs => ?_
  cases found with
  | true => exact hs
  | false =>
    obtain ⟨rfl, -⟩ := hs
    exact ends_define

lemma Bound.parent? (hb : Bound x name v h h') : h'.parent? y = h.parent? y := by
  have hcongr : h'.object? y = h.object? y → h'.parent? y = h.parent? y := by
    intro hy
    rw [Heap.parent?, Heap.parent?, Heap.frame, Heap.frame, get_congr hy]
  by_cases hy : y = x
  · obtain ⟨f, f', hf, hf', hparent, -⟩ := hb.frame
    rw [Heap.parent?, Heap.parent?, hy, frame_eq_ok.mpr hf, frame_eq_ok.mpr hf']
    exact hparent
  · exact hcongr (hb.others y hy)

/-- A binding moves no frame. -/
lemma Bound.lineage (hb : Bound x name v h h') : h'.lineage id = h.lineage id := by
  have hrow : ∀ fuel y, h'.lineageOf fuel y = h.lineageOf fuel y := by
    intro fuel
    induction fuel with
    | zero => exact fun _ => rfl
    | succ fuel ih =>
      intro y
      rw [lineageOf, lineageOf, hb.parent?]
      cases h.parent? y with
      | none => rfl
      | some parent => simp only [ih]
  rw [Heap.lineage, Heap.lineage, hb.size, hrow]

/-! ## The nearest binding -/

/-- The value of the first binding of a name along a row of frames. -/
def nearest? (h : Heap H) (name : Name) : List ObjectId → Option Value
  | [] => none
  | x :: rest =>
    match h.frame x with
    | .error _ => none
    | .ok f =>
      match f.get? name with
      | some v => some v
      | none => nearest? h name rest

lemma nearest?_of_get? (hf : h.object? x = some (.frame f)) (hget : f.get? name = some v) :
    h.nearest? name (x :: ids) = some v := by
  simp only [nearest?, frame_eq_ok.mpr hf, hget]

lemma nearest?_of_unbound (hu : h.unbound name x = true) :
    h.nearest? name (x :: ids) = h.nearest? name ids := by
  obtain ⟨f, hf, hget⟩ := exists_frame_of_unbound hu
  simp only [nearest?, frame_eq_ok.mpr hf, hget]

lemma nearest?_append {before : List ObjectId} (hbefore : ∀ y ∈ before, h.unbound name y = true) :
    h.nearest? name (before ++ ids) = h.nearest? name ids := by
  induction before with
  | nil => rfl
  | cons y before ih =>
    rw [List.cons_append, nearest?_of_unbound (hbefore y List.mem_cons_self)]
    exact ih fun z hz => hbefore z (List.mem_cons_of_mem y hz)

/-- Overwriting the nearest binding in a row of frames, if there is one. -/
lemma ends_assignNearest (ids : List ObjectId) :
    (assignNearest name v ids).Ends h
      (fun found h' => if found then
          ∃ before x after, ids = before ++ x :: after ∧ (∀ y ∈ before, h.unbound name y = true) ∧
            h.unbound name x = false ∧ Bound x name v h h'
        else h' = h)
      fun _ _ => True := by
  induction ids with
  | nil => exact rfl
  | cons x rest ih =>
    refine HeapM.ends_read_bind (fun f hf => ?_) fun _ _ => trivial
    rw [frame_eq_ok] at hf
    have hcontains : f.contains name = !h.unbound name x := by
      rw [unbound_of_frame hf, Frame.contains_eq_isSome_get?, Option.not_isNone]
    split
    · next hc =>
      have hbinds : h.unbound name x = false := by simpa [hcontains] using hc
      have hassign : (discard (assign x name v)).Ends h (fun _ h' => Bound x name v h h')
          fun _ _ => True := by
        refine HeapM.Ends.discard (ends_assign.mono (fun found h' hs => ?_) fun _ _ _ => trivial)
        cases found with
        | true => exact hs
        | false =>
          rw [hs.2] at hbinds
          cases hbinds
      exact hassign.bind fun _ h' hb => ⟨[], x, rest, rfl, by simp, hbinds, hb⟩
    · next hc =>
      have hx : h.unbound name x = true := by simpa [hcontains] using hc
      refine ih.mono (fun found h' hs => ?_) fun _ _ _ => trivial
      cases found with
      | true =>
        obtain ⟨before, y, after, rfl, hbefore, hy, hb⟩ := hs
        exact ⟨x :: before, y, after, rfl, by simpa using ⟨hx, hbefore⟩, hy, hb⟩
      | false => exact hs

/-- The new binding is the nearest one if the frames before it have none. -/
lemma Bound.nearest (hb : Bound x name v h h') (before : List ObjectId) {after : List ObjectId}
    (hbefore : ∀ y ∈ before, y ≠ x ∧ h.unbound name y = true) :
    h'.nearest? name (before ++ x :: after) = some v := by
  obtain ⟨-, f', -, hf', -, hget⟩ := hb.frame
  rw [nearest?_append]
  · exact nearest?_of_get? hf' hget
  · intro y hy
    obtain ⟨hne, hu⟩ := hbefore y hy
    obtain ⟨f, hf, hnone⟩ := exists_frame_of_unbound hu
    exact unbound_of_get? ((hb.others y hne).trans hf) hnone

/-- After an assignment, the nearest binding has the value. -/
lemma ends_setVariable :
    (setVariable frame name v).Ends h (fun _ h' => h'.nearest? name (h'.lineage frame) = some v)
      fun _ _ => True := by
  refine HeapM.ends_read_bind (fun ids hids => ?_) fun _ _ => trivial
  cases hids
  refine (ends_assignNearest _).bind fun found h' hs => ?_
  cases found with
  | true =>
    obtain ⟨before, x, after, hsplit, hbefore, hx, hb⟩ := hs
    show h'.nearest? name (h'.lineage frame) = some v
    rw [hb.lineage, hsplit]
    refine hb.nearest before fun y hy => ⟨?_, hbefore y hy⟩
    rintro rfl
    rw [hbefore y hy] at hx
    cases hx
  | false =>
    have hsame : h' = h := hs
    subst hsame
    refine ends_define.mono (fun _ h'' hb => ?_) fun _ _ _ => trivial
    obtain ⟨after, hafter⟩ := lineageOf_head h' h'.slots.size frame
    rw [hb.lineage, Heap.lineage, ← hafter]
    exact hb.nearest [] (by simp)

/-- The frames before the nearest binding of a name along a row. -/
def passed (h : Heap H) (name : Name) (ids : List ObjectId) : List ObjectId :=
  ids.takeWhile (h.unbound name)

lemma passed_cons (hu : h.unbound name x = true) :
    h.passed name (x :: ids) = x :: h.passed name ids :=
  List.takeWhile_cons_of_pos hu

end Heap

/-! ## Looking up -/

variable {env : Environment H} {self : Runner H} {s s' t : Session H} {x frame : ObjectId}
  {f : Frame} {ids : List ObjectId}

/-- None of the frames that a look-up passes on its way to the nearest binding of a name has
anything for it on demand. -/
def Session.Unobstructed (env : Environment H) (s : Session H) (frame : ObjectId) (name : Name) :
    Prop :=
  ∀ x ∈ s.heap.passed name (s.heap.lineage frame), ∀ f, s.heap.object? x = some (.frame f) →
    (f.path.isSome || x = env.root) = true → Resolve.Misses env s.heap s.loading x f name

lemma whileLoading_ne_none {path : Path} {m : Eval H Value}
    (hr : Resolve.whileLoading path m s = .ok none s') : s.loading.any path.same = true := by
  unfold Resolve.whileLoading at hr
  rw [Eval.bind_of_ok (show Eval.get s = .ok s s from rfl)] at hr
  split at hr
  · next hloading => exact hloading
  · obtain ⟨_, _, -, hr⟩ := Eval.bind_eq_ok.mp hr
    obtain ⟨_, _, -, hr⟩ := Eval.bind_eq_ok.mp hr
    cases hr

lemma script_ne_none {ident : String} {dir : Path} {loader : Loader}
    (hloader : env.loader = some loader)
    (hfile : env.tree.isFile (dir.join ⟨ident ++ "." ++ env.config.scriptExtension⟩) = true)
    (hr : Resolve.script env self frame name ident dir s = .ok none s') :
    s.loading.any (dir.join ⟨ident ++ "." ++ env.config.scriptExtension⟩).same = true := by
  simp only [Resolve.script, hfile, hloader] at hr
  exact whileLoading_ne_none hr

/-- A frame in which nothing is found has nothing. -/
lemma misses_of_find (hf : s.heap.object? frame = some (.frame f))
    (hr : Resolve.find env self frame name s = .ok none s') :
    Resolve.Misses env s.heap s.loading frame f name := by
  have hframe : Eval.readHeap (·.frame frame) s = .ok f s :=
    Eval.readHeap_of_ok (Heap.frame_eq_ok.mpr hf)
  have hsome : ∀ {m : Eval H Value}, (some <$> m) s ≠ .ok none s' := by
    intro m hm
    change (m >>= fun v => pure (some v)) s = .ok none s' at hm
    obtain ⟨_, _, -, hm⟩ := Eval.bind_eq_ok.mp hm
    cases hm
  unfold Resolve.find at hr
  rw [Eval.bind_of_ok (show Eval.nameText name s = .ok (s.heap.names.lookup name) s from rfl),
    Eval.bind_of_ok hframe] at hr
  cases hsub : Resolve.subdirectory? env f.path (s.heap.names.lookup name) with
  | some sub =>
    rw [hsub] at hr
    exact absurd hr hsome
  | none =>
    rw [hsub] at hr
    dsimp only at hr
    cases hfunction : env.plugins.function? (s.heap.names.lookup name) f.path
      (frame = env.root) with
    | some plugin =>
      rw [hfunction] at hr
      exact absurd hr hsome
    | none =>
      rw [hfunction] at hr
      dsimp only at hr
      cases hnode : env.plugins.node? (s.heap.names.lookup name) f.path (frame = env.root) with
      | some plugin =>
        rw [hnode] at hr
        exact absurd hr hsome
      | none =>
        rw [hnode] at hr
        refine ⟨hsub, hfunction, hnode, ?_⟩
        intro dir hdir loader hloader path hfile
        rw [hdir] at hr
        exact script_ne_none hloader hfile hr

/-- How a frame is asked for a name. -/
lemma lookupIn_eq_ok {found : Option Value} (hr : lookupIn env self x name s = .ok found t) :
    ∃ f, s.heap.object? x = some (.frame f) ∧
      ((∃ v, f.get? name = some v ∧ found = some v ∧ t = s) ∨
        f.get? name = none ∧ ((f.path.isSome || x = env.root) = true →
          resolve env self x name s = .ok found t) ∧
        ((f.path.isSome || x = env.root) = false → found = none ∧ t = s)) := by
  obtain ⟨f, s', hread, hrest⟩ := Eval.bind_eq_ok.mp hr
  obtain ⟨hf, rfl⟩ := Eval.readHeap_eq_ok.mp hread
  refine ⟨f, Heap.frame_eq_ok.mp hf, ?_⟩
  cases hget : f.get? name with
  | some v =>
    rw [hget] at hrest
    cases hrest
    exact .inl ⟨v, rfl, rfl, rfl⟩
  | none =>
    rw [hget] at hrest
    change (if (f.path.isSome || x = env.root) = true then resolve env self x name
      else return none : Eval H (Option Value)) s' = _ at hrest
    refine .inr ⟨rfl, fun hdemand => ?_, fun hdemand => ?_⟩
    · rwa [if_pos hdemand] at hrest
    · rw [hdemand] at hrest
      cases hrest
      exact ⟨rfl, rfl⟩

/-- What is found on demand is bound, so the heap is not what it was. -/
lemma heap_ne_of_resolve {w : Value} (hf : s.heap.object? x = some (.frame f))
    (hget : f.get? name = none)
    (hr : resolve env self x name s = .ok (some w) t) : t.heap ≠ s.heap := by
  intro hsame
  obtain ⟨found, s', -, hrest⟩ := Eval.bind_eq_ok.mp hr
  cases found with
  | none => cases hrest
  | some v =>
    obtain ⟨_, s'', hrun, hrest⟩ := Eval.bind_eq_ok.mp hrest
    cases hrest
    obtain ⟨h, hbind, rfl⟩ := Eval.onHeap_eq_ok.mp hrun
    obtain ⟨-, f', -, hf', -, hget'⟩ := (Heap.ends_bind.of_ok hbind).frame
    dsimp only at hsame
    rw [hsame, hf] at hf'
    cases hf'
    rw [hget] at hget'
    cases hget'

lemma misses_of_resolve (hf : s.heap.object? x = some (.frame f))
    (hr : resolve env self x name s = .ok none s') :
    Resolve.Misses env s.heap s.loading x f name := by
  obtain ⟨found, s1, hfind, hbind⟩ := Eval.bind_eq_ok.mp hr
  cases found with
  | none => exact misses_of_find hf hfind
  | some w =>
    obtain ⟨_, _, -, hbind⟩ := Eval.bind_eq_ok.mp hbind
    cases hbind

/-- A look-up that leaves the heap as it is finds what the name means. -/
lemma means_of_lookupAlong {frame : ObjectId} (hr : lookupAlong env self frame name ids s = .ok v t)
    (hsame : t.heap = s.heap) : Means env s.heap s.loading name v ids ∧ t = s := by
  induction ids with
  | nil =>
    obtain ⟨-, hr⟩ := Eval.barring_eq_ok.mp hr
    obtain ⟨_, _, -, hrest⟩ := Eval.bind_eq_ok.mp hr
    cases hrest
  | cons x rest ih =>
    obtain ⟨found, s', hin, hrest⟩ := Eval.bind_eq_ok.mp hr
    obtain ⟨f, hf, ⟨w, hget, rfl, rfl⟩ | ⟨hget, hdemand, hplain⟩⟩ := lookupIn_eq_ok hin
    · cases hrest
      exact ⟨.here hf hget, rfl⟩
    · cases hd : (f.path.isSome || x = env.root : Bool) with
      | false =>
        obtain ⟨rfl, rfl⟩ := hplain hd
        obtain ⟨hm, ht⟩ := ih hrest
        exact ⟨.outer hf hget (by simp [hd]) hm, ht⟩
      | true =>
        have hresolve := hdemand hd
        cases found with
        | some w =>
          -- it was bound when it was found, so the heap changed
          cases hrest
          exact absurd hsame (heap_ne_of_resolve hf hget hresolve)
        | none =>
          -- a frame that has nothing leaves the session as it is, so the search goes on from `s`
          have hmiss := misses_of_resolve hf hresolve
          have hnone : lookupIn env self x name s = .ok none s := lookupIn_eq hf hget fun _ => hmiss
          cases hin.symm.trans hnone
          obtain ⟨hm, ht⟩ := ih hrest
          exact ⟨.outer hf hget (fun _ => hmiss) hm, ht⟩

section Means

variable {h : Heap H} {loading : List Path}

lemma Means.nearest (hm : Means env h loading name v ids) : h.nearest? name ids = some v := by
  induction hm with
  | here hf hget => exact Heap.nearest?_of_get? hf hget
  | outer hf hget _ _ ih => exact (Heap.nearest?_of_unbound (Heap.unbound_of_get? hf hget)).trans ih

lemma Means.misses (hm : Means env h loading name v ids) :
    ∀ x ∈ h.passed name ids, ∀ f, h.object? x = some (.frame f) →
      (f.path.isSome || x = env.root) = true → Resolve.Misses env h loading x f name := by
  induction hm with
  | here hf hget => simp [Heap.passed, Heap.unbound_of_frame hf, hget]
  | outer hf hget hmiss _ ih =>
    rw [Heap.passed_cons (Heap.unbound_of_get? hf hget)]
    intro y hy g hg hdemand
    rcases List.mem_cons.mp hy with rfl | hy
    · cases hf.symm.trans hg
      exact hmiss hdemand
    · exact ih y hy g hg hdemand

/-- A name means the nearest binding where nothing on the way to it is found on demand. -/
lemma means_of_nearest (hnearest : h.nearest? name ids = some v)
    (hclear : ∀ x ∈ h.passed name ids, ∀ f, h.object? x = some (.frame f) →
      (f.path.isSome || x = env.root) = true → Resolve.Misses env h loading x f name) :
    Means env h loading name v ids := by
  induction ids with
  | nil => cases hnearest
  | cons x rest ih =>
    cases hf : h.frame x with
    | error e => simp [Heap.nearest?, hf] at hnearest
    | ok f =>
      rw [Heap.frame_eq_ok] at hf
      cases hget : f.get? name with
      | some w =>
        rw [Heap.nearest?_of_get? hf hget] at hnearest
        cases hnearest
        exact .here hf hget
      | none =>
        have hu := Heap.unbound_of_get? hf hget
        rw [Heap.nearest?_of_unbound hu] at hnearest
        rw [Heap.passed_cons hu] at hclear
        refine .outer hf hget (hclear x List.mem_cons_self f hf) (ih hnearest fun y hy => ?_)
        exact hclear y (List.mem_cons_of_mem x hy)

end Means

/-- A value that was assigned is read back, without a change to the session, if none of the frames
on the way to it has anything for the name on demand; and else it is not read back without a change
to the heap. -/
theorem lookup_after_assignment {h : Heap H}
    (hset : Heap.setVariable frame name v s.heap = .ok () h) :
    (({ s with heap := h } : Session H).Unobstructed env frame name →
      lookup env self frame name { s with heap := h } = .ok v { s with heap := h }) ∧
    ∀ t, lookup env self frame name { s with heap := h } = .ok v t → t.heap = h →
      ({ s with heap := h } : Session H).Unobstructed env frame name := by
  have hnearest : h.nearest? name (h.lineage frame) = some v := Heap.ends_setVariable.of_ok hset
  refine ⟨fun hclear => lookup_eq (means_of_nearest hnearest hclear), fun t hr hsame => ?_⟩
  exact (means_of_lookupAlong hr hsame).1.misses

/-- A root frame that binds `x`, the frames of two directories in it, and a plain frame in the
second one. -/
def nestedSteps : List (Operation Stock.types) :=
  [.alloc (.frame (.root none)), .define ⟨0, 0⟩ ⟨1⟩ (.text "old"),
    .alloc (.frame ((Frame.child ⟨0, 0⟩ 0).withPath ⟨"d"⟩)),
    .alloc (.frame ((Frame.child ⟨0, 0⟩ 0).withPath ⟨"e"⟩)), .alloc (.frame (.child ⟨2, 0⟩ 1))]

def nestedSession : Session Stock.types where
  heap := nestedSteps.foldl (fun h op => op.after Stock.kernels h)
    (Heap.new (Interner.new.intern "x").2 1)
  nodesNamed := 0
  evalDepth := 0
  loading := []

/-- The first directory has a subdirectory `x`, the second one has not. -/
def nestedEnvironment : Environment Stock.types where
  config := .default
  host := Stock.host
  plugins := .empty
  tree := ⟨fun p => p = ⟨"d/x"⟩, fun _ => false⟩
  loader := none
  root := ⟨0, 0⟩
  reserved := ⟨.empty, .empty, .empty⟩

/-- What is there to see of `x` in a frame after it was assigned there: the value that is read back,
the frames on the way to the binding with their directories, and the text of the name. -/
def readBack (frame : ObjectId) : Option (Option Value × List (ObjectId × Option Path) × String) :=
  match Heap.setVariable frame ⟨1⟩ (.text "new") nestedSession.heap with
  | .error _ _ => none
  | .ok _ h =>
    let found : Option Value :=
      match lookup nestedEnvironment (runner nestedEnvironment 0) frame ⟨1⟩
        { nestedSession with heap := h } with
      | .ok v _ => some v
      | _ => none
    let row := (h.passed ⟨1⟩ (h.lineage frame)).map fun x =>
      (x, (h.frame x).toOption.bind Frame.path)
    some (found, row, h.names.lookup ⟨1⟩)

/-- The second directory has nothing for the name. -/
lemma misses_nested {h : Heap Stock.types} {f : Frame} (hpath : f.path = some ⟨"e"⟩)
    (hname : h.names.lookup ⟨1⟩ = "x") :
    Resolve.Misses nestedEnvironment h nestedSession.loading ⟨2, 0⟩ f ⟨1⟩ where
  subdirectory := by
    rw [hpath, hname]
    decide +kernel
  function := rfl
  node := rfl
  script _ _ _ hloader := by cases hloader

theorem lookup_after_assignment_plain :
    ∃ h, Heap.setVariable ⟨3, 0⟩ ⟨1⟩ (.text "new") nestedSession.heap = .ok () h ∧
      h.passed ⟨1⟩ (h.lineage ⟨3, 0⟩) = [⟨3, 0⟩, ⟨2, 0⟩] ∧
      lookup nestedEnvironment (runner nestedEnvironment 0) ⟨3, 0⟩ ⟨1⟩
        { nestedSession with heap := h } = .ok (.text "new") { nestedSession with heap := h } := by
  have hread : readBack ⟨3, 0⟩ =
      some (some (.text "new"), [(⟨3, 0⟩, none), (⟨2, 0⟩, some ⟨"e"⟩)], "x") := by
    decide +kernel
  unfold readBack at hread
  cases hset : Heap.setVariable ⟨3, 0⟩ ⟨1⟩ (.text "new") nestedSession.heap with
  | error e h => simp [hset] at hread
  | ok _ h =>
    simp only [hset, Option.some.injEq, Prod.mk.injEq] at hread
    obtain ⟨-, hrow, hname⟩ := hread
    have hpassed : h.passed ⟨1⟩ (h.lineage ⟨3, 0⟩) = [⟨3, 0⟩, ⟨2, 0⟩] := by
      simpa [Function.comp_def] using congrArg (List.map Prod.fst) hrow
    simp only [hpassed, List.map_cons, List.map_nil, List.cons.injEq, Prod.mk.injEq, true_and]
      at hrow
    obtain ⟨hplain, hdir, -⟩ := hrow
    refine ⟨h, rfl, hpassed, (lookup_after_assignment hset).1 fun x hx f hf hdemand => ?_⟩
    have hframe : (h.frame x).toOption.bind Frame.path = f.path := by
      rw [Heap.frame_eq_ok.mpr hf]
      rfl
    simp only [hpassed, List.mem_cons, List.not_mem_nil, or_false] at hx
    rcases hx with rfl | rfl
    · -- the plain frame is asked for nothing
      rw [← hframe, hplain] at hdemand
      cases hdemand
    · exact misses_nested (hframe.symm.trans hdir) hname

/-- A value that was assigned from the frame of a directory is not read back there when the
directory has something of that name. -/
theorem not_lookup_after_assignment :
    ¬ ∀ (env : Environment Stock.types) (self : Runner Stock.types) (s : Session Stock.types)
      (frame : ObjectId) (name : Name) (v : Value) (h : Heap Stock.types),
      Heap.setVariable frame name v s.heap = .ok () h →
        lookup env self frame name { s with heap := h } = .ok v { s with heap := h } := by
  intro hall
  have hread : readBack ⟨1, 0⟩ = some (some (.frame ⟨4, 0⟩), [(⟨1, 0⟩, some ⟨"d"⟩)], "x") := by
    decide +kernel
  unfold readBack at hread
  cases hset : Heap.setVariable ⟨1, 0⟩ ⟨1⟩ (.text "new") nestedSession.heap with
  | error e h => simp [hset] at hread
  | ok _ h =>
    have hback := hall nestedEnvironment (runner nestedEnvironment 0) nestedSession _ _ _ _ hset
    simp only [hset, hback, Option.some.injEq, Prod.mk.injEq] at hread
    cases hread.1

end Patchbay
