import Patchbay.Proofs.Safety.Evaluations

/-!
# Looking up names safely

A look-up starts from a live frame, and every frame around it is live. What it finds is bound in one
of them or made on demand, by the host or by a script that runs in a fresh frame.
-/

namespace Patchbay

variable {H : HostTypes} {T : Trust H}

/-! ## Frames and functions -/

namespace Heap

variable {h : Heap H} {parent : ObjectId} {f : Callable H} {v : Value}

/-- A frame in a live frame, adjusted in a way that binds nothing. -/
lemma safe_childFrame (hs : Sound T h) (hp : h.HasKind .frame parent) (adjust : Frame → Frame)
    (hadjust : ∀ f, (adjust f).parent = f.parent ∧ (adjust f).values = f.values) :
    HeapM.Safe T (childFrame parent adjust) h fun id h' =>
      h'.HasKind .frame id ∧ h'.pinCount id = 0 := by
  refine HeapM.Keeps.bind (HeapM.safe_read hs (plain_frame.quiet hp.contains) fun f hf => trivial)
    (Q := fun _ _ => True) fun f h' hl _ => ?_
  refine (HeapM.safe_alloc hl.sound ?_).mono fun id h'' _ hid => ⟨hasKind_of_object hid.1, hid.2⟩
  obtain ⟨hparent, hvalues⟩ := hadjust (.child parent f.depth)
  refine ⟨HeapObject.unwired_of_kind nofun, fun v hv => ?_, fun x hx => ?_, nofun, nofun⟩
  · rw [HeapObject.values, hvalues] at hv
    cases hv
  · rw [HeapObject.scope?, hparent] at hx
    cases hx
    exact hl.grown.hasKind hp

lemma safe_define (hs : Sound T h) (hp : h.HasKind .frame parent) (hv : v.ValidIn h) {name : Name} :
    HeapM.Safe T (define parent name v) h fun _ => SamePins h :=
  (HeapM.keeps_of_writes hs (writes_define hv)).safe hp.contains

lemma safe_bind (hs : Sound T h) (hp : h.HasKind .frame parent) (hv : v.ValidIn h) {name : Name} :
    HeapM.Safe T (Heap.bind parent name v) h fun _ => SamePins h :=
  (HeapM.keeps_of_writes hs (writes_bind hv)).safe hp.contains

end Heap

/-! ## Parts of the evaluator -/

open Heap (Later Sound)

/-- Where an evaluation may start: on a sound heap, in a live frame. -/
structure Ready (T : Trust H) (env : Environment H) (c : Cursor) (h : Heap H) : Prop where
  sound : Sound T h
  root : h.HasKind .frame env.root
  frame : h.HasKind .frame c.frame

variable {env : Environment H} {c : Cursor} {self : Runner H} {s : Session H}

lemma Ready.later {h h' : Heap H} (hr : Ready T env c h) (hl : Later T h h') : Ready T env c h' :=
  ⟨hl.sound, hl.grown.hasKind hr.root, hl.grown.hasKind hr.frame⟩

lemma Ready.enter {h : Heap H} (hr : Ready T env c h) {c' : Cursor}
    (hk : h.HasKind .frame c'.frame) : Ready T env c' h := ⟨hr.sound, hr.root, hk⟩

/-- The recursive calls of a rule are safe. -/
structure SafeRunner (T : Trust H) (env : Environment H) (r : Runner H) : Prop where
  expr : ∀ {c s}, Ready T env c s.heap → ∀ e, Eval.Safe T (r.expr c e) s fun v h => v.ValidIn h
  stmt : ∀ {c s}, Ready T env c s.heap → ∀ st, Eval.Safe T (r.stmt c st) s fun flow h =>
    flow.ValidIn h
  loop : ∀ {c s}, Ready T env c s.heap → ∀ l, Eval.Safe T (r.loop c l) s fun flow h =>
    flow.ValidIn h
  stuck : ∀ s, Eval.Safe T r.stuck s fun _ _ => True

lemma SafeRunner.block (hself : SafeRunner T env self) (body : List Stmt) {c : Cursor}
    {s : Session H} (hr : Ready T env c s.heap) :
    Eval.Safe T (self.block c body) s fun flow h => flow.ValidIn h := by
  induction body generalizing s with
  | nil => exact Eval.safe_pure hr.sound trivial
  | cons st rest ih =>
    refine (hself.stmt hr st).bind fun flow s' hl hflow => ?_
    cases flow with
    | ret v => exact Eval.safe_pure hl.sound hflow
    | next => exact ih (hr.later hl)

/-! ## Resolving names -/

namespace Resolve

variable {frame : ObjectId} {name : Name} {ident : String}

lemma safe_namespaceFrame (hs : Sound T s.heap) (hf : s.heap.HasKind .frame frame) (dir : Path) :
    Eval.Safe T (namespaceFrame frame dir) s fun v h => v.ValidIn h := by
  refine (Eval.safe_onHeap (Heap.safe_childFrame hs hf (Frame.withPath · dir) fun _ =>
    ⟨rfl, rfl⟩)).bind fun id s' hl hid => ?_
  exact Eval.safe_pure hl.sound hid.1

lemma safe_onHeap_mapError {α : Type} {m : HeapM H α} {Q : α → Heap H → Prop}
    {change : EvalError → EvalError} (hm : HeapM.Keeps T False m s.heap Q)
    (hc : ∀ e, (change e).isDead = false) : Eval.Safe T ((Eval.onHeap m).mapError change) s Q := by
  obtain ⟨h, n, d, l⟩ := s
  unfold HeapM.Keeps HeapM.Ends at hm
  unfold Eval.Safe Eval.mapError Eval.onHeap
  dsimp only at hm ⊢
  cases hr : m h with
  | ok a h' =>
    rw [hr] at hm
    exact hm
  | error e h' =>
    rw [hr] at hm
    exact ⟨hm.1, hc e⟩

lemma safe_pluginFunction (hc : Contract T env.host env.plugins env.loader) (hs : Sound T s.heap)
    (hf : s.heap.HasKind .frame frame) {plugin : Plugin (FunctionFactory H)}
    (hp : plugin ∈ env.plugins.functions) :
    Eval.Safe T (pluginFunction frame name plugin) s fun v h => v.ValidIn h := by
  have hb := hc.toBehaves
  have hmade : (plugin.factory ⟨plugin.ident, name, frame, plugin.library⟩).Ends s.heap _ _ :=
    hc.function plugin hp hs hf
  refine Eval.Safe.bind (Q := fun f h => h.Fits T (.callable f))
    (safe_onHeap_mapError (hmade.mono (fun f h' hok => ⟨hok.1.later hb hs, hok.2⟩) fun e h' he =>
      ⟨he.later hb hs, False.elim⟩) fun _ => rfl) fun made s' hl hfit => ?_
  refine Eval.safe_onHeap (HeapM.safe_allocValue hl.sound ?_)
  split
  · exact hfit
  · exact hfit.within hfit.scope

lemma safe_pluginNode (hc : Contract T env.host env.plugins env.loader) (hs : Sound T s.heap)
    {plugin : Plugin (NodeFactory H)} (hp : plugin ∈ env.plugins.nodes) :
    Eval.Safe T (pluginNode name plugin) s fun v h => v.ValidIn h := by
  refine Eval.safe_onHeap (HeapM.safe_allocValue hs ?_)
  exact Heap.fits_callable (fun p hp => by cases hp) nofun (hc.node plugin hp hs)

/-- A loader changes the names of the heap and nothing else. -/
lemma safe_loadProgram (hs : Sound T s.heap) {load : Loader} {path : Path}
    (hq : ∀ names, Quiet (load path names).1) :
    Eval.Safe T (loadProgram load path) s fun _ _ => True := by
  have hl : Later T s.heap { s.heap with names := (load path s.heap.names).2 } :=
    hs.later_stored .names
  unfold Eval.Safe loadProgram
  dsimp only
  cases hr : (load path s.heap.names).1 with
  | ok program => exact ⟨hl, trivial⟩
  | error e => exact ⟨hl, hq _ e hr⟩

lemma safe_runScript (hself : SafeRunner T env self) (hr : Ready T env c s.heap)
    (hf : s.heap.HasKind .frame frame) {load : Loader} {path : Path}
    (hq : ∀ names, Quiet (load path names).1) :
    Eval.Safe T (runScript self load frame name ident path) s fun v h => v.ValidIn h := by
  refine (safe_loadProgram hr.sound hq).withNote.bind
    fun program s1 h1 _ => ?_
  refine (Eval.safe_onHeap (Heap.safe_childFrame h1.sound (h1.grown.hasKind hf) id
    fun _ => ⟨rfl, rfl⟩)).bind fun scriptFrame s2 h2 hframe => ?_
  refine Eval.safe_get_bind ?_
  have hready : Ready T env ⟨scriptFrame, s2.evalDepth⟩ s2.heap :=
    (hr.later (h1.trans h2)).enter hframe.1
  have hrun := Eval.safe_withPinned h2.sound hframe.1 hframe.2 fun s' hl =>
    hself.block program.body (hready.later hl)
  refine hrun.withNote.discard.bind fun _ s3 h3 _ => ?_
  -- evaluation only extends the heap, so the frame of the script outlives its pin
  have hlocal := h3.grown.hasKind hframe.1
  refine Eval.Safe.bind (Q := fun o h => ∀ v, o = some v → v.ValidIn h)
    (Eval.safe_read h3.sound ((Heap.plain_frame.quiet hlocal.contains).map) fun o ho v hv => ?_)
    fun o s4 h4 hfound => ?_
  · obtain ⟨f, hframe, rfl⟩ := map_eq_ok.mp ho
    exact Heap.valid_get h3.sound (Heap.frame_eq_ok.mp hframe) hv
  · cases o with
    | some v => exact Eval.safe_pure h4.sound (hfound v rfl)
    | none => exact Eval.safe_fail h4.sound rfl

/-- An optional result that is valid if there is one. -/
def Found (o : Option Value) (h : Heap H) : Prop := ∀ v, o = some v → v.ValidIn h

lemma found_none {h : Heap H} : Found none h := by
  intro v hv
  cases hv

lemma found_some {h : Heap H} {v : Value} (hv : v.ValidIn h) : Found (some v) h := by
  intro w hw
  cases hw
  exact hv

lemma safe_whileLoading {path : Path} {m : Eval H Value} (hs : Sound T s.heap)
    (hm : ∀ s', s'.heap = s.heap → Eval.Safe T m s' fun v h => v.ValidIn h) :
    Eval.Safe T (whileLoading path m) s Found := by
  refine Eval.safe_get_bind ?_
  split
  · exact Eval.safe_pure hs found_none
  · refine Eval.safe_modify_bind (by rfl) ?_
    refine Eval.Safe.bind (Q := fun v h => v.ValidIn h) ((hm _ (by rfl)).andAlso ?_)
      fun v s' hl hv => Eval.safe_pure hl.sound (found_some hv)
    exact fun _ => rfl

lemma safe_script (hc : Contract T env.host env.plugins env.loader) (hself : SafeRunner T env self)
    (hr : Ready T env c s.heap) (hf : s.heap.HasKind .frame frame) (dir : Path) :
    Eval.Safe T (script env self frame name ident dir) s Found := by
  unfold script
  dsimp only
  split
  · next load _ hload =>
    refine safe_whileLoading hr.sound fun s' hs' => ?_
    rw [← hs'] at hr hf
    exact safe_runScript hself hr hf (hc.load load hload _)
  · exact Eval.safe_pure hr.sound found_none

lemma safe_some {m : Eval H Value} (hm : Eval.Safe T m s fun v h => v.ValidIn h) :
    Eval.Safe T (some <$> m) s Found :=
  Eval.Safe.map (hm.mono fun _ _ _ => found_some)

lemma safe_find (hc : Contract T env.host env.plugins env.loader) (hself : SafeRunner T env self)
    (hr : Ready T env c s.heap) (hf : s.heap.HasKind .frame frame) :
    Eval.Safe T (find env self frame name) s Found := by
  refine Eval.safe_nameText_bind fun ident => ?_
  refine (Eval.safe_read hr.sound (Heap.plain_frame.quiet hf.contains) fun _ _ => trivial).bind
    (Q := fun _ _ => True) fun f s' hl _ => ?_
  have hr' := hr.later hl
  have hf' := hl.grown.hasKind hf
  dsimp only
  split
  · exact safe_some (safe_namespaceFrame hr'.sound hf' _)
  · split
    · next plugin hp =>
        exact safe_some (safe_pluginFunction hc hr'.sound hf' (List.mem_of_find?_eq_some hp))
    · split
      · next plugin hp =>
          exact safe_some (safe_pluginNode hc hr'.sound (List.mem_of_find?_eq_some hp))
      · split
        · exact safe_script hc hself hr' hf' _
        · exact Eval.safe_pure hr'.sound found_none

end Resolve

/-! ## Looking up names -/

section Lookup

variable {frame : ObjectId} {name : Name}

lemma safe_resolve (hc : Contract T env.host env.plugins env.loader) (hself : SafeRunner T env self)
    (hr : Ready T env c s.heap) (hf : s.heap.HasKind .frame frame) :
    Eval.Safe T (resolve env self frame name) s Resolve.Found := by
  refine (Resolve.safe_find hc hself hr hf).bind fun o s' hl ho => ?_
  cases o with
  | none => exact Eval.safe_pure hl.sound Resolve.found_none
  | some v =>
    have hv := ho v rfl
    refine (Eval.safe_onHeap (Heap.safe_bind hl.sound (hl.grown.hasKind hf) hv)).bind
      fun _ s'' hl' _ => Eval.safe_pure hl'.sound (Resolve.found_some (hl'.grown.valid hv))

lemma safe_lookupIn (hc : Contract T env.host env.plugins env.loader)
    (hself : SafeRunner T env self) (hr : Ready T env c s.heap) (hf : s.heap.HasKind .frame frame) :
    Eval.Safe T (lookupIn env self frame name) s Resolve.Found := by
  refine (Eval.safe_read hr.sound (Heap.plain_frame.quiet hf.contains) fun f hframe => hframe).bind
    (Q := fun f h => h.frame frame = .ok f) fun f s' hl hframe => ?_
  split
  · next v hv =>
    exact Eval.safe_pure hl.sound
      (Resolve.found_some (Heap.valid_get hl.sound (Heap.frame_eq_ok.mp hframe) hv))
  · split
    · exact safe_resolve hc hself (hr.later hl) (hl.grown.hasKind hf)
    · exact Eval.safe_pure hl.sound Resolve.found_none

lemma safe_lookupAlong (hc : Contract T env.host env.plugins env.loader)
    (hself : SafeRunner T env self) (frames : List ObjectId) {s : Session H}
    (hr : Ready T env c s.heap) (hf : ∀ x ∈ frames, s.heap.HasKind .frame x) :
    Eval.Safe T (lookupAlong env self frame name frames) s fun v h => v.ValidIn h := by
  induction frames generalizing s with
  | nil =>
    refine Eval.Safe.barring ?_ (hself.stuck s)
    exact Eval.safe_nameText_bind fun text => Eval.safe_fail hr.sound rfl
  | cons x rest ih =>
    refine (safe_lookupIn hc hself hr (hf x List.mem_cons_self)).bind fun o s' hl ho => ?_
    cases o with
    | some v => exact Eval.safe_pure hl.sound (ho v rfl)
    | none => exact ih (hr.later hl) fun x hx => hl.grown.hasKind (hf x (List.mem_cons_of_mem _ hx))

lemma safe_lookup (hc : Contract T env.host env.plugins env.loader) (hself : SafeRunner T env self)
    (hr : Ready T env c s.heap) (hf : s.heap.HasKind .frame frame) :
    Eval.Safe T (lookup env self frame name) s fun v h => v.ValidIn h :=
  Eval.safe_get_bind (safe_lookupAlong hc hself _ hr fun _ hx => Heap.mem_lineage hr.sound hf hx)

lemma safe_frameMember (hc : Contract T env.host env.plugins env.loader)
    (hself : SafeRunner T env self) (hr : Ready T env c s.heap) (hf : s.heap.HasKind .frame frame) :
    Eval.Safe T (frameMember env self frame name) s fun v h => v.ValidIn h := by
  refine (safe_lookupIn hc hself hr hf).bind fun o s' hl ho => ?_
  cases o with
  | some v => exact Eval.safe_pure hl.sound (ho v rfl)
  | none => exact Eval.safe_nameText_bind fun text => Eval.safe_fail hl.sound rfl

end Lookup
end Patchbay
