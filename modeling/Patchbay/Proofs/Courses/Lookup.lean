import Patchbay.Proofs.Courses.Evaluations
import Patchbay.Proofs.Safety.Calls

/-!
# The courses of look-ups

A look-up binds what it finds on demand in a known frame. What it finds is known: it was stored, it
comes from host code, or a script left it in a fresh frame.
-/

namespace Patchbay

variable {H : HostTypes} {K : Customs H} {R : Heap H × Ledger → Prop} {env : Environment H}
  {α : Type}

/-! ## Frames and stored values -/

/-- The language may store all that is known, nodes apart. -/
lemma Customs.own_alloc {l : Ledger} {o : HeapObject H} (ho : K.Holds l o)
    (hkind : o.kind ≠ .node) : K.Own env.root l (.alloc o) := ⟨ho, fun hnode => absurd hnode hkind⟩

namespace Heap

variable {h : Heap H} {l : Ledger} {frame id : ObjectId} {name : Name} {v : Value} {f : Frame}

lemma takes_define (hv : l.knows v) :
    HeapM.Takes K env (define frame name v) h l fun _ _ _ => True :=
  (HeapM.takes_own (show K.Own env.root l (.define frame name v) from hv) rfl).mono
    fun _ _ _ _ _ => trivial

lemma takes_bind (hv : l.knows v) :
    HeapM.Takes K env (Heap.bind frame name v) h l fun _ _ _ => True :=
  (HeapM.takes_own (show K.Own env.root l (.bind frame name v) from hv) rfl).mono
    fun _ _ _ _ _ => trivial

lemma knows_get (hc : K.Covers h l) (hf : h.object? id = some (.frame f))
    (hv : f.get? name = some v) : l.knows v := (hc.object id _ hf).value v (mem_values_get hv)

/-- The frames around a known frame are known. -/
lemma knows_lineage (hc : K.Covers h l) (hid : l.knows (.frame id)) {x : ObjectId}
    (hx : x ∈ h.lineage id) : l.knows (.frame x) := by
  refine forall_lineage (P := fun y => l.knows (.frame y)) (fun y p hp _ => ?_) hid hx
  obtain ⟨f, hf, hparent⟩ := parent?_eq_some.mp hp
  exact (hc.object y _ hf).scope p hparent

end Heap

/-! ## Known places -/

/-- Where an evaluation may start: all that is stored is known, and so are the root frame and the
current one. -/
structure Informed (K : Customs H) (R : Heap H × Ledger → Prop) (env : Environment H) (c : Cursor)
    (h : Heap H) (l : Ledger) : Prop where
  reached : R (h, l)
  covers : K.Covers h l
  root : l.knows (.frame env.root)
  frame : l.knows (.frame c.frame)

variable {c : Cursor} {self : Runner H} {s : Session H} {l : Ledger}

lemma Informed.later (hd : Decent K R env) {h h' : Heap H} {l' : Ledger}
    (hr : Informed K R env c h l) (hc : Course K env (h, l) (h', l')) : Informed K R env c h' l' :=
  ⟨hc.reached hd hr.reached, hc.covers hd hr.covers, hc.knows hr.root, hc.knows hr.frame⟩

lemma Informed.enter {h : Heap H} (hr : Informed K R env c h l) {c' : Cursor}
    (hk : l.knows (.frame c'.frame)) : Informed K R env c' h l :=
  ⟨hr.reached, hr.covers, hr.root, hk⟩

/-- A new frame in a known one, adjusted in a way that binds nothing. It is not the root frame. -/
lemma Heap.takes_childFrame {h : Heap H} {frame : ObjectId} (hr : Informed K R env c h l)
    (hp : l.knows (.frame frame)) (adjust : Frame → Frame)
    (hadjust : ∀ f, (adjust f).parent = f.parent ∧ (adjust f).values = f.values) :
    HeapM.Takes K env (childFrame frame adjust) h l fun id _ l' =>
      l'.knows (.frame id) ∧ (K.trusting ∨ id ≠ env.root) := by
  refine HeapM.Takes.bind (Q := fun _ h' l' => h' = h ∧ l' = l)
    (HeapM.takes_read fun _ _ => ⟨rfl, rfl⟩) fun f h' l' _ hsame => ?_
  obtain ⟨rfl, rfl⟩ := hsame
  obtain ⟨hparent, hvalues⟩ := hadjust (.child frame f.depth)
  have hholds : K.Holds l' (.frame (adjust (.child frame f.depth))) := by
    refine Customs.holds_data (fun v hv => ?_) (fun x hx => ?_) rfl rfl
    · rw [HeapObject.values, hvalues] at hv
      cases hv
    · rw [HeapObject.scope?, hparent] at hx
      cases hx
      exact hp
  refine (HeapM.takes_alloc (Customs.own_alloc hholds (fun hk => by cases hk))).mono
    fun id _ _ _ hid => ⟨hid.2.2, ?_⟩
  rw [or_iff_not_imp_left]
  rintro hnot rfl
  -- the root frame is live, so its handle is not given out again
  have hlive : h'.contains env.root = true :=
    contains_of_validIn (hr.covers.valid hnot _ hr.root) rfl
  exact ne_nextId hr.covers.tidy hlive hid.1

/-- The recursive calls of a rule take courses. -/
structure CourseRunner (K : Customs H) (R : Heap H × Ledger → Prop) (env : Environment H)
    (r : Runner H) : Prop where
  expr : ∀ {c s l}, Informed K R env c s.heap l → ∀ e,
    Eval.Takes K env (r.expr c e) s l fun v _ l' => l'.knows v
  stmt : ∀ {c s l}, Informed K R env c s.heap l → ∀ st,
    Eval.Takes K env (r.stmt c st) s l fun flow _ l' => flow.Known l'
  loop : ∀ {c s l}, Informed K R env c s.heap l → ∀ b,
    Eval.Takes K env (r.loop c b) s l fun flow _ l' => flow.Known l'
  stuck : ∀ s l, Eval.Takes K env r.stuck s l fun _ _ _ => True

lemma CourseRunner.block (hd : Decent K R env) (hself : CourseRunner K R env self)
    (body : List Stmt)
    {c : Cursor} {s : Session H} {l : Ledger} (hr : Informed K R env c s.heap l) :
    Eval.Takes K env (self.block c body) s l fun flow _ l' => flow.Known l' := by
  induction body generalizing s l with
  | nil => exact Eval.takes_pure trivial
  | cons st rest ih =>
    refine (hself.stmt hr st).bind fun flow s' l' hc hflow => ?_
    cases flow with
    | ret v => exact Eval.takes_pure hflow
    | next => exact ih (hr.later hd hc)

/-! ## Resolving names -/

namespace Resolve

variable {frame : ObjectId} {name : Name} {ident : String}

/-- Whether an optional result is known. -/
def Known (l : Ledger) (o : Option Value) : Prop := ∀ v, o = some v → l.knows v

lemma known_none : Known l none := by
  intro v hv
  cases hv

lemma known_some {v : Value} (hv : l.knows v) : Known l (some v) := by
  rintro w ⟨⟩
  exact hv

lemma takes_namespaceFrame (hr : Informed K R env c s.heap l) (hf : l.knows (.frame frame))
    (dir : Path) : Eval.Takes K env (namespaceFrame frame dir) s l fun v _ l' => l'.knows v := by
  refine (Eval.takes_onHeap (Heap.takes_childFrame hr hf (Frame.withPath · dir) fun _ =>
    ⟨rfl, rfl⟩)).bind fun id s' l' _ hid => ?_
  exact Eval.takes_pure hid.1

/-- A plugin makes a function on an errand. -/
lemma takes_factory (hd : Decent K R env) {h : Heap H} (hr : Informed K R env c h l)
    {plugin : Plugin (FunctionFactory H)} (hp : plugin ∈ env.plugins.functions)
    {request : FunctionRequest} (hf : l.knows (.frame request.frame)) :
    HeapM.Takes K env (plugin.factory request) h l fun f _ l' => K.Holds l' (.callable f) :=
  HeapM.takes_errand (.factory hp hf) (hd.function plugin hp hr.reached hr.covers hf)

lemma takes_pluginFunction (hd : Decent K R env) (hr : Informed K R env c s.heap l)
    (hf : l.knows (.frame frame)) {plugin : Plugin (FunctionFactory H)}
    (hp : plugin ∈ env.plugins.functions) :
    Eval.Takes K env (pluginFunction frame name plugin) s l fun v _ l' => l'.knows v := by
  refine Eval.Takes.bind (Q := fun f _ l' => K.Holds l' (.callable f))
    (Eval.takes_onHeap (takes_factory hd hr hp hf)).mapError fun made s' l' _ hholds => ?_
  refine Eval.takes_onHeap (HeapM.takes_allocValue (Customs.own_alloc ?_ (fun hk => by cases hk)))
  split
  · exact hholds
  · refine ⟨hholds.value, hholds.scope, fun c hc => ?_, hholds.kernel⟩
    cases hc
    exact hholds.body made rfl

lemma takes_pluginNode (hd : Decent K R env) {plugin : Plugin (NodeFactory H)}
    (hp : plugin ∈ env.plugins.nodes) :
    Eval.Takes K env (pluginNode name plugin) s l fun v _ l' => l'.knows v := by
  refine Eval.takes_onHeap (HeapM.takes_allocValue (Customs.own_alloc
    ⟨fun v hv => ?_, fun x hx => ?_, fun c hc => ?_, fun k hk => ?_⟩ (fun hk => by cases hk)))
  · cases hv
  · cases hx
  · cases hc
    exact hd.node plugin hp
  · cases hk

/-- A loader changes the names of the heap and nothing else. -/
lemma takes_loadProgram {load : Loader} {path : Path} :
    Eval.Takes K env (loadProgram load path) s l fun _ _ _ => True := by
  have hstep : Course K env (s.heap, l) ({ s.heap with names := (load path s.heap.names).2 }, l) :=
    .single (.names _)
  unfold Eval.Takes loadProgram
  dsimp only
  cases hr : (load path s.heap.names).1 with
  | ok program => exact ⟨l, hstep, trivial⟩
  | error e => exact ⟨l, hstep⟩

lemma takes_runScript (hd : Decent K R env) (hself : CourseRunner K R env self)
    (hr : Informed K R env c s.heap l) (hf : l.knows (.frame frame)) {load : Loader} {path : Path} :
    Eval.Takes K env (runScript self load frame name ident path) s l fun v _ l' => l'.knows v := by
  refine takes_loadProgram.mapError.bind fun program s1 l1 h1 _ => ?_
  refine (Eval.takes_onHeap (Heap.takes_childFrame (hr.later hd h1) (h1.knows hf) id
    fun _ => ⟨rfl, rfl⟩)).bind fun scriptFrame s2 l2 h2 hframe => ?_
  refine Eval.takes_get_bind ?_
  have hready : Informed K R env ⟨scriptFrame, s2.evalDepth⟩ s2.heap l2 :=
    (hr.later hd (h1.trans h2)).enter hframe.1
  have hrun : Eval.Takes K env
      (Eval.withPinned scriptFrame (self.block ⟨scriptFrame, s2.evalDepth⟩ program.body)) s2 l2
      fun flow _ l' => flow.Known l' :=
    Eval.takes_withPinned hframe.2 fun s' hc => hself.block hd program.body (hready.later hd hc)
  refine hrun.mapError.discard.bind fun _ s3 l3 h3 _ => ?_
  refine Eval.Takes.bind (Q := fun o _ l' => Known l' o) (Eval.takes_read fun o ho v hv => ?_)
    fun o s4 l4 h4 hfound => ?_
  · obtain ⟨f, hframe', rfl⟩ := map_eq_ok.mp ho
    exact Heap.knows_get (hready.later hd h3).covers (Heap.frame_eq_ok.mp hframe') hv
  · cases o with
    | some v => exact Eval.takes_pure (hfound v rfl)
    | none => exact Eval.takes_fail

lemma takes_whileLoading {path : Path} {m : Eval H Value}
    (hm : ∀ s', s'.heap = s.heap → Eval.Takes K env m s' l fun v _ l' => l'.knows v) :
    Eval.Takes K env (whileLoading path m) s l fun o _ l' => Known l' o := by
  refine Eval.takes_get_bind ?_
  split
  · exact Eval.takes_pure known_none
  · refine Eval.takes_modify_bind (by rfl) ?_
    refine Eval.Takes.bind (Q := fun v _ l' => l'.knows v) ((hm _ (by rfl)).andAlso ?_)
      fun v s' l' _ hv => Eval.takes_pure (known_some hv)
    exact fun _ => rfl

lemma takes_script (hd : Decent K R env) (hself : CourseRunner K R env self)
    (hr : Informed K R env c s.heap l) (hf : l.knows (.frame frame)) (dir : Path) :
    Eval.Takes K env (script env self frame name ident dir) s l fun o _ l' => Known l' o := by
  unfold script
  dsimp only
  split
  · refine takes_whileLoading fun s' hs' => ?_
    rw [← hs'] at hr
    exact takes_runScript hd hself hr hf
  · exact Eval.takes_pure known_none

lemma takes_some {m : Eval H Value} (hm : Eval.Takes K env m s l fun v _ l' => l'.knows v) :
    Eval.Takes K env (some <$> m) s l fun o _ l' => Known l' o :=
  Eval.Takes.map (hm.mono fun _ _ _ _ => known_some)

lemma takes_find (hd : Decent K R env) (hself : CourseRunner K R env self)
    (hr : Informed K R env c s.heap l) (hf : l.knows (.frame frame)) :
    Eval.Takes K env (find env self frame name) s l fun o _ l' => Known l' o := by
  refine Eval.takes_nameText_bind fun ident => ?_
  refine (Eval.takes_read fun _ _ => trivial).bind (Q := fun _ _ _ => True) fun f s' l' hc _ => ?_
  have hr' := hr.later hd hc
  have hf' := hc.knows hf
  dsimp only
  split
  · exact takes_some (takes_namespaceFrame hr' hf' _)
  · split
    · next plugin hp =>
      exact takes_some (takes_pluginFunction hd hr' hf' (List.mem_of_find?_eq_some hp))
    · split
      · next plugin hp => exact takes_some (takes_pluginNode hd (List.mem_of_find?_eq_some hp))
      · split
        · exact takes_script hd hself hr' hf' _
        · exact Eval.takes_pure known_none

end Resolve

/-! ## Looking up names -/

section Lookup

variable {frame : ObjectId} {name : Name}

lemma takes_resolve (hd : Decent K R env) (hself : CourseRunner K R env self)
    (hr : Informed K R env c s.heap l) (hf : l.knows (.frame frame)) :
    Eval.Takes K env (resolve env self frame name) s l fun o _ l' => Resolve.Known l' o := by
  refine (Resolve.takes_find hd hself hr hf).bind fun o s' l' _ ho => ?_
  cases o with
  | none => exact Eval.takes_pure Resolve.known_none
  | some v =>
    refine (Eval.takes_onHeap (Heap.takes_bind (ho v rfl))).bind fun _ s'' l'' hc _ => ?_
    exact Eval.takes_pure (Resolve.known_some (hc.knows (ho v rfl)))

lemma takes_lookupIn (hd : Decent K R env) (hself : CourseRunner K R env self)
    (hr : Informed K R env c s.heap l) (hf : l.knows (.frame frame)) :
    Eval.Takes K env (lookupIn env self frame name) s l fun o _ l' => Resolve.Known l' o := by
  refine (Eval.takes_read fun f hframe => hframe).bind (Q := fun f h _ => h.frame frame = .ok f)
    fun f s' l' hc hframe => ?_
  have hr' := hr.later hd hc
  split
  · next v hv =>
    exact Eval.takes_pure (Resolve.known_some
      (Heap.knows_get hr'.covers (Heap.frame_eq_ok.mp hframe) hv))
  · split
    · exact takes_resolve hd hself hr' (hc.knows hf)
    · exact Eval.takes_pure Resolve.known_none

lemma takes_lookupAlong (hd : Decent K R env) (hself : CourseRunner K R env self)
    (frames : List ObjectId) {s : Session H} {l : Ledger} (hr : Informed K R env c s.heap l)
    (hf : ∀ x ∈ frames, l.knows (.frame x)) :
    Eval.Takes K env (lookupAlong env self frame name frames) s l fun v _ l' => l'.knows v := by
  induction frames generalizing s l with
  | nil =>
    exact Eval.Takes.barring (Eval.takes_nameText_bind fun _ => Eval.takes_fail) (hself.stuck s l)
  | cons x rest ih =>
    refine (takes_lookupIn hd hself hr (hf x List.mem_cons_self)).bind fun o s' l' hc ho => ?_
    cases o with
    | some v => exact Eval.takes_pure (ho v rfl)
    | none => exact ih (hr.later hd hc) fun x hx => hc.knows (hf x (List.mem_cons_of_mem _ hx))

lemma takes_lookup (hd : Decent K R env) (hself : CourseRunner K R env self)
    (hr : Informed K R env c s.heap l) (hf : l.knows (.frame frame)) :
    Eval.Takes K env (lookup env self frame name) s l fun v _ l' => l'.knows v :=
  Eval.takes_get_bind (takes_lookupAlong hd hself _ hr fun _ hx =>
    Heap.knows_lineage hr.covers hf hx)

lemma takes_frameMember (hd : Decent K R env) (hself : CourseRunner K R env self)
    (hr : Informed K R env c s.heap l) (hf : l.knows (.frame frame)) :
    Eval.Takes K env (frameMember env self frame name) s l fun v _ l' => l'.knows v := by
  refine (takes_lookupIn hd hself hr hf).bind fun o s' l' _ ho => ?_
  cases o with
  | some v => exact Eval.takes_pure (ho v rfl)
  | none => exact Eval.takes_nameText_bind fun text => Eval.takes_fail

end Lookup
end Patchbay
