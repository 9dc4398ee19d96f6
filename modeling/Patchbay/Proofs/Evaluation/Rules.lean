import Patchbay.Proofs.Evaluation.Builtins
import Patchbay.Proofs.Evaluation.ComingBack
import Patchbay.Proofs.Evaluation.Regimes

/-!
# Comparing by rules

If the recursive calls of a rule compare, so does the rule. All that a rule does to the heap by
itself is in `Primitive`, and what a regime owes for that, for the code of the host and for what is
loaded is in `Governs`. Statements and expressions come from programs, from functions on the heap
and from loaded scripts; wherever they come from, the regime permits them.
-/

namespace Patchbay

variable {H : HostTypes} {α : Type}

open Eval

namespace Regime

/-- The objects that evaluations store, frames apart: functions that may be called, and arrays that
were stacked from values. -/
structure Stores (R : Regime H) (o : HeapObject H) : Prop where
  kind : o.kind ≠ .frame
  callable : ∀ f, o = .callable f → R.PermitsCallable f
  grid : ∀ g, o = .grid g → ∃ h values, R.Holds h ∧ literalGrid h values = .ok g

/-- The operations on the heap that the rules do. -/
inductive Primitive (R : Regime H) (env : Environment H) : {α : Type} → HeapM H α → Prop where
  | define (frame : ObjectId) (name : Name) (v : Value) : Primitive R env (Heap.define frame name v)
  | bind (frame : ObjectId) (name : Name) (v : Value) : Primitive R env (Heap.bind frame name v)
  | setVariable (frame : ObjectId) (name : Name) (v : Value) :
      Primitive R env (Heap.setVariable frame name v)
  | setIndex (target : Value) (indices : List Value) (v : Value) :
      Primitive R env (Heap.setIndex target indices v)
  | setParam (param : PortRef) (v : Value) :
      Primitive R env (Heap.setParam env.host.toKernelHost param v)
  | connect (input output : PortRef) : Primitive R env (Heap.connect input output)
  | pin (frame : ObjectId) : Primitive R env (Heap.pin frame)
  /-- A new frame stays in the one that it is made for. -/
  | childFrame (parent : ObjectId) (adjust : Frame → Frame) : (∀ f, (adjust f).parent = f.parent) →
      Primitive R env (Heap.childFrame parent adjust)
  | alloc (o : HeapObject H) : R.Stores o → Primitive R env (HeapM.alloc o)
  | allocValue (o : HeapObject H) : R.Stores o → Primitive R env (HeapM.allocValue o)
  | call (fn : H.Native) (args : List Value) : Primitive R env (env.host.call fn args)

/-- What holds of the heap is kept by all that evaluations do, and all that they may run is
permitted. -/
structure Governs (R : Regime H) (env : Environment H) : Prop where
  primitive : ∀ {α : Type} {op : HeapM H α}, R.Primitive env op → R.Keeps op
  unpin : ∀ h frame, R.Holds h → R.Holds (h.unpin frame)
  names : ∀ (h : Heap H) names, R.Holds h → R.Holds { h with names := names }
  called : ∀ h id f, R.Holds h → h.callable id = .ok f → R.PermitsCallable f
  function : ∀ p ∈ env.plugins.functions, ∀ request h, R.Holds h →
    (p.factory request).Ends h (fun f h' => R.Holds h' ∧ R.PermitsCallable f) fun _ => R.Holds
  loaded : ∀ load, env.loader = some load → ∀ path names program,
    (load path names).1 = .ok program → R.Permits program.loopFree

/-- The recursive calls of a rule compare at a depth. Counted loops are called only if there may be
any, and nothing is stuck if evaluations come back from wherever they look. -/
structure RelatedCalls (R : Regime H) (env : Environment H) (depth : Nat) (r r' : Runner H) :
    Prop where
  governs : R.Governs env
  expr : ∀ c : Cursor, c.depth = depth → ∀ e, R.Permits e.loopFree →
    R.Compares depth (r.expr c e) (r'.expr c e)
  stmt : ∀ c : Cursor, c.depth = depth → ∀ st, R.Permits st.loopFree →
    R.Compares depth (r.stmt c st) (r'.stmt c st)
  loop : R.loops → ∀ c : Cursor, c.depth = depth → ∀ l, R.Compares depth (r.loop c l) (r'.loop c l)
  stuck : (∀ h, R.Holds h → h.ComesBack) ∨ R.Compares depth r.stuck r'.stuck

variable {R : Regime H} {depth limit : Nat} {env : Environment H} {self self' : Runner H}
  {c : Cursor} {frame id : ObjectId} {name : Name} {v : Value}

lemma Governs.onHeap {op : HeapM H α} (hg : R.Governs env) (hop : R.Primitive env op) :
    R.Compares depth (onHeap op) (onHeap op) := compares_onHeap (hg.primitive hop)

lemma Governs.pinning {m m' : Eval H α} (hg : R.Governs env) (frame : ObjectId)
    (hm : R.Compares depth m m') :
    R.Compares depth (withPinned frame m) (withPinned frame m') :=
  hm.pinning (hg.primitive (.pin frame)) fun h => hg.unpin h frame

/-- A function that may be called. -/
lemma Governs.allocFunction {f : Callable H} (hg : R.Governs env) (hf : R.PermitsCallable f) :
    R.Compares depth (Eval.onHeap (HeapM.allocValue (.callable f)))
      (Eval.onHeap (HeapM.allocValue (.callable f))) := by
  refine hg.onHeap (.allocValue (.callable f) ⟨nofun, fun g hsame => ?_, nofun⟩)
  cases hsame
  exact hf

lemma Governs.allocNode (hg : R.Governs env) (n : Node H) :
    R.Compares depth (Eval.onHeap (HeapM.alloc (.node n))) (Eval.onHeap (HeapM.alloc (.node n))) :=
  hg.onHeap (.alloc (.node n) ⟨nofun, nofun, nofun⟩)

/-- Evaluations that are barred where some walk outward or some indexing does not come back. -/
lemma RelatedCalls.barring {hangs : Heap H → Bool} {m m' : Eval H α}
    (hb : R.RelatedCalls env depth self self') (hclear : ∀ h, h.ComesBack → hangs h = false)
    (hm : R.Compares depth m m') :
    R.Compares depth (Eval.barring hangs self.stuck m) (Eval.barring hangs self'.stuck m') :=
  hm.barring (hb.stuck.imp_left fun hback h hh => hclear h (hback h hh))

lemma RelatedCalls.block (hb : R.RelatedCalls env c.depth self self') {body : List Stmt}
    (hp : R.Permits (Stmt.allLoopFree body)) :
    R.Compares c.depth (self.block c body) (self'.block c body) := by
  induction body with
  | nil => exact compares_pure
  | cons st rest ih =>
    obtain ⟨hst, hrest⟩ := permits_and.mp hp
    refine (hb.stmt c rfl st hst).bind fun flow => ?_
    cases flow with
    | ret v => exact compares_pure
    | next => exact ih hrest

/-! ## Looking up names -/

section Lookup

variable {ident : String} {dir path : Path} {m m' : Eval H Value}

open Resolve

lemma compares_pluginFunction (hg : R.Governs env) {plugin : Plugin (FunctionFactory H)}
    (hp : plugin ∈ env.plugins.functions) :
    R.Compares depth (pluginFunction frame name plugin) (pluginFunction frame name plugin) := by
  intro s hs
  obtain ⟨heap, nodesNamed, evalDepth, loading⟩ := s
  have hends := hg.function plugin hp ⟨plugin.ident, name, frame, plugin.library⟩ heap hs.holds
  unfold pluginFunction
  change R.Matches _ (Eval.bind _ _ _) (Eval.bind _ _ _)
  rcases hends.ok_or_error with ⟨f, h, hrun, hh, hf⟩ | ⟨e, h, hrun, hh⟩
  · simp only [Eval.bind, Eval.mapError, Eval.onHeap, hrun]
    -- naming the library does not change what the function runs
    refine hg.allocFunction (fun body hbody => hf body ?_) ⟨h, nodesNamed, evalDepth, loading⟩
      ⟨hh, hs.evalDepth⟩
    split at hbody
    · exact hbody
    · exact hbody
  · simp only [Eval.bind, Eval.mapError, Eval.onHeap, hrun]
    exact .error ⟨hh, hs.evalDepth⟩ fun _ => rfl

/-- A loaded program is permitted. -/
lemma compares_loadProgram_bind (hg : R.Governs env) {load : Loader}
    (hload : env.loader = some load)
    {change : EvalError → EvalError} {k k' : Program → Eval H α}
    (hk : ∀ program, R.Permits program.loopFree → R.Compares depth (k program) (k' program)) :
    R.Compares depth ((loadProgram load path).mapError change >>= k)
      ((loadProgram load path).mapError change >>= k') := by
  intro s hs
  have hholds := hg.names s.heap (load path s.heap.names).2 hs.holds
  change R.Matches _ (Eval.bind ((loadProgram load path).mapError change) k s)
    (Eval.bind ((loadProgram load path).mapError change) k' s)
  cases hread : (load path s.heap.names).1 with
  | ok program =>
    have hprogram := hg.loaded load hload path _ program hread
    simp only [Eval.bind, Eval.mapError, loadProgram, hread]
    exact hk program hprogram _ ⟨hholds, hs.evalDepth⟩
  | error e =>
    simp only [Eval.bind, Eval.mapError, loadProgram, hread]
    exact .error ⟨hholds, hs.evalDepth⟩ fun _ => rfl

lemma cause_withNote (e : EvalError) (note : String) : (e.withNote note).cause = e.cause := rfl

lemma compares_runScript (hb : R.RelatedCalls env depth self self') {load : Loader}
    (hload : env.loader = some load) :
    R.Compares depth (runScript self load frame name ident path)
      (runScript self' load frame name ident path) := by
  refine compares_loadProgram_bind hb.governs hload fun program hp => ?_
  refine (hb.governs.onHeap (.childFrame frame id fun _ => rfl)).bind fun scriptFrame => ?_
  refine compares_get_bind fun s hs => ?_
  -- the script starts where the innermost running evaluation stands
  have hbody : R.Compares depth (self.block ⟨scriptFrame, s.evalDepth⟩ program.body)
      (self'.block ⟨scriptFrame, s.evalDepth⟩ program.body) := by
    rw [hs.evalDepth]
    exact RelatedCalls.block (c := ⟨scriptFrame, depth⟩) hb hp
  have hscript := (hb.governs.pinning scriptFrame hbody).mapError
    fun e => cause_withNote e ("while loading " ++ path.text)
  refine hscript.discard.bind fun _ => compares_read.bind fun o => ?_
  cases o with
  | some v => exact compares_pure
  | none => exact compares_fail

lemma compares_whileLoading (hm : R.Compares depth m m') :
    R.Compares depth (whileLoading path m) (whileLoading path m') := by
  refine compares_get_bind fun s _ => ?_
  split
  · exact compares_pure
  · intro t ht
    have hrun := hm { t with loading := path :: t.loading } ⟨ht.holds, ht.evalDepth⟩
    let leave := fun u : Session H => { u with loading := u.loading.filter fun p => !path.same p }
    have hleave : ∀ u, R.Stands depth u → R.Stands depth (leave u) := fun u hu =>
      ⟨hu.holds, hu.evalDepth⟩
    exact (hrun.andAlso leave hleave).bind fun _ _ hu => .ok hu

lemma compares_script (hb : R.RelatedCalls env depth self self') :
    R.Compares depth (script env self frame name ident dir)
      (script (env.withLimit limit) self' frame name ident dir) := by
  have hsame : script (env.withLimit limit) self' frame name ident dir =
      script env self' frame name ident dir := rfl
  rw [hsame]
  unfold script
  dsimp only
  split
  · next load _ hload => exact compares_whileLoading (compares_runScript hb hload)
  · exact compares_pure

lemma compares_find (hb : R.RelatedCalls env depth self self') :
    R.Compares depth (find env self frame name) (find (env.withLimit limit) self' frame name) := by
  refine compares_nameText.bind fun ident => compares_read.bind fun f => ?_
  -- where to look does not depend on the limit: subdirectories first, then plugins, then scripts
  have hsub : subdirectory? (env.withLimit limit) f.path ident = subdirectory? env f.path
      ident := rfl
  dsimp only
  rw [hsub]
  cases subdirectory? env f.path ident with
  | some sub =>
    exact ((hb.governs.onHeap (.childFrame frame (Frame.withPath · sub) fun _ => rfl)).bind fun _ =>
      compares_pure).map
  | none =>
    dsimp only
    have hplugins : (env.withLimit limit).plugins = env.plugins := rfl
    have hroot : (env.withLimit limit).root = env.root := rfl
    rw [hplugins, hroot]
    cases hp : env.plugins.function? ident f.path _ with
    | some plugin =>
      exact (compares_pluginFunction hb.governs (List.mem_of_find?_eq_some hp)).map
    | none =>
      dsimp only
      cases env.plugins.node? ident f.path _ with
      | some plugin =>
        exact (hb.governs.allocFunction fun body hbody => by cases hbody).map
      | none =>
        cases f.path with
        | some dir => exact compares_script hb
        | none => exact compares_pure

lemma compares_resolve (hb : R.RelatedCalls env depth self self') :
    R.Compares depth (resolve env self frame name)
      (resolve (env.withLimit limit) self' frame name) := by
  refine (compares_find hb).bind fun o => ?_
  cases o with
  | some v => exact (hb.governs.onHeap (.bind frame name v)).bind fun _ => compares_pure
  | none => exact compares_pure

lemma compares_lookupIn (hb : R.RelatedCalls env depth self self') :
    R.Compares depth (lookupIn env self frame name)
      (lookupIn (env.withLimit limit) self' frame name) := by
  refine compares_read.bind fun f => ?_
  cases f.get? name with
  | some v => exact compares_pure
  | none =>
    dsimp only
    have hroot : (env.withLimit limit).root = env.root := rfl
    rw [hroot]
    split
    · exact compares_resolve hb
    · exact compares_pure

lemma compares_lookupAlong (hb : R.RelatedCalls env depth self self') (frames : List ObjectId) :
    R.Compares depth (lookupAlong env self frame name frames)
      (lookupAlong (env.withLimit limit) self' frame name frames) := by
  induction frames with
  | nil =>
    exact hb.barring (fun h hh => hh.walks frame) (compares_nameText.bind fun _ => compares_fail)
  | cons x rest ih =>
    refine (compares_lookupIn hb).bind fun o => ?_
    cases o with
    | some v => exact compares_pure
    | none => exact ih

lemma compares_lookup (hb : R.RelatedCalls env depth self self') :
    R.Compares depth (lookup env self frame name) (lookup (env.withLimit limit) self' frame name) :=
  compares_get_bind fun _ _ => compares_lookupAlong hb _

lemma compares_frameMember (hb : R.RelatedCalls env depth self self') :
    R.Compares depth (frameMember env self frame name)
      (frameMember (env.withLimit limit) self' frame name) := by
  refine (compares_lookupIn hb).bind fun o => ?_
  cases o with
  | some v => exact compares_pure
  | none => exact compares_nameText.bind fun _ => compares_fail

end Lookup

/-! ## Operators on signals -/

section Signals

variable {kind : String}

open Lift

lemma compares_sourcePort (hg : R.Governs env) {operand : Value} :
    R.Compares depth (sourcePort operand : Eval H PortRef) (sourcePort operand) := by
  unfold sourcePort
  split
  · exact compares_pure
  · exact compares_nextNodeName.bind fun _ => (hg.allocNode _).bind fun _ => compares_pure

lemma compares_wire (hg : R.Governs env) {node : ObjectId} {count position : Nat}
    {operands : List Value} :
    R.Compares depth (wire node kind count position operands : Eval H Unit)
      (wire node kind count position operands) := by
  induction operands generalizing position with
  | nil => exact compares_pure
  | cons operand rest ih =>
    refine (compares_sourcePort hg).bind fun source => ?_
    split
    · exact (hg.onHeap (.connect _ source)).bind fun _ => ih
    · exact compares_fail

lemma compares_build (hg : R.Governs env) {make : String → Node H} {operands : List Value} :
    R.Compares depth (build kind make operands) (build kind make operands) :=
  compares_nextNodeName.bind fun _ => (hg.allocNode _).bind fun _ =>
    (compares_wire hg).bind fun _ => compares_pure

lemma compares_readIndex (hb : R.RelatedCalls env depth self self') {target : Value}
    {indices : List Value} :
    R.Compares depth (readIndex self.stuck target indices) (readIndex self'.stuck target indices) :=
  hb.barring (fun _ hh => hh.arrays target indices) compares_read

lemma compares_callBuiltin (hb : R.RelatedCalls env depth self self') {b : Builtin}
    {operands : List Value} :
    R.Compares depth (callBuiltin b operands self.stuck) (callBuiltin b operands self'.stuck) := by
  refine callBuiltin_cases (motive := R.Compares depth) self.stuck self'.stuck b operands
    (fun r _ _ => ?_) (fun target indices _ => ?_) fun kind make vs _ _ => ?_
  · exact compares_ofExcept
  · exact compares_readIndex hb
  · exact compares_build hb.governs

end Signals

/-! ## Calls -/

section Calls

variable {f : Callable H} {args : List CallArg} {kind : PortKind} {index : UInt16}
  {otherwise : Cause}

lemma compares_defineAll (hg : R.Governs env) (bound : List (Name × Value)) :
    R.Compares depth
      (bound.forM fun (name, value) => onHeap (Heap.define frame name value) : Eval H Unit)
      (bound.forM fun (name, value) => onHeap (Heap.define frame name value)) := by
  induction bound with
  | nil => exact compares_pure
  | cons b rest ih => exact (hg.onHeap (.define frame b.1 b.2)).bind fun _ => ih

lemma compares_callScript (hb : R.RelatedCalls env c.depth self self') {body : Stmt}
    (hp : R.Permits body.loopFree) :
    R.Compares c.depth (callScript env self c f body args)
      (callScript (env.withLimit limit) self' c f body args) := by
  refine compares_read.bind fun bound => ?_
  refine (hb.governs.onHeap (.childFrame _ id fun _ => rfl)).bind fun frame => ?_
  refine (compares_defineAll hb.governs bound).bind fun _ => ?_
  refine (hb.governs.pinning frame (hb.stmt { c with frame := frame } rfl body hp)).bind
    fun flow => ?_
  cases flow with
  | ret v => exact compares_pure
  | next => exact compares_pure

lemma compares_writePort (hg : R.Governs env) :
    R.Compares depth (writePort env id kind index v otherwise)
      (writePort (env.withLimit limit) id kind index v otherwise) := by
  cases kind with
  | param => exact hg.onHeap (.setParam ⟨id, index⟩ v)
  | input =>
    exact (compares_sourcePort hg).bind fun source => hg.onHeap (.connect ⟨id, index⟩ source)
  | output => exact compares_fail

lemma compares_applyNodeArguments (hg : R.Governs env) {position : Nat} :
    R.Compares depth (applyNodeArguments env id position args)
      (applyNodeArguments (env.withLimit limit) id position args) := by
  induction args generalizing position with
  | nil => exact compares_pure
  | cons arg rest ih =>
    unfold applyNodeArguments
    split
    · exact compares_fail
    · refine compares_nameText.bind fun key => compares_read.bind fun n => ?_
      dsimp only
      split
      · exact (compares_writePort hg).bind fun _ => ih
      · exact compares_fail.bind fun _ => ih

lemma compares_createNode (hg : R.Governs env) {factory : NodeFactory H} :
    R.Compares depth (createNode env f factory args)
      (createNode (env.withLimit limit) f factory args) := by
  refine compares_nameText.bind fun kind => compares_nextNodeName.bind fun name => ?_
  refine compares_ofExcept_mapError.bind fun node => (hg.allocNode _).bind fun id => ?_
  exact (compares_applyNodeArguments hg).bind fun _ => compares_pure

lemma compares_operandsOf :
    R.Compares depth (operandsOf args : Eval H (List Value)) (operandsOf args) := by
  induction args with
  | nil => exact compares_pure
  | cons arg rest ih =>
    unfold operandsOf
    split
    · exact compares_nameText.bind fun _ => compares_fail
    · exact ih.bind fun _ => compares_pure

lemma cause_withCallSite (e : EvalError) (site : Location) :
    (e.withCallSite site).cause = e.cause := by
  unfold EvalError.withCallSite
  split <;> rfl

lemma compares_callValue (hb : R.RelatedCalls env c.depth self self') {callee : Value}
    {site : Location} :
    R.Compares c.depth (callValue env self c callee args site)
      (callValue (env.withLimit limit) self' c callee args site) := by
  unfold callValue
  split
  · refine compares_read_bind fun f h hh hf => ?_
    -- the body of the function is one that the regime permits
    have hp := hb.governs.called h _ f hh hf
    cases hbody : f.body with
    | script body =>
      exact (compares_callScript hb (hp body hbody)).mapError fun e => cause_withCallSite e site
    | native fn => exact compares_read.bind fun bound => hb.governs.onHeap (.call fn _)
    | nodeCreator create => exact compares_createNode hb.governs
    | builtin b => exact compares_operandsOf.bind fun _ => compares_callBuiltin hb
  · exact compares_fail

lemma compares_callReserved (hb : R.RelatedCalls env c.depth self self') {operands : List Value}
    {site : Location} :
    R.Compares c.depth (callReserved env self c name operands site)
      (callReserved (env.withLimit limit) self' c name operands site) :=
  (compares_lookup hb).bind fun _ => compares_callValue hb

end Calls

/-! ## Expressions -/

section Expressions

variable {loc : Location}

lemma compares_member (hb : R.RelatedCalls env depth self self') {object : Value} :
    R.Compares depth (member env self object name)
      (member (env.withLimit limit) self' object name) := by
  unfold member
  split
  · exact compares_frameMember hb
  · exact compares_nameText.bind fun _ => compares_read
  · exact compares_nameText.bind fun _ => compares_fail

lemma compares_evalArgs (hb : R.RelatedCalls env c.depth self self') {args : List Argument}
    (hp : R.Permits (Argument.allLoopFree args)) :
    R.Compares c.depth (evalArgs self c args) (evalArgs self' c args) := by
  induction args with
  | nil => exact compares_pure
  | cons a rest ih =>
    obtain ⟨ha, hrest⟩ := permits_and.mp hp
    cases a with
    | mk label value =>
      exact (hb.expr c rfl value ha).bind fun _ => (ih hrest).bind fun _ => compares_pure

lemma compares_evalAll (hb : R.RelatedCalls env c.depth self self') {es : List Expr}
    (hp : R.Permits (Expr.allLoopFree es)) :
    R.Compares c.depth (evalAll self c es) (evalAll self' c es) := by
  induction es with
  | nil => exact compares_pure
  | cons e rest ih =>
    obtain ⟨he, hrest⟩ := permits_and.mp hp
    exact (hb.expr c rfl e he).bind fun _ => (ih hrest).bind fun _ => compares_pure

lemma compares_evalKind (hb : R.RelatedCalls env c.depth self self') {kind : ExprKind}
    (hp : R.Permits kind.loopFree) :
    R.Compares c.depth (evalKind env self c kind loc)
      (evalKind (env.withLimit limit) self' c kind loc) := by
  have hg := hb.governs
  cases kind with
  | literal l => exact compares_look
  | array items =>
    refine (compares_evalAll hb hp).bind fun values => compares_read_bind fun g h hh hmade => ?_
    refine hg.onHeap (.allocValue (.grid g) ⟨nofun, nofun, fun g' hsame => ?_⟩)
    cases hsame
    exact ⟨h, values, hh, hmade⟩
  | sequence items =>
    exact (compares_evalAll hb hp).bind fun _ => hg.onHeap (.allocValue _ ⟨nofun, nofun, nofun⟩)
  | frame body =>
    refine (hg.onHeap (.childFrame c.frame Frame.asThis fun _ => rfl)).bind fun frame => ?_
    have hbody := hg.pinning frame (hb.stmt { c with frame := frame } rfl body hp)
    exact hbody.discard.bind fun _ => compares_pure
  | ident name => exact compares_lookup hb
  | this =>
    exact hb.barring (fun h hh => Heap.walksOn_of_ends (hh.walks c.frame)) compares_read.map
  | member object name => exact (hb.expr c rfl object hp).bind fun _ => compares_member hb
  -- `Permits` of a compound expression is that of its parts
  | index object indices =>
    obtain ⟨hobject, hindices⟩ := permits_and.mp hp
    exact (hb.expr c rfl object hobject).bind fun _ => (compares_evalAll hb hindices).bind fun _ =>
      compares_callReserved hb
  | call callee args =>
    obtain ⟨hcallee, hargs⟩ := permits_and.mp hp
    exact (hb.expr c rfl callee hcallee).bind fun _ => (compares_evalArgs hb hargs).bind fun _ =>
      compares_callValue hb
  | unary op operand => exact (hb.expr c rfl operand hp).bind fun _ => compares_callReserved hb
  | binary op left right =>
    obtain ⟨hleft, hright⟩ := permits_and.mp hp
    refine (hb.expr c rfl left hleft).bind fun _ => compares_ofExcept.bind fun o => ?_
    cases o with
    | some result => exact compares_pure
    | none => exact (hb.expr c rfl right hright).bind fun _ => compares_callReserved hb
  | ternary cond thenExpr elseExpr =>
    obtain ⟨hcond, hbranches⟩ := permits_and.mp hp
    obtain ⟨hthen, helse⟩ := permits_and.mp hbranches
    refine (hb.expr c rfl cond hcond).bind fun _ => compares_ofExcept.bind fun b => ?_
    cases b with
    | true => exact hb.expr c rfl thenExpr hthen
    | false => exact hb.expr c rfl elseExpr helse

end Expressions

/-! ## Statements -/

section Statements

variable {loc : Location}

lemma compares_evalOptional (hb : R.RelatedCalls env c.depth self self') {e : Option Expr}
    (hp : R.Permits (Expr.loopFree? e)) :
    R.Compares c.depth (evalOptional self c e) (evalOptional self' c e) := by
  cases e with
  | some e => exact hb.expr c rfl e hp
  | none => exact compares_pure

lemma compares_declareParams (hb : R.RelatedCalls env c.depth self self') {params : List Param}
    (hp : R.Permits (Param.allLoopFree params)) :
    R.Compares c.depth (declareParams self c params) (declareParams self' c params) := by
  induction params with
  | nil => exact compares_pure
  | cons p rest ih =>
    obtain ⟨hparam, hrest⟩ := permits_and.mp hp
    cases p with
    | mk name default =>
      cases default with
      | some e =>
        exact (hb.expr c rfl e hparam).map.bind fun _ => (ih hrest).bind fun _ => compares_pure
      | none => exact compares_pure.bind fun _ => (ih hrest).bind fun _ => compares_pure

lemma compares_assignMember (hg : R.Governs env) {object : Value} :
    R.Compares depth (assignMember env object name v)
      (assignMember (env.withLimit limit) object name v) := by
  unfold assignMember
  split
  · exact hg.onHeap (.bind _ name v)
  · refine compares_nameText.bind fun key => compares_read.bind fun n => ?_
    split
    · exact compares_writePort hg
    · exact compares_fail
  · exact compares_nameText.bind fun _ => compares_fail

lemma compares_assignedValue (hb : R.RelatedCalls env c.depth self self') {op : Option BinaryOp}
    {current current' : Eval H Value} (hcurrent : R.Compares c.depth current current') :
    R.Compares c.depth (assignedValue env self c op current v loc)
      (assignedValue (env.withLimit limit) self' c op current' v loc) := by
  cases op with
  | none => exact compares_pure
  | some op => exact hcurrent.bind fun _ => compares_callReserved hb

lemma compares_assignTo (hb : R.RelatedCalls env c.depth self self') {target : Target}
    {op : Option BinaryOp} {value : Expr} (ht : R.Permits target.loopFree)
    (hv : R.Permits value.loopFree) :
    R.Compares c.depth (assignTo env self c target op value loc)
      (assignTo (env.withLimit limit) self' c target op value loc) := by
  cases target with
  | ident name =>
    refine (hb.expr c rfl value hv).bind fun _ => ?_
    exact (compares_assignedValue hb (compares_lookup hb)).bind fun v =>
      hb.barring (fun h hh => Heap.walksOn_of_ends (hh.walks c.frame))
        (hb.governs.onHeap (.setVariable c.frame name v))
  | member object name =>
    refine (hb.expr c rfl object ht).bind fun _ => (hb.expr c rfl value hv).bind fun _ => ?_
    exact (compares_assignedValue hb (compares_member hb)).bind fun _ =>
      compares_assignMember hb.governs
  | index object indices =>
    obtain ⟨hobject, hindices⟩ := permits_and.mp ht
    refine (hb.expr c rfl object hobject).bind fun o => (compares_evalAll hb hindices).bind
      fun keys => ?_
    refine (hb.expr c rfl value hv).bind fun _ =>
      (compares_assignedValue hb (compares_readIndex hb)).bind fun v => ?_
    refine hb.barring (fun h hh => ?_) (hb.governs.onHeap (.setIndex o keys v))
    rw [hh.arrays o keys, Bool.and_false]

lemma compares_forEach (hb : R.RelatedCalls env c.depth self self') {var : Name} {body : Stmt}
    (hp : R.Permits body.loopFree) (items : List Value) :
    R.Compares c.depth (forEach self c var body items) (forEach self' c var body items) := by
  -- the items were listed before the first round, whatever the rounds do to the container
  induction items with
  | nil => exact compares_pure
  | cons item rest ih =>
    refine (hb.governs.onHeap (.childFrame c.frame id fun _ => rfl)).bind fun frame => ?_
    have hbody : R.Compares c.depth
        (do onHeap (Heap.define frame var item); self.stmt { c with frame := frame } body)
        (do onHeap (Heap.define frame var item); self'.stmt { c with frame := frame } body) :=
      (hb.governs.onHeap (.define frame var item)).bind fun _ =>
        hb.stmt { c with frame := frame } rfl body hp
    refine (hb.governs.pinning frame hbody).bind fun flow => ?_
    cases flow with
    | ret v => exact compares_pure
    | next => exact ih

/-- Where there may be counted loops, all is permitted. -/
lemma Permits.of_loops (hl : R.loops) {free : Bool} : R.Permits free := .inl hl

lemma compares_loopRound (hl : R.loops) (hb : R.RelatedCalls env c.depth self self')
    (l : LoopBody) : R.Compares c.depth (loopRound self c l) (loopRound self' c l) := by
  rw [loopRound_eq, loopRound_eq]
  have htest : R.Compares c.depth (roundTest self c l) (roundTest self' c l) := by
    unfold roundTest
    cases l.cond with
    | some cond => exact (hb.expr c rfl cond (.of_loops hl)).bind fun _ => compares_ofExcept
    | none => exact compares_pure
  refine htest.bind fun holds => ?_
  cases holds with
  | false => exact compares_pure
  | true =>
    refine (hb.stmt c rfl l.body (.of_loops hl)).bind fun flow => ?_
    cases flow with
    | ret v => exact compares_pure
    | next =>
      have hloop := hb.loop hl c rfl l
      cases l.step with
      | some step => exact (hb.stmt c rfl step (.of_loops hl)).discard.bind fun _ => hloop
      | none => exact hloop

lemma compares_execKind (hb : R.RelatedCalls env c.depth self self') {kind : StmtKind}
    (hp : R.Permits kind.loopFree) :
    R.Compares c.depth (execKind env self c kind loc)
      (execKind (env.withLimit limit) self' c kind loc) := by
  have hg := hb.governs
  cases kind with
  | block newFrame body =>
    cases newFrame with
    | true =>
      refine (hg.onHeap (.childFrame c.frame id fun _ => rfl)).bind fun frame => ?_
      exact hg.pinning frame (RelatedCalls.block (c := { c with frame := frame }) hb hp)
    | false => exact hb.block hp
  | function name params body =>
    obtain ⟨hparams, hbody⟩ := permits_and.mp hp
    refine (compares_declareParams hb hparams).bind fun ps => ?_
    -- the new function runs the body of the declaration
    refine (hg.allocFunction fun body' hbody' => ?_).bind fun v =>
      (hg.onHeap (.define c.frame name v)).bind fun _ => compares_pure
    cases hbody'
    exact hbody
  | var name init =>
    exact (compares_evalOptional hb hp).bind fun v =>
      (hg.onHeap (.define c.frame name v)).bind fun _ =>
      compares_pure
  | assign target op value =>
    obtain ⟨htarget, hvalue⟩ := permits_and.mp hp
    exact (compares_assignTo hb htarget hvalue).bind fun _ => compares_pure
  | branch cond thenBranch elseBranch =>
    obtain ⟨hcond, hbranches⟩ := permits_and.mp hp
    obtain ⟨hthen, helse⟩ := permits_and.mp hbranches
    refine (hb.expr c rfl cond hcond).bind fun _ => compares_ofExcept.bind fun b => ?_
    cases b with
    | true => exact hb.stmt c rfl thenBranch hthen
    | false =>
      cases elseBranch with
      | some st => exact hb.stmt c rfl st helse
      | none => exact compares_pure
  | loop init cond step body =>
    -- a counted loop is not loop-free, so it is permitted only where all is
    have hl : R.loops := hp.resolve_right nofun
    refine (hg.onHeap (.childFrame c.frame id fun _ => rfl)).bind fun frame => hg.pinning frame ?_
    have hloop := hb.loop hl { c with frame := frame } rfl ⟨cond, step, body⟩
    cases init with
    | some init =>
      exact (hb.stmt { c with frame := frame } rfl init (.of_loops hl)).discard.bind fun _ => hloop
    | none => exact hloop
  | each var items body =>
    obtain ⟨hitems, hbody⟩ := permits_and.mp hp
    exact (hb.expr c rfl items hitems).bind fun _ => compares_read.bind fun vs =>
      compares_forEach hb hbody vs
  | expr e => exact (hb.expr c rfl e hp).discard.bind fun _ => compares_pure
  | ret value => exact (compares_evalOptional hb hp).map

end Statements

/-! ## Nesting -/

lemma cause_locatedAt (e : EvalError) (loc : Location) : (e.locatedAt loc).cause = e.cause := by
  unfold EvalError.locatedAt
  split <;> rfl

/-- Expressions compare whatever depth is noted when they start. -/
lemma matches_evalExpr {s : Session H} (hlimit : R.Admits env.config.maxDepth limit)
    (hb : c.depth < env.config.maxDepth → R.RelatedCalls env (c.depth + 1) self self') {e : Expr}
    (hp : R.Permits e.loopFree) (hs : R.Holds s.heap) :
    R.Matches (fun t => R.Holds t.heap ∧ (s.evalDepth = c.depth → t.evalDepth = c.depth))
      (evalExpr env self c e s) (evalExpr (env.withLimit limit) self' c e s) := by
  cases e with
  | mk kind loc =>
    refine (matches_nested hlimit hs fun hroom => ?_).mapError fun e => cause_locatedAt e loc
    exact compares_evalKind (c := { c with depth := c.depth + 1 }) (hb hroom) hp

lemma compares_evalExpr (hlimit : R.Admits env.config.maxDepth limit)
    (hb : c.depth < env.config.maxDepth → R.RelatedCalls env (c.depth + 1) self self') {e : Expr}
    (hp : R.Permits e.loopFree) :
    R.Compares c.depth (evalExpr env self c e) (evalExpr (env.withLimit limit) self' c e) :=
  fun _ hs => (matches_evalExpr hlimit hb hp hs.holds).mono fun _ ht => ⟨ht.1, ht.2 hs.evalDepth⟩

/-- So do statements. -/
lemma matches_execStmt {s : Session H} (hlimit : R.Admits env.config.maxDepth limit)
    (hb : c.depth < env.config.maxDepth → R.RelatedCalls env (c.depth + 1) self self') {st : Stmt}
    (hp : R.Permits st.loopFree) (hs : R.Holds s.heap) :
    R.Matches (fun t => R.Holds t.heap ∧ (s.evalDepth = c.depth → t.evalDepth = c.depth))
      (execStmt env self c st s) (execStmt (env.withLimit limit) self' c st s) := by
  cases st with
  | mk kind loc =>
    refine (matches_nested hlimit hs fun hroom => ?_).mapError fun e => cause_locatedAt e loc
    exact compares_execKind (c := { c with depth := c.depth + 1 }) (hb hroom) hp

lemma compares_execStmt (hlimit : R.Admits env.config.maxDepth limit)
    (hb : c.depth < env.config.maxDepth → R.RelatedCalls env (c.depth + 1) self self') {st : Stmt}
    (hp : R.Permits st.loopFree) :
    R.Compares c.depth (execStmt env self c st) (execStmt (env.withLimit limit) self' c st) :=
  fun _ hs => (matches_execStmt hlimit hb hp hs.holds).mono fun _ ht => ⟨ht.1, ht.2 hs.evalDepth⟩

end Regime
end Patchbay
