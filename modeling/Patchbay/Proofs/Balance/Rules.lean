import Patchbay.Eval.Statement
import Patchbay.Proofs.Balance.Sessions

/-!
# Balanced rules

Every rule of the language is balanced if the recursive calls that it makes are, and if the host
leaves pins alone. Frames are pinned when they are new. The guard of a script that is being loaded
lets nothing through for a path that is barred, so whatever the second loader says of it is not
heard.
-/

namespace Patchbay

variable {H : HostTypes} {α : Type}

open Eval HeapM

/-- Code of the host leaves pins alone. -/
structure Environment.LeavesPins (env : Environment H) : Prop where
  call : ∀ fn args, (env.host.call fn args).LeavesPins
  function : ∀ p ∈ env.plugins.functions, ∀ request, (p.factory request).LeavesPins

/-- Two loaders, or none, that say the same for all paths but those of a list. -/
def AgreeOff (barred : List Path) : Option Loader → Option Loader → Prop :=
  Option.Rel fun load load' => ∀ path : Path, barred.any path.same = false → load' path = load path

/-- The recursive calls of a rule are balanced, and so is the host. -/
structure BalancedCalls (barred : List Path) (env : Environment H) (loader' : Option Loader)
    (r r' : Runner H) : Prop where
  host : env.LeavesPins
  loader : AgreeOff barred env.loader loader'
  expr : ∀ c spare e, Balanced barred c.depth spare (r.expr c e) (r'.expr c e)
  stmt : ∀ c spare st, Balanced barred c.depth spare (r.stmt c st) (r'.stmt c st)
  loop : ∀ c spare l, Balanced barred c.depth spare (r.loop c l) (r'.loop c l)
  stuck : ∀ depth spare, Balanced barred depth spare r.stuck r'.stuck

variable {barred : List Path} {depth : Nat} {spare : List ObjectId} {env : Environment H}
  {loader' : Option Loader} {self self' : Runner H} {c : Cursor} {frame id : ObjectId} {name : Name}
  {v : Value}

lemma BalancedCalls.barring {hangs : Heap H → Bool} {m m' : Eval H α}
    (hb : BalancedCalls barred env loader' self self') (hm : Balanced barred depth spare m m') :
    Balanced barred depth spare (Eval.barring hangs self.stuck m)
      (Eval.barring hangs self'.stuck m') := by
  refine balanced_get_bind fun s _ => ?_
  split
  · exact (hb.stuck depth spare).map
  · exact hm

lemma BalancedCalls.block (hb : BalancedCalls barred env loader' self self') (body : List Stmt) :
    Balanced barred c.depth spare (self.block c body) (self'.block c body) := by
  induction body with
  | nil => exact balanced_pure
  | cons st rest ih =>
    refine (hb.stmt c spare st).bind fun flow => ?_
    cases flow with
    | ret v => exact balanced_pure
    | next => exact ih

/-! ## Looking up names -/

namespace Resolve

variable {ident : String} {dir path : Path} {m m' : Eval H Value}

lemma balanced_pluginFunction {plugin : Plugin (FunctionFactory H)}
    (hp : ∀ request, (plugin.factory request).LeavesPins) :
    Balanced barred depth spare (pluginFunction frame name plugin)
      (pluginFunction frame name plugin) :=
  (balanced_onHeap (hp _)).mapError.bind fun _ => balanced_onHeap leavesPins_allocValue

/-- A loader may change the names of the heap. -/
lemma balanced_loadProgram {load load' : Loader} (hl : load' path = load path) :
    Balanced barred depth spare (loadProgram load path : Eval H Program)
      (loadProgram load' path) := by
  intro s hs
  have hr : s.Restored { s with heap := { s.heap with names := (load path s.heap.names).2 } } :=
    ⟨.touched hs.tidy (Heap.Stored.names (P := fun _ => True) (K := fun _ => True)), rfl, rfl⟩
  unfold loadProgram
  rw [hl]
  dsimp only
  split
  · exact .ok hr
  · exact .error hr

lemma balanced_runScript (hb : BalancedCalls barred env loader' self self') {load load' : Loader}
    (hl : load' path = load path) :
    Balanced barred depth spare (runScript self load frame name ident path)
      (runScript self' load' frame name ident path) := by
  refine (balanced_loadProgram hl).mapError.bind fun program => ?_
  refine balanced_childFrame_bind fun scriptFrame => balanced_get_bind fun s hs => ?_
  -- the script starts where the innermost running evaluation stands
  have hbody : Balanced barred depth []
      (self.block ⟨scriptFrame, s.evalDepth⟩ program.body)
      (self'.block ⟨scriptFrame, s.evalDepth⟩ program.body) := by
    rw [hs.evalDepth]
    exact hb.block (c := ⟨scriptFrame, depth⟩) program.body
  refine (hbody.pinning List.mem_cons_self).mapError.discard.bind fun _ =>
    balanced_read.bind fun o => ?_
  cases o with
  | some v => exact balanced_pure
  | none => exact balanced_fail

lemma same_refl (path : Path) : path.same path = true := by simp [Path.same]

/-- A path is taken off the list of what is being loaded, which it was not on before. -/
lemma filter_loading {loading : List Path} (hp : loading.any path.same = false) :
    (path :: loading).filter (fun p => !path.same p) = loading := by
  rw [List.filter_cons_of_neg (by simp [same_refl]), List.filter_eq_self]
  intro p hmem
  have hsame := List.any_eq_false.mp hp p hmem
  simpa using hsame

/-- While a path is being loaded, nothing is loaded from it. So `m` and `m'` are compared where the
path is being loaded, and only if it is not barred already. -/
lemma balanced_whileLoading
    (hm : barred.any path.same = false → Balanced (path :: barred) depth spare m m') :
    Balanced barred depth spare (whileLoading path m) (whileLoading path m') := by
  intro s hs
  change Alike s
    ((if s.loading.any path.same then pure none else Eval.modify _ >>=
      fun _ => _ : Eval H (Option Value)) s)
    ((if s.loading.any path.same then pure none else Eval.modify _ >>=
      fun _ => _ : Eval H (Option Value)) s)
  cases hp : s.loading.any path.same with
  | true => exact .ok (.refl hs.tidy)
  | false =>
    -- the guard has let the path through, so it is on neither list
    have hbarred : barred.any path.same = false := by
      rw [List.any_eq_false] at hp ⊢
      exact fun p hmem => hp p (hs.loading hmem)
    have hbody := (hm hbarred { s with loading := path :: s.loading }
      ⟨hs.tidy, hs.evalDepth, List.cons_subset_cons path hs.loading, hs.room⟩).andAlso
      (fun s => { s with loading := s.loading.filter fun p => !path.same p }) (r := s) fun t ht =>
        ⟨ht.heap, ht.evalDepth, by rw [ht.loading, filter_loading hp]⟩
    exact hbody.map

/-- What is loaded while a script runs is not that script again. -/
lemma balanced_script_within
    (hb : BalancedCalls (dir.join ⟨ident ++ "." ++ env.config.scriptExtension⟩ :: barred) env
      loader' self self') :
    Balanced barred depth spare (script env self frame name ident dir)
      (script env self' frame name ident dir) := by
  unfold script
  dsimp only
  split
  · exact balanced_whileLoading fun _ => balanced_runScript hb rfl
  · exact balanced_pure

lemma balanced_script (hb : BalancedCalls barred env loader' self self') :
    Balanced barred depth spare (script env self frame name ident dir)
      (script { env with loader := loader' } self' frame name ident dir) := by
  have hloader := hb.loader
  unfold script
  dsimp only
  generalize env.loader = load at hloader ⊢
  cases env.tree.isFile _ with
  | false => exact balanced_pure
  | true =>
    cases hloader with
    | none => exact balanced_pure
    | some hl =>
      exact balanced_whileLoading fun hp =>
        (balanced_runScript hb (hl _ hp)).barring (List.subset_cons_self _ _)

lemma balanced_find (hb : BalancedCalls barred env loader' self self') :
    Balanced barred depth spare (find env self frame name)
      (find { env with loader := loader' } self' frame name) := by
  refine balanced_nameText.bind fun ident => balanced_read.bind fun f => ?_
  -- the two environments differ in the loader only, so the subdirectory is the same one
  have hsub : subdirectory? { env with loader := loader' } f.path ident = subdirectory? env f.path
      ident := rfl
  dsimp only
  rw [hsub]
  cases subdirectory? env f.path ident with
  | some sub => exact ((balanced_onHeap leavesPins_childFrame).bind fun _ => balanced_pure).map
  | none =>
    dsimp only
    cases hp : env.plugins.function? ident f.path _ with
    | some plugin =>
      exact (balanced_pluginFunction (hb.host.function plugin (List.mem_of_find?_eq_some hp))).map
    | none =>
      dsimp only
      cases env.plugins.node? ident f.path _ with
      | some plugin => exact (balanced_onHeap leavesPins_allocValue).map
      | none =>
        cases f.path with
        | some dir => exact balanced_script hb
        | none => exact balanced_pure

end Resolve

lemma balanced_resolve (hb : BalancedCalls barred env loader' self self') :
    Balanced barred depth spare (resolve env self frame name)
      (resolve { env with loader := loader' } self' frame name) := by
  refine (Resolve.balanced_find hb).bind fun o => ?_
  cases o with
  | some v => exact (balanced_onHeap leavesPins_bind).bind fun _ => balanced_pure
  | none => exact balanced_pure

lemma balanced_lookupIn (hb : BalancedCalls barred env loader' self self') :
    Balanced barred depth spare (lookupIn env self frame name)
      (lookupIn { env with loader := loader' } self' frame name) := by
  refine balanced_read.bind fun f => ?_
  split
  · exact balanced_pure
  · dsimp only
    split
    · exact balanced_resolve hb
    · exact balanced_pure

lemma balanced_lookupAlong (hb : BalancedCalls barred env loader' self self')
    (frames : List ObjectId) : Balanced barred depth spare (lookupAlong env self frame name frames)
      (lookupAlong { env with loader := loader' } self' frame name frames) := by
  induction frames with
  | nil => exact hb.barring (balanced_nameText.bind fun _ => balanced_fail)
  | cons x rest ih =>
    refine (balanced_lookupIn hb).bind fun o => ?_
    cases o with
    | some v => exact balanced_pure
    | none => exact ih

lemma balanced_lookup (hb : BalancedCalls barred env loader' self self') :
    Balanced barred depth spare (lookup env self frame name)
      (lookup { env with loader := loader' } self' frame name) :=
  balanced_get_bind fun _ _ => balanced_lookupAlong hb _

lemma balanced_frameMember (hb : BalancedCalls barred env loader' self self') :
    Balanced barred depth spare (frameMember env self frame name)
      (frameMember { env with loader := loader' } self' frame name) := by
  refine (balanced_lookupIn hb).bind fun o => ?_
  cases o with
  | some v => exact balanced_pure
  | none => exact balanced_nameText.bind fun _ => balanced_fail

/-! ## Operators on signals -/

namespace Lift

variable {kind : String}

lemma balanced_sourcePort {operand : Value} :
    Balanced barred depth spare (sourcePort operand : Eval H PortRef) (sourcePort operand) := by
  unfold sourcePort
  split
  · exact balanced_pure
  · exact balanced_nextNodeName.bind fun _ => (balanced_onHeap leavesPins_alloc).bind fun _ =>
      balanced_pure

lemma balanced_wire {node : ObjectId} {count position : Nat} {operands : List Value} :
    Balanced barred depth spare (wire node kind count position operands : Eval H Unit)
      (wire node kind count position operands) := by
  induction operands generalizing position with
  | nil => exact balanced_pure
  | cons operand rest ih =>
    refine balanced_sourcePort.bind fun source => ?_
    split
    · exact (balanced_onHeap leavesPins_connect).bind fun _ => ih
    · exact balanced_fail

lemma balanced_build {make : String → Node H} {operands : List Value} :
    Balanced barred depth spare (build kind make operands) (build kind make operands) :=
  balanced_nextNodeName.bind fun _ => (balanced_onHeap leavesPins_alloc).bind fun _ =>
    balanced_wire.bind fun _ => balanced_pure

end Lift

lemma balanced_callBuiltin (hb : BalancedCalls barred env loader' self self') {b : Builtin}
    {operands : List Value} :
    Balanced barred depth spare (callBuiltin b operands self.stuck)
      (callBuiltin b operands self'.stuck) := by
  refine callBuiltin_cases (motive := Balanced barred depth spare) self.stuck self'.stuck b operands
    (fun r _ _ => ?_) (fun target indices _ => ?_) fun kind make vs _ _ => ?_
  · exact balanced_ofExcept
  · exact hb.barring balanced_read
  · exact Lift.balanced_build

/-! ## Calls -/

section Calls

variable {f : Callable H} {args : List CallArg} {kind : PortKind} {index : UInt16}
  {otherwise : Cause}

lemma balanced_defineAll (bound : List (Name × Value)) :
    Balanced barred depth spare
      (bound.forM fun (name, value) => onHeap (Heap.define frame name value) : Eval H Unit)
      (bound.forM fun (name, value) => onHeap (Heap.define frame name value)) := by
  induction bound with
  | nil => exact balanced_pure
  | cons b rest ih => exact (balanced_onHeap leavesPins_define).bind fun _ => ih

lemma balanced_callScript (hb : BalancedCalls barred env loader' self self') {body : Stmt} :
    Balanced barred c.depth spare (callScript env self c f body args)
      (callScript { env with loader := loader' } self' c f body args) := by
  refine balanced_read.bind fun bound => balanced_childFrame_bind fun frame => ?_
  -- binding the arguments leaves the frame unpinned, so it still has room
  refine (balanced_defineAll bound).bind fun _ => ?_
  refine ((hb.stmt { c with frame := frame } [] body).pinning List.mem_cons_self).bind
    fun flow => ?_
  cases flow with
  | ret v => exact balanced_pure
  | next => exact balanced_pure

lemma balanced_writePort :
    Balanced barred depth spare (writePort env id kind index v otherwise)
      (writePort { env with loader := loader' } id kind index v otherwise) := by
  cases kind with
  | param => exact balanced_onHeap leavesPins_setParam
  | input => exact Lift.balanced_sourcePort.bind fun _ => balanced_onHeap leavesPins_connect
  | output => exact balanced_fail

lemma balanced_applyNodeArguments {position : Nat} :
    Balanced barred depth spare (applyNodeArguments env id position args)
      (applyNodeArguments { env with loader := loader' } id position args) := by
  induction args generalizing position with
  | nil => exact balanced_pure
  | cons arg rest ih =>
    unfold applyNodeArguments
    split
    · exact balanced_fail
    · refine balanced_nameText.bind fun key => balanced_read.bind fun n => ?_
      dsimp only
      split
      · exact balanced_writePort.bind fun _ => ih
      · exact balanced_fail.bind fun _ => ih

lemma balanced_createNode {factory : NodeFactory H} :
    Balanced barred depth spare (createNode env f factory args)
      (createNode { env with loader := loader' } f factory args) := by
  refine balanced_nameText.bind fun kind => balanced_nextNodeName.bind fun name => ?_
  refine balanced_ofExcept.mapError.bind fun node => (balanced_onHeap leavesPins_alloc).bind
    fun id => ?_
  exact balanced_applyNodeArguments.bind fun _ => balanced_pure

lemma balanced_operandsOf :
    Balanced barred depth spare (operandsOf args : Eval H (List Value)) (operandsOf args) := by
  induction args with
  | nil => exact balanced_pure
  | cons arg rest ih =>
    unfold operandsOf
    split
    · exact balanced_nameText.bind fun _ => balanced_fail
    · exact ih.bind fun _ => balanced_pure

lemma balanced_callValue (hb : BalancedCalls barred env loader' self self') {callee : Value}
    {site : Location} :
    Balanced barred c.depth spare (callValue env self c callee args site)
      (callValue { env with loader := loader' } self' c callee args site) := by
  unfold callValue
  split
  · refine balanced_read.bind fun f => ?_
    split
    · exact (balanced_callScript hb).mapError
    · exact balanced_read.bind fun _ => balanced_onHeap (hb.host.call _ _)
    · exact balanced_createNode
    · exact balanced_operandsOf.bind fun _ => balanced_callBuiltin hb
  · exact balanced_fail

lemma balanced_callReserved (hb : BalancedCalls barred env loader' self self')
    {operands : List Value} {site : Location} :
    Balanced barred c.depth spare (callReserved env self c name operands site)
      (callReserved { env with loader := loader' } self' c name operands site) :=
  (balanced_lookup hb).bind fun _ => balanced_callValue hb

end Calls

/-! ## Expressions -/

section Expressions

variable {loc : Location}

lemma balanced_member (hb : BalancedCalls barred env loader' self self') {object : Value} :
    Balanced barred depth spare (member env self object name)
      (member { env with loader := loader' } self' object name) := by
  unfold member
  split
  · exact balanced_frameMember hb
  · exact balanced_nameText.bind fun _ => balanced_read
  · exact balanced_nameText.bind fun _ => balanced_fail

lemma balanced_evalArgs (hb : BalancedCalls barred env loader' self self') (args : List Argument) :
    Balanced barred c.depth spare (evalArgs self c args) (evalArgs self' c args) := by
  induction args with
  | nil => exact balanced_pure
  | cons a rest ih => exact (hb.expr c spare _).bind fun _ => ih.bind fun _ => balanced_pure

lemma balanced_evalAll (hb : BalancedCalls barred env loader' self self') (es : List Expr) :
    Balanced barred c.depth spare (evalAll self c es) (evalAll self' c es) := by
  induction es with
  | nil => exact balanced_pure
  | cons e rest ih => exact (hb.expr c spare _).bind fun _ => ih.bind fun _ => balanced_pure

lemma balanced_evalKind (hb : BalancedCalls barred env loader' self self') (kind : ExprKind) :
    Balanced barred c.depth spare (evalKind env self c kind loc)
      (evalKind { env with loader := loader' } self' c kind loc) := by
  cases kind with
  | literal l => exact balanced_look
  | array items =>
    exact (balanced_evalAll hb items).bind fun _ => balanced_read.bind fun _ =>
      balanced_onHeap leavesPins_allocValue
  | sequence items =>
    exact (balanced_evalAll hb items).bind fun _ => balanced_onHeap leavesPins_allocValue
  -- the new frame has no pin yet, so it joins the spare ones while its body runs
  | frame body =>
    refine balanced_childFrame_bind fun frame => ?_
    have hmem : frame ∈ frame :: spare := List.mem_cons_self
    have hbody := (hb.stmt { c with frame := frame } [] body).pinning hmem
    exact hbody.discard.bind fun _ => balanced_pure
  | ident name => exact balanced_lookup hb
  | this =>
    unfold evalKind
    exact hb.barring balanced_read.map
  | member object name => exact (hb.expr c spare object).bind fun _ => balanced_member hb
  | index object indices =>
    exact (hb.expr c spare object).bind fun _ => (balanced_evalAll hb indices).bind fun _ =>
      balanced_callReserved hb
  | call callee args =>
    exact (hb.expr c spare callee).bind fun _ => (balanced_evalArgs hb args).bind fun _ =>
      balanced_callValue hb
  | unary op operand => exact (hb.expr c spare operand).bind fun _ => balanced_callReserved hb
  | binary op left right =>
    refine (hb.expr c spare left).bind fun _ => balanced_ofExcept.bind fun o => ?_
    cases o with
    | some result => exact balanced_pure
    | none => exact (hb.expr c spare right).bind fun _ => balanced_callReserved hb
  | ternary cond thenExpr elseExpr =>
    refine (hb.expr c spare cond).bind fun _ => balanced_ofExcept.bind fun b => ?_
    cases b with
    | true => exact hb.expr c spare thenExpr
    | false => exact hb.expr c spare elseExpr

lemma balanced_evalExpr (hb : BalancedCalls barred env loader' self self') (e : Expr) :
    Balanced barred c.depth spare (evalExpr env self c e)
      (evalExpr { env with loader := loader' } self' c e) :=
  (balanced_nested (balanced_evalKind (c := { c with depth := c.depth + 1 }) hb e.kind)).mapError

end Expressions

/-! ## Statements -/

section Statements

variable {loc : Location}

lemma balanced_declareParams (hb : BalancedCalls barred env loader' self self')
    (params : List Param) :
    Balanced barred c.depth spare (declareParams self c params) (declareParams self' c params) := by
  induction params with
  | nil => exact balanced_pure
  | cons p rest ih =>
    unfold declareParams
    cases p.default with
    | some e => exact (hb.expr c spare e).map.bind fun _ => ih.bind fun _ => balanced_pure
    | none => exact balanced_pure.bind fun _ => ih.bind fun _ => balanced_pure

lemma balanced_evalOptional (hb : BalancedCalls barred env loader' self self') (e : Option Expr) :
    Balanced barred c.depth spare (evalOptional self c e) (evalOptional self' c e) := by
  cases e with
  | some e => exact hb.expr c spare e
  | none => exact balanced_pure

lemma balanced_assignMember {object : Value} :
    Balanced barred depth spare (assignMember env object name v)
      (assignMember { env with loader := loader' } object name v) := by
  unfold assignMember
  split
  · exact balanced_onHeap leavesPins_bind
  · refine balanced_nameText.bind fun key => balanced_read.bind fun n => ?_
    split
    · exact balanced_writePort
    · exact balanced_fail
  · exact balanced_nameText.bind fun _ => balanced_fail

lemma balanced_assignedValue (hb : BalancedCalls barred env loader' self self')
    {op : Option BinaryOp}
    {current current' : Eval H Value} (hcurrent : Balanced barred c.depth spare current current') :
    Balanced barred c.depth spare (assignedValue env self c op current v loc)
      (assignedValue { env with loader := loader' } self' c op current' v loc) := by
  cases op with
  | none => exact balanced_pure
  | some op => exact hcurrent.bind fun _ => balanced_callReserved hb

lemma balanced_assignTo (hb : BalancedCalls barred env loader' self self') (target : Target)
    {op : Option BinaryOp} {value : Expr} :
    Balanced barred c.depth spare (assignTo env self c target op value loc)
      (assignTo { env with loader := loader' } self' c target op value loc) := by
  cases target with
  | ident name =>
    refine (hb.expr c spare value).bind fun _ => ?_
    exact (balanced_assignedValue hb (balanced_lookup hb)).bind fun _ =>
      hb.barring (balanced_onHeap leavesPins_setVariable)
  | member object name =>
    refine (hb.expr c spare object).bind fun _ => (hb.expr c spare value).bind fun _ => ?_
    exact (balanced_assignedValue hb (balanced_member hb)).bind fun _ => balanced_assignMember
  | index object indices =>
    refine (hb.expr c spare object).bind fun _ => (balanced_evalAll hb indices).bind fun _ => ?_
    refine (hb.expr c spare value).bind fun _ =>
      (balanced_assignedValue hb (hb.barring balanced_read)).bind fun _ => ?_
    exact hb.barring (balanced_onHeap leavesPins_setIndex)

lemma balanced_forEach (hb : BalancedCalls barred env loader' self self') {var : Name} {body : Stmt}
    (items : List Value) :
    Balanced barred c.depth spare (forEach self c var body items)
      (forEach self' c var body items) := by
  induction items generalizing spare with
  | nil => exact balanced_pure
  | cons item rest ih =>
    refine balanced_childFrame_bind fun frame => ?_
    have hbody : Balanced barred c.depth []
        (do onHeap (Heap.define frame var item); self.stmt { c with frame := frame } body)
        (do onHeap (Heap.define frame var item); self'.stmt { c with frame := frame } body) :=
      (balanced_onHeap leavesPins_define).bind fun _ => hb.stmt { c with frame := frame } [] body
    refine (hbody.pinning List.mem_cons_self).bind fun flow => ?_
    cases flow with
    | ret v => exact balanced_pure
    | next => exact ih

lemma balanced_loopRound (hb : BalancedCalls barred env loader' self self') (l : LoopBody) :
    Balanced barred c.depth spare (loopRound self c l) (loopRound self' c l) := by
  rw [loopRound_eq, loopRound_eq]
  have htest : Balanced barred c.depth spare (roundTest self c l) (roundTest self' c l) := by
    unfold roundTest
    cases l.cond with
    | some cond => exact (hb.expr c spare cond).bind fun _ => balanced_ofExcept
    | none => exact balanced_pure
  refine htest.bind fun holds => ?_
  cases holds with
  | false => exact balanced_pure
  | true =>
    refine (hb.stmt c spare l.body).bind fun flow => ?_
    cases flow with
    | ret v => exact balanced_pure
    | next =>
      cases l.step with
      | some step => exact (hb.stmt c spare step).discard.bind fun _ => hb.loop c spare l
      | none => exact hb.loop c spare l

lemma balanced_execKind (hb : BalancedCalls barred env loader' self self') (kind : StmtKind) :
    Balanced barred c.depth spare (execKind env self c kind loc)
      (execKind { env with loader := loader' } self' c kind loc) := by
  cases kind with
  | block newFrame body =>
    cases newFrame with
    | true =>
      refine balanced_childFrame_bind fun frame => ?_
      exact (hb.block (c := { c with frame := frame }) body).pinning List.mem_cons_self
    | false => exact hb.block body
  | function name params body =>
    refine (balanced_declareParams hb params).bind fun ps => ?_
    exact (balanced_onHeap leavesPins_allocValue).bind fun _ =>
      (balanced_onHeap leavesPins_define).bind fun _ => balanced_pure
  | var name init =>
    exact (balanced_evalOptional hb init).bind fun _ =>
      (balanced_onHeap leavesPins_define).bind fun _ =>
      balanced_pure
  | assign target op value => exact (balanced_assignTo hb target).bind fun _ => balanced_pure
  | branch cond thenBranch elseBranch =>
    refine (hb.expr c spare cond).bind fun _ => balanced_ofExcept.bind fun b => ?_
    cases b with
    | true => exact hb.stmt c spare thenBranch
    | false =>
      cases elseBranch with
      | some st => exact hb.stmt c spare st
      | none => exact balanced_pure
  | loop init cond step body =>
    refine balanced_childFrame_bind fun frame => ?_
    refine Balanced.pinning List.mem_cons_self ?_
    have hloop := hb.loop { c with frame := frame } [] ⟨cond, step, body⟩
    cases init with
    | some init => exact (hb.stmt { c with frame := frame } [] init).discard.bind fun _ => hloop
    | none => exact hloop
  | each var items body =>
    exact (hb.expr c spare items).bind fun _ => balanced_read.bind fun vs => balanced_forEach hb vs
  | expr e => exact (hb.expr c spare e).discard.bind fun _ => balanced_pure
  | ret value => exact (balanced_evalOptional hb value).map

lemma balanced_execStmt (hb : BalancedCalls barred env loader' self self') (st : Stmt) :
    Balanced barred c.depth spare (execStmt env self c st)
      (execStmt { env with loader := loader' } self' c st) :=
  (balanced_nested (balanced_execKind (c := { c with depth := c.depth + 1 }) hb st.kind)).mapError

end Statements
end Patchbay
