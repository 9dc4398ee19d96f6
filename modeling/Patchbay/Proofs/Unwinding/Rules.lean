import Patchbay.Proofs.Unwinding.Raising
import Patchbay.Proofs.Unwinding.Tracing

/-!
# Unwinding by rules

An evaluation does what the traced evaluation does. If that ends with an error, the error that
leaves the evaluation is the one that was raised, after it has left the sites of the stack: it has
got a place at the innermost of them, and a call site at each call. Loading a script leaves a note,
and notes are not compared.
-/

namespace Patchbay

variable {H : HostTypes} {α β : Type}

open Traced

/-! ## Leaving sites -/

/-- The error when it has left the sites of a stack, notes apart. Places of builtins are passed
over. -/
def EvalError.unwound (e : EvalError) (stack : List Site) : EvalError where
  cause := e.cause
  location := e.location <|> (places stack).find? fun loc => !loc.isBuiltin
  callSites := e.callSites ++ (entriesOf Site.isCall stack).filter fun loc => !loc.isBuiltin
  notes := []

section Sites

variable {e : EvalError} {stack : List Site}

lemma unwound_withNote {note : String} : (e.withNote note).unwound stack = e.unwound stack := rfl

lemma unwound_locatedAt {loc : Location} :
    (e.locatedAt loc).unwound stack = e.unwound (.node loc :: stack) := by
  unfold EvalError.locatedAt EvalError.unwound
  cases hloc : e.location <;> cases hb : loc.isBuiltin <;>
    simp [places, entriesOf, Site.isCall, hloc, hb]

/-- A call is left where it was made. -/
lemma unwound_withCallSite {site : Location} (hsite : (places stack).head? = some site) :
    (e.withCallSite site).unwound stack = e.unwound (.call :: stack) := by
  unfold EvalError.withCallSite EvalError.unwound
  cases hb : site.isBuiltin <;> simp [places, entriesOf, Site.isCall, hsite, hb]

lemma unwound_load {path : Path} : e.unwound stack = e.unwound (.load path :: stack) := rfl

end Sites

/-! ## Outcomes -/

/-- An evaluation ends as the traced one does that starts at a stack. Its error has left the sites
that were put on that stack. -/
inductive Follows (env : Environment H) (base : List Site) :
    Outcome (Session H) α → Ending (Session H) α → Prop where
  | ok (a : α) (t : Session H) : Follows env base (.ok a t) (.ok a t)
  | error {e raised : EvalError} {stack : List Site} {t : Session H} : base <:+ stack →
      e.unwound base = raised.unwound stack → Raisable env t.heap raised →
      Follows env base (.error e t) (.error raised stack t)
  | outOfFuel : Follows env base .outOfFuel .outOfFuel

lemma Follows.suffix {env : Environment H} {base stack : List Site} {o : Outcome (Session H) α}
    {raised : EvalError} {t : Session H} (hf : Follows env base o (.error raised stack t)) :
    base <:+ stack := by
  cases hf with
  | error hbase _ _ => exact hbase

/-- On every session, the evaluation ends as the traced one does. -/
def TracedBy (env : Environment H) (base : List Site) (m : Eval H α) (traced : Traced H α) : Prop :=
  ∀ s, Follows env base (m s) (traced base s)

variable {env : Environment H} {base : List Site} {m : Eval H α} {traced : Traced H α}
  {k : α → Eval H β} {k' : α → Traced H β} {s : Session H}

lemma Follows.bind (hm : Follows env base (m s) (traced base s))
    (hk : ∀ a t, m s = .ok a t → Follows env base (k a t) (k' a base t)) :
    Follows env base ((m >>= k) s) ((traced >>= k') base s) := by
  change Follows env base (Eval.bind m k s) (Traced.bind traced k' base s)
  unfold Eval.bind Traced.bind
  generalize hout : m s = out at hm hk ⊢
  generalize traced base s = ending at hm ⊢
  cases hm with
  | ok a t => exact hk a t rfl
  | error hbase hunwound hraised => exact .error hbase hunwound hraised
  | outOfFuel => exact .outOfFuel

lemma traced_pure {a : α} : TracedBy env base (pure a : Eval H α) (pure a) := fun s => .ok a s

/-- What makes no recursive calls raises its errors at the sites where it starts. -/
lemma follows_lift (hm : m.RaisesAt env s) : Follows env base (m s) (lift m base s) := by
  unfold lift
  cases hr : m s with
  | ok a t => exact .ok a t
  | error e t => exact .error List.suffix_rfl rfl (hm e t hr)
  | outOfFuel => exact .outOfFuel

lemma traced_lift (hm : m.Raises env) : TracedBy env base m (lift m) := fun s => follows_lift (hm s)

lemma traced_fail {c : Cause} : TracedBy env base (fail c : Eval H α) (lift (fail c)) :=
  traced_lift raises_fail

lemma traced_get : TracedBy env base (Eval.get : Eval H (Session H)) (lift Eval.get) :=
  fun s => .ok s s

lemma traced_nameText {name : Name} :
    TracedBy env base (Eval.nameText name : Eval H String) (lift (Eval.nameText name)) :=
  traced_lift raises_nameText

lemma traced_fresh {op : HeapM H α} (hop : op.Fresh) :
    TracedBy env base (Eval.onHeap op) (lift (Eval.onHeap op)) := traced_lift (raises_fresh hop)

lemma traced_read {look : Heap H → Except EvalError α} (hlook : ∀ h, Fresh (look h)) :
    TracedBy env base (Eval.readHeap look) (lift (Eval.readHeap look)) :=
  traced_lift (raises_read hlook)

lemma traced_ofExcept {r : Except EvalError α} (hr : Fresh r) :
    TracedBy env base (Eval.ofExcept r : Eval H α) (lift (Eval.ofExcept r)) :=
  traced_lift (raises_ofExcept hr)

/-- A cause that tells the text of a name. -/
lemma traced_failNamed {name : Name} {c : String → Cause} :
    TracedBy env base (do fail (c (← Eval.nameText name)) : Eval H α)
      (lift do fail (c (← Eval.nameText name))) :=
  traced_lift (raises_nameText.bind fun _ => raises_fail)

lemma TracedBy.bind (hm : TracedBy env base m traced) (hk : ∀ a, TracedBy env base (k a) (k' a)) :
    TracedBy env base (m >>= k) (traced >>= k') := fun s => (hm s).bind fun a t _ => hk a t

lemma TracedBy.map {f : α → β} (hm : TracedBy env base m traced) :
    TracedBy env base (f <$> m) (f <$> traced) := hm.bind fun _ => traced_pure

lemma TracedBy.discard (hm : TracedBy env base m traced) :
    TracedBy env base (Functor.discard m) (Functor.discard traced) := hm.map

/-- What is done to the session at the end leaves the functions on the heap as they are. -/
lemma TracedBy.andAlso {leave : Session H → Session H} (hm : TracedBy env base m traced)
    (hleave : ∀ e t, Raisable env t.heap e → Raisable env (leave t).heap e) :
    TracedBy env base (m.andAlso leave) (traced.andAlso leave) := by
  intro s
  have hrun := hm s
  unfold Eval.andAlso Traced.andAlso
  generalize m s = out, traced base s = ending at hrun ⊢
  cases hrun with
  | ok a t => exact .ok a (leave t)
  | error hbase hunwound hraised => exact .error hbase hunwound (hleave _ _ hraised)
  | outOfFuel => exact .outOfFuel

/-- A site is taken off the stack, and what happens to the error is what is due for the site. -/
lemma TracedBy.leave {site : Site} {change : EvalError → EvalError}
    (hm : TracedBy env (site :: base) m traced)
    (hchange : ∀ e, (change e).unwound base = e.unwound (site :: base)) :
    TracedBy env base (m.mapError change) (traced.during site) := by
  intro s
  have hrun := hm s
  unfold Eval.mapError during
  generalize m s = out, traced (site :: base) s = ending at hrun ⊢
  cases hrun with
  | ok a t => exact .ok a t
  | error hbase hunwound hraised =>
    exact .error ((List.suffix_cons site base).trans hbase) ((hchange _).trans hunwound) hraised
  | outOfFuel => exact .outOfFuel

/-- Nothing happens to the error when a load is left. -/
lemma TracedBy.load {path : Path} (hm : TracedBy env (.load path :: base) m traced) :
    TracedBy env base m (traced.during (.load path)) := by
  have hsame : m.mapError id = m := by
    funext s
    unfold Eval.mapError
    cases m s <;> rfl
  exact hsame ▸ hm.leave fun _ => unwound_load

/-- A change of the error that does not count. -/
lemma TracedBy.mapError {change : EvalError → EvalError} (hm : TracedBy env base m traced)
    (hchange : ∀ e, (change e).unwound base = e.unwound base) :
    TracedBy env base (m.mapError change) traced := by
  intro s
  have hrun := hm s
  unfold Eval.mapError
  generalize m s = out, traced base s = ending at hrun ⊢
  cases hrun with
  | ok a t => exact .ok a t
  | error hbase hunwound hraised => exact .error hbase ((hchange _).trans hunwound) hraised
  | outOfFuel => exact .outOfFuel

lemma TracedBy.pinning (hm : TracedBy env base m traced) (frame : ObjectId) :
    TracedBy env base (Eval.withPinned frame m) (traced.withPinned frame) :=
  (traced_fresh Heap.fresh_pin).bind fun _ => hm.andAlso fun _ _ he => he.unpin frame

/-- The recursive calls of a rule are traced by those of the traced rule, at whatever sites. -/
structure TracedCalls (env : Environment H) (r : Runner H) (r' : Tracer H) : Prop where
  expr : ∀ c e base, TracedBy env base (r.expr c e) (r'.expr c e)
  stmt : ∀ c st base, TracedBy env base (r.stmt c st) (r'.stmt c st)
  loop : ∀ c l base, TracedBy env base (r.loop c l) (r'.loop c l)
  stuck : r.stuck = Eval.diverge

variable {self : Runner H} {self' : Tracer H} {c : Cursor} {frame id : ObjectId} {name : Name}
  {loc : Location}

lemma TracedCalls.block (hc : TracedCalls env self self') (body : List Stmt) :
    TracedBy env base (self.block c body) (self'.block c body) := by
  induction body with
  | nil => exact traced_pure
  | cons st rest ih =>
    refine (hc.stmt c st base).bind fun flow => ?_
    cases flow with
    | ret v => exact traced_pure
    | next => exact ih

/-! ## Looking up names -/

section Lookup

variable {ident : String} {dir path : Path}

open Resolve

/-- The body of the loader runs at the site of the load, and errors that pass by get notes. -/
lemma traced_runScript (hc : TracedCalls env self self') {load : Loader}
    (hload : env.loader = some load) : TracedBy env base (runScript self load frame name ident path)
      (self'.runScript load frame name ident path) := by
  refine ((traced_lift (raises_loadProgram hload)).mapError fun _ => unwound_withNote).bind
    fun program => ?_
  refine (traced_fresh Heap.fresh_childFrame).bind fun scriptFrame => traced_get.bind fun s => ?_
  have hbody : TracedBy env base (self.block ⟨scriptFrame, s.evalDepth⟩ program.body)
      (self'.block ⟨scriptFrame, s.evalDepth⟩ program.body) := hc.block program.body
  refine ((hbody.pinning scriptFrame).mapError fun _ => unwound_withNote).discard.bind fun _ => ?_
  refine (traced_read fun _ => Heap.plain_frame.fresh.map).bind fun found => ?_
  cases found with
  | some v => exact traced_pure
  | none => exact traced_fail

lemma traced_whileLoading {m : Eval H Value} {traced : Traced H Value}
    (hm : TracedBy env (.load path :: base) m traced) :
    TracedBy env base (whileLoading path m) (Tracer.whileLoading path traced) := by
  refine traced_get.bind fun s => ?_
  split
  · exact traced_pure
  · refine TracedBy.bind (fun s => .ok () _) fun _ => ?_
    refine TracedBy.bind ?_ fun _ => traced_pure
    exact hm.load.andAlso fun _ _ he => he

lemma traced_script (hc : TracedCalls env self self') :
    TracedBy env base (script env self frame name ident dir)
      (self'.script env frame name ident dir) := by
  unfold script Tracer.script
  dsimp only
  cases env.tree.isFile (dir.join ⟨ident ++ "." ++ env.config.scriptExtension⟩) with
  | false => exact traced_pure
  | true =>
    cases hload : env.loader with
    | some load => exact traced_whileLoading (traced_runScript hc hload)
    | none => exact traced_pure

lemma traced_find (hc : TracedCalls env self self') :
    TracedBy env base (find env self frame name) (self'.find env frame name) := by
  refine traced_nameText.bind fun ident => (traced_read fun _ => Heap.plain_frame.fresh).bind
    fun f => ?_
  dsimp only
  cases subdirectory? env f.path ident with
  | some sub => exact (traced_lift raises_namespaceFrame).map
  | none =>
    dsimp only
    cases env.plugins.function? ident f.path _ with
    | some plugin => exact (traced_lift raises_pluginFunction).map
    | none =>
      dsimp only
      cases env.plugins.node? ident f.path _ with
      | some plugin => exact (traced_lift raises_pluginNode).map
      | none =>
        cases f.path with
        | some dir => exact traced_script hc
        | none => exact traced_pure

lemma traced_resolve (hc : TracedCalls env self self') :
    TracedBy env base (resolve env self frame name) (self'.resolve env frame name) := by
  refine (traced_find hc).bind fun found => ?_
  cases found with
  | some v => exact (traced_fresh Heap.fresh_bind).bind fun _ => traced_pure
  | none => exact traced_pure

lemma traced_lookupIn (hc : TracedCalls env self self') :
    TracedBy env base (lookupIn env self frame name) (self'.lookupIn env frame name) := by
  refine (traced_read fun _ => Heap.plain_frame.fresh).bind fun f => ?_
  cases f.get? name with
  | some v => exact traced_pure
  | none =>
    dsimp only
    split
    · exact traced_resolve hc
    · exact traced_pure

lemma traced_lookupAlong (hc : TracedCalls env self self') (frames : List ObjectId) :
    TracedBy env base (lookupAlong env self frame name frames)
      (self'.lookupAlong env frame name frames) := by
  induction frames with
  | nil =>
    rw [lookupAlong, hc.stuck]
    exact traced_lift (raises_nameText.bind fun _ => raises_fail).barring
  | cons x rest ih =>
    refine (traced_lookupIn hc).bind fun found => ?_
    cases found with
    | some v => exact traced_pure
    | none => exact ih

lemma traced_lookup (hc : TracedCalls env self self') :
    TracedBy env base (lookup env self frame name) (self'.lookup env frame name) :=
  traced_get.bind fun _ => traced_lookupAlong hc _

lemma traced_frameMember (hc : TracedCalls env self self') :
    TracedBy env base (frameMember env self frame name) (self'.frameMember env frame name) := by
  refine (traced_lookupIn hc).bind fun found => ?_
  cases found with
  | some v => exact traced_pure
  | none => exact traced_failNamed

end Lookup

/-! ## Calls -/

section Calls

variable {f : Callable H} {args : List CallArg}

lemma traced_callScript (hc : TracedCalls env self self') {body : Stmt} :
    TracedBy env base (callScript env self c f body args) (self'.callScript env c f body args) := by
  refine (traced_lift raises_bindArguments).bind fun bound => ?_
  refine (traced_fresh Heap.fresh_childFrame).bind fun frame => ?_
  refine (traced_lift (raises_defineAll bound)).bind fun _ => ?_
  refine ((hc.stmt { c with frame := frame } body base).pinning frame).bind fun flow => ?_
  cases flow with
  | ret v => exact traced_pure
  | next => exact traced_pure

/-- The call of a script function is left at the innermost place. Other functions are no sites. -/
lemma traced_callFunction (hc : TracedCalls env self self')
    (hloc : (places base).head? = some loc) :
    TracedBy env base (callValue env self c (.function id) args loc)
      (self'.callValue env c (.function id) args) := by
  refine fun s => (traced_read (fun _ => Heap.plain_callable.fresh) s).bind fun f t hread => ?_
  cases hbody : f.body with
  | script body =>
    have hcall : TracedBy env (.call :: base) (callScript env self c f body args)
        (self'.callScript env c f body args) := traced_callScript hc
    exact hcall.leave (fun _ => unwound_withCallSite hloc) t
  | native fn =>
    exact ((traced_lift raises_bindArguments).bind fun _ => traced_lift raises_native) t
  | nodeCreator create =>
    obtain ⟨hf, rfl⟩ := Eval.readHeap_eq_ok.mp hread
    exact follows_lift (raisesAt_createNode hf hbody)
  | builtin b =>
    rw [hc.stuck]
    exact traced_lift (raises_operandsOf.bind fun _ => raises_callBuiltin) t

lemma traced_callValue (hc : TracedCalls env self self') (hloc : (places base).head? = some loc)
    {callee : Value} :
    TracedBy env base (callValue env self c callee args loc)
      (self'.callValue env c callee args) := by
  cases callee with
  | object kind id =>
    cases kind with
    | function => exact traced_callFunction hc hloc
    | _ => exact traced_fail
  | _ => exact traced_fail

lemma traced_callReserved (hc : TracedCalls env self self') (hloc : (places base).head? = some loc)
    {operands : List Value} :
    TracedBy env base (callReserved env self c name operands loc)
      (self'.callReserved env c name operands) :=
  (traced_lookup hc).bind fun _ => traced_callValue hc hloc

end Calls

/-! ## Expressions -/

lemma traced_member (hc : TracedCalls env self self') {object : Value} :
    TracedBy env base (member env self object name) (self'.member env object name) := by
  cases object with
  | object kind id =>
    cases kind with
    | frame => exact traced_frameMember hc
    | node =>
      refine traced_nameText.bind fun key => traced_read fun h => ?_
      refine Heap.plain_node.fresh.bind fun n _ => ?_
      split
      · exact .pure
      · exact .fail rfl
    | _ => exact traced_failNamed
  | _ => exact traced_failNamed

lemma traced_evalArgs (hc : TracedCalls env self self') (args : List Argument) :
    TracedBy env base (evalArgs self c args) (self'.evalArgs c args) := by
  induction args with
  | nil => exact traced_pure
  | cons a rest ih => exact (hc.expr c a.value base).bind fun _ => ih.bind fun _ => traced_pure

lemma traced_evalAll (hc : TracedCalls env self self') (es : List Expr) :
    TracedBy env base (evalAll self c es) (self'.evalAll c es) := by
  induction es with
  | nil => exact traced_pure
  | cons e rest ih => exact (hc.expr c e base).bind fun _ => ih.bind fun _ => traced_pure

lemma traced_evalKind (hc : TracedCalls env self self') (hloc : (places base).head? = some loc)
    (kind : ExprKind) :
    TracedBy env base (evalKind env self c kind loc) (self'.evalKind env c kind) := by
  have hcall : ∀ name operands, TracedBy env base (callReserved env self c name operands loc)
      (self'.callReserved env c name operands) := fun _ _ => traced_callReserved hc hloc
  cases kind with
  | literal l => exact fun s => .ok _ s
  | array items =>
    exact (traced_evalAll hc items).bind fun _ =>
      (traced_read fun _ => plain_literalGrid.fresh).bind fun _ =>
      traced_fresh HeapM.failsAs_allocValue
  | sequence items =>
    exact (traced_evalAll hc items).bind fun _ => traced_fresh HeapM.failsAs_allocValue
  | frame body =>
    refine (traced_fresh Heap.fresh_childFrame).bind fun frame => ?_
    have hbody := (hc.stmt { c with frame := frame } body base).pinning frame
    exact hbody.discard.bind fun _ => traced_pure
  | ident name => exact traced_lookup hc
  | this =>
    rw [evalKind, hc.stuck]
    exact traced_lift ((raises_read fun _ => Heap.plain_nearestThis.fresh).bind
      fun _ => raises_pure).barring
  | member object name => exact (hc.expr c object base).bind fun _ => traced_member hc
  | index object indices =>
    exact (hc.expr c object base).bind fun _ => (traced_evalAll hc indices).bind fun _ => hcall _ _
  | call callee args =>
    exact (hc.expr c callee base).bind fun _ => (traced_evalArgs hc args).bind fun _ =>
      traced_callValue hc hloc
  | unary op operand => exact (hc.expr c operand base).bind fun _ => hcall _ _
  | binary op left right =>
    refine (hc.expr c left base).bind fun _ => (traced_ofExcept plain_shortCircuit.fresh).bind
      fun o => ?_
    cases o with
    | some result => exact traced_pure
    | none => exact (hc.expr c right base).bind fun _ => hcall _ _
  | ternary cond thenExpr elseExpr =>
    refine (hc.expr c cond base).bind fun _ => (traced_ofExcept Value.plain_truthy.fresh).bind
      fun b => ?_
    cases b with
    | true => exact hc.expr c thenExpr base
    | false => exact hc.expr c elseExpr base

/-! ## Statements -/

lemma traced_evalOptional (hc : TracedCalls env self self') (e : Option Expr) :
    TracedBy env base (evalOptional self c e) (self'.evalOptional c e) := by
  cases e with
  | some e => exact hc.expr c e base
  | none => exact traced_pure

lemma traced_declareParams (hc : TracedCalls env self self') (params : List Param) :
    TracedBy env base (declareParams self c params) (self'.declareParams c params) := by
  induction params with
  | nil => exact traced_pure
  | cons p rest ih =>
    cases p with
    | mk name default =>
      cases default with
      | some e => exact (hc.expr c e base).map.bind fun _ => ih.bind fun _ => traced_pure
      | none => exact traced_pure.bind fun _ => ih.bind fun _ => traced_pure

lemma traced_assignedValue (hc : TracedCalls env self self') (hloc : (places base).head? = some loc)
    {op : Option BinaryOp} {current : Eval H Value} {current' : Traced H Value} {v : Value}
    (hcurrent : TracedBy env base current current') :
    TracedBy env base (assignedValue env self c op current v loc)
      (self'.assignedValue env c op current' v) := by
  cases op with
  | none => exact traced_pure
  | some op => exact hcurrent.bind fun _ => traced_callReserved hc hloc

lemma traced_assignTo (hc : TracedCalls env self self') (hloc : (places base).head? = some loc)
    {target : Target} {op : Option BinaryOp} {value : Expr} :
    TracedBy env base (assignTo env self c target op value loc)
      (self'.assignTo env c op value target) := by
  cases target with
  | ident name =>
    rw [assignTo, hc.stuck]
    refine (hc.expr c value base).bind fun _ => ?_
    exact (traced_assignedValue hc hloc (traced_lookup hc)).bind fun _ =>
      traced_lift (raises_fresh Heap.fresh_setVariable).barring
  | member object name =>
    refine (hc.expr c object base).bind fun _ => (hc.expr c value base).bind fun _ => ?_
    exact (traced_assignedValue hc hloc (traced_member hc)).bind fun _ =>
      traced_lift raises_assignMember
  | index object indices =>
    rw [assignTo, hc.stuck]
    refine (hc.expr c object base).bind fun _ => (traced_evalAll hc indices).bind fun _ => ?_
    refine (hc.expr c value base).bind fun _ => ?_
    exact (traced_assignedValue hc hloc (traced_lift raises_readIndex)).bind fun _ =>
      traced_lift (raises_fresh Heap.fresh_setIndex).barring

lemma traced_forEach (hc : TracedCalls env self self') {var : Name} {body : Stmt}
    (items : List Value) :
    TracedBy env base (forEach self c var body items) (self'.forEach c var body items) := by
  induction items with
  | nil => exact traced_pure
  | cons item rest ih =>
    refine (traced_fresh Heap.fresh_childFrame).bind fun frame => ?_
    have hbody : TracedBy env base
        (do Eval.onHeap (Heap.define frame var item); self.stmt { c with frame := frame } body)
        (do
          lift (Eval.onHeap (Heap.define frame var item))
          self'.stmt { c with frame := frame } body) :=
      (traced_fresh Heap.fresh_define).bind fun _ => hc.stmt { c with frame := frame } body base
    refine (hbody.pinning frame).bind fun flow => ?_
    cases flow with
    | ret v => exact traced_pure
    | next => exact ih

lemma traced_loopRound (hc : TracedCalls env self self') (l : LoopBody) :
    TracedBy env base (loopRound self c l) (self'.loopRound c l) := by
  rw [loopRound_eq]
  have htest : TracedBy env base (roundTest self c l) (self'.roundTest c l) := by
    unfold roundTest Tracer.roundTest
    cases l.cond with
    | some cond =>
      exact (hc.expr c cond base).bind fun _ => traced_ofExcept Value.plain_truthy.fresh
    | none => exact traced_pure
  refine htest.bind fun holds => ?_
  cases holds with
  | false => exact traced_pure
  | true =>
    refine (hc.stmt c l.body base).bind fun flow => ?_
    cases flow with
    | ret v => exact traced_pure
    | next =>
      have hloop := hc.loop c l base
      dsimp only
      cases l.step with
      | some step => exact (hc.stmt c step base).discard.bind fun _ => hloop
      | none => exact hloop

lemma traced_execKind (hc : TracedCalls env self self') (hloc : (places base).head? = some loc)
    (kind : StmtKind) :
    TracedBy env base (execKind env self c kind loc) (self'.execKind env c kind) := by
  cases kind with
  | block newFrame body =>
    cases newFrame with
    | true =>
      exact (traced_fresh Heap.fresh_childFrame).bind fun frame => (hc.block body).pinning frame
    | false => exact hc.block body
  | function name params body =>
    exact (traced_declareParams hc params).bind fun _ =>
      (traced_fresh HeapM.failsAs_allocValue).bind fun _ =>
      (traced_fresh Heap.fresh_define).bind fun _ => traced_pure
  | var name init =>
    exact (traced_evalOptional hc init).bind fun _ => (traced_fresh Heap.fresh_define).bind fun _ =>
      traced_pure
  | assign target op value => exact (traced_assignTo hc hloc).bind fun _ => traced_pure
  | branch cond thenBranch elseBranch =>
    refine (hc.expr c cond base).bind fun _ => (traced_ofExcept Value.plain_truthy.fresh).bind
      fun b => ?_
    cases b with
    | true => exact hc.stmt c thenBranch base
    | false =>
      cases elseBranch with
      | some st => exact hc.stmt c st base
      | none => exact traced_pure
  | loop init cond step body =>
    refine (traced_fresh Heap.fresh_childFrame).bind fun frame => TracedBy.pinning ?_ frame
    have hloop := hc.loop { c with frame := frame } ⟨cond, step, body⟩ base
    cases init with
    | some init => exact (hc.stmt { c with frame := frame } init base).discard.bind fun _ => hloop
    | none => exact hloop
  | each var items body =>
    exact (hc.expr c items base).bind fun _ =>
      (traced_read fun _ => plain_iterationItems.fresh).bind fun vs =>
      traced_forEach hc vs
  | expr e => exact (hc.expr c e base).discard.bind fun _ => traced_pure
  | ret value => exact (traced_evalOptional hc value).map

/-! ## The evaluator -/

lemma traced_nested {m : Cursor → Eval H α} {traced : Cursor → Traced H α}
    (hm : ∀ c, TracedBy env base (m c) (traced c)) :
    TracedBy env base (Eval.nested env c m) (Traced.nested env c traced) := by
  unfold Eval.nested Traced.nested
  split
  · exact traced_fail
  · exact TracedBy.bind (fun s => .ok () _) fun _ => (hm _).andAlso fun _ _ he => he

/-- An expression is left when its place has been told to errors. -/
lemma traced_evalExpr (hc : TracedCalls env self self') (e : Expr) :
    TracedBy env base (evalExpr env self c e) (self'.evalExpr env c e) :=
  TracedBy.leave (traced_nested fun _ => traced_evalKind hc rfl e.kind) fun _ => unwound_locatedAt

lemma traced_execStmt (hc : TracedCalls env self self') (st : Stmt) :
    TracedBy env base (execStmt env self c st) (self'.execStmt env c st) :=
  TracedBy.leave (traced_nested fun _ => traced_execKind hc rfl st.kind) fun _ => unwound_locatedAt

/-- With any fuel the evaluator does what the traced evaluator does, and errors leave the sites at
which they are raised. -/
lemma tracedCalls_runner (env : Environment H) (fuel : Nat) :
    TracedCalls env (runner env fuel) (tracer env fuel) := by
  induction fuel with
  | zero =>
    exact ⟨fun _ _ _ _ => .outOfFuel, fun _ _ _ _ => .outOfFuel, fun _ _ _ _ => .outOfFuel, rfl⟩
  | succ fuel ih =>
    exact ⟨fun _ e _ => traced_evalExpr ih e, fun _ st _ => traced_execStmt ih st,
      fun _ l _ => traced_loopRound ih l, rfl⟩

end Patchbay
