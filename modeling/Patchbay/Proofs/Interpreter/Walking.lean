import Patchbay.Proofs.Interpreter.Mirroring

/-!
# Walking the trees of an arena

If the recursive calls of an interpreter mirror those of an evaluation, so do its rules. What the
rules of an evaluation are given as a tree stands in the arena at the id that the interpreter is
given, and a part of the tree stands at the id of that part. Each rule that enters a frame or nests
ends in the state in which it began; so by induction on the fuel a walker mirrors the runner with
that fuel, and it leaves its interpreter alone.
-/

namespace Patchbay

variable {H : HostTypes} {env : Environment H} {self : Walker H} {r : Runner H} {st : Interpreter}
  {t : TreeId} {ts : List TreeId} {loc : Location} {name : Name} {frame : ObjectId}

open Interp

/-- The parts of a counted loop stand at the ids. -/
structure Arena.HasLoop (a : Arena) (ids : LoopIds) (l : LoopBody) : Prop where
  cond : Option.Rel (fun t e => a.tree? t = some (.expr e)) ids.cond l.cond
  step : Option.Rel (fun t s => a.tree? t = some (.stmt s)) ids.step l.step
  body : a.tree? ids.body = some (.stmt l.body)

/-- Whatever stands at an id, to evaluate the id is to evaluate that. -/
structure Walker.Mirrors (w : Walker H) (r : Runner H) : Prop where
  expr : ∀ (st : Interpreter) t e, st.ast.tree? t = some (.expr e) →
    Interp.Mirrors st (w.expr t) (r.expr st.cursor e)
  stmt : ∀ (st : Interpreter) t s, st.ast.tree? t = some (.stmt s) →
    Interp.Mirrors st (w.stmt t) (r.stmt st.cursor s)
  loop : ∀ (st : Interpreter) ids l, st.ast.HasLoop ids l →
    Interp.Mirrors st (w.loop ids) (r.loop st.cursor l)
  stuck : r.stuck = Eval.diverge

variable (hw : self.Mirrors r)

include hw

lemma mirrors_block {body : List Stmt}
    (ht : List.Forall₂ (fun t s => st.ast.tree? t = some (.stmt s)) ts body) :
    Mirrors st (self.block ts) (r.block st.cursor body) := by
  induction ht with
  | nil => exact mirrors_pure
  | cons hs _ ih =>
    refine (hw.stmt st _ _ hs).bind fun flow => ?_
    cases flow with
    | ret v => exact mirrors_pure
    | next => exact ih

lemma mirrors_runIn {body : List Stmt}
    (ht : List.Forall₂ (fun t s => st.ast.tree? t = some (.stmt s)) ts body) :
    Mirrors st (self.runIn frame ts) (Eval.runIn r st.cursor frame body) := by
  have hblock : Mirrors { st with frame := frame } (self.block ts)
      (r.block { st.cursor with frame := frame } body) := mirrors_block hw ht
  exact hblock.withFrame

/-! ## Looking up names -/

section Lookup

variable {ident : String} {path dir : Path} {loader : Loader}

/-- The interpreter that a script gets stands in its frame, as deep as the innermost evaluation. -/
lemma walks_runScript :
    self.runScript loader frame name ident path = Resolve.runScript r loader frame name ident
      path := by
  unfold Walker.runScript Resolve.runScript
  refine bind_congr fun program => bind_congr fun scriptFrame => bind_congr fun s => ?_
  have hrun : start ⟨frame, s.evalDepth, ⟨program.body⟩⟩
      (self.runIn scriptFrame (Arena.mk program.body).tops) =
        Eval.withPinned scriptFrame (r.block ⟨scriptFrame, s.evalDepth⟩ program.body) :=
    start_eq (mirrors_runIn hw Arena.tree?_tops)
  exact congrArg (fun m => discard (Eval.mapError _ m) >>= _) hrun

lemma walks_script :
    self.script env frame name ident dir = Resolve.script env r frame name ident dir := by
  unfold Walker.script Resolve.script
  dsimp only
  cases env.tree.isFile _ with
  | false => rfl
  | true =>
    cases env.loader with
    | some loader => exact congrArg (Resolve.whileLoading _) (walks_runScript hw)
    | none => rfl

lemma walks_find : self.find env frame name = Resolve.find env r frame name := by
  unfold Walker.find Resolve.find
  refine bind_congr fun ident => bind_congr fun f => ?_
  dsimp only
  cases Resolve.subdirectory? env f.path ident with
  | some sub => rfl
  | none =>
    cases env.plugins.function? ident f.path _ with
    | some plugin => rfl
    | none =>
      cases env.plugins.node? ident f.path _ with
      | some plugin => rfl
      | none =>
        cases f.path with
        | some dir => exact walks_script hw
        | none => rfl

lemma walks_resolve : self.resolve env frame name = resolve env r frame name :=
  congrArg (· >>= _) (walks_find hw)

lemma walks_lookupIn : self.lookupIn env frame name = lookupIn env r frame name := by
  unfold Walker.lookupIn lookupIn
  refine bind_congr fun f => ?_
  cases f.get? name with
  | some v => rfl
  | none => simp only [walks_resolve hw]

lemma walks_lookupAlong (frames : List ObjectId) :
    self.lookupAlong env frame name frames = lookupAlong env r frame name frames := by
  induction frames with
  | nil => rw [Walker.lookupAlong, lookupAlong, hw.stuck]
  | cons x rest ih =>
    rw [Walker.lookupAlong, lookupAlong, walks_lookupIn hw]
    refine bind_congr fun found => ?_
    cases found with
    | some v => rfl
    | none => exact ih

lemma mirrors_lookup : Mirrors st (self.lookup env name) (lookup env r st.frame name) := by
  refine mirrors_current_bind ?_
  have hlookup :
      (do let s ← Eval.get; self.lookupAlong env st.frame name (s.heap.lineage st.frame)) =
        lookup env r st.frame name := bind_congr fun s => walks_lookupAlong hw _
  rw [hlookup]
  exact mirrors_lift

lemma walks_frameMember : self.frameMember env frame name = frameMember env r frame name :=
  congrArg (· >>= _) (walks_lookupIn hw)

lemma walks_member {object : Value} : self.member env object name = member env r object name := by
  cases object with
  | object kind id =>
    cases kind with
    | frame => exact walks_frameMember hw
    | _ => rfl
  | _ => rfl

end Lookup

/-! ## Calls -/

section Calls

variable {f : Callable H} {args : List CallArg}

/-- The interpreter of a function stands in the frame of the call, as deep as its caller. -/
lemma mirrors_callScript {body : Stmt} :
    Mirrors st (self.callScript env f body args) (callScript env r st.cursor f body args) := by
  refine mirrors_lift.bind fun bound => mirrors_lift.bind fun frame => mirrors_lift.bind fun _ => ?_
  refine mirrors_current_bind ?_
  have hbody : Mirrors ⟨frame, st.depth, ⟨[body]⟩⟩ (self.stmt (.top 0))
      (r.stmt { st.cursor with frame := frame } body) := hw.stmt _ _ _ rfl
  have hcall : Mirrors ⟨f.closure.getD env.root, st.depth, ⟨[body]⟩⟩
      (withFrame frame (self.stmt (.top 0)))
      (Eval.withPinned frame (r.stmt { st.cursor with frame := frame } body)) := hbody.withFrame
  refine (mirrors_start hcall).bind fun flow => ?_
  cases flow with
  | ret v => exact mirrors_pure
  | next => exact mirrors_pure

lemma mirrors_callValue {callee : Value} :
    Mirrors st (self.callValue env callee args loc)
      (callValue env r st.cursor callee args loc) := by
  cases callee with
  | object kind id =>
    cases kind with
    | function =>
      refine mirrors_lift.bind fun f => ?_
      cases f.body with
      | script body => exact (mirrors_callScript hw).mapError
      | native fn => exact mirrors_lift.bind fun _ => mirrors_lift
      | nodeCreator create => exact mirrors_lift
      | builtin b =>
        rw [hw.stuck]
        exact mirrors_lift
    | _ => exact fun _ => rfl
  | _ => exact fun _ => rfl

lemma mirrors_callReserved {operands : List Value} :
    Mirrors st (self.callReserved env name operands loc)
      (callReserved env r st.cursor name operands loc) :=
  (mirrors_lookup hw).bind fun _ => mirrors_callValue hw

end Calls

/-! ## Expressions -/

lemma mirrors_evalAll {es : List Expr}
    (ht : List.Forall₂ (fun t e => st.ast.tree? t = some (.expr e)) ts es) :
    Mirrors st (self.evalAll ts) (evalAll r st.cursor es) := by
  induction ht with
  | nil => exact mirrors_pure
  | cons he _ ih => exact (hw.expr st _ _ he).bind fun _ => ih.bind fun _ => mirrors_pure

lemma mirrors_evalArgs {args : List Argument}
    (ht : List.Forall₂ (fun t (a : Argument) => st.ast.tree? t = some (.expr a.value)) ts args) :
    Mirrors st (self.evalArgs ((args.map Argument.label).zip ts)) (evalArgs r st.cursor args) := by
  induction ht with
  | nil => exact mirrors_pure
  | cons he _ ih => exact (hw.expr st _ _ he).bind fun _ => ih.bind fun _ => mirrors_pure

lemma mirrors_evalKind {kind : ExprKind} (ht : st.ast.tree? t = some (.expr (.mk kind loc))) :
    Mirrors st (self.evalKind env t kind loc) (evalKind env r st.cursor kind loc) := by
  have hpart : ∀ i e, kind.parts[i]? = some (some (.expr e)) →
      Mirrors st (self.expr (t.part i)) (r.expr st.cursor e) := fun i e he =>
    hw.expr st _ e (Arena.tree?_part ht he)
  cases kind with
  | literal l => exact fun _ => rfl
  | array items =>
    exact (mirrors_evalAll hw (Arena.tree?_parts ht rfl)).bind fun _ => mirrors_lift.bind fun _ =>
      mirrors_lift
  | sequence items =>
    exact (mirrors_evalAll hw (Arena.tree?_parts ht rfl)).bind fun _ => mirrors_lift
  | frame body =>
    refine mirrors_current_bind (mirrors_lift.bind fun frame => ?_)
    have hbody : Mirrors { st with frame := frame } (self.stmt (t.part 0))
        (r.stmt { st.cursor with frame := frame } body) :=
      hw.stmt { st with frame := frame } _ _ (Arena.tree?_part ht rfl)
    exact hbody.withFrame.discard.bind fun _ => mirrors_pure
  | ident name => exact mirrors_lookup hw
  | this =>
    rw [evalKind, hw.stuck]
    exact mirrors_current_bind mirrors_lift
  | member object name =>
    refine (hpart 0 object rfl).bind fun _ => ?_
    rw [walks_member hw]
    exact mirrors_lift
  | index object indices =>
    exact (hpart 0 object rfl).bind fun _ =>
      (mirrors_evalAll hw (Arena.tree?_parts ht rfl)).bind fun _ => mirrors_callReserved hw
  | call callee args =>
    have hargs : List.Forall₂ (fun t (a : Argument) => st.ast.tree? t = some (.expr a.value))
        (t.parts 1 args.length) args :=
      Arena.tree?_parts ht (by simp [Tree.parts, Expr.kind, ExprKind.parts, Expr.all])
    exact (hpart 0 callee rfl).bind fun _ =>
      (mirrors_evalArgs hw hargs).bind fun _ => mirrors_callValue hw
  | unary op operand => exact (hpart 0 operand rfl).bind fun _ => mirrors_callReserved hw
  | binary op left right =>
    refine (hpart 0 left rfl).bind fun _ => mirrors_lift.bind fun decided => ?_
    cases decided with
    | some result => exact mirrors_pure
    | none => exact (hpart 1 right rfl).bind fun _ => mirrors_callReserved hw
  | ternary cond thenExpr elseExpr =>
    refine (hpart 0 cond rfl).bind fun _ => mirrors_lift.bind fun holds => ?_
    cases holds with
    | true => exact hpart 1 thenExpr rfl
    | false => exact hpart 2 elseExpr rfl

lemma mirrors_evalExpr {e : Expr} (ht : st.ast.tree? t = some (.expr e)) :
    Mirrors st (self.evalExpr env t) (evalExpr env r st.cursor e) := by
  obtain ⟨kind, loc⟩ := e
  refine mirrors_fetch_bind (Arena.expr?_of_tree? ht) ?_
  have hkind : Mirrors { st with depth := st.depth + 1 } (self.evalKind env t kind loc)
      (evalKind env r { st.cursor with depth := st.depth + 1 } kind loc) := mirrors_evalKind hw ht
  exact hkind.nested.mapError

/-! ## Statements -/

lemma mirrors_evalOptional {value : Option Expr}
    (ht : st.ast.tree? t = value.map .expr) :
    Mirrors st (self.evalOptional (value.map fun _ => t)) (evalOptional r st.cursor value) := by
  cases value with
  | some e => exact hw.expr st _ _ ht
  | none => exact mirrors_pure

lemma mirrors_declareParams {params : List Param}
    (ht : List.Forall₂ (fun t (p : Param) => st.ast.tree? t = p.default.map .expr) ts params) :
    Mirrors st
      (self.declareParams ((params.zip ts).map fun (p, default) =>
        (p.name, p.default.map fun _ => default)))
      (declareParams r st.cursor params) := by
  induction ht with
  | nil => exact mirrors_pure
  | @cons t p _ _ hp _ ih =>
    obtain ⟨name, default⟩ := p
    cases default with
    | some e => exact (hw.expr st _ _ hp).map.bind fun _ => ih.bind fun _ => mirrors_pure
    | none => exact mirrors_pure.bind fun _ => ih.bind fun _ => mirrors_pure

lemma mirrors_assignedValue {op : Option BinaryOp} {m : Interp H Value} {e : Eval H Value}
    {value : Value} (hm : Mirrors st m e) : Mirrors st (self.assignedValue env op m value loc)
      (assignedValue env r st.cursor op e value loc) := by
  cases op with
  | none => exact mirrors_pure
  | some op => exact hm.bind fun _ => mirrors_callReserved hw

lemma mirrors_assignTo {target : Target} {op : Option BinaryOp} {value : Expr}
    (ht : st.ast.tree? t = some (.stmt (.mk (.assign target op value) loc))) :
    Mirrors st (self.assignTo env t target op loc)
      (assignTo env r st.cursor target op value loc) := by
  have hpart : ∀ i e, (StmtKind.assign target op value).parts[i]? = some (some (.expr e)) →
      Mirrors st (self.expr (t.part i)) (r.expr st.cursor e) := fun i e he =>
    hw.expr st _ e (Arena.tree?_part ht he)
  cases target with
  | ident name =>
    refine (hpart 0 value rfl).bind fun _ => (mirrors_assignedValue hw (mirrors_lookup hw)).bind
      fun _ => ?_
    rw [hw.stuck]
    exact mirrors_current_bind mirrors_lift
  | member object name =>
    refine (hpart 1 object rfl).bind fun _ => (hpart 0 value rfl).bind fun _ => ?_
    rw [walks_member hw]
    exact (mirrors_assignedValue hw mirrors_lift).bind fun _ => mirrors_lift
  | index object indices =>
    refine (hpart 1 object rfl).bind fun _ => (mirrors_evalAll hw (Arena.tree?_parts ht rfl)).bind
      fun _ => ?_
    rw [hw.stuck]
    exact (hpart 0 value rfl).bind fun _ => (mirrors_assignedValue hw mirrors_lift).bind fun _ =>
      mirrors_lift

lemma mirrors_forEach {var : Name} {body : Stmt} (ht : st.ast.tree? t = some (.stmt body))
    (items : List Value) :
    Mirrors st (self.forEach var t items) (forEach r st.cursor var body items) := by
  induction items with
  | nil => exact mirrors_pure
  | cons item rest ih =>
    refine mirrors_current_bind (mirrors_lift.bind fun frame => ?_)
    have hbody : Mirrors { st with frame := frame } (self.stmt t)
        (r.stmt { st.cursor with frame := frame } body) := hw.stmt { st with frame := frame } _ _ ht
    have hround : Mirrors { st with frame := frame }
        (do let here ← current; lift (Eval.onHeap (Heap.define here.frame var item)); self.stmt t)
        (do
          Eval.onHeap (Heap.define frame var item)
          r.stmt { st.cursor with frame := frame } body) :=
      mirrors_current_bind (mirrors_lift.bind fun _ => hbody)
    refine hround.withFrame.bind fun flow => ?_
    cases flow with
    | ret v => exact mirrors_pure
    | next => exact ih

lemma mirrors_loopRound {ids : LoopIds} {l : LoopBody} (hl : st.ast.HasLoop ids l) :
    Mirrors st (self.loopRound ids) (loopRound r st.cursor l) := by
  rw [loopRound_eq]
  have htest : Mirrors st (self.roundTest ids) (roundTest r st.cursor l) := by
    have hcond := hl.cond
    unfold Walker.roundTest roundTest
    generalize ids.cond = t?, l.cond = e? at hcond
    cases hcond with
    | some he => exact (hw.expr st _ _ he).bind fun _ => mirrors_lift
    | none => exact mirrors_pure
  refine htest.bind fun holds => ?_
  cases holds with
  | false => exact mirrors_pure
  | true =>
    refine (hw.stmt st _ _ hl.body).bind fun flow => ?_
    cases flow with
    | ret v => exact mirrors_pure
    | next =>
      have hstep := hl.step
      have hloop := hw.loop st ids l hl
      dsimp only
      generalize ids.step = t?, l.step = s? at hstep
      cases hstep with
      | some hs => exact (hw.stmt st _ _ hs).discard.bind fun _ => hloop
      | none => exact hloop

lemma mirrors_execKind {kind : StmtKind} (ht : st.ast.tree? t = some (.stmt (.mk kind loc))) :
    Mirrors st (self.execKind env t kind loc) (execKind env r st.cursor kind loc) := by
  have hpart : ∀ i e, kind.parts[i]? = some (some (.expr e)) →
      Mirrors st (self.expr (t.part i)) (r.expr st.cursor e) := fun i e he =>
    hw.expr st _ e (Arena.tree?_part ht he)
  have hstmt : ∀ i s, kind.parts[i]? = some (some (.stmt s)) → ∀ frame,
      Mirrors { st with frame := frame } (self.stmt (t.part i))
        (r.stmt { st.cursor with frame := frame } s) := fun i s hs frame =>
    hw.stmt { st with frame := frame } _ s (Arena.tree?_part ht hs)
  cases kind with
  | block newFrame body =>
    have hbody : List.Forall₂ (fun t s => st.ast.tree? t = some (.stmt s))
        (t.parts 0 body.length) body :=
      Arena.tree?_parts ht rfl
    cases newFrame with
    | true => exact mirrors_current_bind (mirrors_lift.bind fun frame => mirrors_runIn hw hbody)
    | false => exact mirrors_block hw hbody
  | function name params body =>
    refine (mirrors_declareParams hw (Arena.tree?_parts ht rfl)).bind fun ps =>
      mirrors_current_bind ?_
    have hread : st.ast.stmt? (t.part 0) = some body :=
      Arena.stmt?_of_tree? (Arena.tree?_part ht rfl)
    refine mirrors_fetch_bind hread (mirrors_lift.bind fun f => ?_)
    exact mirrors_current_bind (mirrors_lift.bind fun _ => mirrors_pure)
  | var name init =>
    refine (mirrors_evalOptional hw (Arena.tree?_part ht rfl)).bind fun _ => ?_
    exact mirrors_current_bind (mirrors_lift.bind fun _ => mirrors_pure)
  | assign target op value => exact (mirrors_assignTo hw ht).bind fun _ => mirrors_pure
  | branch cond thenBranch elseBranch =>
    refine (hpart 0 cond rfl).bind fun _ => mirrors_lift.bind fun holds => ?_
    cases holds with
    | true => exact hstmt 1 thenBranch rfl st.frame
    | false =>
      cases elseBranch with
      | some s => exact hstmt 2 s rfl st.frame
      | none => exact mirrors_pure
  | loop init cond step body =>
    refine mirrors_current_bind (mirrors_lift.bind fun frame => Mirrors.withFrame ?_)
    have hloop := hw.loop { st with frame := frame }
      ⟨cond.map fun _ => t.part 1, step.map fun _ => t.part 2, t.part 3⟩ ⟨cond, step, body⟩ ?_
    · cases init with
      | some init => exact (hstmt 0 init rfl frame).discard.bind fun _ => hloop
      | none => exact hloop
    · refine ⟨?_, ?_, Arena.tree?_part ht rfl⟩
      · cases cond with
        | some e => exact .some (Arena.tree?_part ht rfl)
        | none => exact .none
      · cases step with
        | some s => exact .some (Arena.tree?_part ht rfl)
        | none => exact .none
  | each var items body =>
    exact (hpart 0 items rfl).bind fun _ => mirrors_lift.bind fun vs =>
      mirrors_forEach hw (Arena.tree?_part ht rfl) vs
  | expr e => exact (hpart 0 e rfl).discard.bind fun _ => mirrors_pure
  | ret value => exact (mirrors_evalOptional hw (Arena.tree?_part ht rfl)).map

lemma mirrors_execStmt {s : Stmt} (ht : st.ast.tree? t = some (.stmt s)) :
    Mirrors st (self.execStmt env t) (execStmt env r st.cursor s) := by
  obtain ⟨kind, loc⟩ := s
  refine mirrors_fetch_bind (Arena.stmt?_of_tree? ht) ?_
  have hkind : Mirrors { st with depth := st.depth + 1 } (self.execKind env t kind loc)
      (execKind env r { st.cursor with depth := st.depth + 1 } kind loc) := mirrors_execKind hw ht
  exact hkind.nested.mapError

/-! ## Programs -/

lemma mirrors_runStatements {report : RunReport} {body : List Stmt}
    (ht : List.Forall₂ (fun t s => st.ast.tree? t = some (.stmt s)) ts body) :
    Mirrors st (self.runStatements env report ts) (runStatements env r st.cursor report body) := by
  induction ht generalizing report with
  | nil => exact mirrors_pure
  | cons hs _ ih =>
    refine (hw.stmt st _ _ hs).attempt.bind fun result => ?_
    dsimp only
    split
    · exact mirrors_pure
    · exact mirrors_lift.discard.bind fun _ => ih

omit hw

/-! ## Walkers -/

theorem mirrors_walker (env : Environment H) (fuel : Nat) :
    (walker env fuel).Mirrors (runner env fuel) := by
  induction fuel with
  | zero => exact ⟨fun _ _ _ _ _ => rfl, fun _ _ _ _ _ => rfl, fun _ _ _ _ _ => rfl, rfl⟩
  | succ fuel ih =>
    exact ⟨fun _ _ _ ht => mirrors_evalExpr ih ht, fun _ _ _ ht => mirrors_execStmt ih ht,
      fun _ _ _ hl => mirrors_loopRound ih hl, rfl⟩

/-- Without a tree at an id there is nothing to evaluate. -/
lemma walker_expr_of_none {fuel : Nat} {s : Session H} (ht : st.ast.expr? t = none) :
    (walker env fuel).expr t ⟨st, s⟩ = .outOfFuel := by
  cases fuel with
  | zero => rfl
  | succ fuel => exact bind_outOfFuel (fetch_of_none ht)

lemma walker_stmt_of_none {fuel : Nat} {s : Session H} (ht : st.ast.stmt? t = none) :
    (walker env fuel).stmt t ⟨st, s⟩ = .outOfFuel := by
  cases fuel with
  | zero => rfl
  | succ fuel => exact bind_outOfFuel (fetch_of_none ht)

/-- A program is run as at a cursor. Afterwards the interpreter is where it was, with the arena of
the program. -/
theorem runProgram_walker (env : Environment H) (fuel : Nat) (st : Interpreter) (program : Program)
    (s : Session H) :
    (walker env fuel).runProgram env program ⟨st, s⟩ =
      (runProgram env (runner env fuel) st.cursor program s).beside
        { st with ast := ⟨program.body⟩ } := by
  have hrun : Mirrors { st with ast := ⟨program.body⟩ }
      ((walker env fuel).runStatements env .empty (Arena.mk program.body).tops)
      (runStatements env (runner env fuel) st.cursor .empty program.body) :=
    mirrors_runStatements (mirrors_walker env fuel) Arena.tree?_tops
  exact hrun s

end Patchbay
