import Patchbay.Eval.Run
import Patchbay.Host.Stock
import Patchbay.Proofs.Balance.Rules
import Patchbay.Proofs.Interpreter.Walking

/-!
# Balanced evaluation

With any fuel the evaluator is balanced: whichever way an expression, a statement, a call, a run in
a frame or a look-up ends, the depth that evaluations note, the scripts that are being loaded and
all pins are as they were before. An interpreter does what the evaluator does, and is then in its
frame, at its depth and at its arena again. While a script is being loaded its loader is not asked
for it again.
-/

namespace Patchbay

variable {H : HostTypes} {α : Type} {env : Environment H} {loader' : Option Loader}
  {barred : List Path} {c : Cursor} {s : Session H}

open Eval HeapM

/-! ## The evaluator -/

lemma balanced_runJob (hh : env.LeavesPins) (hl : AgreeOff barred env.loader loader') (fuel : Nat)
    (c : Cursor) (spare : List ObjectId) (j : Job) :
    Balanced barred c.depth spare (runJob env fuel c j)
      (runJob { env with loader := loader' } fuel c j) := by
  -- the recursive calls of a rule have one unit of fuel less
  induction fuel generalizing c spare j with
  | zero => exact balanced_diverge
  | succ fuel ih =>
    have hb : BalancedCalls barred env loader' (.ofJobs Eval.diverge (runJob env fuel))
        (.ofJobs Eval.diverge (runJob { env with loader := loader' } fuel)) :=
      ⟨hh, hl, fun c spare e => ih c spare (.expr e), fun c spare st => ih c spare (.stmt st),
        fun c spare l => ih c spare (.loop l), fun _ _ => balanced_diverge⟩
    cases j with
    | expr e => exact balanced_evalExpr hb e
    | stmt st => exact balanced_execStmt hb st
    | loop l => exact balanced_loopRound hb l

lemma balanced_runner (hh : env.LeavesPins) (hl : AgreeOff barred env.loader loader') (fuel : Nat) :
    BalancedCalls barred env loader' (runner env fuel)
      (runner { env with loader := loader' } fuel) :=
  ⟨hh, hl, fun c spare e => balanced_runJob hh hl fuel c spare (.expr e),
    fun c spare st => balanced_runJob hh hl fuel c spare (.stmt st),
    fun c spare l => balanced_runJob hh hl fuel c spare (.loop l), fun _ _ => balanced_diverge⟩

/-! ## What is given back -/

/-- Whatever an interpreter is asked for, it is in the state `r` again when that has ended: in its
frame, at its depth and with its arena. The session notes that depth, the scripts that are being
loaded are the same, and so are all pins. -/
structure Running.Restored (r r' : Running H) : Prop where
  frame : r'.interpreter.frame = r.interpreter.frame
  depth : r'.interpreter.depth = r.interpreter.depth
  ast : r'.interpreter.ast = r.interpreter.ast
  evalDepth : r'.session.evalDepth = r.session.evalDepth
  loading : r'.session.loading = r.session.loading
  /-- The objects that were there are there, pinned as often as before. -/
  pins : ∀ id, r'.session.heap.pinCount id = r.session.heap.pinCount id
  /-- No new object is pinned. -/
  unpinned : ∀ id, r.session.heap.contains id = false → r'.session.heap.pinCount id = 0
  tidy : r'.session.heap.Tidy

/-- What a computation of an interpreter owes. -/
structure Environment.Balances (env : Environment H) (r : Running H)
    (m : Environment H → Interp H α) : Prop where
  /-- Whether it ends with a value or with an error, everything is put back. -/
  restored : (m env r).Leaves r.Restored
  /-- It ends in the same way whatever the loader says of the scripts that are being loaded. Nothing
  in an evaluation catches errors, so one of a loader would show: the loader is not asked for
  them. -/
  loadsOnce : ∀ loader', AgreeOff r.session.loading env.loader loader' →
    m { env with loader := loader' } r = m env r

lemma agreeOff_refl {loader : Option Loader} : AgreeOff barred loader loader := by
  cases loader with
  | none => exact .none
  | some load => exact .some fun _ _ => rfl

variable {r : Running H}

/-- An interpreter puts its own state back where it mirrors an evaluation, and the rest where that
is balanced. -/
lemma balances_of_mirrors {spare : List ObjectId} {m : Environment H → Interp H α}
    {e : Environment H → Eval H α} (hm : ∀ env, Interp.Mirrors r.interpreter (m env) (e env))
    (hs : r.session.Standing r.session.loading r.interpreter.depth spare)
    (hb : ∀ loader', AgreeOff r.session.loading env.loader loader' →
      Balanced r.session.loading r.interpreter.depth spare (e env)
        (e { env with loader := loader' })) :
    env.Balances r m := by
  have hrun : ∀ env, m env r = (e env r.session).beside r.interpreter := fun env => hm env r.session
  refine ⟨?_, fun loader' hl => ?_⟩
  · -- compared with itself, the evaluation restores what it takes
    have hleaves := (hb env.loader agreeOff_refl r.session hs).leaves
    rw [hrun]
    have hrestored : ∀ t, r.session.Restored t → r.Restored ⟨r.interpreter, t⟩ := fun t ht =>
      ⟨rfl, rfl, rfl, ht.evalDepth, ht.loading, ht.heap.pins, fun id hdead =>
        (ht.heap.pins id).trans (Heap.pinCount_of_not_contains hdead), ht.heap.tidy⟩
    cases he : e env r.session with
    | ok a t =>
      rw [he] at hleaves
      exact hrestored t hleaves
    | error err t =>
      rw [he] at hleaves
      exact hrestored t hleaves
    | outOfFuel => trivial
  · -- compared with others, it is the same
    rw [hrun, hrun, (hb loader' hl r.session hs).eq]

/-- An id that means nothing in the arena aborts the program. -/
lemma balances_of_stuck {m : Environment H → Interp H α} (hm : ∀ env, m env r = .outOfFuel) :
    env.Balances r m :=
  ⟨by rw [hm]; trivial, fun _ _ => by rw [hm, hm]⟩

/-- Everything that an interpreter in the state `r` may be asked for is balanced. -/
structure Environment.BalancesAll (env : Environment H) (fuel : Nat) (r : Running H) : Prop where
  expr : ∀ t, env.Balances r fun env => (walker env fuel).expr t
  stmt : ∀ t, env.Balances r fun env => (walker env fuel).stmt t
  call : ∀ callee args site, env.Balances r fun env =>
    (walker env fuel).callValue env callee args site
  /-- A run in a frame that is given. It pins the frame, so there has to be room for one more
  pin. -/
  runIn : ∀ frame ts body, List.Forall₂ (fun t st => r.interpreter.ast.tree? t = some (.stmt st))
    ts body → r.session.heap.pinCount frame < r.session.heap.pinCount frame + 1 →
      env.Balances r fun env => (walker env fuel).runIn frame ts
  lookup : ∀ name, env.Balances r fun env => (walker env fuel).lookup env name
  /-- What runs while a script is being loaded does not ask the loader for that script. -/
  script : ∀ frame name ident dir loader',
    AgreeOff (dir.join ⟨ident ++ "." ++ env.config.scriptExtension⟩ :: r.session.loading) env.loader
      loader' →
      (walker { env with loader := loader' } fuel).script env frame name ident dir r.session =
        (walker env fuel).script env frame name ident dir r.session

/-- Evaluation is balanced on every way out, whatever the arena, and what runs while a script is
being loaded does not load it again. All that is asked is that the session notes the depth of the
interpreter, and that host code leaves pins alone. -/
theorem evaluation_balanced (hh : env.LeavesPins) (fuel : Nat) (ht : r.session.heap.Tidy)
    (hd : r.session.evalDepth = r.interpreter.depth) : env.BalancesAll fuel r := by
  have hs : r.session.Standing r.session.loading r.interpreter.depth [] :=
    ⟨ht, hd, List.Subset.refl _, fun _ hid => by cases hid⟩
  have hb := fun loader' (hl : AgreeOff r.session.loading env.loader loader') =>
    balanced_runner hh hl fuel
  have hw : ∀ env : Environment H, (walker env fuel).Mirrors (runner env fuel) := fun env =>
    mirrors_walker env fuel
  refine ⟨fun t => ?_, fun t => ?_, fun callee args site => ?_, fun frame ts body hts hroom => ?_,
    fun name => ?_, fun frame name ident dir loader' hl => ?_⟩
  · cases he : r.interpreter.ast.expr? t with
    | some e =>
      have htree := Arena.tree?_of_expr? he
      exact balances_of_mirrors (fun env => (hw env).expr _ _ _ htree) hs fun _ hl =>
        (hb _ hl).expr r.interpreter.cursor [] e
    | none => exact balances_of_stuck fun env => walker_expr_of_none he
  · cases hst : r.interpreter.ast.stmt? t with
    | some st =>
      have htree := Arena.tree?_of_stmt? hst
      exact balances_of_mirrors (fun env => (hw env).stmt _ _ _ htree) hs fun _ hl =>
        (hb _ hl).stmt r.interpreter.cursor [] st
    | none => exact balances_of_stuck fun env => walker_stmt_of_none hst
  · exact balances_of_mirrors (fun env => mirrors_callValue (hw env)) hs fun _ hl =>
      balanced_callValue (c := r.interpreter.cursor) (hb _ hl)
  · -- the block runs under a pin of its own on `frame`, so `frame` is spare if that pin fits
    have hspare : r.session.Standing r.session.loading r.interpreter.depth [frame] := by
      refine ⟨ht, hd, List.Subset.refl _, fun id hid => ?_⟩
      rw [List.mem_singleton.mp hid]
      exact hroom
    exact balances_of_mirrors (fun env => mirrors_runIn (hw env) hts) hspare fun _ hl =>
      ((hb _ hl).block (c := { r.interpreter.cursor with frame := frame }) body).pinning
        List.mem_cons_self
  · exact balances_of_mirrors (fun env => mirrors_lookup (hw env)) hs fun _ hl =>
      balanced_lookup (hb _ hl)
  · rw [walks_script (hw _), walks_script (hw _)]
    exact (Resolve.balanced_script_within (balanced_runner hh hl fuel) r.session hs).eq

/-! ## A script that refers to itself -/

/-- No function of the stock host pins anything. -/
lemma Stock.leavesPins_call (fn : Stock.Function) (args : List Value) :
    (Stock.call fn args).LeavesPins := by
  intro h ht
  have hundisturbed : ∀ h', h.StockEffect h' → h.Undisturbed h' := by
    intro h' he
    cases he with
    | write hs => exact .touched ht hs
    | alloc o _ => exact (Heap.undisturbed_alloc ht).1
  exact (Heap.ends_stockCall fn args h).mono (fun _ _ he => hundisturbed _ he) fun _ _ he =>
    hundisturbed _ he

/-- The path of a script. -/
def scriptPath : Path := ⟨"d/x.rill"⟩

/-- A statement that mentions the variable `x`. -/
def mention : Stmt := .mk (.expr (.mk (.ident ⟨1⟩) .builtin)) .builtin

/-- Every script is that one statement. -/
def mentionLoader : Loader := fun _ names => (.ok ⟨.empty, [mention]⟩, names)

/-- Nothing is heard of the script when it is asked for. -/
def refusingLoader : Loader := fun path =>
  if [scriptPath].any path.same then fun names => (.error (.custom "asked again"), names)
  else mentionLoader path

/-- The directory of the root frame has a script `x`. -/
def mentionEnvironment : Environment Stock.types where
  config := .default
  host := Stock.host
  plugins := .empty
  tree := ⟨fun _ => false, fun p => p = scriptPath⟩
  loader := some mentionLoader
  root := ⟨0, 0⟩
  reserved := ⟨.empty, .empty, .empty⟩

/-- A pinned root frame that stands for a directory. -/
def mentionSession : Session Stock.types where
  heap := [Operation.alloc (.frame (.root (some ⟨"d"⟩))), .pin ⟨0, 0⟩].foldl
    (fun h op => op.after Stock.kernels h) (Heap.new (Interner.new.intern "x").2 1)
  nodesNamed := 0
  evalDepth := 0
  loading := []

/-- An interpreter in the root frame, with a program that mentions `x`. -/
def mentionRunning : Running Stock.types := ⟨⟨⟨0, 0⟩, 0, ⟨[mention]⟩⟩, mentionSession⟩

/-- What is left of a run of that program in the root frame: the message of its failure, the pins of
the root frame and of the frame that the script ran in, and the scripts that are being loaded. -/
def mentionOutcome : Option (String × UInt32 × UInt32 × List Path) :=
  match (walker mentionEnvironment 9).runIn ⟨0, 0⟩ [.top 0] mentionRunning with
  | .error e r =>
    some (e.message, r.session.heap.pinCount ⟨0, 0⟩, r.session.heap.pinCount ⟨1, 0⟩,
      r.session.loading)
  | _ => none

/-- The script runs, mentions `x` while it is being loaded, and fails. -/
theorem evaluation_balanced_mention :
    mentionEnvironment.Balances mentionRunning (fun env => (walker env 9).runIn ⟨0, 0⟩ [.top 0]) ∧
      (walker { mentionEnvironment with loader := some refusingLoader } 9).script mentionEnvironment
        ⟨0, 0⟩ ⟨1⟩ "x" ⟨"d"⟩ mentionSession =
        (walker mentionEnvironment 9).script mentionEnvironment ⟨0, 0⟩ ⟨1⟩ "x"
          ⟨"d"⟩ mentionSession ∧
      mentionOutcome = some ("undefined variable: x", 1, 0, []) := by
  have hhost : mentionEnvironment.LeavesPins := ⟨Stock.leavesPins_call, fun p hp => by cases hp⟩
  have htidy : mentionSession.heap.Tidy :=
    List.foldlRecOn (motive := Heap.Tidy) _ _ (Heap.counted_new _ _).tidy fun h ht op _ =>
      ht.effect (Heap.effect_after Stock.kernels op h)
  have hall := evaluation_balanced (r := mentionRunning) hhost 9 htidy rfl
  have hids : List.Forall₂ (fun t st => mentionRunning.interpreter.ast.tree? t = some (.stmt st))
      [.top 0] [mention] := .cons rfl .nil
  refine ⟨hall.runIn ⟨0, 0⟩ [.top 0] [mention] hids (by decide +kernel),
    hall.script ⟨0, 0⟩ ⟨1⟩ "x" ⟨"d"⟩ _ (.some ?_), ?_⟩
  · intro path hp
    have hjoin : (⟨"d"⟩ : Path).join ⟨"x" ++ "." ++ "rill"⟩ = scriptPath := by decide
    change ([(⟨"d"⟩ : Path).join ⟨"x" ++ "." ++ "rill"⟩].any path.same) = false at hp
    rw [hjoin] at hp
    unfold refusingLoader
    simp [hp]
  · decide +kernel

end Patchbay
