import Patchbay.Proofs.Courses.StockHost
import Patchbay.Proofs.Lifting.Meanings

/-!
# Operator graphs stay wired

The operator nodes that dispatch makes are fed by their operands as long as they live, if host code
is discreet. If it is not, a program can get at such a node and connect its inputs anew.
-/

namespace Patchbay

variable {H : HostTypes} {env : Environment H} {code : HostCode H → Prop} {s : Session H}

/-- Operator graphs are fully wired and stay so. In whatever state programs leave an interpreter
after a statement or between two programs, a ledger tells its history: each operator node that was
built is fed by its operands, nothing that is known leads to what a failed attempt left behind, all
frames are known, and every operator node that was not stored as such is accounted for. From such a
state, in any frame, the same holds whenever an expression has been evaluated in the course of a
statement, and its value is known then. Host code is discreet: it wires and frees nothing, and comes
by no handle of a node that was built. -/
theorem operator_graphs_stay_wired {setup : Setup H} (hstart : setup.start = .ok (env, s))
    (hd : env.Discreet code s.heap) :
    (∀ t, Ran env s t → ∃ l : Ledger, l.Tells env code s.heap t.heap) ∧
    (∀ t u fuel program, Ran env s t →
      Passes env (runner env fuel) env.top .empty (Program.body program) t u →
      ∃ l : Ledger, l.Tells env code s.heap u.heap) ∧
    ∀ (t : Session H) (l : Ledger) (c : Cursor) (st : Stmt), l.Tells env code s.heap t.heap →
      t.heap.HasKind .frame c.frame →
      st.ValuesGood env (fun v u => ∃ l' : Ledger, l'.Tells env code s.heap u.heap ∧ l'.knows v ∧
        l.Continues l') c t := by
  have ha : AtRest (.always code) env s := Setup.atRest_start hstart
  refine ⟨fun t hran => ?_, fun t u fuel program hran hp => ?_, fun t l c st hl hframe => ?_⟩
  · obtain ⟨l, hh⟩ := History.ran hd ha hran
    exact ⟨l, hh.tells hd ha⟩
  · obtain ⟨l, hh⟩ := History.ran hd ha hran
    obtain ⟨l', hh'⟩ := hh.passes hd ha hp
    exact ⟨l', hh'.tells hd ha⟩
  · exact hl.history.valuesGood hd ha (hl.upheld.accounts.frame _ hframe) st

/-! Two programs: one adds one to the output of a node, the other one goes for the first input of
the operator node. They run with the stock host, and with one whose functions return nodes. -/

/-- A host with a factory of nodes and one of functions, and a collection after every statement that
stores an object. -/
def graphSetup (host : Host Stock.types) : Setup Stock.types where
  config := Config.default.withGcThreshold 1
  host := host
  plugins := {
    functions := [⟨"pack", Stock.FunctionSpec.factory ⟨fun _ => .pack, [("item", none)]⟩ true none,
      ⟨"kit", ""⟩, none⟩]
    nodes := [⟨"meter", Stock.NodeSpec.factory ⟨.host (.counter 0), [], ["out"], [], none⟩,
      ⟨"kit", ""⟩, none⟩] }
  tree := .empty
  loader := none
  names := ["x", "y", "meter", "out", "pack", "item", "a"].foldl
    (fun names text => (names.intern text).2) .new

/-- The program `var x = meter().out; var y = x + 1`. -/
def addingProgram : Program :=
  let expr (kind : ExprKind) : Expr := ⟨kind, .builtin⟩
  let one := expr (.literal (.int .int32 (.wrap .int32 1)))
  let body : List StmtKind := [
    .var ⟨1⟩ (some (expr (.member (expr (.call (expr (.ident ⟨3⟩)) [])) ⟨4⟩))),
    .var ⟨2⟩ (some (expr (.binary .add (expr (.ident ⟨1⟩)) one)))]
  ⟨.empty, body.map fun kind => ⟨kind, .builtin⟩⟩

/-- The program `pack(y).a = 5`. -/
def rewiringProgram : Program :=
  let expr (kind : ExprKind) : Expr := ⟨kind, .builtin⟩
  let five := expr (.literal (.int .int32 (.wrap .int32 5)))
  let target := expr (.call (expr (.ident ⟨5⟩)) [⟨none, expr (.ident ⟨2⟩)⟩])
  ⟨.empty, [⟨.assign (.member target ⟨7⟩) none five, .builtin⟩]⟩

/-- What there is to see after programs ran: the values of `x` and `y`, and the port that the first
input of the node behind `y` is connected to. -/
def graphFigures (host : Host Stock.types) (programs : List Program) :
    Option (Option Value × Option Value × Option PortRef) :=
  match (graphSetup host).start with
  | .ok (env, s) =>
    let t := programs.foldl (fun t program =>
      match runProgram env (runner env 9) env.top program t with
      | .ok _ t' => t'
      | _ => t) s
    let var (name : Name) := (t.heap.lookupLocal env.root name).toOption.join
    some (var ⟨1⟩, var ⟨2⟩, ((var ⟨2⟩).bind Value.referent).bind fun x => t.heap.sourceAt x 0)
  | .error _ => none

/-- With the stock host, the second program fails, and the input stays connected to the operand. -/
theorem operator_graphs_stay_wired_sum :
    graphFigures Stock.host [addingProgram, rewiringProgram] =
        some (some (.output ⟨⟨17, 0⟩, 0⟩), some (.output ⟨⟨18, 0⟩, 0⟩), some ⟨⟨17, 0⟩, 0⟩) ∧
      ∃ env s, (graphSetup Stock.host).start = .ok (env, s) ∧
        (∀ t, Ran env s t → ∃ l : Ledger, l.Tells env Stock.Trusted s.heap t.heap) ∧
        ∀ (l : Ledger) (st : Stmt), l.Tells env Stock.Trusted s.heap s.heap →
          st.ValuesGood env (fun v u => ∃ l' : Ledger, l'.Tells env Stock.Trusted s.heap u.heap ∧
            l'.knows v ∧ l.Continues l') env.top s := by
  have hfigures : graphFigures Stock.host [addingProgram, rewiringProgram] =
      some (some (.output ⟨⟨17, 0⟩, 0⟩), some (.output ⟨⟨18, 0⟩, 0⟩), some ⟨⟨17, 0⟩, 0⟩) := by
    decide +kernel
  have hfunctions : ∀ p ∈ (graphSetup Stock.host).plugins.functions,
      Stock.FunctionFactory.IsBare p.factory := by
    intro p hp
    rw [List.mem_singleton.mp hp]
    refine .ofSpec true none ⟨fun _ => trivial, fun q hq v hv => ?_⟩
    rw [List.mem_singleton.mp hq] at hv
    cases hv
  have hnodes : ∀ p ∈ (graphSetup Stock.host).plugins.nodes,
      Stock.NodeFactory.IsBare p.factory := by
    intro p hp
    rw [List.mem_singleton.mp hp]
    refine .ofSpec ⟨fun state hstate => ?_, fun q hq => by cases hq⟩
    cases hstate
    trivial
  refine ⟨hfigures, ?_⟩
  cases hstart : (graphSetup Stock.host).start with
  | ok r =>
    obtain ⟨env, s⟩ := r
    obtain ⟨hhost, hplugins, -⟩ := Setup.start_environment hstart
    have hdiscreet : env.Discreet Stock.Trusted s.heap :=
      Stock.discreet hhost (hplugins ▸ hfunctions) (hplugins ▸ hnodes)
    have hroot : s.heap.HasKind .frame env.root := (Setup.atRest_start (T := .any) hstart).root
    obtain ⟨hran, -, hgood⟩ := operator_graphs_stay_wired hstart hdiscreet
    exact ⟨env, s, rfl, hran, fun l st hl => hgood s l env.top st hl hroot⟩
  | error e =>
    unfold graphFigures at hfigures
    rw [hstart] at hfigures
    cases hfigures

/-- A host whose functions return the node that a port belongs to. -/
def givingHost : Host Stock.types :=
  { Stock.host with
    call := fun _ args => return match args with
      | [.port _ p] => .node p.node
      | _ => .absent }

/-- Calls leave the heap as it is and return valid handles. -/
def Host.Harmless (host : Host H) : Prop :=
  ∀ h fn args, (∀ v ∈ args, v.ValidIn h) →
    (host.call fn args).Ends h (fun v h' => h' = h ∧ v.ValidIn h) fun _ _ => False

lemma harmless_givingHost : givingHost.Harmless := by
  refine fun h fn args ha => ⟨rfl, ?_⟩
  split
  · next kind p =>
    obtain ⟨shape, hshape, hport⟩ : h.HasPort kind p := ha _ List.mem_cons_self
    exact ⟨shape, hshape, hport.1⟩
  · trivial

/-- The program `var b = a op literal`. -/
def operatorProgram (b a : Name) (op : BinaryOp) (literal : Literal) : Program :=
  let expr (kind : ExprKind) : Expr := ⟨kind, .builtin⟩
  let value := expr (.binary op (expr (.ident a)) (expr (.literal literal)))
  ⟨.empty, [⟨.var b (some value), .builtin⟩]⟩

/-- The node that dispatch builds of an operator and an output stays fed by it whatever programs run
next, as long as the variable leads there. -/
def Host.KeepsFed (host : Host Stock.types) : Prop :=
  ∀ env s t u w fuel report a b op literal p q,
    (graphSetup host).start = .ok (env, s) → Ran env s t →
    t.MeansBuiltin env env.root env.reserved.binaryOp .binaryOp →
    t.Means env env.root a (.output p) →
    runProgram env (runner env fuel) env.top (operatorProgram b a op literal) t = .ok report u →
    u.Means env env.root b (.output q) → t.heap.contains q.node = false →
    Ran env u w → w.Means env env.root b (.output q) → w.heap.sourceAt q.node 0 = some p

/-- Run programs one after the other. -/
def runAll (env : Environment H) (programs : List Program) (s : Session H) : Option (Session H) :=
  programs.foldlM (fun t program =>
    match runProgram env (runner env 9) env.top program t with
    | .ok _ u => some u
    | _ => none) s

lemma Ran.runAll {programs : List Program} {s t u : Session H} (hran : Ran env s t)
    (hall : runAll env programs t = some u) : Ran env s u := by
  induction programs generalizing t with
  | nil =>
    cases hall
    exact hran
  | cons program rest ih =>
    rw [Patchbay.runAll, List.foldlM_cons] at hall
    cases hrun : runProgram env (runner env 9) env.top program t with
    | ok report t' =>
      rw [hrun] at hall
      exact ih (.program hran hrun) hall
    | error e t' =>
      rw [hrun] at hall
      cases hall
    | outOfFuel =>
      rw [hrun] at hall
      cases hall

/-- The program `var x = meter().out`. -/
def meterProgram : Program := ⟨.empty, addingProgram.body.take 1⟩

/-- Whether a graph is rewired with the host that gives nodes away: `y` is bound to the output of a
new node, is so still after the next program, and the node has another source than the output that
`x` is bound to. -/
def rewired : Bool :=
  match (graphSetup givingHost).start with
  | .ok (env, s) =>
    match runAll env [meterProgram] s with
    | some t =>
      match runProgram env (runner env 9) env.top
        (operatorProgram ⟨2⟩ ⟨1⟩ .add (.int .int32 (.wrap .int32 1))) t with
      | .ok _ u =>
        match runAll env [rewiringProgram] u with
        | some w =>
          t.builtin? env env.root env.reserved.binaryOp = some .binaryOp ∧
          t.bound? env env.root ⟨1⟩ = some (.output ⟨⟨17, 0⟩, 0⟩) ∧
          u.bound? env env.root ⟨2⟩ = some (.output ⟨⟨18, 0⟩, 0⟩) ∧
          t.heap.contains ⟨18, 0⟩ = false ∧
          w.bound? env env.root ⟨2⟩ = some (.output ⟨⟨18, 0⟩, 0⟩) ∧
          w.heap.sourceAt ⟨18, 0⟩ 0 = some ⟨⟨21, 0⟩, 0⟩
        | none => false
      | _ => false
    | none => false
  | .error _ => false

/-- A host whose calls change nothing and return valid handles does not keep operator nodes fed by
their operands. -/
theorem operator_graph_rewired :
    ¬ ∀ host : Host Stock.types, host.toKernelHost = Stock.kernels → host.Harmless →
    host.KeepsFed := by
  intro hall
  have hrewired : rewired = true := by decide +kernel
  unfold rewired at hrewired
  split at hrewired
  · next env s hstart =>
    split at hrewired
    · next t ht =>
      split at hrewired
      · next report u hrun =>
        split at hrewired
        · next w hw =>
          obtain ⟨hbuiltin, hx, hy, hnew, hy', hsource⟩ := of_decide_eq_true hrewired
          have hfed := hall givingHost rfl harmless_givingHost env s t u w 9 report ⟨1⟩
            ⟨2⟩ .add _ _ _ hstart
            (Ran.runAll (.refl s) ht) (.of_builtin hbuiltin) (means_of_boundAlong hx) hrun
            (means_of_boundAlong hy) hnew (Ran.runAll (.refl u) hw) (means_of_boundAlong hy')
          cases hsource.symm.trans hfed
        · cases hrewired
      · cases hrewired
    · cases hrewired
  · cases hrewired

end Patchbay
