import Patchbay.Host.Stock
import Patchbay.Proofs.Unwinding.Rules

/-!
# What failures tell

A program reports one error for each of its statements that fails. The error is located at the
innermost expression or statement that was being evaluated when it was raised, and its call sites
are the places of the calls of script functions that it left, innermost first. Scripts that were
being loaded are not among them.
-/

namespace Patchbay

variable {H : HostTypes} {env : Environment H} {c : Cursor} {s t : Session H}

/-- The statements of a program that fail, each with the session that it starts on. -/
def failing (env : Environment H) (self : Runner H) (c : Cursor) :
    List Stmt → Session H → List (Stmt × Session H)
  | [], _ => []
  | st :: rest, s =>
    match self.stmt c st s with
    | .ok .next t => failing env self c rest (t.collected env)
    | .ok (.ret _) _ => []
    | .error _ t => (st, s) :: failing env self c rest (t.collected env)
    | .outOfFuel => []

/-- The error of a statement tells the innermost place of the stack at which it was raised, and for
each site of that stack that `p` picks the place where it was entered. What the error told when it
was raised stays. -/
def Tells (env : Environment H) (fuel : Nat) (c : Cursor) (p : Site → Bool)
    (start : Stmt × Session H) (e : EvalError) : Prop :=
  ∃ raised stack u,
    (tracer env fuel).stmt c start.1 [] start.2 = .error raised stack u ∧
      (runner env fuel).stmt c start.1 start.2 = .error e u ∧
      [.node start.1.loc] <:+ stack ∧ Raisable env u.heap raised ∧ e.cause = raised.cause ∧
      ((∀ loc ∈ places stack, loc.isBuiltin = false) →
        e.location = (raised.location <|> (places stack).head?) ∧
          e.callSites = raised.callSites ++ entriesOf p stack)

/-! ## Stacks without builtins -/

lemma mem_places_of_mem_entriesOf {p : Site → Bool} {stack : List Site} {loc : Location}
    (hloc : loc ∈ entriesOf p stack) : loc ∈ places stack := by
  induction stack with
  | nil => cases hloc
  | cons site rest ih =>
    have hrest : loc ∈ places rest := by
      unfold entriesOf at hloc
      split at hloc
      · rcases List.mem_append.mp hloc with hhead | htail
        · exact List.mem_of_mem_head? (by simpa using hhead)
        · exact ih htail
      · exact ih hloc
    cases site with
    | node loc' => exact List.mem_cons_of_mem loc' hrest
    | call => exact hrest
    | load path => exact hrest

/-- Where no place is that of a builtin, none is passed over. -/
lemma unwound_of_places {raised : EvalError} {stack : List Site}
    (hplaces : ∀ loc ∈ places stack, loc.isBuiltin = false) :
    (raised.unwound stack).location = (raised.location <|> (places stack).head?) ∧
      (raised.unwound stack).callSites = raised.callSites ++ entriesOf Site.isCall stack := by
  have hentries : ∀ loc ∈ entriesOf Site.isCall stack, loc.isBuiltin = false := fun loc hloc =>
    hplaces loc (mem_places_of_mem_entriesOf hloc)
  unfold EvalError.unwound
  constructor
  · cases hlist : places stack with
    | nil => rfl
    | cons loc rest => simp [hplaces loc (by simp [hlist])]
  · rw [List.filter_eq_self.mpr fun loc hloc => by simp [hentries loc hloc]]

/-! ## Statements and programs -/

/-- A statement is the outermost site of its evaluation. -/
lemma stmt_suffix {fuel : Nat} {st : Stmt} {raised : EvalError} {stack : List Site}
    (hr : (tracer env fuel).stmt c st [] s = .error raised stack t) : [.node st.loc] <:+ stack := by
  cases fuel with
  | zero => cases hr
  | succ fuel =>
    have hinner : TracedBy env [.node st.loc]
        (Eval.nested env c fun c => execKind env (runner env fuel) c st.kind st.loc)
        (Traced.nested env c fun c => (tracer env fuel).execKind env c st.kind) :=
      traced_nested fun _ => traced_execKind (tracedCalls_runner env fuel) rfl st.kind
    have hfollows := hinner s
    change Traced.nested env c (fun c => (tracer env fuel).execKind env c st.kind) [.node st.loc]
      s = _ at hr
    rw [hr] at hfollows
    exact hfollows.suffix

lemma tells_of_error {fuel : Nat} {st : Stmt} {e : EvalError}
    (hr : (runner env fuel).stmt c st s = .error e t) : Tells env fuel c Site.isCall (st, s) e := by
  have hfollows := (tracedCalls_runner env fuel).stmt c st [] s
  rw [hr] at hfollows
  generalize hending : (tracer env fuel).stmt c st [] s = ending at hfollows
  cases hfollows with
  | error _ hunwound hraised =>
    have hcause : (e.unwound []).cause = _ := congrArg EvalError.cause hunwound
    refine ⟨_, _, t, hending, hr, stmt_suffix hending, hraised, hcause, fun hplaces => ?_⟩
    rw [← (unwound_of_places hplaces).1, ← (unwound_of_places hplaces).2, ← hunwound]
    simp [EvalError.unwound, places, entriesOf]

/-- Statements that fail add their errors to the report, and nothing else does. -/
lemma failures_of_runStatements {fuel : Nat} {body : List Stmt} {start report : RunReport}
    (hrun : runStatements env (runner env fuel) c start body s = .ok report t)
    (hstart : start.returned = none) :
    ∃ errors, report.failures = start.failures ++ errors ∧
      List.Forall₂ (Tells env fuel c Site.isCall) (failing env (runner env fuel) c body s)
        errors := by
  -- the statements that remain start on the session that the first one leaves, after a collection
  induction body generalizing start s with
  | nil =>
    cases hrun
    exact ⟨[], (List.append_nil _).symm, .nil⟩
  | cons st rest ih =>
    rw [runStatements_eq] at hrun
    unfold failing
    cases hst : (runner env fuel).stmt c st s with
    | ok flow u =>
      simp only [hst, runRest] at hrun ⊢
      cases flow with
      | next =>
        rw [if_neg (by simp [RunReport.add, hstart])] at hrun
        obtain ⟨errors, hfailures, htells⟩ := ih hrun hstart
        exact ⟨errors, hfailures, htells⟩
      | ret v =>
        cases hrun
        exact ⟨[], (List.append_nil _).symm, .nil⟩
    | error e u =>
      simp only [hst, runRest] at hrun ⊢
      rw [if_neg (by simp [RunReport.add, hstart])] at hrun
      obtain ⟨errors, hfailures, htells⟩ := ih hrun hstart
      exact ⟨e :: errors, hfailures.trans (List.append_assoc start.failures [e] errors),
        .cons (tells_of_error hst) htells⟩
    | outOfFuel =>
      rw [hst] at hrun
      cases hrun

/-- A program reports, in order, an error for each of its statements that fails. The error tells
where it was raised: it is located at the innermost expression or statement that was being
evaluated, unless it came with a place of its own, and its call sites are the places of the calls of
script functions around that, innermost first. -/
theorem failures_tell_calls {fuel : Nat} {program : Program} {report : RunReport}
    (hrun : runProgram env (runner env fuel) c program s = .ok report t) :
    List.Forall₂ (Tells env fuel c Site.isCall) (failing env (runner env fuel) c program.body s)
      report.failures := by
  obtain ⟨errors, hfailures, htells⟩ := failures_of_runStatements hrun rfl
  rw [hfailures]
  exact htells

/-! ## A call and a load -/

/-- The directory of the root frame has a script `x`, which mentions `y`. -/
def loadEnvironment : Environment Stock.types where
  config := .default
  host := Stock.host
  plugins := .empty
  tree := ⟨fun _ => false, fun p => p = ⟨"d/x.rill"⟩⟩
  loader := some fun _ names =>
    (.ok ⟨⟨5⟩, [.mk (.expr (.mk (.ident ⟨3⟩) ⟨⟨5⟩, 1, 2⟩)) ⟨⟨5⟩, 1, 1⟩]⟩, names)
  root := ⟨0, 0⟩
  reserved := ⟨.empty, .empty, .empty⟩

/-- A root frame that stands for the directory, and the names in use. -/
def loadSession : Session Stock.types where
  heap :=
    let names :=
      ["x", "f", "y", "main.rill", "d/x.rill"].foldl (fun names s => (names.intern s).2) .new
    ((Heap.new names 100).alloc (.frame (.root (some ⟨"d"⟩)))).2
  nodesNamed := 0
  evalDepth := 0
  loading := []

/-- Mention `x`, at a place. -/
def mentionAt (line column : Nat) : Stmt :=
  .mk (.expr (.mk (.ident ⟨1⟩) ⟨⟨4⟩, line, column + 1⟩)) ⟨⟨4⟩, line, column⟩

/-- Declare a function `f` that mentions `x`, and call it. -/
def callProgram : Program where
  file := ⟨4⟩
  body := [.mk (.function ⟨2⟩ [] (mentionAt 2 1)) ⟨⟨4⟩, 1, 1⟩,
    .mk (.expr (.mk (.call (.mk (.ident ⟨2⟩) ⟨⟨4⟩, 3, 3⟩) []) ⟨⟨4⟩, 3, 2⟩)) ⟨⟨4⟩, 3, 1⟩]

/-- The error of the call is located in the script. Its only call site is the call, although the
script was being loaded too. -/
theorem failures_tell_calls_load :
    ∃ report t,
      runProgram loadEnvironment (runner loadEnvironment 9) ⟨⟨0, 0⟩, 0⟩ callProgram loadSession =
        .ok report t ∧
      report.failures = [⟨.undefinedVariable "y", some ⟨⟨5⟩, 1, 2⟩, [⟨⟨4⟩, 3, 2⟩],
        ["while loading d/x.rill"]⟩] ∧
      List.Forall₂ (Tells loadEnvironment 9 ⟨⟨0, 0⟩, 0⟩ Site.isCall)
        (failing loadEnvironment (runner loadEnvironment 9) ⟨⟨0, 0⟩, 0⟩ callProgram.body
          loadSession)
        report.failures := by
  have hreported : (runProgram loadEnvironment (runner loadEnvironment 9) ⟨⟨0, 0⟩, 0⟩ callProgram
      loadSession).read? RunReport.failures = some [⟨.undefinedVariable "y", some ⟨⟨5⟩, 1, 2⟩,
        [⟨⟨4⟩, 3, 2⟩], ["while loading d/x.rill"]⟩] := by decide +kernel
  obtain ⟨report, t, hrun, hfailures⟩ := Outcome.exists_of_read? hreported
  exact ⟨report, t, hrun, hfailures, failures_tell_calls hrun⟩

/-- The stack at which a traced evaluation ends. -/
def Ending.stack? {S α : Type} : Ending S α → Option (List Site)
  | .error _ stack _ => some stack
  | _ => none

/-- Mention `x` in the first line. -/
def mentionProgram : Program where
  file := ⟨4⟩
  body := [mentionAt 1 1]

lemma eq_of_mem_failing {self : Runner H} {st : Stmt} {start : Stmt × Session H}
    (hmem : start ∈ failing env self c [st] s) : start = (st, s) := by
  unfold failing at hmem
  split at hmem <;> simp_all [failing]

/-- Scripts that are being loaded are not among the call sites: the error of this program has none,
although the load of the script was entered where `x` is mentioned. -/
theorem not_failures_tell_loads :
    ¬ ∀ (env : Environment Stock.types) (fuel : Nat) (c : Cursor) (program : Program)
      (s t : Session Stock.types) (report : RunReport),
      runProgram env (runner env fuel) c program s = .ok report t →
        List.Forall₂ (Tells env fuel c fun site => site.isCall || site.isLoad)
          (failing env (runner env fuel) c program.body s) report.failures := by
  intro hall
  have hreported : (runProgram loadEnvironment (runner loadEnvironment 9) ⟨⟨0, 0⟩, 0⟩ mentionProgram
      loadSession).read? RunReport.failures = some [⟨.undefinedVariable "y", some ⟨⟨5⟩, 1, 2⟩, [],
        ["while loading d/x.rill"]⟩] := by decide +kernel
  obtain ⟨report, t, hrun, hfailures⟩ := Outcome.exists_of_read? hreported
  have htells := hall loadEnvironment 9 ⟨⟨0, 0⟩, 0⟩ mentionProgram loadSession t report hrun
  rw [hfailures] at htells
  obtain ⟨start, rest, ⟨raised, stack, u, hending, -, -, -, -, htold⟩, -, hstarts⟩ :=
    List.forall₂_cons_right_iff.mp htells
  obtain rfl : start = (mentionAt 1 1, loadSession) :=
    eq_of_mem_failing (hstarts.symm ▸ List.mem_cons_self)
  have hstack : ((tracer loadEnvironment 9).stmt ⟨⟨0, 0⟩, 0⟩ (mentionAt 1 1)
      [] loadSession).stack? =
      some [.node ⟨⟨5⟩, 1, 2⟩, .node ⟨⟨5⟩, 1, 1⟩, .load ⟨"d/x.rill"⟩, .node ⟨⟨4⟩, 1, 2⟩,
        .node ⟨⟨4⟩, 1, 1⟩] := by decide +kernel
  simp only [hending] at hstack
  cases hstack
  -- the load was entered in the first line, so there would be a call site there
  have hsites := (htold (by decide)).2
  simp [entriesOf, places, Site.isCall, Site.isLoad] at hsites

end Patchbay
