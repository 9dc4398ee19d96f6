import Patchbay.Proofs.Lifting.Simulation
import Patchbay.Proofs.Safety.Programs

/-!
# Evaluating, then ticking

An expression over signals is evaluated, and the operator nodes that it made are ticked once each,
in the order in which they were made. The value on the result is the one that the expression has on
the values that the signals carry. If the one fails, so does the other.
-/

namespace Patchbay

variable {H : HostTypes} {T : Trust H} {env : Environment H} {value : Name → Prop}
  {cast : Name → PrimType → Prop} {fuel : Nat} {e : Expr}

/-- Evaluating an expression and then ticking every operator node that this made, in the order in
which they were made, puts `v` on the result: it is a plain value and `v` itself, or an output that
has sent `v`. -/
def TicksTo (env : Environment H) (fuel : Nat) (c : Cursor) (s : Session H) (e : Expr) (v : Value) :
    Prop :=
  ∃ u s' h, (runner env fuel).expr c e s = .ok u s' ∧
    Heap.tickAll env.host.toKernelHost (s.operators s') s'.heap = .ok () h ∧ h.carried u = .ok v

lemma Steady.refl (s : Session H) : Steady s s := ⟨.refl s.heap, Nat.le_refl _, rfl⟩

/-- An expression in a row of its own. -/
lemma plainRun_single {c : Cursor} {t : Session H}
    (hp : ∀ v, Yields env fuel c t e v → v.isOutput = false) : PlainRun env fuel c t [e] := by
  intro before x after vs t' v heq hrun hv
  cases before with
  | nil =>
    obtain ⟨rfl, rfl⟩ := evalAll_nil_eq_ok.mp hrun
    obtain ⟨rfl, -⟩ := List.cons.inj heq
    exact hp v hv
  | cons y before => simp at heq

/-- Signals compute what plain values compute: on plain values an expression has the value `v`
exactly if, with signals in their place, it has a result and the operators that it made can be
ticked in turn, and `v` is on the result then. The list `created`, which the operators are taken
from, has all new objects. -/
theorem ticks_to_iff_computes {s s₀ : Session H} (c c₀ : Cursor) (he : Streamable value cast e)
    (hsound : Heap.Sound T s.heap) (hkeeps : Heap.Keeps Heap.noNode s.heap s₀.heap)
    (hscope : Scope env s c.frame cast) (hscope₀ : Scope env s₀ c₀.frame cast)
    (hdepth : c.depth = c₀.depth)
    (hvalue : ∀ name, value name → Replaced env s c.frame s₀ c₀.frame name)
    (hplain : ∀ w, Yields env fuel c₀ s₀ e w → w.isOutput = false) :
    (∀ v, (∃ t, (runner env fuel).expr c₀ e s₀ = .ok v t) ↔ TicksTo env fuel c s e v) ∧
      ∀ u s', (runner env fuel).expr c e s = .ok u s' → ∀ x,
        x ∈ s.created s' ↔ s.heap.contains x = false ∧ s'.heap.contains x = true := by
  obtain ⟨frame, depth⟩ := c
  obtain ⟨frame₀, depth₀⟩ := c₀
  obtain rfl : depth = depth₀ := hdepth
  refine ⟨fun v => ?_, fun u s' hrun x => ?_⟩
  · cases he.simulates hscope hscope₀ hkeeps hsound hvalue fuel depth s s₀ hsound.tidy (.refl s)
      (.refl s₀) (plainRun_single hplain) with
    | ok hrun hrun₀ _ hc =>
      obtain ⟨u, hu, rfl⟩ := evalAll_single_eq_ok.mp hrun
      obtain ⟨w, hw, rfl⟩ := evalAll_single_eq_ok.mp hrun₀
      obtain ⟨h, hticks, hcarried⟩ := hc.ticked
      have hresult : h.carried u = .ok w := (List.forall₂_cons.mp hcarried).1
      -- evaluations and ticks have one result, so the value is the same in both directions
      constructor
      · rintro ⟨t, ht⟩
        cases hw.symm.trans ht
        exact ⟨u, _, h, hu, hticks, hresult⟩
      · rintro ⟨u', s', h', hu', hticks', hresult'⟩
        cases hu.symm.trans hu'
        cases hticks.symm.trans hticks'
        cases hresult.symm.trans hresult'
        exact ⟨_, hw⟩
    | failed hnone hfails =>
      constructor
      · rintro ⟨t, ht⟩
        exact absurd (evalAll_single_eq_ok.mpr ⟨v, ht, rfl⟩) (hnone [v] t)
      · rintro ⟨u, s', h, hu, hticks, -⟩
        exact absurd hticks ((hfails [u] s' (evalAll_single_eq_ok.mpr ⟨u, hu, rfl⟩)).ticked h)
  · have hg := he.onlyGrows hscope (fun name hname => by
      obtain ⟨u, w, hu, -⟩ := hvalue name hname
      exact ⟨u, hu⟩) fuel depth s u s' hsound.tidy (.refl s) hrun
    exact ⟨hg.contains_created, fun hx => hg.mem_created hx.1 hx.2⟩

/-- A session with a node that has sent five, the output of which is bound to `x` in the root
frame. -/
def withSignal (env : Environment Stock.types) (s : Session Stock.types) : Session Stock.types :=
  let five := s.making (.constant "five" (Stock.countValue 5))
  let bind := Heap.define env.root ⟨1⟩ (.output ⟨s.heap.nextId, 0⟩)
  { five with heap := bind.leaves five.heap }

/-- A session with one more frame, in which `x` is five. -/
def withFive (env : Environment Stock.types) (s : Session Stock.types) : Session Stock.types :=
  let frame := Frame.child env.root 0
  let bound := (frame.insert? ⟨1⟩ (Stock.countValue 5)).getD frame
  { s with heap := (s.heap.alloc (.frame bound)).2 }

lemma AtRest.sound_withSignal {env : Environment Stock.types} {s : Session Stock.types}
    (ha : AtRest Stock.trust env s) : Heap.Sound Stock.trust (withSignal env s).heap := by
  have hvalues : ∀ v ∈ (HeapObject.node
      (.constant "five" (Stock.countValue 5) : Node Stock.types)).values,
      v.ValidIn s.heap := by
    simp [HeapObject.values, Node.constant, Node.withParam, Node.new, Stock.countValue,
      Value.ValidIn]
  have hfive :=
    ha.sound.alloc (Heap.fits_node HeapObject.unwired_constant hvalues fun state hk => by cases hk)
  have hport : Value.ValidIn (s.making (.constant "five" (Stock.countValue 5))).heap
      (.output ⟨s.heap.nextId, 0⟩) :=
    Heap.hasPort_output.mpr ⟨_, Session.object?_making ha.sound.tidy, Nat.zero_lt_one⟩
  exact (HeapM.keeps_of_writes hfive (Heap.writes_define hport)).leaves.sound

/-- The stock host with nothing plugged in. -/
def signalSetup : Setup Stock.types where
  config := .default
  host := Stock.host
  plugins := .empty
  tree := .empty
  loader := none
  names := (Interner.new.intern "x").2

/-- The expression `-int64(x + 1)`. -/
def signalExpr : Expr :=
  let expr (kind : ExprKind) : Expr := ⟨kind, .builtin⟩
  let one := expr (.literal (.int .int32 (.wrap .int32 1)))
  let sum := expr (.binary .add (expr (.ident ⟨1⟩)) one)
  expr (.unary .neg (expr (.call (expr (.ident ⟨13⟩)) [⟨none, sum⟩])))

/-- Whether operators, indexing and `int64` are bound to their builtins in a frame. -/
def bindsBuiltins (env : Environment Stock.types) (s : Session Stock.types) (frame : ObjectId) :
    Bool :=
  s.builtin? env frame env.reserved.binaryOp = some .binaryOp &&
    s.builtin? env frame env.reserved.unaryOp = some .unaryOp &&
      s.builtin? env frame env.reserved.index = some .index &&
        s.builtin? env frame ⟨13⟩ = some (.cast (.int .int64))

lemma scope_of_bindsBuiltins {env : Environment Stock.types} {s : Session Stock.types}
    {frame : ObjectId} (hb : bindsBuiltins env s frame = true) :
    Scope env s frame fun name type => name = ⟨13⟩ ∧ type = .int .int64 := by
  simp only [bindsBuiltins, Bool.and_eq_true, decide_eq_true_eq] at hb
  obtain ⟨⟨⟨hbinary, hunary⟩, hindex⟩, hcast⟩ := hb
  refine ⟨.of_builtin hbinary, .of_builtin hunary, .of_builtin hindex, ?_⟩
  rintro name type ⟨rfl, rfl⟩
  exact .of_builtin hcast

/-- What there is to see of the sample: whether its assumptions hold, and the value on plain
values. -/
def signalFigures : Option (Bool × Bool × Bool × Bool × Option Value) :=
  match signalSetup.start with
  | .ok (env, s) =>
    let signals := withSignal env s
    let plain := withFive env signals
    let frame := signals.heap.nextId
    some (bindsBuiltins env signals env.root, bindsBuiltins env plain frame,
      decide (signals.bound? env env.root ⟨1⟩ = some (.output ⟨s.heap.nextId, 0⟩) ∧
        signals.heap.sentAt s.heap.nextId 0 = some (Stock.countValue 5) ∧
        plain.bound? env frame ⟨1⟩ = some (Stock.countValue 5)),
      yieldsPlain env 9 ⟨frame, 0⟩ plain signalExpr,
      match (runner env 9).expr ⟨frame, 0⟩ signalExpr plain with
      | .ok v _ => some v
      | _ => none)
  | .error _ => none

theorem ticks_to_iff_computes_sample :
    ∃ env s, signalSetup.start = .ok (env, s) ∧
      TicksTo env 9 env.top (withSignal env s) signalExpr (.int .int64 (.wrap .int64 (-6))) := by
  have hfigures : signalFigures = some (true, true, true, true,
      some (.int .int64 (.wrap .int64 (-6)))) := by
    decide +kernel
  have he : Streamable (· = ⟨1⟩) (fun name type => name = ⟨13⟩ ∧ type = .int .int64) signalExpr :=
    .unary _ _ (.cast _ _ _ ⟨rfl, rfl⟩ (.binary _ nofun nofun (.ident _ rfl) (.literal _ _)))
  cases hstart : signalSetup.start with
  | error e => simp [signalFigures, hstart] at hfigures
  | ok r =>
    obtain ⟨env, s⟩ := r
    simp only [signalFigures, hstart, Option.some.injEq, Prod.mk.injEq, decide_eq_true_eq]
      at hfigures
    obtain ⟨hscope, hscope₀, ⟨hx, hfive, hx₀⟩, hplain, hrun⟩ := hfigures
    have hrest : AtRest Stock.trust env s := Setup.atRest_start hstart
    have hsound := hrest.sound_withSignal
    have hvalue : ∀ name, name = ⟨1⟩ → Replaced env (withSignal env s) env.root
        (withFive env (withSignal env s)) (withSignal env s).heap.nextId name := by
      rintro name rfl
      exact ⟨_, _, means_of_boundAlong hx, Heap.outputValue_eq_ok.mpr hfive, rfl,
        means_of_boundAlong hx₀⟩
    have hagree := ticks_to_iff_computes env.top ⟨(withSignal env s).heap.nextId, 0⟩ he hsound
      (Heap.grows_alloc hsound.tidy).keeps (scope_of_bindsBuiltins hscope)
      (scope_of_bindsBuiltins hscope₀) rfl hvalue fun w hw => isOutput_of_yieldsPlain hw hplain
    refine ⟨env, s, rfl, (hagree.1 _).mp ?_⟩
    split at hrun
    · next v t hv =>
      cases hrun
      exact ⟨t, hv⟩
    · cases hrun

end Patchbay
