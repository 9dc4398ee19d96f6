import Patchbay.Proofs.Lifting.Agreement
import Patchbay.Proofs.Lifting.Expressions
import Patchbay.Proofs.Safety.Rules

/-!
# Signals compute what plain values compute

The run on plain values evaluates an expression in a scope where every name has the value that it
carries in the scope of the run with signals. Both evaluate the same operands one after the other.
As long as the run on plain values goes on, the results of the other run come to carry its values.
Once it fails, a node was made whose tick fails, whatever else the other run makes.
-/

namespace Patchbay

variable {H : HostTypes} {T : Trust H} {env : Environment H} {b b₀ : Session H}
  {frame frame₀ : ObjectId} {value : Name → Prop} {cast : Name → PrimType → Prop} {fuel : Nat}
  {e x : Expr} {xs : List Expr} {op : LiftedOperator H}

open Session (Grew)

/-! ## Only nodes are made -/

/-- Evaluating an expression makes nodes at most. -/
def OnlyGrows (env : Environment H) (b : Session H) (frame : ObjectId) (fuel : Nat) (e : Expr) :
    Prop :=
  ∀ depth s u s', s.heap.Tidy → Steady b s → (runner env fuel).expr ⟨frame, depth⟩ e s = .ok u s' →
    s.Grew s'

section OnlyGrows

variable {s s' s1 : Session H} {depth d : Nat} {v : Value}

/-- Depths do not matter. -/
lemma Session.Grew.atDepth (hg : s.Grew s1) : s.Grew (s1.atDepth d) :=
  ⟨hg.heap, hg.named, hg.loading⟩

lemma Session.Grew.of_atDepth (hg : (s.atDepth d).Grew s1) : s.Grew s1 :=
  ⟨hg.heap, hg.named, hg.loading⟩

lemma grew_evalAll (hxs : ∀ x ∈ xs, OnlyGrows env b frame fuel x) {us : List Value}
    (ht : s.heap.Tidy) (hs : Steady b s)
    (hrun : evalAll (runner env fuel) ⟨frame, depth⟩ xs s = .ok us s') : s.Grew s' := by
  induction xs generalizing s us with
  | nil =>
    obtain ⟨-, rfl⟩ := evalAll_nil_eq_ok.mp hrun
    exact .refl ht
  | cons x xs ih =>
    obtain ⟨u, s1, rest, hx, hrest, rfl⟩ := evalAll_cons_eq_ok.mp hrun
    have hg := hxs x List.mem_cons_self depth s u s1 ht hs hx
    exact hg.trans (ih (fun y hy => hxs y (List.mem_cons_of_mem _ hy)) hg.heap.tidy
      (hs.grew hg) hrest)

/-- Evaluating an application is evaluating its operands one level deeper, and calling the
builtin. -/
lemma Applies.expr_eq_ok (ha : Applies cast e op xs) (hscope : Scope env b frame cast)
    (hs : Steady b s)
    (hsteady : ∀ us s1, evalAll (runner env fuel) ⟨frame, depth + 1⟩ xs (s.atDepth (depth + 1)) =
      .ok us s1 → Steady b s1) (v : Value) (s' : Session H) :
    (runner env (fuel + 1)).expr ⟨frame, depth⟩ e s = .ok v s' ↔
      depth < env.config.maxDepth ∧ ∃ us s1 s2,
        evalAll (runner env fuel) ⟨frame, depth + 1⟩ xs (s.atDepth (depth + 1)) = .ok us s1 ∧
        callBuiltin op.builtin (op.fixed ++ us) Eval.diverge s1 = .ok v s2 ∧
        s' = s2.atDepth depth := by
  rw [runner_expr_succ, evalExpr_eq_ok]
  refine and_congr_right fun _ => ?_
  have hkind := ha.evalKind_eq_ok (c := ⟨frame, depth + 1⟩) hscope rfl (hs.atDepth (depth + 1))
    hsteady v
  constructor
  · rintro ⟨s2, hrun, rfl⟩
    obtain ⟨us, s1, hall, hcall⟩ := (hkind s2).mp hrun
    exact ⟨us, s1, s2, hall, hcall, rfl⟩
  · rintro ⟨us, s1, s2, hall, hcall, rfl⟩
    exact ⟨s2, (hkind s2).mpr ⟨us, s1, hall, hcall⟩, rfl⟩

/-- The same, once the operands have been evaluated. -/
lemma Applies.expr_of_operands (ha : Applies cast e op xs) (hscope : Scope env b frame cast)
    (hs : Steady b s) {us : List Value}
    (hall : evalAll (runner env fuel) ⟨frame, depth + 1⟩ xs (s.atDepth (depth + 1)) = .ok us s1)
    (hs1 : Steady b s1) :
    (runner env (fuel + 1)).expr ⟨frame, depth⟩ e s = .ok v s' ↔ depth < env.config.maxDepth ∧
      ∃ s2, callBuiltin op.builtin (op.fixed ++ us) Eval.diverge s1 = .ok v s2 ∧
      s' = s2.atDepth depth := by
  have hsteady : ∀ us' s1', evalAll (runner env fuel) ⟨frame, depth + 1⟩ xs
      (s.atDepth (depth + 1)) = .ok us' s1' → Steady b s1' := fun us' s1' hall' => by
    cases hall.symm.trans hall'
    exact hs1
  rw [ha.expr_eq_ok hscope hs hsteady]
  refine and_congr_right fun _ => ⟨?_, ?_⟩
  · rintro ⟨us', s1', s2, hall', hcall, rfl⟩
    cases hall.symm.trans hall'
    exact ⟨s2, hcall, rfl⟩
  · rintro ⟨s2, hcall, rfl⟩
    exact ⟨us, s1, s2, hall, hcall, rfl⟩

/-- What an application that has a result has done: its operands and its operator made nodes at
most. -/
lemma Applies.grew (ha : Applies cast e op xs) (hscope : Scope env b frame cast)
    (hxs : ∀ x ∈ xs, OnlyGrows env b frame fuel x) (ht : s.heap.Tidy) (hs : Steady b s)
    (hrun : (runner env (fuel + 1)).expr ⟨frame, depth⟩ e s = .ok v s') :
    ∃ us s1 s2, evalAll (runner env fuel) ⟨frame, depth + 1⟩ xs (s.atDepth (depth + 1)) =
    .ok us s1 ∧ (s.atDepth (depth + 1)).Grew s1 ∧ s1.Grew s2 ∧ s' = s2.atDepth depth := by
  have hs' := hs.atDepth (depth + 1)
  have ht' : (s.atDepth (depth + 1)).heap.Tidy := ht
  obtain ⟨-, us, s1, s2, hall, hcall, rfl⟩ := (ha.expr_eq_ok hscope hs (fun us s1 hall =>
    hs'.grew (grew_evalAll hxs ht' hs' hall)) v s').mp hrun
  have hg := grew_evalAll hxs ht' hs' hall
  have hlen : us.length = op.count := (length_evalAll hall).trans ha.length
  exact ⟨us, s1, s2, hall, hg, op.grew hlen hg.heap.tidy hcall, rfl⟩

lemma Applies.onlyGrows (ha : Applies cast e op xs) (hscope : Scope env b frame cast)
    (hxs : ∀ x ∈ xs, OnlyGrows env b frame fuel x) : OnlyGrows env b frame (fuel + 1) e := by
  intro depth s u s' ht hs hrun
  obtain ⟨us, s1, s2, -, hg, hg', rfl⟩ := ha.grew hscope hxs ht hs hrun
  exact (hg.trans hg').of_atDepth.atDepth

/-- Streamable expressions make nodes at most. -/
lemma Streamable.onlyGrows (he : Streamable value cast e) (hscope : Scope env b frame cast)
    (hvalue : ∀ name, value name → ∃ u, b.Means env frame name u) (fuel : Nat) :
    OnlyGrows env b frame fuel e := by
  revert fuel
  -- on the expression; each level of it spends one unit of fuel
  refine he.induct (H := H) ?literal ?ident ?applies ?labelled
  case literal =>
    intro l loc fuel depth s u s' ht hs hrun
    cases fuel with
    | zero => cases hrun
    | succ fuel =>
      obtain ⟨-, s1, hok, rfl⟩ := evalExpr_eq_ok.mp hrun
      cases hok
      exact (Grew.refl ht).atDepth.atDepth
  case ident =>
    intro name loc hname fuel depth s u s' ht hs hrun
    cases fuel with
    | zero => cases hrun
    | succ fuel =>
      obtain ⟨w, hw⟩ := hvalue name hname
      obtain ⟨-, -, rfl⟩ := (evalIdent_eq_ok hs hw).mp hrun
      exact (Grew.refl ht).atDepth
  case applies =>
    intro e op xs ha _ ih fuel
    cases fuel with
    | zero => exact fun _ _ _ _ _ _ hrun => by cases hrun
    | succ fuel => exact ha.onlyGrows hscope fun x hx => ih x hx fuel
  case labelled =>
    intro name type label x loc loc' hcast _ ih fuel depth s u s' ht hs hrun
    cases fuel with
    | zero => cases hrun
    | succ fuel =>
      have hs' := hs.atDepth (depth + 1)
      obtain ⟨-, s1, hkind, -⟩ := evalExpr_eq_ok.mp hrun
      exact absurd hkind (labelled_ne_ok (c := ⟨frame, depth + 1⟩)
        (hscope.cast name type hcast) rfl hs'
        fun u s2 hx => hs'.grew (ih fuel (depth + 1) _ u s2 ht hs' hx))

end OnlyGrows

/-! ## The two runs agree -/

/-- All values that the evaluation of expressions in a row comes by are plain. -/
def PlainRun (env : Environment H) (fuel : Nat) (c : Cursor) (t : Session H) (xs : List Expr) :
    Prop :=
  ∀ before x after vs t' v, xs = before ++ x :: after →
    evalAll (runner env fuel) c before t = .ok vs t' → Yields env fuel c t' x v → v.isOutput = false

/-- How a run with signals and one on plain values end. Either both have results, and those of the
first come to carry those of the second. Or the second fails, and if the first does not, ticking
what it made fails. -/
inductive Agree (host : KernelHost H) (b b₀ s t : Session H) (run run₀ : Eval H (List Value)) :
    Prop where
  | ok {us s' vs t'} : run s = .ok us s' → run₀ t = .ok vs t' → Steady b₀ t' →
      Carries host b s s' us vs → Agree host b b₀ s t run run₀
  | failed : (∀ vs t', run₀ t ≠ .ok vs t') → (∀ us s', run s = .ok us s' → Fails host b s s') →
      Agree host b b₀ s t run run₀

/-- The run with signals simulates the run on plain values when expressions are evaluated in a
row. -/
def Simulates (env : Environment H) (b b₀ : Session H) (frame frame₀ : ObjectId) (fuel : Nat)
    (xs : List Expr) : Prop :=
  ∀ depth s t, s.heap.Tidy → Steady b s → Steady b₀ t → PlainRun env fuel ⟨frame₀, depth⟩ t xs →
    Agree env.host.toKernelHost b b₀ s t (evalAll (runner env fuel) ⟨frame, depth⟩ xs)
      (evalAll (runner env fuel) ⟨frame₀, depth⟩ xs)

section Agree

variable {host : KernelHost H} {s s' t t' : Session H} {c c₀ : Cursor} {u v : Value} {depth : Nat}
  {name : Name}

lemma PlainRun.head (hp : PlainRun env fuel c t (x :: xs)) : PlainRun env fuel c t [x] := by
  intro before y after vs t' v heq hrun hv
  obtain ⟨rfl, rfl, rfl⟩ : before = [] ∧ y = x ∧ after = [] := by
    cases before with
    | nil =>
      cases heq
      exact ⟨rfl, rfl, rfl⟩
    | cons z before => cases before <;> cases heq
  exact hp [] y xs vs t' v rfl hrun hv

lemma PlainRun.tail (hp : PlainRun env fuel c t (x :: xs))
    (hx : (runner env fuel).expr c x t = .ok v t') : PlainRun env fuel c t' xs := by
  intro before y after vs t2 w heq hrun hw
  refine hp (x :: before) y after (v :: vs) t2 w (by rw [heq, List.cons_append]) ?_ hw
  exact evalAll_cons_eq_ok.mpr ⟨v, t', vs, hx, hrun, rfl⟩

lemma PlainRun.result (hp : PlainRun env fuel c t [e])
    (he : (runner env fuel).expr c e t = .ok v t') : v.isOutput = false :=
  hp [] e [] [] t v rfl rfl (.result he)

lemma PlainRun.operands (hp : PlainRun env (fuel + 1) c t [e]) (hxs : e.operands = xs) :
    PlainRun env fuel c.deeper (t.atDepth (c.depth + 1)) xs := by
  intro before x after vs t' v heq hrun hv
  exact hp [] e [] [] t v rfl rfl (.operand (hxs.trans heq) hrun hv)

lemma Agree.single_ok (he : (runner env fuel).expr c e s = .ok u s')
    (he₀ : (runner env fuel).expr c₀ e t = .ok v t') (ht : Steady b₀ t')
    (hc : Carries host b s s' [u] [v]) :
    Agree host b b₀ s t (evalAll (runner env fuel) c [e]) (evalAll (runner env fuel) c₀ [e]) :=
  .ok (evalAll_single_eq_ok.mpr ⟨u, he, rfl⟩) (evalAll_single_eq_ok.mpr ⟨v, he₀, rfl⟩) ht hc

lemma Agree.single_failed (he₀ : ∀ v t', (runner env fuel).expr c₀ e t ≠ .ok v t')
    (he : ∀ u s', (runner env fuel).expr c e s = .ok u s' → Fails host b s s') :
    Agree host b b₀ s t (evalAll (runner env fuel) c [e]) (evalAll (runner env fuel) c₀ [e]) := by
  refine .failed (fun vs t' hrun => ?_) fun us s' hrun => ?_
  · obtain ⟨v, hv, -⟩ := evalAll_single_eq_ok.mp hrun
    exact he₀ v t' hv
  · obtain ⟨u, hu, -⟩ := evalAll_single_eq_ok.mp hrun
    exact he u s' hu

/-- Expressions in a row are simulated if each is. -/
lemma simulates_all (hgrows : ∀ x ∈ xs, OnlyGrows env b frame fuel x)
    (hxs : ∀ x ∈ xs, Simulates env b b₀ frame frame₀ fuel [x]) :
    Simulates env b b₀ frame frame₀ fuel xs := by
  induction xs with
  | nil => exact fun depth s t ht hs ht₀ hp => .ok rfl rfl ht₀ (.nil s)
  | cons x xs ih =>
    intro depth s t ht hs ht₀ hp
    have hgrow := hgrows x List.mem_cons_self
    have hgrows' := fun y hy => hgrows y (List.mem_cons_of_mem x hy)
    have hb : ∀ y, b.heap.contains y = true → s.heap.contains y = true := fun _ => hs.keeps.contains
    cases hxs x List.mem_cons_self depth s t ht hs ht₀ hp.head with
    | ok hrun hrun₀ ht1 hc =>
      obtain ⟨u, hx, rfl⟩ := evalAll_single_eq_ok.mp hrun
      obtain ⟨v, hx₀, rfl⟩ := evalAll_single_eq_ok.mp hrun₀
      have hg := hgrow depth s u _ ht hs hx
      have hrest := ih hgrows' (fun y hy => hxs y (List.mem_cons_of_mem x hy)) depth _ _
        hg.heap.tidy (hs.grew hg) ht1 (hp.tail hx₀)
      cases hrest with
      | ok hrest hrest₀ ht2 hc' =>
        have hg' := grew_evalAll hgrows' hg.heap.tidy (hs.grew hg) hrest
        exact .ok (evalAll_cons_eq_ok.mpr ⟨u, _, _, hx, hrest, rfl⟩)
          (evalAll_cons_eq_ok.mpr ⟨v, _, _, hx₀, hrest₀, rfl⟩) ht2 (hc.append hb hg hg' hc')
      | failed hnone hfails =>
        -- the first one has its values in both runs, so it is the rest that fails
        refine .failed (fun vs t' hall => ?_) fun us s' hall => ?_
        · obtain ⟨v', t1, rest, hx₀', hrest, -⟩ := evalAll_cons_eq_ok.mp hall
          rw [hx₀] at hx₀'
          cases hx₀'
          exact hnone rest t' hrest
        · obtain ⟨u', s1, rest, hx', hrest, -⟩ := evalAll_cons_eq_ok.mp hall
          rw [hx] at hx'
          cases hx'
          exact hc.fails hb hg (grew_evalAll hgrows' hg.heap.tidy (hs.grew hg) hrest)
            (hfails rest s' hrest)
    | failed hnone hfails =>
      -- the nodes of the first one fail to tick, and still do when the rest has been evaluated
      refine .failed (fun vs t' hall => ?_) fun us s' hall => ?_
      · obtain ⟨v, t1, rest, hx₀, -⟩ := evalAll_cons_eq_ok.mp hall
        exact hnone [v] t1 (evalAll_single_eq_ok.mpr ⟨v, hx₀, rfl⟩)
      · obtain ⟨u, s1, rest, hx, hrest, -⟩ := evalAll_cons_eq_ok.mp hall
        have hg := hgrow depth s u s1 ht hs hx
        have hfail := hfails [u] s1 (evalAll_single_eq_ok.mpr ⟨u, hx, rfl⟩)
        exact hfail.later hb hg (grew_evalAll hgrows' hg.heap.tidy (hs.grew hg) hrest)

lemma Carries.atDepth {us vs : List Value} {d d' : Nat}
    (hc : Carries host b (s.atDepth d) s' us vs) : Carries host b s (s'.atDepth d') us vs :=
  ⟨hc.valid, hc.plain, hc.port, hc.ticks⟩

lemma Fails.atDepth {d d' : Nat} (hf : Fails host b (s.atDepth d) s') :
    Fails host b s (s'.atDepth d') :=
  hf

/-- On operands that agree, an application agrees: the operator computes on the plain ones what the
node that is made for the others sends. -/
lemma Applies.agree (ha : Applies cast e op xs) (hscope : Scope env b frame cast)
    (hscope₀ : Scope env b₀ frame₀ cast) (hk : Heap.Keeps Heap.noNode b.heap b₀.heap)
    (hsound : Heap.Sound T b.heap) (hs : Steady b s) (ht₀ : Steady b₀ t)
    (hplain : ∀ v t', (runner env (fuel + 1)).expr ⟨frame₀, depth⟩ e t = .ok v t' →
      v.isOutput = false)
    {us ws : List Value} {s1 t1 : Session H}
    (hrun : evalAll (runner env fuel) ⟨frame, depth + 1⟩ xs (s.atDepth (depth + 1)) = .ok us s1)
    (hg : (s.atDepth (depth + 1)).Grew s1)
    (hrun₀ : evalAll (runner env fuel) ⟨frame₀, depth + 1⟩ xs (t.atDepth (depth + 1)) = .ok ws t1)
    (ht1 : Steady b₀ t1)
    (hc : Carries env.host.toKernelHost b (s.atDepth (depth + 1)) s1 us ws) :
    Agree env.host.toKernelHost b b₀ s t (evalAll (runner env (fuel + 1)) ⟨frame, depth⟩ [e])
      (evalAll (runner env (fuel + 1)) ⟨frame₀, depth⟩ [e]) := by
  have hs' := hs.atDepth (depth + 1)
  have hlen : us.length = op.count := (length_evalAll hrun).trans ha.length
  have hlen₀ : ws.length = op.count := (length_evalAll hrun₀).trans ha.length
  -- one run makes a node for the operator, the other one computes
  have hgraph : ∀ u s3, (runner env (fuel + 1)).expr ⟨frame, depth⟩ e s = .ok u s3 ↔
      depth < env.config.maxDepth ∧
        ∃ s2, callBuiltin op.builtin (op.fixed ++ us) Eval.diverge s1 = .ok u s2 ∧
        s3 = s2.atDepth depth := fun _ _ =>
    ha.expr_of_operands hscope hs hrun (hs'.grew hg)
  have hcall₀ : ∀ {v t2}, callBuiltin op.builtin (op.fixed ++ ws) Eval.diverge t1 = .ok v t2 ↔
      op.apply b.heap ws = .ok v ∧ t2 = t1 :=
    LiftedOperator.callBuiltin_plain_eq_ok hlen₀ hc.plain hc.valid
      ((hk.trans ht1.keeps).mono fun _ _ hx => hx.elim id id)
  have heager : ∀ v t2, (runner env (fuel + 1)).expr ⟨frame₀, depth⟩ e t = .ok v t2 ↔
      depth < env.config.maxDepth ∧ op.apply b.heap ws = .ok v ∧ t2 = t1.atDepth depth :=
    fun v t2 => by
    rw [ha.expr_of_operands hscope₀ ht₀ hrun₀ ht1]
    simp only [hcall₀, and_assoc, exists_and_left, exists_eq_left]
  by_cases hdepth : depth < env.config.maxDepth
  · cases hv : op.apply b.heap ws with
    | ok v =>
      have he₀ := (heager v _).mpr ⟨hdepth, hv, rfl⟩
      obtain ⟨u, s2, hcall, hc'⟩ := hc.callBuiltin_ok hs' hg hsound hlen hv (hplain v _ he₀)
      have he := (hgraph u _).mpr ⟨hdepth, s2, hcall, rfl⟩
      exact .single_ok he he₀ (ht1.atDepth depth) hc'.atDepth
    | error err =>
      refine .single_failed (fun v t2 hrun' => ?_) fun u s3 hrun' => ?_
      · have happly := ((heager v t2).mp hrun').2.1
        rw [hv] at happly
        cases happly
      · obtain ⟨-, s2, hcall, rfl⟩ := (hgraph u s3).mp hrun'
        exact (hc.callBuiltin_error hs' hg hlen hv hcall).atDepth
  · -- neither run goes that deep
    refine .single_failed (fun v t2 hrun' => ?_) fun u s2 hrun' => ?_
    · exact absurd ((heager v t2).mp hrun').1 hdepth
    · exact absurd ((hgraph u s2).mp hrun').1 hdepth

/-- An application is simulated if its operands are. -/
lemma Applies.simulates (ha : Applies cast e op xs) (hscope : Scope env b frame cast)
    (hscope₀ : Scope env b₀ frame₀ cast) (hk : Heap.Keeps Heap.noNode b.heap b₀.heap)
    (hsound : Heap.Sound T b.heap) (hgrows : ∀ x ∈ xs, OnlyGrows env b frame fuel x)
    (hxs : ∀ x ∈ xs, Simulates env b b₀ frame frame₀ fuel [x]) :
    Simulates env b b₀ frame frame₀ (fuel + 1) [e] := by
  intro depth s t ht hs ht₀ hp
  have hs' := hs.atDepth (depth + 1)
  have ht' : (s.atDepth (depth + 1)).heap.Tidy := ht
  have hall := simulates_all hgrows hxs (depth + 1) _ _ ht' hs' (ht₀.atDepth (depth + 1))
    (hp.operands ha.operands)
  cases hall with
  | ok hrun hrun₀ ht1 hc =>
    exact ha.agree hscope hscope₀ hk hsound hs ht₀ (fun _ _ => hp.result) hrun
      (grew_evalAll hgrows ht' hs' hrun) hrun₀ ht1 hc
  | failed hnone hfails =>
    refine .single_failed (fun v t2 hrun => ?_) fun u s3 hrun => ?_
    · have heager := ha.expr_eq_ok hscope₀ ht₀ (fun ws t1 hrun₀ => absurd hrun₀ (hnone ws t1)) v t2
      obtain ⟨-, ws, t1, -, hrun₀, -⟩ := heager.mp hrun
      exact hnone ws t1 hrun₀
    · -- a node that an operand made fails, whatever was made after it
      obtain ⟨us, s1, s2, hrun', hg, hg', rfl⟩ := ha.grew hscope hgrows ht hs hrun
      exact ((hfails us s1 hrun').later (fun _ => hs'.keeps.contains) hg hg').atDepth

/-- A name has in `frame₀` of `s₀` the plain value that its value in `frame` of `s` carries. -/
def Replaced (env : Environment H) (s : Session H) (frame : ObjectId) (s₀ : Session H)
    (frame₀ : ObjectId) (name : Name) : Prop :=
  ∃ u w, s.Means env frame name u ∧ s.heap.carried u = .ok w ∧ w.isOutput = false ∧
    s₀.Means env frame₀ name w

lemma Literal.isOutput_value (l : Literal) (names : Interner) :
    (l.value names).isOutput = false := by
  cases l <;> rfl

/-- What a name means carries its value, whatever other nodes have sent since. -/
lemma carries_name (hs : Steady b s) (hsound : Heap.Sound T b.heap) (hm : b.Means env frame name u)
    (hc : b.heap.carried u = .ok v) (hv : v.isOutput = false) : Carries host b s s [u] [v] := by
  cases hout : u.isOutput with
  | false =>
    rw [Heap.carried_plain hout] at hc
    cases hc
    exact .plain_value hv (Means.valid hm hsound) s
  | true =>
    obtain ⟨p, rfl⟩ := Value.isOutput_iff.mp hout
    have hsent := Heap.contains_of_sentAt (Heap.outputValue_eq_ok.mp hc)
    refine ⟨fun w hw => ?_, fun w hw => ?_, fun q hq => ?_, ?_⟩
    · rw [List.mem_singleton.mp hw]
      exact Heap.valid_outputValue hsound hc
    · rw [List.mem_singleton.mp hw, hv]
    · cases List.mem_singleton.mp hq
      exact ⟨hs.keeps.hasOutput (Heap.hasOutput_of_outputValue hc), .inl hsent⟩
    · refine Ticks.refl fun moved h hk hm _ => .cons ?_ .nil
      exact (hs.keeps.trans hk).outputValue (not_or.mpr ⟨id, hm p.node hsent⟩) hc

lemma simulates_zero : Simulates env b b₀ frame frame₀ 0 [e] :=
  fun _ _ _ _ _ _ _ => .single_failed (fun _ _ hrun => by cases hrun) fun _ _ hrun => by cases hrun

lemma simulates_literal (hk : Heap.Keeps Heap.noNode b.heap b₀.heap) (l : Literal)
    (loc : Location) : Simulates env b b₀ frame frame₀ (fuel + 1) [⟨.literal l, loc⟩] := by
  intro depth s t ht hs ht₀ hp
  by_cases hdepth : depth < env.config.maxDepth
  · have hnames : t.heap.names = s.heap.names :=
      ht₀.keeps.names.trans (hk.names.trans hs.keeps.names.symm)
    refine .single_ok (evalLiteral_eq_ok.mpr ⟨hdepth, rfl, rfl⟩)
      (evalLiteral_eq_ok.mpr ⟨hdepth, rfl, rfl⟩) (ht₀.atDepth _) ?_
    rw [hnames]
    exact Carries.atDepth (d := s.evalDepth)
      (.plain_value (Literal.isOutput_value l _) Literal.valid_value s)
  · exact .single_failed (fun v t' hrun => absurd (evalLiteral_eq_ok.mp hrun).1 hdepth)
      fun u s' hrun =>
      absurd (evalLiteral_eq_ok.mp hrun).1 hdepth

lemma simulates_ident (hsound : Heap.Sound T b.heap) (hname : Replaced env b frame b₀ frame₀ name)
    (loc : Location) : Simulates env b b₀ frame frame₀ (fuel + 1) [⟨.ident name, loc⟩] := by
  obtain ⟨u, w, hu, hcarried, hplain, hw⟩ := hname
  intro depth s t ht hs ht₀ hp
  by_cases hdepth : depth < env.config.maxDepth
  · refine .single_ok ((evalIdent_eq_ok hs hu).mpr ⟨hdepth, rfl, rfl⟩)
      ((evalIdent_eq_ok ht₀ hw).mpr ⟨hdepth, rfl, rfl⟩) (ht₀.atDepth _) ?_
    exact Carries.atDepth (d := s.evalDepth) (carries_name hs hsound hu hcarried hplain)
  · exact .single_failed (fun v t' hrun => absurd ((evalIdent_eq_ok ht₀ hw).mp hrun).1 hdepth)
      fun u s' hrun => absurd ((evalIdent_eq_ok hs hu).mp hrun).1 hdepth

/-- No run succeeds with a labelled conversion. -/
lemma simulates_labelled {type : PrimType} {label : Name} {loc loc' : Location}
    (hscope : b.MeansBuiltin env frame name (.cast type))
    (hscope₀ : b₀.MeansBuiltin env frame₀ name (.cast type)) (hgrows : OnlyGrows env b frame fuel x)
    (hx : Simulates env b b₀ frame frame₀ fuel [x]) :
    Simulates env b b₀ frame frame₀ (fuel + 1)
      [⟨.call ⟨.ident name, loc⟩ [⟨some label, x⟩], loc'⟩] := by
  intro depth s t ht hs ht₀ hp
  have hs' := hs.atDepth (depth + 1)
  have ht₀' := ht₀.atDepth (depth + 1)
  have hagree := hx (depth + 1) _ _ (show (s.atDepth (depth + 1)).heap.Tidy from ht) hs' ht₀'
    (hp.operands rfl)
  refine .single_failed (fun v t' hrun => ?_) fun u s' hrun => ?_
  · obtain ⟨-, t1, hkind, -⟩ := evalExpr_eq_ok.mp hrun
    refine labelled_ne_ok (c := ⟨frame₀, depth + 1⟩) hscope₀ rfl ht₀' (fun w t2 hw => ?_) hkind
    have hall := evalAll_single_eq_ok.mpr ⟨w, hw, rfl⟩
    cases hagree with
    | ok _ hrun₀ ht2 _ =>
      cases hrun₀.symm.trans hall
      exact ht2
    | failed hnone _ => exact absurd hall (hnone [w] t2)
  · obtain ⟨-, s1, hkind, -⟩ := evalExpr_eq_ok.mp hrun
    exact absurd hkind (labelled_ne_ok (c := ⟨frame, depth + 1⟩) hscope rfl hs' fun w s2 hw =>
      hs'.grew (hgrows (depth + 1) _ w s2 ht hs' hw))

/-- Every streamable expression is simulated. -/
lemma Streamable.simulates (he : Streamable value cast e) (hscope : Scope env b frame cast)
    (hscope₀ : Scope env b₀ frame₀ cast) (hk : Heap.Keeps Heap.noNode b.heap b₀.heap)
    (hsound : Heap.Sound T b.heap)
    (hvalue : ∀ name, value name → Replaced env b frame b₀ frame₀ name)
    (fuel : Nat) : Simulates env b b₀ frame frame₀ fuel [e] := by
  have hgrows : ∀ {x}, Streamable value cast x → ∀ fuel, OnlyGrows env b frame fuel x :=
    fun hx => hx.onlyGrows hscope fun name hname => by
      obtain ⟨u, w, hu, -⟩ := hvalue name hname
      exact ⟨u, hu⟩
  revert fuel
  refine he.induct (H := H) ?literal ?ident ?applies ?labelled
  case literal =>
    intro l loc fuel
    cases fuel with
    | zero => exact simulates_zero
    | succ fuel => exact simulates_literal hk l loc
  case ident =>
    intro name loc hname fuel
    cases fuel with
    | zero => exact simulates_zero
    | succ fuel => exact simulates_ident hsound (hvalue name hname) loc
  case applies =>
    intro e op xs ha hxs ih fuel
    cases fuel with
    | zero => exact simulates_zero
    | succ fuel =>
      exact ha.simulates hscope hscope₀ hk hsound (fun x hx => hgrows (hxs x hx) fuel) fun x hx =>
        ih x hx fuel
  case labelled =>
    intro name type label x loc loc' hcast hx ih fuel
    cases fuel with
    | zero => exact simulates_zero
    | succ fuel =>
      exact simulates_labelled (hscope.cast name type hcast) (hscope₀.cast name type hcast)
        (hgrows hx fuel) (ih fuel)

end Agree

end Patchbay
