import Patchbay.Eval.Run
import Patchbay.Proofs.Lifting.Meanings

/-!
# Expressions over signals

The expressions that this part is about are made of literals, names, operators, indexing and
conversions. Each that is no literal and no name applies an operator to operands. Evaluating it is
evaluating the operands in order, and then calling the builtin.
-/

namespace Patchbay

variable {H : HostTypes}

/-- Literals, names with a value, and operators on such expressions: unary and binary ones but for
the two that may leave out an operand, indexing, and conversions. `cast` says which names
convert. -/
inductive Streamable (value : Name → Prop) (cast : Name → PrimType → Prop) : Expr → Prop where
  | literal (l loc) : Streamable value cast ⟨.literal l, loc⟩
  | ident {name} (loc) : value name → Streamable value cast ⟨.ident name, loc⟩
  | unary (op loc) {x} : Streamable value cast x → Streamable value cast ⟨.unary op x, loc⟩
  | binary {op x y} (loc) : op ≠ .and → op ≠ .or → Streamable value cast x →
      Streamable value cast y → Streamable value cast ⟨.binary op x y, loc⟩
  | index {x indices} (loc) : indices.length < UInt16.size → Streamable value cast x →
      (∀ i ∈ indices, Streamable value cast i) → Streamable value cast ⟨.index x indices, loc⟩
  | cast {name type x} (label loc loc') : cast name type → Streamable value cast x →
      Streamable value cast ⟨.call ⟨.ident name, loc⟩ [⟨label, x⟩], loc'⟩

/-- The expressions whose values an expression is computed from, in order. -/
def Expr.operands : Expr → List Expr
  | ⟨.unary _ x, _⟩ => [x]
  | ⟨.binary _ x y, _⟩ => [x, y]
  | ⟨.index x indices, _⟩ => x :: indices
  | ⟨.call _ args, _⟩ => args.map Argument.value
  | _ => []

/-- An expression that applies an operator to operands. -/
inductive Applies (cast : Name → PrimType → Prop) : Expr → LiftedOperator H → List Expr → Prop where
  | unary (op x loc) : Applies cast ⟨.unary op x, loc⟩ (.ofUnary op) [x]
  | binary {op} (x y loc) : op ≠ .and → op ≠ .or →
      Applies cast ⟨.binary op x y, loc⟩ (.ofBinary op) [x, y]
  | index (x indices loc) (hlimit) : Applies cast ⟨.index x indices, loc⟩
      (.ofIndex indices.length hlimit) (x :: indices)
  | cast {name type} (x loc loc') : cast name type →
      Applies cast ⟨.call ⟨.ident name, loc⟩ [⟨none, x⟩], loc'⟩ (.ofCast type) [x]

namespace Cursor

/-- One level deeper. -/
def deeper (c : Cursor) : Cursor := { c with depth := c.depth + 1 }

end Cursor

/-- A session at a depth. -/
def Session.atDepth (s : Session H) (depth : Nat) : Session H := { s with evalDepth := depth }

/-- The values that an evaluation comes by: its own, and those of operands, each evaluated in the
session that the operands before it leave. -/
inductive Yields (env : Environment H) : Nat → Cursor → Session H → Expr → Value → Prop where
  | result {fuel c s s' e v} : (runner env fuel).expr c e s = .ok v s' → Yields env fuel c s e v
  | operand {fuel c s s' e v before x after vs} : e.operands = before ++ x :: after →
      evalAll (runner env fuel) c.deeper before (s.atDepth (c.depth + 1)) = .ok vs s' →
      Yields env fuel c.deeper s' x v → Yields env (fuel + 1) c s e v

variable {H : HostTypes} {env : Environment H} {self : Runner H} {c : Cursor} {s s' t b : Session H}
  {e x : Expr} {xs : List Expr} {v w : Value} {fuel : Nat} {frame : ObjectId} {name : Name}
  {op : LiftedOperator H} {cast : Name → PrimType → Prop}

lemma Applies.operands (ha : Applies cast e op xs) : e.operands = xs := by
  cases ha <;> rfl

lemma Applies.length (ha : Applies cast e op xs) : xs.length = op.count := by
  cases ha <;> rfl

/-- Induction over streamable expressions: operators and conversions all apply to operands. -/
@[elab_as_elim]
lemma Streamable.induct {value : Name → Prop} {motive : Expr → Prop} (he : Streamable value cast e)
    (literal : ∀ l loc, motive ⟨.literal l, loc⟩)
    (ident : ∀ name loc, value name → motive ⟨.ident name, loc⟩)
    (applies : ∀ e (op : LiftedOperator H) xs, Applies cast e op xs →
      (∀ x ∈ xs, Streamable value cast x) → (∀ x ∈ xs, motive x) → motive e)
    (labelled : ∀ name type label x loc loc', cast name type → Streamable value cast x → motive x →
      motive ⟨.call ⟨.ident name, loc⟩ [⟨some label, x⟩], loc'⟩) : motive e := by
  induction he with
  | literal l loc => exact literal l loc
  | ident loc hname => exact ident _ loc hname
  | unary op loc hx ih =>
    refine applies _ _ _ (.unary op _ loc) ?_ ?_
    · exact List.forall_mem_singleton.mpr hx
    · exact List.forall_mem_singleton.mpr ih
  | binary loc hand hor hx hy ihx ihy =>
    refine applies _ _ _ (.binary _ _ loc hand hor) ?_ ?_
    · exact List.forall_mem_cons.mpr ⟨hx, List.forall_mem_singleton.mpr hy⟩
    · exact List.forall_mem_cons.mpr ⟨ihx, List.forall_mem_singleton.mpr ihy⟩
  | index loc hlimit hx hindices ihx ihs =>
    refine applies _ _ _ (.index _ _ loc hlimit) ?_ ?_
    · exact List.forall_mem_cons.mpr ⟨hx, hindices⟩
    · exact List.forall_mem_cons.mpr ⟨ihx, ihs⟩
  | cast label loc loc' hcast hx ih =>
    cases label with
    | none =>
      refine applies _ _ _ (.cast _ loc loc' hcast) ?_ ?_
      · exact List.forall_mem_singleton.mpr hx
      · exact List.forall_mem_singleton.mpr ih
    | some label => exact labelled _ _ label _ loc loc' hcast hx ih

/-! ## Evaluations that succeed -/

lemma Eval.mapError_eq_ok {α : Type} {m : Eval H α} {change : EvalError → EvalError} {a : α} :
    m.mapError change s = .ok a s' ↔ m s = .ok a s' := by
  unfold Eval.mapError
  cases m s <;> simp

lemma Eval.andAlso_eq_ok {α : Type} {m : Eval H α} {restore : Session H → Session H} {a : α} :
    m.andAlso restore s = .ok a s' ↔ ∃ s1, m s = .ok a s1 ∧ s' = restore s1 := by
  unfold Eval.andAlso
  cases m s with
  | ok a' s1 => simp [eq_comm]
  | error e s1 => simp
  | outOfFuel => simp

lemma Eval.nested_eq_ok {α : Type} {m : Cursor → Eval H α} {a : α} :
    Eval.nested env c m s = .ok a s' ↔ c.depth < env.config.maxDepth ∧
      ∃ s1, m c.deeper (s.atDepth (c.depth + 1)) = .ok a s1 ∧ s' = s1.atDepth c.depth := by
  unfold Eval.nested
  by_cases hlimit : env.config.maxDepth ≤ c.depth
  · rw [if_pos hlimit]
    refine ⟨(fun h => by cases h), fun h => absurd h.1 (Nat.not_lt.mpr hlimit)⟩
  · rw [if_neg hlimit, Eval.bind_of_ok (show Eval.modify _ s =
      .ok () (s.atDepth (c.depth + 1)) from rfl)]
    exact Eval.andAlso_eq_ok.trans (iff_and_self.mpr fun _ => Nat.lt_of_not_le hlimit)

/-- An expression is evaluated one level deeper by its rule. -/
lemma evalExpr_eq_ok :
    evalExpr env self c e s = .ok v s' ↔ c.depth < env.config.maxDepth ∧
      ∃ s1, evalKind env self c.deeper e.kind e.loc (s.atDepth (c.depth + 1)) = .ok v s1 ∧
        s' = s1.atDepth c.depth :=
  Eval.mapError_eq_ok.trans Eval.nested_eq_ok

lemma evalAll_nil_eq_ok {vs : List Value} : evalAll self c [] s = .ok vs s' ↔ vs = [] ∧ s' = s := by
  change Outcome.ok [] s = .ok vs s' ↔ _
  simp [eq_comm]

lemma evalAll_cons_eq_ok {vs : List Value} :
    evalAll self c (x :: xs) s = .ok vs s' ↔
      ∃ v s1 rest, self.expr c x s = .ok v s1 ∧ evalAll self c xs s1 = .ok rest s' ∧
      vs = v :: rest := by
  have hrun : evalAll self c (x :: xs) =
      (do let v ← self.expr c x; return v :: (← evalAll self c xs)) := rfl
  rw [hrun, Eval.bind_eq_ok]
  constructor
  · rintro ⟨v, s1, hx, hrest⟩
    obtain ⟨rest, s2, hall, hpure⟩ := Eval.bind_eq_ok.mp hrest
    cases hpure
    exact ⟨v, s1, rest, hx, hall, rfl⟩
  · rintro ⟨v, s1, rest, hx, hall, rfl⟩
    exact ⟨v, s1, hx, Eval.bind_of_ok hall⟩

lemma length_evalAll {vs : List Value} (hall : evalAll self c xs s = .ok vs s') :
    vs.length = xs.length := by
  induction xs generalizing s vs with
  | nil =>
    obtain ⟨rfl, -⟩ := evalAll_nil_eq_ok.mp hall
    rfl
  | cons x xs ih =>
    obtain ⟨v, s1, rest, -, hrest, rfl⟩ := evalAll_cons_eq_ok.mp hall
    rw [List.length_cons, List.length_cons, ih hrest]

lemma evalAll_single_eq_ok {vs : List Value} :
    evalAll self c [x] s = .ok vs s' ↔ ∃ v, self.expr c x s = .ok v s' ∧ vs = [v] := by
  rw [evalAll_cons_eq_ok]
  constructor
  · rintro ⟨v, s1, rest, hx, hall, rfl⟩
    obtain ⟨rfl, rfl⟩ := evalAll_nil_eq_ok.mp hall
    exact ⟨v, hx, rfl⟩
  · rintro ⟨v, hx, rfl⟩
    exact ⟨v, s', [], hx, rfl, rfl⟩

/-! ## Checking the values of a run -/

/-- Whether a check holds of every expression in a row, each in the session that the expressions
before it leave. -/
def holdsInRow (check : Session H → Expr → Bool) (self : Runner H) (c : Cursor) :
    Session H → List Expr → Bool
  | _, [] => true
  | s, x :: xs =>
    check s x &&
      match self.expr c x s with
      | .ok _ s' => holdsInRow check self c s' xs
      | _ => true

/-- Whether an evaluation comes by plain values only. -/
def yieldsPlain (env : Environment H) : Nat → Cursor → Session H → Expr → Bool
  | 0, _, _, _ => true
  | fuel + 1, c, s, e =>
    (match (runner env (fuel + 1)).expr c e s with
      | .ok v _ => !v.isOutput
      | _ => true) &&
      holdsInRow (yieldsPlain env fuel c.deeper) (runner env fuel) c.deeper
        (s.atDepth (c.depth + 1)) e.operands

lemma holdsInRow_append {check : Session H → Expr → Bool} {before after : List Expr}
    {vs : List Value} (hrow : holdsInRow check self c s (before ++ x :: after) = true)
    (hrun : evalAll self c before s = .ok vs s') : check s' x = true := by
  induction before generalizing s vs with
  | nil =>
    obtain ⟨-, rfl⟩ := evalAll_nil_eq_ok.mp hrun
    exact (Bool.and_eq_true_iff.mp hrow).1
  | cons y before ih =>
    obtain ⟨v, s1, rest, hy, hrest, -⟩ := evalAll_cons_eq_ok.mp hrun
    have htail := (Bool.and_eq_true_iff.mp hrow).2
    rw [hy] at htail
    exact ih htail hrest

lemma isOutput_of_yieldsPlain (hy : Yields env fuel c s e v)
    (hp : yieldsPlain env fuel c s e = true) : v.isOutput = false := by
  induction hy with
  | @result fuel c s s' e v hrun =>
    cases fuel with
    | zero => cases hrun
    | succ fuel =>
      have hself := (Bool.and_eq_true_iff.mp hp).1
      rw [hrun] at hself
      simpa using hself
  | operand heq hrun _ ih =>
    have hrow := (Bool.and_eq_true_iff.mp hp).2
    rw [heq] at hrow
    exact ih (holdsInRow_append hrow hrun)

/-! ## Calling builtins -/

lemma operandsOf_positional (vs : List Value) :
    (operandsOf (vs.map CallArg.positional) : Eval H (List Value)) s = .ok vs s := by
  induction vs with
  | nil => rfl
  | cons v rest ih =>
    rw [List.map_cons]
    unfold operandsOf
    exact Eval.bind_of_ok ih

lemma callValue_eq {id : ObjectId} {f : Callable H} {builtin : Builtin}
    (hf : s.heap.object? id = some (.callable f)) (hbody : f.body = .builtin builtin)
    {args : List CallArg} {vs : List Value} (hargs : operandsOf args s = .ok vs s)
    {loc : Location} :
    callValue env self c (.function id) args loc s = callBuiltin builtin vs self.stuck s := by
  have hcallable : Eval.readHeap (·.callable id) s = .ok f s :=
    Eval.readHeap_of_ok (Heap.callable_eq_ok.mpr hf)
  refine (Eval.bind_of_ok hcallable).trans ?_
  rw [hbody]
  exact Eval.bind_of_ok hargs

lemma callReserved_eq {builtin : Builtin} (hm : s.MeansBuiltin env c.frame name builtin)
    (vs : List Value) (loc : Location) :
    callReserved env self c name vs loc s = callBuiltin builtin vs self.stuck s := by
  obtain ⟨id, f, hname, hf, hbody⟩ := hm
  unfold callReserved
  rw [Eval.bind_of_ok (lookup_eq hname)]
  exact callValue_eq hf hbody (operandsOf_positional vs)

/-- The names that operators and indexing are looked up under, and those that convert, mean their
builtins. -/
structure Scope (env : Environment H) (b : Session H) (frame : ObjectId)
    (cast : Name → PrimType → Prop) : Prop where
  binaryOp : b.MeansBuiltin env frame env.reserved.binaryOp .binaryOp
  unaryOp : b.MeansBuiltin env frame env.reserved.unaryOp .unaryOp
  index : b.MeansBuiltin env frame env.reserved.index .index
  cast : ∀ name type, cast name type → b.MeansBuiltin env frame name (.cast type)

lemma shortCircuit_eq {op : BinaryOp} (hand : op ≠ .and) (hor : op ≠ .or) (left : Value) :
    shortCircuit op left = .ok none := by
  unfold shortCircuit
  cases op with
  | and => exact absurd rfl hand
  | or => exact absurd rfl hor
  | _ => rfl

lemma runner_expr_succ :
    (runner env (fuel + 1)).expr c e s = evalExpr env (runner env fuel) c e s := rfl

lemma Steady.atDepth (hs : Steady b s) (depth : Nat) : Steady b (s.atDepth depth) :=
  ⟨hs.keeps, hs.size, hs.loading⟩

lemma evalLiteral_eq_ok {w : Value} {l : Literal} {loc : Location} :
    (runner env (fuel + 1)).expr c ⟨.literal l, loc⟩ s = .ok w s' ↔
      c.depth < env.config.maxDepth ∧ w = l.value s.heap.names ∧ s' = s.atDepth c.depth := by
  rw [runner_expr_succ, evalExpr_eq_ok]
  refine and_congr_right fun _ => ⟨?_, ?_⟩
  · rintro ⟨s1, hok, rfl⟩
    cases hok
    exact ⟨rfl, rfl⟩
  · rintro ⟨rfl, rfl⟩
    exact ⟨_, rfl, rfl⟩

/-- A name evaluates to what it means, and leaves the session as it is but for the depth. -/
lemma evalIdent_eq_ok {w : Value} {loc : Location} (hs : Steady b s)
    (hm : b.Means env c.frame name v) :
    (runner env (fuel + 1)).expr c ⟨.ident name, loc⟩ s = .ok w s' ↔
      c.depth < env.config.maxDepth ∧ w = v ∧ s' = s.atDepth c.depth := by
  have hlookup : evalKind env (runner env fuel) c.deeper (.ident name) loc
      (s.atDepth (c.depth + 1)) =
      .ok v (s.atDepth (c.depth + 1)) := lookup_eq ((hs.atDepth _).means hm)
  rw [runner_expr_succ, evalExpr_eq_ok]
  refine and_congr_right fun _ => ?_
  change (∃ s1, evalKind env (runner env fuel) c.deeper (.ident name) loc
    (s.atDepth (c.depth + 1)) = .ok w s1 ∧ s' = s1.atDepth c.depth) ↔ _
  rw [hlookup]
  constructor
  · rintro ⟨s1, hok, rfl⟩
    cases hok
    exact ⟨rfl, rfl⟩
  · rintro ⟨rfl, rfl⟩
    exact ⟨_, rfl, rfl⟩

/-- A name can be evaluated as soon as some other expression can. -/
lemma evalCallee_eq_ok {w : Value} {loc : Location} (hs : Steady b s)
    (hm : b.Means env c.frame name v) (hdepth : s.evalDepth = c.depth) :
    (runner env fuel).expr c ⟨.ident name, loc⟩ s = .ok w s' ↔
      (∃ x u s1, (runner env fuel).expr c x s = .ok u s1) ∧ w = v ∧ s' = s := by
  have hsame : s.atDepth c.depth = s := by
    rw [Session.atDepth, ← hdepth]
  cases fuel with
  | zero => exact ⟨(fun h => by cases h), fun ⟨⟨_, _, _, h⟩, _⟩ => by cases h⟩
  | succ fuel =>
    rw [evalIdent_eq_ok hs hm, hsame]
    constructor
    · rintro ⟨hlt, hw, hs'⟩
      exact ⟨⟨⟨.ident name, loc⟩, _, _, (evalIdent_eq_ok hs hm).mpr ⟨hlt, rfl, rfl⟩⟩, hw, hs'⟩
    · rintro ⟨⟨x, u, s1, hx⟩, hw, hs'⟩
      exact ⟨(evalExpr_eq_ok.mp hx).1, hw, hs'⟩

lemma evalArgs_single_eq_ok {label : Option Name} {args : List CallArg} :
    evalArgs self c [⟨label, x⟩] s = .ok args s' ↔
      ∃ v, self.expr c x s = .ok v s' ∧ args = [⟨label, v⟩] := by
  refine Eval.bind_eq_ok.trans ⟨?_, ?_⟩
  · rintro ⟨v, s1, hx, hrest⟩
    cases hrest
    exact ⟨v, hx, rfl⟩
  · rintro ⟨v, hx, rfl⟩
    exact ⟨v, s', hx, rfl⟩

/-- A conversion takes no label. -/
lemma labelled_ne_ok {type : PrimType} {label : Name} {loc loc' : Location}
    (hm : b.MeansBuiltin env c.frame name (.cast type)) (hdepth : s.evalDepth = c.depth)
    (hs : Steady b s) (hsteady : ∀ u s1, (runner env fuel).expr c x s = .ok u s1 → Steady b s1) :
    evalKind env (runner env fuel) c (.call ⟨.ident name, loc⟩ [⟨some label, x⟩]) loc' s ≠
    .ok v s' := by
  intro hrun
  obtain ⟨id, f, hname, hf, hbody⟩ := hm
  obtain ⟨callee, s1, hcallee, hrest⟩ := Eval.bind_eq_ok.mp hrun
  obtain ⟨-, rfl, rfl⟩ := (evalCallee_eq_ok hs hname hdepth).mp hcallee
  obtain ⟨args, s2, hargs, hvalue⟩ := Eval.bind_eq_ok.mp hrest
  obtain ⟨u, hx, rfl⟩ := evalArgs_single_eq_ok.mp hargs
  obtain ⟨f', s3, hf', hcall⟩ := Eval.bind_eq_ok.mp hvalue
  obtain ⟨hf', rfl⟩ := Eval.readHeap_eq_ok.mp hf'
  rw [Heap.callable_eq_ok, (hsteady _ _ hx).keeps.object hf nofun] at hf'
  cases hf'
  rw [hbody] at hcall
  obtain ⟨vs, s4, hvs, -⟩ := Eval.bind_eq_ok.mp hcall
  cases hvs

/-! ## The rules of operators -/

section Rules

variable {loc : Location}

lemma evalUnary_eq_ok {op : UnaryOp} :
    evalKind env self c (.unary op x) loc s = .ok v s' ↔ ∃ vs s1, evalAll self c [x] s = .ok vs s1 ∧
      callReserved env self c env.reserved.unaryOp (.text op.symbol :: vs) loc s1 = .ok v s' := by
  refine Eval.bind_eq_ok.trans ⟨?_, ?_⟩
  · rintro ⟨u, s1, hx, hcall⟩
    exact ⟨[u], s1, evalAll_single_eq_ok.mpr ⟨u, hx, rfl⟩, hcall⟩
  · rintro ⟨vs, s1, hall, hcall⟩
    obtain ⟨u, hx, rfl⟩ := evalAll_single_eq_ok.mp hall
    exact ⟨u, s1, hx, hcall⟩

lemma evalBinary_eq_ok {op : BinaryOp} {y : Expr} (hand : op ≠ .and) (hor : op ≠ .or) :
    evalKind env self c (.binary op x y) loc s = .ok v s' ↔ ∃ vs s1, evalAll self c [x, y] s =
    .ok vs s1 ∧
      callReserved env self c env.reserved.binaryOp (.text op.symbol :: vs) loc s1 = .ok v s' := by
  -- neither operator may leave out its second operand
  have hnone : ∀ (u : Value) (s1 : Session H), Eval.ofExcept (shortCircuit op u) s1 = .ok none s1 :=
    fun u s1 => by
      rw [shortCircuit_eq hand hor]
      rfl
  refine Eval.bind_eq_ok.trans ⟨?_, ?_⟩
  · rintro ⟨u, s1, hx, hrest⟩
    obtain ⟨w, s2, hy, hcall⟩ :=
      Eval.bind_eq_ok.mp ((Eval.bind_of_ok (hnone u s1)).symm.trans hrest)
    have hall := evalAll_cons_eq_ok.mpr ⟨u, s1, [w], hx, evalAll_single_eq_ok.mpr ⟨w, hy, rfl⟩, rfl⟩
    exact ⟨[u, w], s2, hall, hcall⟩
  · rintro ⟨vs, s2, hall, hcall⟩
    obtain ⟨u, s1, rest, hx, hrest, rfl⟩ := evalAll_cons_eq_ok.mp hall
    obtain ⟨w, hy, rfl⟩ := evalAll_single_eq_ok.mp hrest
    exact ⟨u, s1, hx, (Eval.bind_of_ok (hnone u s1)).trans (Eval.bind_eq_ok.mpr ⟨w, s2, hy, hcall⟩)⟩

lemma evalIndex_eq_ok {indices : List Expr} :
    evalKind env self c (.index x indices) loc s = .ok v s' ↔
      ∃ vs s1, evalAll self c (x :: indices) s = .ok vs s1 ∧
        callReserved env self c env.reserved.index vs loc s1 = .ok v s' := by
  refine Eval.bind_eq_ok.trans ⟨?_, ?_⟩
  · rintro ⟨u, s1, hx, hrest⟩
    obtain ⟨us, s2, hall, hcall⟩ := Eval.bind_eq_ok.mp hrest
    exact ⟨u :: us, s2, evalAll_cons_eq_ok.mpr ⟨u, s1, us, hx, hall, rfl⟩, hcall⟩
  · rintro ⟨vs, s2, hall, hcall⟩
    obtain ⟨u, s1, us, hx, hus, rfl⟩ := evalAll_cons_eq_ok.mp hall
    exact ⟨u, s1, hx, Eval.bind_eq_ok.mpr ⟨us, s2, hus, hcall⟩⟩

/-- A conversion is called by its name, which is evaluated first and leaves the session as it is. -/
lemma evalCast_eq_ok {loc' : Location} (hs : Steady b s) (hm : b.Means env c.frame name w)
    (hdepth : s.evalDepth = c.depth) :
    evalKind env (runner env fuel) c (.call ⟨.ident name, loc⟩ [⟨none, x⟩]) loc' s = .ok v s' ↔
      ∃ vs s1, evalAll (runner env fuel) c [x] s = .ok vs s1 ∧
        callValue env (runner env fuel) c w (vs.map CallArg.positional) loc' s1 = .ok v s' := by
  refine Eval.bind_eq_ok.trans ⟨?_, ?_⟩
  · rintro ⟨callee, s1, hcallee, hrest⟩
    obtain ⟨-, rfl, rfl⟩ := (evalCallee_eq_ok hs hm hdepth).mp hcallee
    obtain ⟨args, s2, hargs, hcall⟩ := Eval.bind_eq_ok.mp hrest
    obtain ⟨u, hx, rfl⟩ := evalArgs_single_eq_ok.mp hargs
    exact ⟨[u], s2, evalAll_single_eq_ok.mpr ⟨u, hx, rfl⟩, hcall⟩
  · rintro ⟨vs, s2, hall, hcall⟩
    obtain ⟨u, hx, rfl⟩ := evalAll_single_eq_ok.mp hall
    refine ⟨w, s, (evalCallee_eq_ok hs hm hdepth).mpr ⟨⟨_, _, _, hx⟩, rfl, rfl⟩, ?_⟩
    exact Eval.bind_eq_ok.mpr ⟨[⟨none, u⟩], s2, evalArgs_single_eq_ok.mpr ⟨u, hx, rfl⟩, hcall⟩

end Rules

/-- Evaluating an expression that applies an operator. -/
lemma Applies.evalKind_eq_ok (ha : Applies cast e op xs) (hscope : Scope env b c.frame cast)
    (hdepth : s.evalDepth = c.depth) (hs : Steady b s)
    (hsteady : ∀ vs s1, evalAll (runner env fuel) c xs s = .ok vs s1 → Steady b s1) (v : Value)
    (s' : Session H) :
    evalKind env (runner env fuel) c e.kind e.loc s = .ok v s' ↔
      ∃ vs s1, evalAll (runner env fuel) c xs s = .ok vs s1 ∧
        callBuiltin op.builtin (op.fixed ++ vs) Eval.diverge s1 = .ok v s' := by
  -- what stands for the builtin still does so after the operands
  have hreserved : ∀ {name builtin} (fixed : List Value) (loc : Location),
      b.MeansBuiltin env c.frame name builtin →
      ((∃ vs s1, evalAll (runner env fuel) c xs s = .ok vs s1 ∧
          callReserved env (runner env fuel) c name (fixed ++ vs) loc s1 = .ok v s') ↔
        ∃ vs s1, evalAll (runner env fuel) c xs s = .ok vs s1 ∧
          callBuiltin builtin (fixed ++ vs) Eval.diverge s1 = .ok v s') := fun fixed loc hm =>
    exists₂_congr fun vs s1 => and_congr_right fun hall => by
      rw [callReserved_eq ((hsteady vs s1 hall).meansBuiltin hm)]
      rfl
  cases ha with
  | unary op x loc => exact evalUnary_eq_ok.trans (hreserved [.text op.symbol] loc hscope.unaryOp)
  | @binary op x y loc hand hor =>
    exact (evalBinary_eq_ok hand hor).trans (hreserved [.text op.symbol] loc hscope.binaryOp)
  | index x indices loc hlimit => exact evalIndex_eq_ok.trans (hreserved [] loc hscope.index)
  | @cast name type x loc loc' hcast =>
    obtain ⟨id, f, hname, hf, hbody⟩ := hscope.cast _ _ hcast
    refine (evalCast_eq_ok hs hname hdepth).trans
      (exists₂_congr fun vs s1 => and_congr_right fun hall => ?_)
    rw [callValue_eq ((hsteady vs s1 hall).keeps.object hf nofun) hbody (operandsOf_positional vs)]
    rfl

end Patchbay
