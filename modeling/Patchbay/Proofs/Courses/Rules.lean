import Patchbay.Proofs.Courses.Calls
import Patchbay.Proofs.Evaluation.Watching
import Patchbay.Proofs.Safety.Rules

/-!
# Every evaluation takes a course

Every rule for an expression or a statement takes a course if the recursive calls in it do. By
induction on the fuel, so does the evaluator.
-/

namespace Patchbay

variable {H : HostTypes} {K : Customs H} {R : Heap H × Ledger → Prop} {env : Environment H}
  {self : Runner H} {c : Cursor}
  {s : Session H} {l : Ledger} {v : Value}

/-! ## Expressions -/

lemma takes_member (hd : Decent K R env) (hself : CourseRunner K R env self)
    (hr : Informed K R env c s.heap l) {object : Value} (hobj : l.knows object) {name : Name} :
    Eval.Takes K env (member env self object name) s l fun v _ l' => l'.knows v := by
  unfold member
  split
  · exact takes_frameMember hd hself hr hobj
  · next id =>
    refine Eval.takes_nameText_bind fun key => Eval.takes_look fun v hv => ?_
    obtain ⟨n, hn, hv⟩ := bind_eq_ok.mp hv
    split at hv
    · next hport =>
      cases hv
      exact .inr ⟨id, key, n, hobj, Heap.node_eq_ok.mp hn, hport⟩
    · cases hv
  · exact Eval.takes_nameText_bind fun text => Eval.takes_fail

lemma takes_applyBinary (hd : Decent K R env) (hself : CourseRunner K R env self)
    (hr : Informed K R env c s.heap l) {op : BinaryOp} {left right : Value} (hleft : l.knows left)
    (hright : l.knows right) {loc : Location} :
    Eval.Takes K env (applyBinary env self c op left right loc) s l fun v _ l' => l'.knows v :=
  takes_callReserved hd hself hr (.cons (hr.covers.prim _)
    (.cons hleft (.cons hright knownAll_nil)))

lemma takes_applyUnary (hd : Decent K R env) (hself : CourseRunner K R env self)
    (hr : Informed K R env c s.heap l) {op : UnaryOp} {operand : Value} (hv : l.knows operand)
    {loc : Location} :
    Eval.Takes K env (applyUnary env self c op operand loc) s l fun v _ l' => l'.knows v :=
  takes_callReserved hd hself hr (.cons (hr.covers.prim _) (.cons hv knownAll_nil))

lemma takes_evalArgs (hd : Decent K R env) (hself : CourseRunner K R env self)
    (args : List Argument) {s : Session H} {l : Ledger} (hr : Informed K R env c s.heap l) :
    Eval.Takes K env (evalArgs self c args) s l fun vs _ l' => KnownArgs l' vs := by
  induction args generalizing s l with
  | nil => exact Eval.takes_pure fun a ha => by cases ha
  | cons a rest ih =>
    refine (hself.expr hr a.value).bind fun v s1 l1 h1 hv => ?_
    refine (ih (hr.later hd h1)).bind fun vs s2 l2 h2 hvs => Eval.takes_pure fun b hb => ?_
    rcases List.mem_cons.mp hb with rfl | hb
    · exact h2.knows hv
    · exact hvs b hb

lemma takes_evalAll (hd : Decent K R env) (hself : CourseRunner K R env self) (es : List Expr)
    {s : Session H} {l : Ledger} (hr : Informed K R env c s.heap l) :
    Eval.Takes K env (evalAll self c es) s l fun vs _ l' => KnownAll l' vs := by
  induction es generalizing s l with
  | nil => exact Eval.takes_pure knownAll_nil
  | cons e rest ih =>
    refine (hself.expr hr e).bind fun v s1 l1 h1 hv => ?_
    refine (ih (hr.later hd h1)).bind fun vs s2 l2 h2 hvs => ?_
    exact Eval.takes_pure (.cons (h2.knows hv) hvs)

lemma takes_evalKind (hd : Decent K R env) (hself : CourseRunner K R env self)
    (hr : Informed K R env c s.heap l) (kind : ExprKind) {loc : Location} :
    Eval.Takes K env (evalKind env self c kind loc) s l fun v _ l' => l'.knows v := by
  cases kind with
  | literal lit => exact ⟨l, .refl, hr.covers.knows_plain fun _ => Literal.valid_value⟩
  | array items =>
    refine (takes_evalAll hd hself items hr).bind fun values s1 l1 _ _ => ?_
    refine (Eval.takes_read fun _ _ => trivial).bind (Q := fun _ _ _ => True)
      fun grid s2 l2 _ _ => ?_
    refine Eval.takes_onHeap (HeapM.takes_allocValue (Customs.own_alloc
      (Customs.holds_data (fun v hv => ?_) nofun rfl rfl) (fun hk => by cases hk)))
    cases hv
  | sequence items =>
    refine (takes_evalAll hd hself items hr).bind fun values s1 l1 h1 hvalues => ?_
    refine Eval.takes_onHeap (HeapM.takes_allocValue (Customs.own_alloc
      (Customs.holds_data (fun v hv => ?_) nofun rfl rfl) (fun hk => by cases hk)))
    exact hvalues v (by simpa [HeapObject.values] using hv)
  | frame body =>
    refine (Eval.takes_onHeap (Heap.takes_childFrame hr hr.frame Frame.asThis
      fun _ => ⟨rfl, rfl⟩)).bind fun frame s1 l1 h1 hframe => ?_
    have hready : Informed K R env { c with frame := frame } s1.heap l1 :=
      (hr.later hd h1).enter hframe.1
    have hrun : Eval.Takes K env (Eval.withPinned frame (self.stmt { c with frame := frame } body))
        s1 l1 fun flow _ l' => flow.Known l' :=
      Eval.takes_withPinned hframe.2 fun s' hc => hself.stmt (hready.later hd hc) body
    exact hrun.discard.bind fun _ s2 l2 h2 _ => Eval.takes_pure (h2.knows hframe.1)
  | ident name => exact takes_lookup hd hself hr hr.frame
  | this =>
    have hframes : ∀ x ∈ s.heap.lineage c.frame, l.knows (.frame x) := fun x hx =>
      Heap.knows_lineage hr.covers hr.frame hx
    unfold evalKind
    refine Eval.Takes.barring (Eval.Takes.map ?_) (hself.stuck s l)
    exact Eval.takes_read fun _ hx => hframes _ (Heap.mem_of_nearestThis hx)
  | member object name =>
    refine (hself.expr hr object).bind fun v s1 l1 h1 hv => ?_
    exact takes_member hd hself (hr.later hd h1) hv
  | index object indices =>
    refine (hself.expr hr object).bind fun v s1 l1 h1 hv => ?_
    refine (takes_evalAll hd hself indices (hr.later hd h1)).bind fun vs s2 l2 h2 hvs => ?_
    exact takes_callReserved hd hself (hr.later hd (h1.trans h2)) (.cons (h2.knows hv) hvs)
  | call callee args =>
    refine (hself.expr hr callee).bind fun v s1 l1 h1 hv => ?_
    refine (takes_evalArgs hd hself args (hr.later hd h1)).bind fun vs s2 l2 h2 hvs => ?_
    exact takes_callValue hd hself (hr.later hd (h1.trans h2)) hvs
  | unary op operand =>
    refine (hself.expr hr operand).bind fun v s1 l1 h1 hv => ?_
    exact takes_applyUnary hd hself (hr.later hd h1) hv
  -- an operator that short-circuits answers with a truth value, which is always known
  | binary op left right =>
    refine (hself.expr hr left).bind fun v s1 l1 h1 hv => ?_
    refine (Eval.takes_ofExcept fun o ho => ho).bind (Q := fun o _ _ => shortCircuit op v = .ok o)
      fun o s2 l2 h2 ho => ?_
    have hr2 := hr.later hd (h1.trans h2)
    cases o with
    | some result =>
      exact Eval.takes_pure (hr2.covers.knows_plain fun h => valid_shortCircuit ho result rfl)
    | none =>
      refine (hself.expr hr2 right).bind fun w s3 l3 h3 hw => ?_
      exact takes_applyBinary hd hself (hr2.later hd h3) ((h2.trans h3).knows hv) hw
  | ternary cond thenExpr elseExpr =>
    refine (hself.expr hr cond).bind fun v s1 l1 h1 hv => ?_
    refine (Eval.takes_ofExcept fun _ _ => trivial).bind (Q := fun _ _ _ => True)
      fun b s2 l2 h2 _ => ?_
    split
    · exact hself.expr (hr.later hd (h1.trans h2)) thenExpr
    · exact hself.expr (hr.later hd (h1.trans h2)) elseExpr

lemma takes_evalExpr (hd : Decent K R env) (hself : CourseRunner K R env self)
    (hr : Informed K R env c s.heap l) (e : Expr) :
    Eval.Takes K env (evalExpr env self c e) s l fun v _ l' => l'.knows v := by
  refine Eval.Takes.mapError (Eval.takes_nested fun s' hs' => ?_)
  rw [← hs'] at hr
  have hdeeper : Informed K R env { c with depth := c.depth + 1 } s'.heap l := hr.enter hr.frame
  exact takes_evalKind hd hself hdeeper e.kind

/-! ## Statements -/

lemma takes_declareParams (hd : Decent K R env) (hself : CourseRunner K R env self)
    (params : List Param) {s : Session H} {l : Ledger} (hr : Informed K R env c s.heap l) :
    Eval.Takes K env (declareParams self c params) s l fun ps _ l' =>
      ∀ p ∈ ps, Resolve.Known l' p.default := by
  induction params generalizing s l with
  | nil => exact Eval.takes_pure fun p hp => by cases hp
  | cons p rest ih =>
    have hrest : ∀ o (s1 : Session H) l1, Course K env (s.heap, l) (s1.heap, l1) →
        Resolve.Known l1 o →
        Eval.Takes K env (do return ⟨p.name, o⟩ :: (← declareParams self c rest)) s1 l1
          fun ps _ l' => ∀ p ∈ ps, Resolve.Known l' p.default := by
      intro o s1 l1 h1 ho
      refine (ih (hr.later hd h1)).bind fun ps s2 l2 h2 hps => Eval.takes_pure fun q hq => ?_
      rcases List.mem_cons.mp hq with rfl | hq
      · exact fun w hw => h2.knows (ho w hw)
      · exact hps q hq
    unfold declareParams
    dsimp only
    split
    · exact (Resolve.takes_some (hself.expr hr _)).bind hrest
    · exact Eval.Takes.bind (Q := fun o _ l' => Resolve.Known l' o)
        (Eval.takes_pure Resolve.known_none) hrest

lemma takes_evalOptional (hself : CourseRunner K R env self) (hr : Informed K R env c s.heap l)
    (e : Option Expr) : Eval.Takes K env (evalOptional self c e) s l fun v _ l' => l'.knows v := by
  cases e with
  | some e => exact hself.expr hr e
  | none => exact Eval.takes_pure hr.covers.absent

lemma takes_assignMember (hc : K.Covers s.heap l) {object : Value} (hobj : l.knows object)
    {name : Name} (hv : l.knows v) :
    Eval.Takes K env (assignMember env object name v) s l fun _ _ _ => True := by
  unfold assignMember
  split
  · exact Eval.takes_onHeap (Heap.takes_bind hv)
  · next id =>
    refine Eval.takes_nameText_bind fun key => ?_
    refine Eval.Takes.bind (Q := fun _ h l' => h = s.heap ∧ l' = l)
      (Eval.takes_read fun _ _ => ⟨rfl, rfl⟩) fun n s1 l1 _ hsame => ?_
    obtain ⟨hheap, rfl⟩ := hsame
    split
    · exact takes_writePort (hheap ▸ hc.tidy) hobj hv
    · exact Eval.takes_fail
  · exact Eval.takes_nameText_bind fun text => Eval.takes_fail

lemma takes_assignedValue (hd : Decent K R env) (hself : CourseRunner K R env self)
    (hr : Informed K R env c s.heap l) {op : Option BinaryOp} {current : Eval H Value}
    (hcurrent : Eval.Takes K env current s l fun v _ l' => l'.knows v) (hv : l.knows v)
    {loc : Location} :
    Eval.Takes K env (assignedValue env self c op current v loc) s l fun v _ l' => l'.knows v := by
  cases op with
  | none => exact Eval.takes_pure hv
  | some op =>
    refine hcurrent.bind fun old s1 l1 h1 hold => ?_
    exact takes_applyBinary hd hself (hr.later hd h1) hold (h1.knows hv)

lemma Heap.takes_assignNearest (frames : List ObjectId) {h : Heap H} {l : Ledger} {name : Name}
    (hv : l.knows v) :
    HeapM.Takes K env (assignNearest name v frames) h l fun _ _ _ => True := by
  induction frames generalizing h l with
  | nil => exact HeapM.takes_pure trivial
  | cons frame rest ih =>
    refine HeapM.Takes.bind (Q := fun _ _ _ => True) (HeapM.takes_read fun _ _ => trivial)
      fun f h1 l1 hc1 _ => ?_
    split
    · have hassign : HeapM.Takes K env (discard (assign frame name v)) h1 l1 fun _ _ l' =>
          l' = l1 :=
        HeapM.takes_own (show K.Own env.root l1 (.assign frame name v) from hc1.knows hv) rfl
      exact hassign.bind fun _ h2 l2 _ _ => HeapM.takes_pure trivial
    · exact ih (hc1.knows hv)

lemma Heap.takes_setVariable {h : Heap H} {frame : ObjectId} {name : Name} (hv : l.knows v) :
    HeapM.Takes K env (setVariable frame name v) h l fun _ _ _ => True := by
  refine HeapM.Takes.bind (Q := fun _ _ _ => True) (HeapM.takes_read fun _ _ => trivial)
    fun frames h1 l1 hc1 _ => ?_
  refine (takes_assignNearest frames (hc1.knows hv)).bind fun found h2 l2 hc2 _ => ?_
  split
  · exact HeapM.takes_pure trivial
  · exact takes_define ((hc1.trans hc2).knows hv)

lemma takes_assignTo (hd : Decent K R env) (hself : CourseRunner K R env self)
    (hr : Informed K R env c s.heap l) (target : Target) {op : Option BinaryOp} {value : Expr}
    {loc : Location} :
    Eval.Takes K env (assignTo env self c target op value loc) s l fun _ _ _ => True := by
  cases target with
  | ident name =>
    refine (hself.expr hr value).bind fun v s1 l1 h1 hv => ?_
    have hr1 := hr.later hd h1
    refine (takes_assignedValue hd hself hr1 (takes_lookup hd hself hr1 hr1.frame) hv).bind
      fun w s2 l2 h2 hw => ?_
    exact Eval.Takes.barring (Eval.takes_onHeap (Heap.takes_setVariable hw)) (hself.stuck s2 l2)
  | member object name =>
    refine (hself.expr hr object).bind fun o s1 l1 h1 ho => ?_
    refine (hself.expr (hr.later hd h1) value).bind fun v s2 l2 h2 hv => ?_
    have hr2 := hr.later hd (h1.trans h2)
    have ho2 := h2.knows ho
    refine (takes_assignedValue hd hself hr2 (takes_member hd hself hr2 ho2) hv).bind
      fun w s3 l3 h3 hw => ?_
    exact takes_assignMember (hr2.later hd h3).covers (h3.knows ho2) hw
  -- a compound assignment reads the place first
  | index object indices =>
    refine (hself.expr hr object).bind fun o s1 l1 h1 ho => ?_
    refine (takes_evalAll hd hself indices (hr.later hd h1)).bind fun keys s2 l2 h2 _ => ?_
    refine (hself.expr (hr.later hd (h1.trans h2)) value).bind fun v s3 l3 h3 hv => ?_
    have hr3 := hr.later hd ((h1.trans h2).trans h3)
    have ho3 := (h2.trans h3).knows ho
    refine (takes_assignedValue hd hself hr3 (takes_readIndex hself hr3.covers ho3) hv).bind
      fun w s4 l4 h4 hw => ?_
    have hset : HeapM.Takes K env (Heap.setIndex o keys w) s4.heap l4 fun _ _ l' => l' = l4 :=
      HeapM.takes_own (show K.Own env.root l4 (.setIndex o keys w) from hw) rfl
    exact Eval.Takes.barring (Eval.takes_onHeap (hset.mono fun _ _ _ _ _ => trivial))
      (hself.stuck s4 l4)

lemma knownAll_iterationItems {h : Heap H} (hc : K.Covers h l) {items : List Value}
    (hr : iterationItems h v = .ok items) : KnownAll l items := by
  intro w hw
  rcases iterationItems_found hr hw with ⟨x, o, ho, hmem⟩ | ⟨p, rfl⟩
  · exact (hc.object x o ho).value w hmem
  · exact hc.prim p

lemma takes_forEach (hd : Decent K R env) (hself : CourseRunner K R env self) (var : Name)
    (body : Stmt)
    (items : List Value) {s : Session H} {l : Ledger} (hr : Informed K R env c s.heap l)
    (hv : KnownAll l items) :
    Eval.Takes K env (forEach self c var body items) s l fun flow _ l' => flow.Known l' := by
  induction items generalizing s l with
  | nil => exact Eval.takes_pure trivial
  | cons item rest ih =>
    refine (Eval.takes_onHeap (Heap.takes_childFrame hr hr.frame _ fun _ => ⟨rfl, rfl⟩)).bind
      fun frame s1 l1 h1 hframe => ?_
    have hready : Informed K R env { c with frame := frame } s1.heap l1 :=
      (hr.later hd h1).enter hframe.1
    refine (Eval.takes_withPinned (Q := fun (flow : Flow) l' => flow.Known l') hframe.2
      fun s' hc => ?_).bind
      fun flow s2 l2 h2 hflow => ?_
    · refine (Eval.takes_onHeap (Heap.takes_define (h1.knows (hv item List.mem_cons_self)))).bind
        fun _ s'' l'' hc' _ => ?_
      exact hself.stmt (hready.later hd (hc.trans hc')) body
    · cases flow with
      | ret w => exact Eval.takes_pure hflow
      | next =>
        have h := h1.trans h2
        exact ih (hr.later hd h) fun w hw => h.knows (hv w (List.mem_cons_of_mem _ hw))

lemma takes_loopRound (hd : Decent K R env) (hself : CourseRunner K R env self)
    (hr : Informed K R env c s.heap l) (b : LoopBody) :
    Eval.Takes K env (loopRound self c b) s l fun flow _ l' => flow.Known l' := by
  rw [loopRound_eq]
  have htest : Eval.Takes K env (roundTest self c b) s l fun _ _ _ => True := by
    unfold roundTest
    cases b.cond with
    | some cond =>
      exact (hself.expr hr cond).bind fun v s1 l1 h1 _ => Eval.takes_ofExcept fun _ _ => trivial
    | none => exact Eval.takes_pure trivial
  refine htest.bind fun holds s1 l1 h1 _ => ?_
  have hr1 := hr.later hd h1
  cases holds with
  | false => exact Eval.takes_pure trivial
  | true =>
    refine (hself.stmt hr1 b.body).bind fun flow s2 l2 h2 hflow => ?_
    have hr2 := hr1.later hd h2
    cases flow with
    | ret w => exact Eval.takes_pure hflow
    | next =>
      cases b.step with
      | some step =>
        exact (hself.stmt hr2 step).discard.bind fun _ s3 l3 h3 _ => hself.loop (hr2.later hd h3) _
      | none => exact hself.loop hr2 _

lemma takes_execKind (hd : Decent K R env) (hself : CourseRunner K R env self)
    (hr : Informed K R env c s.heap l) (kind : StmtKind) {loc : Location} :
    Eval.Takes K env (execKind env self c kind loc) s l fun flow _ l' => flow.Known l' := by
  cases kind with
  | block newFrame body =>
    unfold execKind
    dsimp only
    split
    · refine (Eval.takes_onHeap (Heap.takes_childFrame hr hr.frame _ fun _ => ⟨rfl, rfl⟩)).bind
        fun frame s1 l1 h1 hframe => ?_
      exact Eval.takes_withPinned hframe.2 fun s' hc =>
        hself.block hd body ((hr.later hd (h1.trans hc)).enter hframe.1)
    · exact hself.block hd body hr
  | function name params body =>
    refine (takes_declareParams hd hself params hr).bind fun ps s1 l1 h1 hps => ?_
    have hr1 := hr.later hd h1
    have hholds : K.Holds l1 (.callable (.script name ps c.frame body)) := by
      refine ⟨fun v hv => ?_, fun x hx => ?_, fun f hf => ?_, fun k hk => by cases hk⟩
      · obtain ⟨p, hp, hdef⟩ := List.mem_filterMap.mp hv
        exact hps p hp v hdef
      · cases hx
        exact hr1.frame
      · cases hf
        trivial
    refine (Eval.takes_onHeap (HeapM.takes_allocValue (Customs.own_alloc hholds
      (fun hk => by cases hk)))).bind fun f s2 l2 h2 hf => ?_
    exact (Eval.takes_onHeap (Heap.takes_define hf)).bind fun _ s3 l3 h3 _ =>
      Eval.takes_pure trivial
  | var name init =>
    refine (takes_evalOptional hself hr init).bind fun v s1 l1 h1 hv => ?_
    exact (Eval.takes_onHeap (Heap.takes_define hv)).bind fun _ s2 l2 h2 _ =>
      Eval.takes_pure trivial
  | assign target op value =>
    exact (takes_assignTo hd hself hr target).bind fun _ s1 l1 h1 _ => Eval.takes_pure trivial
  | branch cond thenBranch elseBranch =>
    refine (hself.expr hr cond).bind fun v s1 l1 h1 hv => ?_
    refine (Eval.takes_ofExcept fun _ _ => trivial).bind (Q := fun _ _ _ => True)
      fun b s2 l2 h2 _ => ?_
    have hr2 := hr.later hd (h1.trans h2)
    split
    · exact hself.stmt hr2 thenBranch
    · split
      · exact hself.stmt hr2 _
      · exact Eval.takes_pure trivial
  | loop init cond step body =>
    refine (Eval.takes_onHeap (Heap.takes_childFrame hr hr.frame _ fun _ => ⟨rfl, rfl⟩)).bind
      fun frame s1 l1 h1 hframe => ?_
    refine Eval.takes_withPinned hframe.2 fun s' hc => ?_
    have hready : Informed K R env { c with frame := frame } s'.heap l1 :=
      (hr.later hd (h1.trans hc)).enter hframe.1
    split
    · exact (hself.stmt hready _).discard.bind fun _ s2 l2 h2 _ => hself.loop (hready.later hd h2) _
    · exact Eval.Takes.bind (Q := fun _ _ _ => True) (Eval.takes_pure trivial)
        fun _ s2 l2 h2 _ => hself.loop (hready.later hd h2) _
  | each var items body =>
    refine (hself.expr hr items).bind fun v s1 l1 h1 hv => ?_
    have hr1 := hr.later hd h1
    refine (Eval.takes_read fun _ hitems => knownAll_iterationItems hr1.covers hitems).bind
      (Q := fun vs _ l' => KnownAll l' vs) fun vs s2 l2 h2 hvs => ?_
    exact takes_forEach hd hself var body vs (hr1.later hd h2) hvs
  | expr e => exact (hself.expr hr e).discard.bind fun _ s1 l1 h1 _ => Eval.takes_pure trivial
  | ret value => exact Eval.Takes.map (takes_evalOptional hself hr value)

lemma takes_execStmt (hd : Decent K R env) (hself : CourseRunner K R env self)
    (hr : Informed K R env c s.heap l) (st : Stmt) :
    Eval.Takes K env (execStmt env self c st) s l fun flow _ l' => flow.Known l' := by
  refine Eval.Takes.mapError (Eval.takes_nested fun s' hs' => ?_)
  rw [← hs'] at hr
  have hdeeper : Informed K R env { c with depth := c.depth + 1 } s'.heap l := hr.enter hr.frame
  exact takes_execKind hd hself hdeeper st.kind

/-! ## The evaluator -/

/-- Whether the values in the answer to a job are known. -/
def Job.Known (l : Ledger) : (j : Job) → j.Result → Prop
  | .expr _, v => l.knows v
  | .stmt _, flow => Flow.Known l flow
  | .loop _, flow => Flow.Known l flow

/-- An evaluation that is watched takes the same course, if its value is good. -/
lemma Eval.Takes.watched {m : Eval H Value} {good : Value → Session H → Prop}
    {Q : Value → Heap H → Ledger → Prop} {s : Session H} {l : Ledger} (hm : Takes K env m s l Q)
    (hgood : ∀ v t l', Course K env (s.heap, l) (t.heap, l') → Q v t.heap l' → good v t) :
    Takes K env (m.watched good) s l Q := by
  unfold Takes Eval.watched at *
  cases hr : m s with
  | ok v t =>
    rw [hr] at hm
    obtain ⟨l', hc, hQ⟩ := hm
    dsimp only
    rw [if_pos (hgood v t l' hc hQ)]
    exact ⟨l', hc, hQ⟩
  | error e t =>
    rw [hr] at hm
    exact hm
  | outOfFuel =>
    rw [hr] at hm
    exact hm

/-- With any fuel, every job takes a course, and watching what is known makes no difference to
it. -/
theorem takes_watchedJob (hd : Decent K R env) {spent : Spent H} {good : Value → Session H → Prop}
    (hspent : ∀ {α : Type} {s : Session H} {l : Ledger} {Q : α → Heap H → Ledger → Prop},
      Eval.Takes K env (spent : Eval H α) s l Q)
    (hgood : ∀ v t l, R (Session.heap t, l) → K.Covers t.heap l → l.knows v → good v t) (fuel : Nat)
    {c : Cursor} {s : Session H} {l : Ledger} (hr : Informed K R env c s.heap l) (j : Job) :
    Eval.Takes K env (watchedJob env spent good fuel c j) s l fun answer _ l' =>
      j.Known l' answer := by
  induction fuel generalizing c s l j with
  | zero => exact hspent
  | succ fuel ih =>
    have hself : CourseRunner K R env (.ofJobs spent (watchedJob env spent good fuel)) :=
      ⟨fun hr e => ih hr (.expr e), fun hr st => ih hr (.stmt st), fun hr b => ih hr (.loop b),
        fun _ _ => hspent⟩
    cases j with
    | expr e =>
      refine (takes_evalExpr hd hself hr e).watched fun v t l' hc hv => ?_
      have hlater := hr.later hd hc
      exact hgood v t l' hlater.reached hlater.covers hv
    | stmt st => exact takes_execStmt hd hself hr st
    | loop b => exact takes_loopRound hd hself hr b

lemma courseRunner_watched (hd : Decent K R env) {spent : Spent H} {good : Value → Session H → Prop}
    (hspent : ∀ {α : Type} {s : Session H} {l : Ledger} {Q : α → Heap H → Ledger → Prop},
      Eval.Takes K env (spent : Eval H α) s l Q)
    (hgood : ∀ v t l, R (Session.heap t, l) → K.Covers t.heap l → l.knows v → good v t)
    (fuel : Nat) : CourseRunner K R env (watchedRunner env spent good fuel) :=
  ⟨fun hr e => takes_watchedJob hd hspent hgood fuel hr (.expr e),
    fun hr st => takes_watchedJob hd hspent hgood fuel hr (.stmt st),
    fun hr b => takes_watchedJob hd hspent hgood fuel hr (.loop b), fun _ _ => hspent⟩

/-- The evaluator takes courses, if it may run out of fuel. -/
lemma courseRunner_runner (hd : Decent K R env) (hstalls : K.stalls) (fuel : Nat) :
    CourseRunner K R env (runner env fuel) := by
  rw [runner_eq_watched]
  exact courseRunner_watched hd (Eval.takes_diverge hstalls) (fun _ _ _ _ _ _ => trivial) fuel

end Patchbay
