import Patchbay.Eval.Run
import Patchbay.Proofs.Safety.Calls

/-!
# The rules are safe

Every rule for an expression or a statement is safe if the recursive calls in it are. By induction
on the fuel, so is the evaluator.
-/

namespace Patchbay

variable {H : HostTypes} {T : Trust H} {env : Environment H} {self : Runner H} {c : Cursor}
  {s : Session H} {v : Value}

open Heap (Later Sound)

/-! ## Expressions -/

lemma Literal.valid_value {h : Heap H} {l : Literal} {names : Interner} :
    (l.value names).ValidIn h := by
  cases l <;> trivial

lemma plain_stackRows {h : Heap H} {rows : List Value} {shape : Option (List Nat)} :
    PlainIf (ValidAll h rows) (stackRows h shape rows) := by
  induction rows generalizing shape with
  | nil => exact .pure
  | cons row rest ih =>
    unfold stackRows
    split
    · exact .pure
    · next heq =>
      cases heq
      refine (Heap.plain_grid.imp fun hv => Heap.contains_of_validIn (hv _ List.mem_cons_self)
        rfl).bind fun g _ => ?_
      dsimp only
      split
      · exact PlainIf.fail rfl
      · exact (ih.imp fun hv w hw => hv w (List.mem_cons_of_mem _ hw)).bind fun _ _ => .pure
    · exact PlainIf.fail rfl

lemma plain_literalGrid {h : Heap H} {values : List Value} :
    PlainIf (ValidAll h values) (literalGrid h values) := by
  unfold literalGrid
  split
  · exact PlainIf.of_plain Grid.plain_ofValues
  · exact plain_stackRows.bind fun _ _ => PlainIf.of_plain Grid.plain_ofValues

lemma safe_member (hc : Contract T env.host env.plugins env.loader) (hself : SafeRunner T env self)
    (hr : Ready T env c s.heap) {object : Value} (hobj : object.ValidIn s.heap) {name : Name} :
    Eval.Safe T (member env self object name) s fun v h => v.ValidIn h := by
  unfold member
  split
  · exact safe_frameMember hc hself hr hobj
  · next id =>
    have hlive : s.heap.contains id = true := Heap.contains_of_validIn hobj rfl
    refine Eval.safe_nameText_bind fun key => Eval.safe_read hr.sound ?_ fun v hv => ?_
    · refine (Heap.plain_node.quiet hlive).bind fun n _ => ?_
      split
      · exact .pure
      · exact .fail rfl
    · obtain ⟨n, hn, hv⟩ := bind_eq_ok.mp hv
      split at hv
      · next hport =>
        cases hv
        exact Heap.valid_portValue (Heap.node_eq_ok.mp hn) hport
      · cases hv
  · exact Eval.safe_nameText_bind fun text => Eval.safe_fail hr.sound rfl

lemma safe_applyBinary (hc : Contract T env.host env.plugins env.loader)
    (hself : SafeRunner T env self) (hr : Ready T env c s.heap) {op : BinaryOp} {left right : Value}
    (hleft : left.ValidIn s.heap) (hright : right.ValidIn s.heap) {loc : Location} :
    Eval.Safe T (applyBinary env self c op left right loc) s fun v h => v.ValidIn h :=
  safe_callReserved hc hself hr (.cons Value.valid_prim (.cons hleft (.cons hright validAll_nil)))

lemma safe_applyUnary (hc : Contract T env.host env.plugins env.loader)
    (hself : SafeRunner T env self) (hr : Ready T env c s.heap) {op : UnaryOp} {operand : Value}
    (hv : operand.ValidIn s.heap) {loc : Location} :
    Eval.Safe T (applyUnary env self c op operand loc) s fun v h => v.ValidIn h :=
  safe_callReserved hc hself hr (.cons Value.valid_prim (.cons hv validAll_nil))

lemma plain_shortCircuit {op : BinaryOp} : Plain (shortCircuit op v) := by
  unfold shortCircuit
  dsimp only
  split
  · exact .pure
  · refine Value.plain_truthy.bind fun b _ => ?_
    split <;> exact .pure
  · exact .pure

/-- An operand that decides a logical operator decides it as a truth value. -/
lemma valid_shortCircuit {h : Heap H} {op : BinaryOp} {o : Option Value}
    (hr : shortCircuit op v = .ok o) : Resolve.Found o h := by
  unfold shortCircuit at hr
  dsimp only at hr
  split at hr
  · cases hr
    exact Resolve.found_none
  · obtain ⟨b, -, hr⟩ := bind_eq_ok.mp hr
    split at hr
    · cases hr
      exact Resolve.found_some Value.valid_prim
    · cases hr
      exact Resolve.found_none
  · cases hr
    exact Resolve.found_none

lemma safe_evalArgs (hself : SafeRunner T env self) (args : List Argument) {s : Session H}
    (hr : Ready T env c s.heap) :
    Eval.Safe T (evalArgs self c args) s fun vs h => ValidArgs h vs := by
  induction args generalizing s with
  | nil => exact Eval.safe_pure hr.sound fun a ha => by cases ha
  | cons a rest ih =>
    refine (hself.expr hr a.value).bind fun v s1 h1 hv => ?_
    refine (ih (hr.later h1)).bind fun vs s2 h2 hvs => Eval.safe_pure h2.sound fun b hb => ?_
    rcases List.mem_cons.mp hb with rfl | hb
    · exact h2.grown.valid hv
    · exact hvs b hb

lemma safe_evalAll (hself : SafeRunner T env self) (es : List Expr) {s : Session H}
    (hr : Ready T env c s.heap) : Eval.Safe T (evalAll self c es) s fun vs h => ValidAll h vs := by
  induction es generalizing s with
  | nil => exact Eval.safe_pure hr.sound validAll_nil
  | cons e rest ih =>
    refine (hself.expr hr e).bind fun v s1 h1 hv => ?_
    refine (ih (hr.later h1)).bind fun vs s2 h2 hvs => ?_
    exact Eval.safe_pure h2.sound (.cons (h2.grown.valid hv) hvs)

lemma safe_evalKind (hc : Contract T env.host env.plugins env.loader)
    (hself : SafeRunner T env self) (hr : Ready T env c s.heap) (kind : ExprKind) {loc : Location} :
    Eval.Safe T (evalKind env self c kind loc) s fun v h => v.ValidIn h := by
  cases kind with
  | literal l => exact ⟨hr.sound.later, Literal.valid_value⟩
  | array items =>
    refine (safe_evalAll hself items hr).bind fun values s1 h1 hvalues => ?_
    refine (Eval.safe_read h1.sound (plain_literalGrid.quiet hvalues) fun _ _ => trivial).bind
      (Q := fun _ _ => True) fun grid s2 h2 _ => ?_
    exact Eval.safe_onHeap (HeapM.safe_allocValue h2.sound Heap.fits_grid)
  | sequence items =>
    refine (safe_evalAll hself items hr).bind fun values s1 h1 hvalues => ?_
    refine Eval.safe_onHeap (HeapM.safe_allocValue h1.sound (Heap.fits_sequence fun v hv => ?_))
    exact hvalues v (by simpa using hv)
  | frame body =>
    refine (Eval.safe_onHeap (Heap.safe_childFrame hr.sound hr.frame Frame.asThis
      fun _ => ⟨rfl, rfl⟩)).bind fun frame s1 h1 hframe => ?_
    have hready : Ready T env { c with frame := frame } s1.heap := (hr.later h1).enter hframe.1
    have hrun := Eval.safe_withPinned h1.sound hframe.1 hframe.2 fun s' hl =>
      hself.stmt (hready.later hl) body
    exact hrun.discard.bind fun _ s2 h2 _ =>
      Eval.safe_pure h2.sound (h2.grown.hasKind hframe.1)
  | ident name => exact safe_lookup hc hself hr hr.frame
  | this =>
    have hframes : ∀ x ∈ s.heap.lineage c.frame, s.heap.HasKind .frame x := fun x hx =>
      Heap.mem_lineage hr.sound hr.frame hx
    unfold evalKind
    refine Eval.Safe.barring (Eval.Safe.map ?_) (hself.stuck s)
    exact Eval.safe_read hr.sound (Heap.plain_nearestThis.quiet hframes) fun _ hx =>
      hframes _ (Heap.mem_of_nearestThis hx)
  | member object name =>
    refine (hself.expr hr object).bind fun v s1 h1 hv => ?_
    exact safe_member hc hself (hr.later h1) hv
  | index object indices =>
    refine (hself.expr hr object).bind fun v s1 h1 hv => ?_
    refine (safe_evalAll hself indices (hr.later h1)).bind fun vs s2 h2 hvs => ?_
    exact safe_callReserved hc hself (hr.later (h1.trans h2)) (.cons (h2.grown.valid hv) hvs)
  | call callee args =>
    refine (hself.expr hr callee).bind fun v s1 h1 hv => ?_
    refine (safe_evalArgs hself args (hr.later h1)).bind fun vs s2 h2 hvs => ?_
    exact safe_callValue hc hself (hr.later (h1.trans h2)) (h2.grown.valid hv) hvs
  | unary op operand =>
    refine (hself.expr hr operand).bind fun v s1 h1 hv => ?_
    exact safe_applyUnary hc hself (hr.later h1) hv
  | binary op left right =>
    refine (hself.expr hr left).bind fun v s1 h1 hv => ?_
    refine (Eval.safe_ofExcept h1.sound plain_shortCircuit.quiet
      fun o ho => valid_shortCircuit ho).bind (Q := Resolve.Found) fun o s2 h2 ho => ?_
    cases o with
    | some result => exact Eval.safe_pure h2.sound (ho result rfl)
    | none =>
      refine (hself.expr (hr.later (h1.trans h2)) right).bind fun w s3 h3 hw => ?_
      exact safe_applyBinary hc hself (hr.later ((h1.trans h2).trans h3))
        ((h2.trans h3).grown.valid hv) hw
  | ternary cond thenExpr elseExpr =>
    refine (hself.expr hr cond).bind fun v s1 h1 hv => ?_
    refine (Eval.safe_ofExcept h1.sound Value.plain_truthy.quiet fun _ _ => trivial).bind
      (Q := fun _ _ => True) fun b s2 h2 _ => ?_
    split
    · exact hself.expr (hr.later (h1.trans h2)) thenExpr
    · exact hself.expr (hr.later (h1.trans h2)) elseExpr

lemma safe_evalExpr (hc : Contract T env.host env.plugins env.loader)
    (hself : SafeRunner T env self) (hr : Ready T env c s.heap) (e : Expr) :
    Eval.Safe T (evalExpr env self c e) s fun v h => v.ValidIn h := by
  refine Eval.Safe.locatedAt (Eval.safe_nested hr.sound fun s' hs' => ?_)
  rw [← hs'] at hr
  have hdeeper : Ready T env { c with depth := c.depth + 1 } s'.heap := hr.enter hr.frame
  exact safe_evalKind hc hself hdeeper e.kind

/-! ## Statements -/

lemma safe_declareParams (hself : SafeRunner T env self) (params : List Param) {s : Session H}
    (hr : Ready T env c s.heap) :
    Eval.Safe T (declareParams self c params) s fun ps h =>
      ∀ p ∈ ps, Resolve.Found p.default h := by
  induction params generalizing s with
  | nil => exact Eval.safe_pure hr.sound fun p hp => by cases hp
  | cons p rest ih =>
    have hrest : ∀ o (s1 : Session H), Later T s.heap s1.heap → Resolve.Found o s1.heap →
        Eval.Safe T (do return ⟨p.name, o⟩ :: (← declareParams self c rest)) s1
          fun ps h => ∀ p ∈ ps, Resolve.Found p.default h := by
      intro o s1 h1 ho
      refine (ih (hr.later h1)).bind fun ps s2 h2 hps => Eval.safe_pure h2.sound fun q hq => ?_
      rcases List.mem_cons.mp hq with rfl | hq
      · exact fun w hw => h2.grown.valid (ho w hw)
      · exact hps q hq
    unfold declareParams
    dsimp only
    split
    · exact (Resolve.safe_some (hself.expr hr _)).bind hrest
    · exact (Eval.safe_pure hr.sound Resolve.found_none).bind hrest

lemma safe_evalOptional (hself : SafeRunner T env self) (hr : Ready T env c s.heap)
    (e : Option Expr) : Eval.Safe T (evalOptional self c e) s fun v h => v.ValidIn h := by
  cases e with
  | some e => exact hself.expr hr e
  | none => exact Eval.safe_pure hr.sound trivial

lemma safe_assignMember (hc : Contract T env.host env.plugins env.loader) (hs : Sound T s.heap)
    {object : Value} (hobj : object.ValidIn s.heap) {name : Name} (hv : v.ValidIn s.heap) :
    Eval.Safe T (assignMember env object name v) s fun _ _ => True := by
  unfold assignMember
  split
  · exact (Eval.safe_onHeap (Heap.safe_bind hs hobj hv)).mono fun _ _ _ _ => trivial
  · next id =>
    refine Eval.safe_nameText_bind fun key => ?_
    refine (Eval.safe_read hs (Heap.plain_node.quiet (Heap.contains_of_validIn hobj rfl))
      fun n hn => Heap.node_eq_ok.mp hn).bind (Q := fun n h => h.object? id = some (.node n))
      fun n s1 h1 hn => ?_
    split
    · next kind index hport =>
      exact safe_writePort hc h1.sound (Heap.hasPort_of_find hn hport) (h1.grown.valid hv) rfl
    · exact Eval.safe_fail h1.sound rfl
  · exact Eval.safe_nameText_bind fun text => Eval.safe_fail hs rfl

lemma safe_assignedValue (hc : Contract T env.host env.plugins env.loader)
    (hself : SafeRunner T env self) (hr : Ready T env c s.heap) {op : Option BinaryOp}
    {current : Eval H Value} (hcurrent : Eval.Safe T current s fun v h => v.ValidIn h)
    (hv : v.ValidIn s.heap) {loc : Location} :
    Eval.Safe T (assignedValue env self c op current v loc) s fun v h => v.ValidIn h := by
  cases op with
  | none => exact Eval.safe_pure hr.sound hv
  | some op =>
    refine hcurrent.bind fun old s1 h1 hold => ?_
    exact safe_applyBinary hc hself (hr.later h1) hold (h1.grown.valid hv)

/-- Overwriting the nearest binding of a name. -/
lemma Heap.safe_assignNearest (frames : List ObjectId) {h : Heap H} (hs : Sound T h)
    (hf : ∀ x ∈ frames, h.HasKind .frame x) {name : Name} (hv : v.ValidIn h) :
    HeapM.Safe T (assignNearest name v frames) h fun _ _ => True := by
  induction frames generalizing h with
  | nil => exact HeapM.safe_pure hs trivial
  | cons frame rest ih =>
    have hframe := hf frame List.mem_cons_self
    refine HeapM.Keeps.bind (HeapM.safe_read hs (plain_frame.quiet hframe.contains)
      fun _ _ => trivial) (Q := fun _ _ => True) fun f h1 h1' _ => ?_
    split
    · refine HeapM.Keeps.bind (Q := fun _ _ => True) ?_ fun _ h2 h2' _ =>
        HeapM.safe_pure h2'.sound trivial
      have hassign : HeapM.Safe T (assign frame name v) h1 fun _ => SamePins h1 :=
        (HeapM.keeps_of_writes h1'.sound (writes_assign (h1'.grown.valid hv))).safe
          (h1'.grown.hasKind hframe).contains
      exact hassign.discard
    · exact ih h1'.sound (fun x hx => h1'.grown.hasKind (hf x (List.mem_cons_of_mem _ hx)))
        (h1'.grown.valid hv)

lemma Heap.safe_setVariable {h : Heap H} {frame : ObjectId} (hs : Sound T h)
    (hf : h.HasKind .frame frame) {name : Name} (hv : v.ValidIn h) :
    HeapM.Safe T (setVariable frame name v) h fun _ _ => True := by
  refine HeapM.Keeps.bind (HeapM.safe_read hs .pure fun frames hr x hx => ?_)
    (Q := fun frames h => ∀ x ∈ frames, h.HasKind .frame x) fun frames h1 h1' hframes => ?_
  · cases hr
    exact mem_lineage hs hf hx
  · refine (safe_assignNearest frames h1'.sound hframes (h1'.grown.valid hv)).bind
      fun found h2 h2' _ => ?_
    have hl := h1'.trans h2'
    split
    · exact HeapM.safe_pure h2'.sound trivial
    · exact (safe_define h2'.sound (hl.grown.hasKind hf) (hl.grown.valid hv)).mono
        fun _ _ _ _ => trivial

lemma safe_assignTo (hc : Contract T env.host env.plugins env.loader)
    (hself : SafeRunner T env self)
    (hr : Ready T env c s.heap) (target : Target) {op : Option BinaryOp} {value : Expr}
    {loc : Location} :
    Eval.Safe T (assignTo env self c target op value loc) s fun _ _ => True := by
  cases target with
  | ident name =>
    refine (hself.expr hr value).bind fun v s1 h1 hv => ?_
    have hr1 := hr.later h1
    refine (safe_assignedValue hc hself hr1 (safe_lookup hc hself hr1 hr1.frame) hv).bind
      fun w s2 h2 hw => ?_
    refine Eval.Safe.barring ?_ (hself.stuck s2)
    exact Eval.safe_onHeap (Heap.safe_setVariable h2.sound (h2.grown.hasKind hr1.frame) hw)
  | member object name =>
    refine (hself.expr hr object).bind fun o s1 h1 ho => ?_
    refine (hself.expr (hr.later h1) value).bind fun v s2 h2 hv => ?_
    have hr2 := hr.later (h1.trans h2)
    have ho2 := h2.grown.valid ho
    refine (safe_assignedValue hc hself hr2 (safe_member hc hself hr2 ho2) hv).bind
      fun w s3 h3 hw => ?_
    exact safe_assignMember hc h3.sound (h3.grown.valid ho2) hw
  | index object indices =>
    refine (hself.expr hr object).bind fun o s1 h1 ho => ?_
    refine (safe_evalAll hself indices (hr.later h1)).bind fun keys s2 h2 hkeys => ?_
    refine (hself.expr (hr.later (h1.trans h2)) value).bind fun v s3 h3 hv => ?_
    have hr3 := hr.later ((h1.trans h2).trans h3)
    have ho3 := (h2.trans h3).grown.valid ho
    refine (safe_assignedValue hc hself hr3 (safe_readIndex hself hr3.sound ho3) hv).bind
      fun w s4 h4 hw => ?_
    have ho4 := h4.grown.valid ho3
    have hset : HeapM.Safe T (Heap.setIndex o keys w) s4.heap fun _ => Heap.SamePins s4.heap :=
      (HeapM.keeps_of_writes h4.sound (Heap.writes_setIndex hw)).safe fun x hx =>
        Heap.contains_of_validIn ho4 hx
    exact ((Eval.safe_onHeap hset).mono fun _ _ _ _ => trivial).barring (hself.stuck s4)

lemma plain_iterationItems {h : Heap H} : PlainIf (v.ValidIn h) (iterationItems h v) := by
  unfold iterationItems
  split
  · exact (Heap.plain_sequence.imp fun hv => Heap.contains_of_validIn hv rfl).map
  · exact (Heap.plain_grid.imp fun hv => Heap.contains_of_validIn hv rfl).bind fun _ _ => .pure
  · exact (Heap.plain_frame.imp fun hv => Heap.contains_of_validIn hv rfl).map
  · exact PlainIf.fail rfl

/-- What a loop goes over is stored in some object, or is a primitive. -/
lemma iterationItems_found {h : Heap H} {items : List Value} (hr : iterationItems h v = .ok items)
    {w : Value}
    (hw : w ∈ items) : (∃ x o, h.object? x = some o ∧ w ∈ o.values) ∨ ∃ p, w = .prim p := by
  unfold iterationItems at hr
  split at hr
  · obtain ⟨elements, helements, rfl⟩ := map_eq_ok.mp hr
    exact .inl ⟨_, _, Heap.sequence_eq_ok.mp helements, hw⟩
  · obtain ⟨g, -, hr⟩ := bind_eq_ok.mp hr
    cases hr
    obtain ⟨p, -, rfl⟩ := List.mem_map.mp hw
    exact .inr ⟨p, rfl⟩
  · obtain ⟨f, hf, rfl⟩ := map_eq_ok.mp hr
    exact .inl ⟨_, _, Heap.frame_eq_ok.mp hf, hw⟩
  · cases hr

lemma valid_iterationItems {h : Heap H} (hs : Sound T h) {items : List Value}
    (hr : iterationItems h v = .ok items) : ValidAll h items := by
  intro w hw
  rcases iterationItems_found hr hw with ⟨x, o, ho, hmem⟩ | hprim
  · exact hs.value x o ho w hmem
  · exact Value.valid_of_exists_prim hprim

lemma safe_forEach (hself : SafeRunner T env self) (var : Name) (body : Stmt) (items : List Value)
    {s : Session H} (hr : Ready T env c s.heap) (hv : ValidAll s.heap items) :
    Eval.Safe T (forEach self c var body items) s fun flow h => flow.ValidIn h := by
  induction items generalizing s with
  | nil => exact Eval.safe_pure hr.sound trivial
  | cons item rest ih =>
    refine (Eval.safe_onHeap (Heap.safe_childFrame hr.sound hr.frame _ fun _ => ⟨rfl, rfl⟩)).bind
      fun frame s1 h1 hframe => ?_
    have hready : Ready T env { c with frame := frame } s1.heap := (hr.later h1).enter hframe.1
    refine (Eval.safe_withPinned h1.sound hframe.1 hframe.2 fun s' hl => ?_).bind
      fun flow s2 h2 hflow => ?_
    · refine (Eval.safe_onHeap (Heap.safe_define hl.sound (hl.grown.hasKind hframe.1)
        ((h1.trans hl).grown.valid (hv item List.mem_cons_self)))).bind fun _ s'' hl' _ => ?_
      exact hself.stmt (hready.later (hl.trans hl')) body
    · cases flow with
      | ret w => exact Eval.safe_pure h2.sound hflow
      | next => exact ih (hr.later (h1.trans h2)) fun w hw =>
          (h1.trans h2).grown.valid (hv w (List.mem_cons_of_mem _ hw))

lemma safe_loopRound (hself : SafeRunner T env self) (hr : Ready T env c s.heap) (l : LoopBody) :
    Eval.Safe T (loopRound self c l) s fun flow h => flow.ValidIn h := by
  rw [loopRound_eq]
  -- a loop without a condition goes on as if it held
  have htest : Eval.Safe T (roundTest self c l) s fun _ _ => True := by
    unfold roundTest
    cases l.cond with
    | some cond =>
      exact (hself.expr hr cond).bind fun v s1 h1 _ =>
        Eval.safe_ofExcept h1.sound Value.plain_truthy.quiet fun _ _ => trivial
    | none => exact Eval.safe_pure hr.sound trivial
  refine htest.bind fun holds s1 h1 _ => ?_
  have hr1 := hr.later h1
  cases holds with
  | false => exact Eval.safe_pure h1.sound trivial
  | true =>
    refine (hself.stmt hr1 l.body).bind fun flow s2 h2 hflow => ?_
    have hr2 := hr1.later h2
    cases flow with
    | ret w => exact Eval.safe_pure h2.sound hflow
    | next =>
      cases l.step with
      | some step =>
        exact (hself.stmt hr2 step).discard.bind fun _ s3 h3 _ => hself.loop (hr2.later h3) _
      | none => exact hself.loop hr2 _

lemma safe_execKind (hc : Contract T env.host env.plugins env.loader)
    (hself : SafeRunner T env self) (hr : Ready T env c s.heap) (kind : StmtKind) {loc : Location} :
    Eval.Safe T (execKind env self c kind loc) s fun flow h => flow.ValidIn h := by
  cases kind with
  | block newFrame body =>
    unfold execKind
    dsimp only
    split
    · refine (Eval.safe_onHeap (Heap.safe_childFrame hr.sound hr.frame _ fun _ => ⟨rfl, rfl⟩)).bind
        fun frame s1 h1 hframe => ?_
      refine Eval.safe_withPinned h1.sound hframe.1 hframe.2 fun s' hl => ?_
      exact hself.block body ((hr.later (h1.trans hl)).enter (hl.grown.hasKind hframe.1))
    · exact hself.block body hr
  | function name params body =>
    refine (safe_declareParams hself params hr).bind fun ps s1 h1 hps => ?_
    have hr1 := hr.later h1
    refine (Eval.safe_onHeap (HeapM.safe_allocValue h1.sound ?_)).bind fun f s2 h2 hf => ?_
    · refine Heap.fits_callable hps (fun x hx => ?_) trivial
      cases hx
      exact hr1.frame
    · refine (Eval.safe_onHeap (Heap.safe_define h2.sound (h2.grown.hasKind hr1.frame) hf)).bind
        fun _ s3 h3 _ => Eval.safe_pure h3.sound trivial
  | var name init =>
    refine (safe_evalOptional hself hr init).bind fun v s1 h1 hv => ?_
    exact (Eval.safe_onHeap (Heap.safe_define h1.sound (h1.grown.hasKind hr.frame) hv)).bind
      fun _ s2 h2 _ => Eval.safe_pure h2.sound trivial
  | assign target op value =>
    exact (safe_assignTo hc hself hr target).bind fun _ s1 h1 _ => Eval.safe_pure h1.sound trivial
  | branch cond thenBranch elseBranch =>
    refine (hself.expr hr cond).bind fun v s1 h1 hv => ?_
    refine (Eval.safe_ofExcept h1.sound Value.plain_truthy.quiet fun _ _ => trivial).bind
      (Q := fun _ _ => True) fun b s2 h2 _ => ?_
    have hr2 := hr.later (h1.trans h2)
    split
    · exact hself.stmt hr2 thenBranch
    · split
      · exact hself.stmt hr2 _
      · exact Eval.safe_pure h2.sound trivial
  | loop init cond step body =>
    refine (Eval.safe_onHeap (Heap.safe_childFrame hr.sound hr.frame _ fun _ => ⟨rfl, rfl⟩)).bind
      fun frame s1 h1 hframe => ?_
    refine Eval.safe_withPinned h1.sound hframe.1 hframe.2 fun s' hl => ?_
    have hready : Ready T env { c with frame := frame } s'.heap :=
      (hr.later (h1.trans hl)).enter (hl.grown.hasKind hframe.1)
    split
    · exact (hself.stmt hready _).discard.bind fun _ s2 h2 _ => hself.loop (hready.later h2) _
    · exact Eval.Safe.bind (Q := fun _ _ => True) (Eval.safe_pure hready.sound trivial)
        fun _ s2 h2 _ => hself.loop (hready.later h2) _
  | each var items body =>
    refine (hself.expr hr items).bind fun v s1 h1 hv => ?_
    refine (Eval.safe_read h1.sound (plain_iterationItems.quiet hv) fun _ hitems =>
      valid_iterationItems h1.sound hitems).bind (Q := fun vs h => ValidAll h vs)
      fun vs s2 h2 hvs => ?_
    exact safe_forEach hself var body vs (hr.later (h1.trans h2)) hvs
  | expr e =>
    exact (hself.expr hr e).discard.bind fun _ s1 h1 _ => Eval.safe_pure h1.sound trivial
  | ret value => exact Eval.Safe.map (safe_evalOptional hself hr value)

lemma safe_execStmt (hc : Contract T env.host env.plugins env.loader)
    (hself : SafeRunner T env self) (hr : Ready T env c s.heap) (st : Stmt) :
    Eval.Safe T (execStmt env self c st) s fun flow h => flow.ValidIn h := by
  refine Eval.Safe.locatedAt (Eval.safe_nested hr.sound fun s' hs' => ?_)
  rw [← hs'] at hr
  have hdeeper : Ready T env { c with depth := c.depth + 1 } s'.heap := hr.enter hr.frame
  exact safe_execKind hc hself hdeeper st.kind

/-! ## The evaluator -/

/-- What the answer to a job must satisfy. -/
def Job.Valid (h : Heap H) : (j : Job) → j.Result → Prop
  | .expr _, v => Value.ValidIn h v
  | .stmt _, flow => Flow.ValidIn h flow
  | .loop _, flow => Flow.ValidIn h flow

/-- With any fuel, every job is done safely. -/
theorem safe_runJob (hc : Contract T env.host env.plugins env.loader) (fuel : Nat) {c : Cursor}
    {s : Session H} (hr : Ready T env c s.heap) (j : Job) :
    Eval.Safe T (runJob env fuel c j) s fun answer h => j.Valid h answer := by
  induction fuel generalizing c s j with
  | zero => trivial
  | succ fuel ih =>
    have hself : SafeRunner T env (.ofJobs Eval.diverge (runJob env fuel)) :=
      ⟨fun hr e => ih hr (.expr e), fun hr st => ih hr (.stmt st), fun hr l => ih hr (.loop l),
        fun _ => trivial⟩
    cases j with
    | expr e => exact safe_evalExpr hc hself hr e
    | stmt st => exact safe_execStmt hc hself hr st
    | loop l => exact safe_loopRound hself hr l

/-- The evaluator is safe. -/
theorem safe_runner (hc : Contract T env.host env.plugins env.loader) (fuel : Nat) :
    SafeRunner T env (runner env fuel) :=
  ⟨fun hr e => safe_runJob hc fuel hr (.expr e), fun hr st => safe_runJob hc fuel hr (.stmt st),
    fun hr l => safe_runJob hc fuel hr (.loop l), fun _ => trivial⟩

end Patchbay
