import Patchbay.Proofs.Lifting.Meanings

/-!
# What ticks bring about

A result of an evaluation with signals carries a value if the value is on it once the operators that
the evaluation made have been ticked. Evaluations go on before their operators are ticked, so this
is said of all heaps in which only nodes changed that the evaluation does not read. Operators on
results carry what the operators compute on the values that the results carry.
-/

namespace Patchbay

variable {H : HostTypes} {T : Trust H} {host : KernelHost H}

lemma Value.isOutput_iff {v : Value} : v.isOutput = true ↔ ∃ p, v = .output p := by
  constructor
  · intro hv
    cases v with
    | port kind p =>
      cases kind with
      | output => exact ⟨p, rfl⟩
      | _ => cases hv
    | _ => cases hv
  · rintro ⟨p, rfl⟩
    rfl

namespace Heap

variable {h h' : Heap H} {moved : ObjectId → Prop} {u w : Value} {us ws us' ws' : List Value}

/-- The value that a result stands for: what the output sent last, if the result is one. -/
def carried (h : Heap H) : Value → Except EvalError Value
  | .output p => h.outputValue p
  | v => return v

lemma carried_plain (hu : u.isOutput = false) : h.carried u = .ok u := by
  cases u with
  | port kind p =>
    cases kind with
    | output => cases hu
    | _ => rfl
  | _ => rfl

lemma Keeps.carried (hk : Keeps moved h h') (hm : ∀ p, u = .output p → ¬ moved p.node)
    (hc : h.carried u = .ok w) : h'.carried u = .ok w := by
  cases hout : u.isOutput with
  | false =>
    rw [carried_plain hout] at hc ⊢
    exact hc
  | true =>
    obtain ⟨p, rfl⟩ := Value.isOutput_iff.mp hout
    exact hk.outputValue (hm p rfl) hc

/-- Results that stand for values, one by one. -/
def Carried (h : Heap H) (us ws : List Value) : Prop :=
  List.Forall₂ (fun u w => h.carried u = .ok w) us ws

lemma Carried.keeps (hc : h.Carried us ws) (hk : Keeps moved h h')
    (hm : ∀ p, .output p ∈ us → ¬ moved p.node) : h'.Carried us ws := by
  induction hc with
  | nil => exact .nil
  | cons hhead _ ih =>
    refine .cons (hk.carried (fun p hp => hm p (hp ▸ List.mem_cons_self)) hhead) ?_
    exact ih fun p hp => hm p (List.mem_cons_of_mem _ hp)

/-- Plain results stand for themselves. -/
lemma Carried.eq (hc : h.Carried us ws) (hout : us.any Value.isOutput = false) : us = ws := by
  induction hc with
  | nil => rfl
  | cons hhead _ ih =>
    rw [List.any_cons, Bool.or_eq_false_iff] at hout
    rw [carried_plain hout.1] at hhead
    cases hhead
    rw [ih hout.2]

end Heap

/-! ## Ticking what an evaluation made -/

open Heap (Keeps Carried)

/-- The nodes that an evaluation reads: those of the session `b`, and those that it made itself. -/
def Session.Reads (b s s' : Session H) (x : ObjectId) : Prop :=
  b.heap.contains x = true ∨ x ∈ s.created s'

/-- How it ends to tick the operators that an evaluation from `s` to `s'` made, once other nodes
than those it reads may have moved. -/
def Ticks (host : KernelHost H) (b s s' : Session H) (pre post : Heap H → Prop) (err : Prop) :
    Prop :=
  ∀ moved h, Keeps moved s'.heap h → (∀ x, b.Reads s s' x → ¬ moved x) → pre h →
    (Heap.tickAll host (s.operators s')).Ends h
      (fun _ h' => Keeps (· ∈ s.operators s') h h' ∧ post h') fun _ _ => err

section Ticks

variable {b s s1 s2 : Session H} {P Q R : Heap H → Prop} {err : Prop} {x : ObjectId}

lemma reads_of_trans (h1 : s.Grew s1) (h2 : s1.Grew s2) :
    b.Reads s s2 x ↔ b.Reads s s1 x ∨ x ∈ s1.created s2 := by
  rw [Session.Reads, h1.created_trans h2, List.mem_append, ← or_assoc]
  rfl

/-- What is read before is there already, so it is not made later. -/
lemma not_mem_operators (hb : ∀ x, b.heap.contains x = true → s.heap.contains x = true)
    (h1 : s.Grew s1) (h2 : s1.Grew s2) (hx : b.Reads s s1 x) : x ∉ s1.operators s2 := by
  intro hop
  have hc : s1.heap.contains x = true :=
    hx.elim (fun hc => h1.heap.keeps.contains (hb x hc)) fun hx => (h1.contains_created hx).2
  rw [(h2.contains_created (Session.mem_operators hop)).1] at hc
  cases hc

/-- Evaluations in a row: the operators of the first one are ticked first. -/
lemma Ticks.trans (hb : ∀ x, b.heap.contains x = true → s.heap.contains x = true) (hg1 : s.Grew s1)
    (hg2 : s1.Grew s2) (h1 : Ticks host b s s1 P Q err) (h2 : Ticks host b s1 s2 Q R err) :
    Ticks host b s s2 P R err := by
  intro moved h hk hm hp
  rw [Session.operators_trans hg1 hg2, Heap.tickAll_append]
  -- what the second evaluation made is new, so the operators of the first one do not read it
  have hk1 : Keeps moved s1.heap h := (hg2.heap.keeps.trans hk).mono fun x _ hx =>
    hx.resolve_left id
  refine (h1 moved h hk1 (fun x hx => hm x ((reads_of_trans hg1 hg2).mpr (.inl hx))) hp).bind ?_
  rintro ⟨⟩ h' ⟨hk', hq⟩
  refine (h2 _ h' (hk.trans hk') (fun x hx hmoved => ?_) hq).mono (fun _ h'' hr => ⟨?_, hr.2⟩)
    fun _ _ he => he
  · rcases hmoved with hmoved | hop
    · refine hm x ?_ hmoved
      exact (reads_of_trans hg1 hg2).mpr (hx.imp_left .inl)
    -- what the first evaluation made is neither in `b` nor made by the second one
    · have hnew := hg1.contains_created (Session.mem_operators hop)
      rcases hx with hold | hlater
      · rw [hb x hold] at hnew
        cases hnew.1
      · rw [(hg2.contains_created hlater).1] at hnew
        cases hnew.2
  · exact (hk'.trans hr.1).mono fun x _ hx => List.mem_append.mpr hx

lemma Ticks.mono {P' Q' : Heap H → Prop} {err' : Prop} (ht : Ticks host b s s1 P Q err)
    (hpre : ∀ h, P' h → P h) (hpost : ∀ h, Q h → Q' h) (herr : err → err') :
    Ticks host b s s1 P' Q' err' :=
  fun moved h hk hm hp => (ht moved h hk hm (hpre h hp)).mono (fun _ h' hq => ⟨hq.1, hpost h' hq.2⟩)
    fun _ _ => herr

/-- Where nothing was made, nothing is ticked. -/
lemma Ticks.refl (hpost : ∀ moved h, Keeps moved s.heap h →
    (∀ x, b.heap.contains x = true → ¬ moved x) → P h → Q h) : Ticks host b s s P Q err := by
  intro moved h hk hm hp
  rw [Lift.operators_refl]
  exact ⟨.refl h, hpost moved h hk (fun x hx => hm x (.inl hx)) hp⟩

end Ticks

/-! ## Results that carry values -/

/-- The results `us` of an evaluation from `s` to `s'` come to carry the plain values `ws`. -/
structure Carries (host : KernelHost H) (b s s' : Session H) (us ws : List Value) : Prop where
  valid : ∀ w ∈ ws, w.ValidIn b.heap
  plain : ∀ w ∈ ws, w.isOutput = false
  port : ∀ p, .output p ∈ us → s'.heap.HasOutput p ∧ b.Reads s s' p.node
  ticks : Ticks host b s s' (fun _ => True) (fun h => h.Carried us ws) False

/-- Ticking what an evaluation from `s` to `s'` made fails. -/
def Fails (host : KernelHost H) (b s s' : Session H) : Prop :=
  Ticks host b s s' (fun _ => True) (fun _ => False) True

variable {b s s' s1 s2 : Session H} {us ws us' ws' : List Value}

/-- Ticked at once, results carry their values. -/
lemma Carries.ticked (hc : Carries host b s s' us ws) :
    ∃ h, Heap.tickAll host (s.operators s') s'.heap = .ok () h ∧ h.Carried us ws := by
  obtain ⟨⟨⟩, h, hrun, -, hcarried⟩ :=
    (hc.ticks Heap.noNode s'.heap (.refl _) (fun _ _ => id) trivial).exists_ok
  exact ⟨h, hrun, hcarried⟩

lemma Fails.ticked (hf : Fails host b s s') (h : Heap H) :
    Heap.tickAll host (s.operators s') s'.heap ≠ .ok () h := by
  intro hrun
  exact ((hf Heap.noNode s'.heap (.refl _) (fun _ _ => id) trivial).of_ok hrun).2

lemma Carries.eq (hc : Carries host b s s' us ws) (hout : us.any Value.isOutput = false) :
    us = ws := by
  obtain ⟨h, -, hcarried⟩ := hc.ticked
  exact hcarried.eq hout

lemma Carries.nil (s : Session H) : Carries host b s s [] [] where
  valid w hw := by cases hw
  plain w hw := by cases hw
  port p hp := by cases hp
  ticks := Ticks.refl fun _ _ _ _ _ => .nil

lemma Carries.plain_value {v : Value} (hv : v.isOutput = false) (hvalid : v.ValidIn b.heap)
    (s : Session H) : Carries host b s s [v] [v] where
  valid w hw := by rwa [List.mem_singleton.mp hw]
  plain w hw := by rw [List.mem_singleton.mp hw, hv]
  port p hp := by
    rw [← List.mem_singleton.mp hp] at hv
    cases hv
  ticks := Ticks.refl fun _ _ _ _ _ => .cons (Heap.carried_plain hv) .nil

/-- Later evaluations leave alone what results carry. -/
lemma Carries.append (hb : ∀ x, b.heap.contains x = true → s.heap.contains x = true)
    (hg1 : s.Grew s1) (hg2 : s1.Grew s2) (h1 : Carries host b s s1 us ws)
    (h2 : Carries host b s1 s2 us' ws') : Carries host b s s2 (us ++ us') (ws ++ ws') where
  valid w hw := (List.mem_append.mp hw).elim (h1.valid w) (h2.valid w)
  plain w hw := (List.mem_append.mp hw).elim (h1.plain w) (h2.plain w)
  port p hp := by
    rcases List.mem_append.mp hp with hp | hp
    · obtain ⟨hout, hreads⟩ := h1.port p hp
      exact ⟨hg2.heap.keeps.hasOutput hout, (reads_of_trans hg1 hg2).mpr (.inl hreads)⟩
    · obtain ⟨hout, hreads⟩ := h2.port p hp
      exact ⟨hout, (reads_of_trans hg1 hg2).mpr (hreads.imp_left .inl)⟩
  ticks := by
    refine h1.ticks.trans hb hg1 hg2 fun moved h hk hm hcarried => ?_
    refine (h2.ticks moved h hk hm trivial).mono (fun _ h' hq => ⟨hq.1, ?_⟩) fun _ _ he => he
    have hold : h'.Carried us ws := hcarried.keeps hq.1 fun p hp =>
      not_mem_operators hb hg1 hg2 (h1.port p hp).2
    exact List.rel_append hold hq.2

/-- A failure comes from what was evaluated first, whatever follows. -/
lemma Fails.later (hb : ∀ x, b.heap.contains x = true → s.heap.contains x = true)
    (hg1 : s.Grew s1) (hg2 : s1.Grew s2) (hf : Fails host b s s1) : Fails host b s s2 :=
  Ticks.trans hb hg1 hg2 hf fun _ _ _ _ => False.elim

lemma Carries.fails (hb : ∀ x, b.heap.contains x = true → s.heap.contains x = true)
    (hg1 : s.Grew s1) (hg2 : s1.Grew s2) (hc : Carries host b s s1 us ws)
    (hf : Fails host b s1 s2) : Fails host b s s2 := by
  have hfirst : Ticks host b s s1 (fun _ => True) (fun _ => True) True :=
    hc.ticks.mono (fun _ => id) (fun _ _ => trivial) False.elim
  exact hfirst.trans hb hg1 hg2 hf

/-! ## Operators on results -/

section Operators

variable {op : LiftedOperator H} {id : ObjectId} {name : String} {h : Heap H}
  {moved : ObjectId → Prop} {v : Value} {stuck : Eval H Empty}

/-- On plain values a builtin computes at once. -/
lemma LiftedOperator.callBuiltin_plain_eq_ok (hlen : ws.length = op.count)
    (hplain : ∀ w ∈ ws, w.isOutput = false) (hvalid : ∀ w ∈ ws, w.ValidIn b.heap)
    (hk : Keeps moved b.heap s.heap) :
    callBuiltin op.builtin (op.fixed ++ ws) stuck s = .ok v s' ↔ op.apply b.heap ws = .ok v ∧
    s' = s := by
  have hout : ws.any Value.isOutput = false := List.any_eq_false.mpr fun w hw => by
    rw [hplain w hw]
    exact Bool.false_ne_true
  rw [op.plain stuck ws hlen hout, op.congr _ _ _ _ hk hvalid]

/-- The inputs of a new node have the values that its operands carry. -/
lemma Lift.Wiring.inputValues (hw : Wiring s id (op.make name) us s') (hlen : us.length = op.count)
    (hk : Keeps moved s'.heap h) (hm : ∀ x, b.Reads s s' x → ¬ moved x) (hc : h.Carried us ws) :
    h.inputValues id = .ok ws.toArray := by
  obtain ⟨n, hn, -, -, hinputs, -⟩ := hw.node
  obtain ⟨n', hn', ha⟩ := hk.node hn
  have hlength : ws.length = op.count := hc.length_eq.symm.trans hlen
  have hsize : n'.inputs.size = ws.length := by
    rw [ha.inputs, hinputs, (op.blank name).inputs, hlength]
  refine Heap.inputValues_eq_ok hn' hsize (hlength ▸ op.limit) fun i w hwi => ?_
  obtain ⟨hi, rfl⟩ := List.getElem?_eq_some_iff.mp hwi
  have hi' : i < us.length := hc.length_eq.symm ▸ hi
  have hcarried : h.carried us[i] = .ok ws[i] := hc.get hi' hi
  obtain ⟨p, hp, hf⟩ := hw.feeds i us[i] (List.getElem?_eq_getElem hi')
  refine ⟨p, (hk.sourceAt hw.contains).trans hp, ?_⟩
  rcases hf with hout | ⟨hplain, hnew, hvalue⟩
  · rw [hout] at hcarried
    exact hcarried
  -- a constant node, which the evaluation made itself
  · rw [Heap.carried_plain hplain] at hcarried
    rw [← show us[i] = ws[i] from Except.ok.inj hcarried]
    have hlive := Heap.contains_of_sentAt (Heap.outputValue_eq_ok.mp hvalue)
    exact hk.outputValue (hm p.node (.inr (hw.grew.mem_created hnew hlive))) hvalue

/-- What the kernel of a new node computes. -/
lemma Lift.Wiring.compute (hw : Wiring s id (op.make name) us s') (hs : Steady b s)
    (hvalid : ∀ w ∈ ws, w.ValidIn b.heap) (hlen : ws.length = op.count)
    (hk : Keeps moved s'.heap h) :
    ∃ n, h.object? id = some (.node n) ∧ n.kernel = some op.kernel ∧ n.outputs.size = 1 ∧
      op.kernel.compute h n ws = List.singleton <$> op.apply b.heap ws := by
  obtain ⟨n, hn, hparams, hkernel, -, houtputs⟩ := hw.node
  obtain ⟨n', hn', ha⟩ := hk.node hn
  have hb := op.blank name
  have hkernel' : n'.kernel = some op.kernel := (ha.kernel.trans hkernel).trans (op.made name)
  refine ⟨n', hn', hkernel', by rw [ha.size_outputs, houtputs, hb.outputs], ?_⟩
  rw [op.compute name n' h ws (ha.params.trans hparams) hlen,
    op.congr _ _ _ _ ((hs.keeps.trans hw.grew.heap.keeps).trans hk) hvalid]

/-- A tick of a new node puts on its output what the operator computes. -/
lemma Lift.Wiring.ticks_ok (hw : Wiring s id (op.make name) us s') (hs : Steady b s)
    (hvalid : ∀ w ∈ ws, w.ValidIn b.heap) (hlen : us.length = op.count)
    (hv : op.apply b.heap ws = .ok v) :
    Ticks host b s s' (fun h => h.Carried us ws) (fun h => h.Carried [.output ⟨id, 0⟩] [v])
      False := by
  intro moved h hk hm hc
  obtain ⟨n, hn, hk', hout, hcompute⟩ := hw.compute hs hvalid (hc.length_eq.symm.trans hlen) hk
  rw [hv] at hcompute
  rw [hw.operators, Heap.tickAll_single]
  refine (Heap.ends_tickNode_ok hn hk' op.operator hout (hw.inputValues hlen hk hm hc)
    hcompute).mono ?_ fun _ _ he => he
  rintro - h' ⟨hk', hsent⟩
  exact ⟨hk'.mono fun x _ hx => List.mem_singleton.mpr hx,
    .cons (Heap.outputValue_eq_ok.mpr hsent) .nil⟩

lemma Lift.Wiring.ticks_error (hw : Wiring s id (op.make name) us s') (hs : Steady b s)
    (hvalid : ∀ w ∈ ws, w.ValidIn b.heap) (hlen : us.length = op.count) {e : EvalError}
    (he : op.apply b.heap ws = .error e) :
    Ticks host b s s' (fun h => h.Carried us ws) (fun _ => False) True := by
  intro moved h hk hm hc
  obtain ⟨n, hn, hk', -, hcompute⟩ := hw.compute hs hvalid (hc.length_eq.symm.trans hlen) hk
  rw [he] at hcompute
  rw [hw.operators, Heap.tickAll_single]
  exact (Heap.ends_tickNode_error hn hk' op.operator (hw.inputValues hlen hk hm hc) hcompute).mono
    (fun _ _ => False.elim) fun _ _ _ => trivial

/-- Calling a builtin on results that carry values: it gives a result that carries what the operator
computes on the values. -/
lemma Carries.callBuiltin_ok (hc : Carries host b s s1 us ws) (hs : Steady b s) (hg : s.Grew s1)
    (hsound : Heap.Sound T b.heap) (hlen : us.length = op.count) (hv : op.apply b.heap ws = .ok v)
    (hplain : v.isOutput = false) :
    ∃ u s2, callBuiltin op.builtin (op.fixed ++ us) stuck s1 = .ok u s2 ∧
    Carries host b s s2 [u] [v] := by
  have hs1 : Steady b s1 := hs.grew hg
  have hvalid : ∀ w ∈ [v], w.ValidIn b.heap := fun w hw => by
    rw [List.mem_singleton.mp hw]
    exact op.valid T b.heap ws v hsound hc.valid hv
  have hplain' : ∀ w ∈ [v], w.isOutput = false := fun w hw => by
    rw [List.mem_singleton.mp hw, hplain]
  cases hout : us.any Value.isOutput with
  | false =>
    obtain rfl := hc.eq hout
    refine ⟨v, s1, (LiftedOperator.callBuiltin_plain_eq_ok hlen hc.plain hc.valid hs1.keeps).mpr
      ⟨hv, rfl⟩, hvalid, hplain', fun p hp => ?_, hc.ticks.mono (fun _ => id) (fun h _ => ?_) id⟩
    · rw [← List.mem_singleton.mp hp] at hplain
      cases hplain
    · exact .cons (Heap.carried_plain hplain) .nil
  -- some operand is a stream: an operator is built, and a tick of it computes `v`
  | true =>
    obtain ⟨s2, name, hrun, hw⟩ := Lift.build_eq_ok op.kind hg.heap.tidy
      (fun name => hlen ▸ op.blank name) (hlen ▸ op.limit) fun p hp => (hc.port p hp).1
    rw [op.stream stuck us hlen hout]
    refine ⟨_, s2, hrun, hvalid, hplain', fun p hp => ?_,
      hc.ticks.trans (fun _ => hs.keeps.contains) hg hw.grew (hw.ticks_ok hs1 hc.valid hlen hv)⟩
    cases List.mem_singleton.mp hp
    obtain ⟨n, hn, -, -, -, houtputs⟩ := hw.node
    refine ⟨⟨n, hn, ?_⟩, (reads_of_trans hg hw.grew).mpr (.inr ?_)⟩
    · rw [houtputs, (op.blank name).outputs]
      exact Nat.zero_lt_one
    · exact hw.grew.mem_created hw.fresh hw.contains

/-- If the operator fails on the values, so does the builtin, or ticking the node that it makes. -/
lemma Carries.callBuiltin_error (hc : Carries host b s s1 us ws) (hs : Steady b s) (hg : s.Grew s1)
    (hlen : us.length = op.count) {e : EvalError} (he : op.apply b.heap ws = .error e) {u : Value}
    (hrun : callBuiltin op.builtin (op.fixed ++ us) stuck s1 = .ok u s2) : Fails host b s s2 := by
  have hs1 : Steady b s1 := hs.grew hg
  cases hout : us.any Value.isOutput with
  | false =>
    obtain rfl := hc.eq hout
    rw [LiftedOperator.callBuiltin_plain_eq_ok hlen hc.plain hc.valid hs1.keeps, he] at hrun
    cases hrun.1
  | true =>
    obtain ⟨s2', name, hbuild, hw⟩ := Lift.build_eq_ok op.kind hg.heap.tidy
      (fun name => hlen ▸ op.blank name) (hlen ▸ op.limit) fun p hp => (hc.port p hp).1
    rw [op.stream stuck us hlen hout, hbuild] at hrun
    cases hrun
    have hfirst : Ticks host b s s1 (fun _ => True) (fun h => h.Carried us ws) True :=
      hc.ticks.mono (fun _ => id) (fun _ => id) False.elim
    exact hfirst.trans (fun _ => hs.keeps.contains) hg hw.grew (hw.ticks_error hs1 hc.valid hlen he)

end Operators

end Patchbay
