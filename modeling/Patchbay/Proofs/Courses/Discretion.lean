import Patchbay.Proofs.Courses.Calls

/-!
# Discreet host code

Host code is discreet if it does nothing but store, write, tick and pin, comes by valid handles
only, and keeps away from what it has not built: it comes by no handle of a node that dispatch made
for an operator, and by no handle at all that leads to what a failed attempt left behind.
-/

namespace Patchbay

variable {H : HostTypes} {K : Customs H} {code : HostCode H → Prop} {h : Heap H} {l : Ledger}
  {v : Value} {id : ObjectId}

/-- Whether a value gives nothing away of what was built: it is no handle of a node that was made,
and it does not refer at all to what a failed attempt left behind. -/
def Ledger.Open (l : Ledger) (v : Value) : Prop :=
  ∀ c ∈ l.built, ∀ x ∈ c.made, v ≠ .node x ∧ (c.node = none → v.referent ≠ some x)

/-- The customs of discreet host code. A kernel of the host sends what is known already, and what it
becomes is host code that there is. -/
def Customs.discreet (host : KernelHost H) (code : HostCode H → Prop) : Customs H where
  stalls := False
  trusting := False
  code := code
  may h l
    | .alloc o => o.Unwired ∧ l.Holds code o
    | .define _ _ v | .assign _ _ v | .bind _ _ v | .pushElement _ v | .setRef _ v |
      .setIndex _ _ v => l.knows v
    | .tick id => ∀ n state inputs, h.object? id = some (.node n) → n.kernel = some (.host state) →
        h.inputValues id = .ok inputs →
        code (.kernel (host.tick state (h.busy id) n.busy inputs).2) ∧
          ∀ vs, (host.tick state (h.busy id) n.busy inputs).1 = .ok vs → ∀ v ∈ vs, l.knows v
    | .pin id => h.pinCount id < h.pinCount id + 1
    | .intern _ => True
    | .remove _ | .connect _ _ | .disconnect _ | .setParam _ _ | .setParamNamed _ _ _ | .unpin _
    | .collect _ _ => False
  finds h l v := v.ValidIn h ∧ l.Open v

/-! ## Ticking -/

namespace Customs.Covers

/-- What an operator kernel sends is known, if the ports of known nodes are. -/
lemma knows_compute (hc : K.Covers h l) {n : Node H} (hn : h.object? id = some (.node n))
    (hports : ∀ kind p, h.HasPort kind p → l.knows (.node p.node) → l.knows (.port kind p))
    {kernel : Kernel H.Kernel} {inputs vs : List Value} (hin : ∀ v ∈ inputs, l.knows v)
    (hr : kernel.compute h n inputs = .ok vs) : ∀ v ∈ vs, l.knows v := by
  refine Kernel.forall_compute (fun v => hc.knows_plain) (hc.object id _ hn).value hin
    (fun source hsource indices v hv => ?_) (fun v t w hv hw => hc.knows_cast hv hw) hr
  rcases hc.knows_index hv with hknown | ⟨x, key, m, rfl, hm, hport⟩
  · exact hknown
  · obtain ⟨⟨kind, index⟩, hp, rfl⟩ := Option.map_eq_some_iff.mp hport
    exact hports kind ⟨x, index⟩ (Heap.hasPort_of_find hm hp) (hin _ hsource)

/-- Everything that a node receives is known. -/
lemma knows_inputs (hc : K.Covers h l) {inputs : Array Value} (hr : h.inputValues id = .ok inputs) :
    ∀ v ∈ inputs, l.knows v := by
  intro v hv
  obtain ⟨x, o, ho, hmem⟩ := Heap.stored_inputValues hr v hv
  exact (hc.object x o ho).value v hmem

/-- What a node sends when it ticks is known then. -/
lemma knows_run {host : KernelHost H} (hc : K.Covers h l) {n : Node H}
    (hn : h.object? id = some (.node n)) {kernel : Kernel H.Kernel} {inputs vs : Array Value}
    (hin : h.inputValues id = .ok inputs)
    (hports : ∀ kind p, h.HasPort kind p → l.knows (.node p.node) → l.knows (.port kind p))
    (hhost : ∀ state, kernel = .host state →
      ∀ vs, (host.tick state (h.busy id) n.busy inputs).1 = .ok vs → ∀ v ∈ vs, l.knows v)
    (hr : (kernel.run host (h.busy id) n.busy inputs).1 = .ok vs) : ∀ v ∈ vs, l.knows v := by
  have hlist : ∀ v ∈ inputs.toList, l.knows v := fun v hv =>
    hc.knows_inputs hin v (Array.mem_toList_iff.mp hv)
  have hlanguage : ∀ kernel : Kernel H.Kernel,
      List.toArray <$> kernel.compute (h.busy id) n.busy inputs.toList = .ok vs →
      ∀ v ∈ vs, l.knows v := by
    intro kernel hk v hv
    rw [Heap.compute_busy hn] at hk
    obtain ⟨ws, hws, rfl⟩ := map_eq_ok.mp hk
    exact hc.knows_compute hn hports hlist hws v (by simpa using hv)
  cases kernel with
  | host state => exact hhost state rfl vs hr
  | constant | binaryOp | unaryOp | index | cast => exact hlanguage _ hr

end Customs.Covers

/-! ## What discreet host code keeps known -/

section Discreet

variable {host : KernelHost H} {op : Operation H}

lemma Customs.Covers.learn_ports (hc : K.Covers h l) (id : ObjectId) :
    K.Covers h (l.after h (.tick id)) := by
  refine hc.learn fun _ v hv => ?_
  obtain ⟨kind, p, rfl, hport, -⟩ := hv
  exact hport

/-- What a node sends is known when it has ticked. -/
lemma Customs.Covers.knows_tick (hc : (Customs.discreet host code).Covers h l)
    (hop : (Customs.discreet host code).may h l (.tick id)) {n : Node H} {kernel : Kernel H.Kernel}
    {inputs vs : Array Value} (hn : h.object? id = some (.node n)) (hk : n.kernel = some kernel)
    (hin : h.inputValues id = .ok inputs)
    (hr : (kernel.run host (h.busy id) n.busy inputs).1 = .ok vs) :
    ∀ v ∈ vs, (l.after h (.tick id)).knows v := by
  refine (hc.learn_ports id).knows_run hn hin (fun kind p hport hnode => ?_)
    (fun state hstate ws hws v hv =>
      .inl ((hop n state inputs hn (hstate ▸ hk) hin).2 ws hws v hv)) hr
  rcases hnode with hnode | ⟨_, _, heq, -⟩
  · exact .inr ⟨kind, p, rfl, hport, hnode⟩
  · cases heq

/-- So is what its kernel becomes host code that there is. -/
lemma Customs.code_tick (hop : (Customs.discreet host code).may h l (.tick id)) {n : Node H}
    {kernel : Kernel H.Kernel} {inputs : Array Value} {k : H.Kernel}
    (hn : h.object? id = some (.node n))
    (hk : n.kernel = some kernel) (hin : h.inputValues id = .ok inputs)
    (hr : (kernel.run host (h.busy id) n.busy inputs).2 = .host k) : code (.kernel k) := by
  cases kernel with
  | host state =>
    cases hr
    exact (hop n state inputs hn hk hin).1
  | constant | binaryOp | unaryOp | index | cast => cases hr

lemma Customs.Covers.tick (hc : (Customs.discreet host code).Covers h l)
    (hop : (Customs.discreet host code).may h l (.tick id)) :
    (Customs.discreet host code).Covers ((Operation.tick id).after host h)
      (l.after h (.tick id)) := by
  have hports := hc.learn_ports id
  have hwrites := Heap.writes_tickNode (P := (l.after h (.tick id)).knows)
    (K := fun k => code (.kernel k)) fun n kernel inputs hn hk hin =>
      ⟨fun vs hr => hc.knows_tick hop hn hk hin hr, fun k hr => Customs.code_tick hop hn hk hin hr⟩
  exact hports.written hwrites

/-- Discreet host code stores only what is known. -/
lemma Customs.Covers.act (hc : (Customs.discreet host code).Covers h l)
    (hop : (Customs.discreet host code).may h l op) :
    (Customs.discreet host code).Covers (op.after host h) (l.after h op) := by
  cases op with
  | alloc o => exact hc.alloc hop.2
  | define frame name v => exact hc.written (Heap.writes_define hop)
  | assign frame name v =>
    have hw : Heap.Writes l.knows (fun k => code (.kernel k)) _ (Heap.assign frame name v) h :=
      Heap.writes_assign hop
    exact hc.written hw.discard
  | bind frame name v => exact hc.written (Heap.writes_bind hop)
  | pushElement sequence v => exact hc.written (Heap.writes_pushElement hop)
  | setRef cell v => exact hc.written (Heap.writes_setRef hop)
  | setIndex target indices v => exact hc.written (Heap.writes_setIndex hop)
  | tick id => exact hc.tick hop
  | pin id => exact hc.pin
  | intern text =>
    have hw : Heap.Writes l.knows (fun k => code (.kernel k)) _ (Heap.internName text) h :=
      Heap.writes_internName
    exact hc.written hw.discard
  | _ => exact hop.elim

variable {env : Environment H} {R : Heap H × Ledger → Prop}

/-- Discreet host code is decent. -/
lemma Environment.Follows.decent
    (hf : env.Follows (.discreet env.host.toKernelHost code) R)
    (hclosed : ∀ {a b}, R a → Step (.discreet env.host.toKernelHost code) env a b → R b) :
    Decent (.discreet env.host.toKernelHost code) R env where
  toFollows := hf
  act hop hc := hc.act hop
  find hfinds hc := by
    refine hc.learn fun _ v hv => ?_
    rw [hv]
    exact hfinds.1
  closed := hclosed

end Discreet

end Patchbay
