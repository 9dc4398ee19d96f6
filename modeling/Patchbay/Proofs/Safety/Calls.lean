import Patchbay.Proofs.Safety.Lookup

/-!
# Calling safely

The four kinds of calls. Arguments and defaults are valid, the frame of a script call is fresh, host
functions keep their contract, and builtins make nodes that are not wired and connect them to ports
that exist.
-/

namespace Patchbay

variable {H : HostTypes} {T : Trust H}

/-! ## Arguments -/

namespace Parameter

variable {params : List Parameter} {names : Interner} {slots : List (Option Value)}
  {call : List CallArg}

lemma mem_fillDefaults {bound : List (Name × Value)}
    (hr : fillDefaults names params slots = .ok bound)
    {b : Name × Value} (hb : b ∈ bound) :
    some b.2 ∈ slots ∨ ∃ p ∈ params, p.default = some b.2 := by
  induction params generalizing slots bound with
  | nil =>
    cases hr
    cases hb
  | cons p params ih =>
    cases slots with
    | nil =>
      cases hr
      cases hb
    | cons slot slots =>
      unfold fillDefaults at hr
      split at hr
      · next v hv =>
        obtain ⟨rest, hrest, hr⟩ := bind_eq_ok.mp hr
        cases hr
        -- the first pair comes from the first slot, or from the default where that is empty
        rcases List.mem_cons.mp hb with rfl | hb
        · cases slot with
          | some w =>
            cases hv
            exact .inl List.mem_cons_self
          | none => exact .inr ⟨p, List.mem_cons_self, hv⟩
        · rcases ih hrest hb with hslot | ⟨q, hq, hdef⟩
          · exact .inl (List.mem_cons_of_mem _ hslot)
          · exact .inr ⟨q, List.mem_cons_of_mem _ hq, hdef⟩
      · cases hr

lemma mem_fillLabeled {slots' : List (Option Value)}
    (hr : fillLabeled params names slots call = .ok slots') {v : Value} (hv : some v ∈ slots') :
    some v ∈ slots ∨ ∃ a ∈ call, a.value = v := by
  induction call generalizing slots with
  | nil =>
    cases hr
    exact .inl hv
  | cons a rest ih =>
    have hrest : ∀ {slots}, fillLabeled params names slots rest = .ok slots' →
        some v ∈ slots ∨ ∃ b ∈ a :: rest, b.value = v := fun hr =>
      (ih hr).imp_right fun ⟨b, hb, hval⟩ => ⟨b, List.mem_cons_of_mem a hb, hval⟩
    obtain ⟨_ | label, value⟩ := a
    · exact hrest hr
    · unfold fillLabeled at hr
      split at hr
      · cases hr
      · split at hr
        · cases hr
        · rcases hrest hr with hmem | hcall
          · rcases List.mem_or_eq_of_mem_set hmem with hold | hnew
            · exact .inl hold
            · exact .inr ⟨_, List.mem_cons_self, (Option.some.inj hnew).symm⟩
          · exact .inr hcall

/-- Every value that a call binds is an argument of the call or a default of the function. -/
lemma mem_bind {bound : List (Name × Value)} (hr : bind params call names = .ok bound)
    {b : Name × Value} (hb : b ∈ bound) :
    (∃ a ∈ call, a.value = b.2) ∨ ∃ p ∈ params, p.default = some b.2 := by
  unfold bind at hr
  dsimp only at hr
  split at hr
  · cases hr
  · split at hr
    · cases hr
    · obtain ⟨slots, hslots, hr⟩ := bind_eq_ok.mp hr
      rcases mem_fillDefaults hr hb with hmem | hdef
      · rcases mem_fillLabeled hslots hmem with hstart | ⟨a, ha, hval⟩
        · rcases List.mem_append.mp hstart with hpos | hfill
          · obtain ⟨a, ha, hval⟩ := List.mem_map.mp hpos
            exact .inl ⟨a, (List.takeWhile_sublist _).subset ha, Option.some.inj hval⟩
          · cases List.eq_of_mem_replicate hfill
        · exact .inl ⟨a, (List.dropWhile_sublist _).subset ha, hval⟩
      · exact .inr hdef

end Parameter

open Heap (Later Sound)

variable {env : Environment H} {c : Cursor} {self : Runner H} {s : Session H} {args : List CallArg}
  {f : Callable H} {id : ObjectId} {v : Value}

/-- Valid arguments of a call. -/
def ValidArgs (h : Heap H) (args : List CallArg) : Prop := ∀ a ∈ args, a.value.ValidIn h

lemma ValidArgs.later {h h' : Heap H} (ha : ValidArgs h args) (hl : Later T h h') :
    ValidArgs h' args :=
  fun a hmem => hl.grown.valid (ha a hmem)

/-- Valid values. -/
def ValidAll (h : Heap H) (vs : List Value) : Prop := ∀ v ∈ vs, v.ValidIn h

lemma ValidAll.later {h h' : Heap H} {vs : List Value} (hv : ValidAll h vs) (hl : Later T h h') :
    ValidAll h' vs :=
  fun v hmem => hl.grown.valid (hv v hmem)

lemma validAll_nil {h : Heap H} : ValidAll h [] := by
  intro v hv
  cases hv

lemma ValidAll.cons {h : Heap H} {vs : List Value} (hv : v.ValidIn h) (hvs : ValidAll h vs) :
    ValidAll h (v :: vs) := by
  intro w hw
  rcases List.mem_cons.mp hw with rfl | hw
  · exact hv
  · exact hvs w hw

/-! ## Script functions -/

/-- The arguments that are bound to the parameters of a live function. -/
lemma safe_bindArguments (hs : Sound T s.heap) (hf : s.heap.object? id = some (.callable f))
    (ha : ValidArgs s.heap args) :
    Eval.Safe T (bindArguments f.params args) s fun bound h => ∀ b ∈ bound, b.2.ValidIn h := by
  refine Eval.safe_read hs Parameter.plain_bind.quiet fun bound hr b hb => ?_
  rcases Parameter.mem_bind hr hb with ⟨a, hmem, hval⟩ | ⟨p, hp, hdef⟩
  · exact hval ▸ ha a hmem
  · exact hs.value id _ hf b.2 (List.mem_filterMap.mpr ⟨p, hp, hdef⟩)

lemma safe_defineAll {frame : ObjectId} (bound : List (Name × Value)) {s : Session H}
    (hs : Sound T s.heap) (hf : s.heap.HasKind .frame frame)
    (hb : ∀ b ∈ bound, b.2.ValidIn s.heap) :
    Eval.Safe T (bound.forM fun (name, value) => Eval.onHeap (Heap.define frame name value)) s
      fun _ => Heap.SamePins s.heap := by
  induction bound generalizing s with
  | nil => exact Eval.safe_pure hs fun _ => rfl
  | cons b rest ih =>
    refine (Eval.safe_onHeap (Heap.safe_define hs hf (hb b List.mem_cons_self))).bind
      fun _ s' hl hpins => ?_
    refine (ih hl.sound (hl.grown.hasKind hf) fun b hmem =>
      hl.grown.valid (hb b (List.mem_cons_of_mem _ hmem))).mono fun _ h' _ hpins' x => ?_
    exact (hpins' x).trans (hpins x)

lemma safe_callScript (hself : SafeRunner T env self) (hr : Ready T env c s.heap)
    (hf : s.heap.object? id = some (.callable f)) (ha : ValidArgs s.heap args) {body : Stmt} :
    Eval.Safe T (callScript env self c f body args) s fun v h => v.ValidIn h := by
  refine (safe_bindArguments hr.sound hf ha).bind fun bound s1 h1 hbound => ?_
  have hparent : s.heap.HasKind .frame (f.closure.getD env.root) := by
    cases hclosure : f.closure with
    | none => exact hr.root
    | some x => exact hr.sound.scope id _ hf x hclosure
  refine (Eval.safe_onHeap (Heap.safe_childFrame h1.sound (h1.grown.hasKind hparent) _
    fun _ => ⟨rfl, rfl⟩)).bind fun frame s2 h2 hframe => ?_
  refine (safe_defineAll bound h2.sound hframe.1 fun b hb => h2.grown.valid (hbound b hb)).bind
    fun _ s3 h3 hpins => ?_
  have hready : Ready T env { c with frame := frame } s3.heap :=
    (hr.later ((h1.trans h2).trans h3)).enter (h3.grown.hasKind hframe.1)
  refine (Eval.safe_withPinned h3.sound hready.frame ((hpins frame).trans hframe.2) fun s' hl =>
    hself.stmt (hready.later hl) body).bind fun flow s4 h4 hflow => ?_
  cases flow with
  | next => exact Eval.safe_pure h4.sound trivial
  | ret v => exact Eval.safe_pure h4.sound hflow

/-! ## Wiring operands -/

namespace Lift

/-- The port that carries an operand is an output of a live node. -/
lemma safe_sourcePort (hs : Sound T s.heap) (hv : v.ValidIn s.heap) :
    Eval.Safe T (sourcePort v) s fun p h => h.HasPort .output p := by
  have hconstant : ∀ s' : Session H, s'.heap = s.heap → ∀ name,
      Eval.Safe T (do
        let id ← Eval.onHeap (HeapM.alloc (.node (Node.constant name v)))
        return (⟨id, 0⟩ : PortRef)) s' fun p h => h.HasPort .output p := by
    intro s' hs' name
    rw [← hs'] at hs hv
    refine (Eval.safe_onHeap (HeapM.safe_alloc hs (Heap.fits_constant hv))).bind
      fun id s'' hl hid => ?_
    exact Eval.safe_pure hl.sound (Heap.hasPort_iff.mpr ⟨_, hid.1, rfl, Nat.zero_lt_one⟩)
  unfold sourcePort
  split
  · exact Eval.safe_pure hs hv
  · exact Eval.safe_nextNodeName_bind fun name s' hs' => hconstant s' hs' name

lemma safe_connect {input output : PortRef} (hs : Sound T s.heap)
    (hin : s.heap.contains input.node = true) (hout : s.heap.HasPort .output output) :
    Eval.Safe T (Eval.onHeap (Heap.connect input output)) s fun _ _ => True :=
  Eval.safe_onHeap ((Heap.keeps_connect hs).safe ⟨hin, hout.contains⟩)

lemma safe_wire {node : ObjectId} {kind : String} {count : Nat} (operands : List Value)
    {position : Nat} {s : Session H} (hs : Sound T s.heap) (hn : s.heap.contains node = true)
    (hv : ValidAll s.heap operands) :
    Eval.Safe T (wire node kind count position operands) s fun _ _ => True := by
  induction operands generalizing s position with
  | nil => exact Eval.safe_pure hs trivial
  | cons operand rest ih =>
    obtain ⟨o, ho⟩ := Heap.exists_object? hn
    have hkind := Heap.hasKind_of_object ho
    refine (safe_sourcePort hs (hv operand List.mem_cons_self)).bind fun source s1 h1 hsource => ?_
    split
    · refine (safe_connect h1.sound (h1.grown.hasKind hkind).contains hsource).bind
        fun _ s2 h2 _ => ?_
      exact ih h2.sound ((h1.trans h2).grown.hasKind hkind).contains fun w hw =>
        (h1.trans h2).grown.valid (hv w (List.mem_cons_of_mem _ hw))
    · exact Eval.safe_fail h1.sound rfl

/-- A new operator node, wired to its operands. -/
lemma safe_build {kind : String} {make : String → Node H} {operands : List Value}
    (hs : Sound T s.heap) (hv : ValidAll s.heap operands) (ho : Operator make operands.length) :
    Eval.Safe T (build kind make operands) s fun v h => v.ValidIn h := by
  refine Eval.safe_nextNodeName_bind fun name s' hs' => ?_
  rw [← hs'] at hs hv
  refine (Eval.safe_onHeap (HeapM.safe_alloc hs (Heap.fits_operator ho name))).bind
    fun id s1 h1 hid => ?_
  have hport : s1.heap.HasPort .output ⟨id, 0⟩ := by
    refine Heap.hasPort_iff.mpr ⟨_, hid.1, rfl, ?_⟩
    show 0 < (make name).outputs.size
    rw [ho.outputs]
    exact Nat.zero_lt_one
  refine (safe_wire operands h1.sound hport.contains (hv.later h1)).bind fun _ s2 h2 _ => ?_
  exact Eval.safe_pure h2.sound (h2.grown.hasPort hport)

end Lift

/-! ## Builtins -/

lemma safe_readIndex {target : Value} {indices : List Value} (hself : SafeRunner T env self)
    (hs : Sound T s.heap) (ht : target.ValidIn s.heap) :
    Eval.Safe T (readIndex self.stuck target indices) s fun v h => v.ValidIn h :=
  (Eval.safe_read hs (Heap.plain_index.quiet ht) fun _ => Heap.valid_index hs).barring
    (hself.stuck s)

lemma safe_callBuiltin {b : Builtin} {operands : List Value} (hself : SafeRunner T env self)
    (hs : Sound T s.heap) (hv : ValidAll s.heap operands) :
    Eval.Safe T (callBuiltin b operands self.stuck) s fun v h => v.ValidIn h := by
  refine callBuiltin_cases (motive := fun m _ => Eval.Safe T m s fun v h => v.ValidIn h) self.stuck
    self.stuck b operands (fun r hplain hgiven => ?_) (fun target indices ht => ?_)
    fun kind make vs ho hvs => ?_
  · refine Eval.safe_ofExcept hs hplain.quiet fun v hr => ?_
    rcases hgiven v hr with hmem | ⟨p, rfl⟩
    · exact hv v hmem
    · exact Value.valid_prim
  · exact safe_readIndex hself hs (hv target ht)
  · exact Lift.safe_build hs (fun v hmem => hv v (hvs v hmem)) ho

lemma safe_operandsOf (args : List CallArg) (hs : Sound T s.heap) (ha : ValidArgs s.heap args) :
    Eval.Safe T (operandsOf args) s fun vs h => ValidAll h vs := by
  induction args generalizing s with
  | nil => exact Eval.safe_pure hs validAll_nil
  | cons a rest ih =>
    have hvalid : a.value.ValidIn s.heap := ha a List.mem_cons_self
    unfold operandsOf
    split
    · exact Eval.safe_nameText_bind fun text => Eval.safe_fail hs rfl
    · refine (ih hs fun b hb => ha b (List.mem_cons_of_mem _ hb)).bind fun vs s' hl hvs => ?_
      exact Eval.safe_pure hl.sound (.cons (hl.grown.valid hvalid) hvs)

/-! ## Node creators -/

section Nodes

variable {node : ObjectId} {n : Node H} {kind : PortKind} {index : UInt16}

/-- Writing to a port that the node has. -/
lemma safe_writePort (hc : Contract T env.host env.plugins env.loader) (hs : Sound T s.heap)
    (hp : s.heap.HasPort kind ⟨node, index⟩) (hv : v.ValidIn s.heap) {otherwise : Cause}
    (hq : (EvalError.of otherwise).isDead = false) :
    Eval.Safe T (writePort env node kind index v otherwise) s fun _ _ => True := by
  cases kind with
  | param =>
    have hset := (Heap.keeps_setParam hc.toBehaves hs hv).safe hp.contains
    exact (Eval.safe_onHeap hset).mono fun _ _ _ _ => trivial
  | input =>
    refine (Lift.safe_sourcePort hs hv).bind fun source s' hl hsource => ?_
    exact Lift.safe_connect hl.sound (hl.grown.hasPort hp).contains hsource
  | output => exact Eval.safe_fail hs hq

lemma safe_applyNodeArguments (hc : Contract T env.host env.plugins env.loader)
    (args : List CallArg)
    {position : Nat} {s : Session H} (hs : Sound T s.heap) (hn : s.heap.HasKind .node node)
    (ha : ValidArgs s.heap args) :
    Eval.Safe T (applyNodeArguments env node position args) s fun _ _ => True := by
  induction args generalizing s position with
  | nil => exact Eval.safe_pure hs trivial
  | cons a rest ih =>
    unfold applyNodeArguments
    split
    · exact Eval.safe_fail hs rfl
    · refine Eval.safe_nameText_bind fun key => ?_
      refine (Eval.safe_read hs (Heap.plain_node.quiet hn.contains) fun n hn => hn).bind
        (Q := fun n h => h.node node = .ok n) fun n s1 h1 hnode => ?_
      have hrest : ∀ s2 : Session H, Later T s1.heap s2.heap →
          Eval.Safe T (applyNodeArguments env node (position + 1) rest) s2 fun _ _ => True :=
        fun s2 h2 => ih h2.sound ((h1.trans h2).grown.hasKind hn) fun b hb =>
          (h1.trans h2).grown.valid (ha b (List.mem_cons_of_mem _ hb))
      dsimp only
      split
      · next kind index hport =>
        have hp := Heap.hasPort_of_find (Heap.node_eq_ok.mp hnode) hport
        exact (safe_writePort hc h1.sound hp (h1.grown.valid (ha a List.mem_cons_self)) rfl).bind
          fun _ s2 h2 _ => hrest s2 h2
      · exact Eval.Safe.bind (Q := fun _ _ => True) (Eval.safe_fail h1.sound rfl) fun _ s2 h2 _ =>
          hrest s2 h2

lemma safe_createNode (hc : Contract T env.host env.plugins env.loader) (hs : Sound T s.heap)
    {create : NodeFactory H} (hcreate : T.holds s.heap (.creator create))
    (ha : ValidArgs s.heap args) :
    Eval.Safe T (createNode env f create args) s fun v h => v.ValidIn h := by
  refine Eval.safe_nameText_bind fun kind => Eval.safe_nextNodeName_bind fun name s1 hs1 => ?_
  rw [← hs1] at hs hcreate ha
  obtain ⟨hq, hfit⟩ := hc.create hs hcreate ⟨name, kind, f.library⟩
  refine Eval.Safe.bind (Q := fun n h => h.Fits T (.node n))
    ((Eval.safe_ofExcept hs hq hfit).mapError fun e he => ?_) fun n s2 h2 hn => ?_
  · split
    · rfl
    · exact he
  · have hlibrary : s2.heap.Fits T (.node { n with library := n.library <|> f.library }) :=
      ⟨hn.unwired, hn.value, nofun, nofun, hn.kernel⟩
    refine (Eval.safe_onHeap (HeapM.safe_alloc h2.sound hlibrary)).bind fun id s3 h3 hid => ?_
    have hkind : s3.heap.HasKind .node id := Heap.hasKind_of_object hid.1
    refine (safe_applyNodeArguments hc args h3.sound hkind (ha.later (h2.trans h3))).bind
      fun _ s4 h4 _ => Eval.safe_pure h4.sound (h4.grown.hasKind hkind)

end Nodes

/-! ## Calls -/

lemma safe_callValue (hc : Contract T env.host env.plugins env.loader)
    (hself : SafeRunner T env self)
    (hr : Ready T env c s.heap) {callee : Value} (hcallee : callee.ValidIn s.heap)
    (ha : ValidArgs s.heap args) {site : Location} :
    Eval.Safe T (callValue env self c callee args site) s fun v h => v.ValidIn h := by
  unfold callValue
  split
  · next id =>
    refine (Eval.safe_read hr.sound (Heap.plain_callable.quiet
      (Heap.contains_of_validIn hcallee rfl)) fun f hf => Heap.callable_eq_ok.mp hf).bind
      (Q := fun f h => h.object? id = some (.callable f)) fun f s1 h1 hf => ?_
    have hr1 := hr.later h1
    have ha1 := ha.later h1
    have hbody := h1.sound.body id f hf
    split
    · exact (safe_callScript hself hr1 hf ha1).withCallSite
    · next fn heq =>
      rw [heq] at hbody
      refine (safe_bindArguments h1.sound hf ha1).bind fun bound s2 h2 hbound => ?_
      have hargs : ∀ v ∈ bound.map Prod.snd, v.ValidIn s2.heap := fun v hv => by
        obtain ⟨b, hb, rfl⟩ := List.mem_map.mp hv
        exact hbound b hb
      -- the contract binds the host to valid answers, given valid arguments
      have hb := hc.toBehaves
      refine Eval.safe_onHeap ?_
      exact (hc.call h2.sound (T.grown h2.grown hbody) hargs).mono
        (fun v h' hok => ⟨hok.1.later hb h2.sound, hok.2⟩)
        fun e h' he => ⟨he.1.later hb h2.sound, fun _ => he.2⟩
    · next create heq =>
      rw [heq] at hbody
      exact safe_createNode hc h1.sound hbody ha1
    · refine (safe_operandsOf args h1.sound ha1).bind fun operands s2 h2 hops => ?_
      exact safe_callBuiltin hself h2.sound hops
  · exact Eval.safe_fail hr.sound rfl

lemma safe_callReserved (hc : Contract T env.host env.plugins env.loader)
    (hself : SafeRunner T env self) (hr : Ready T env c s.heap) {name : Name}
    {operands : List Value} (hv : ValidAll s.heap operands) {site : Location} :
    Eval.Safe T (callReserved env self c name operands site) s fun v h => v.ValidIn h := by
  refine (safe_lookup hc hself hr hr.frame).bind fun f s' hl hf => ?_
  refine safe_callValue hc hself (hr.later hl) hf fun a ha => ?_
  obtain ⟨v, hmem, rfl⟩ := List.mem_map.mp ha
  exact hl.grown.valid (hv v hmem)

end Patchbay
