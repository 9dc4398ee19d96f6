import Patchbay.Proofs.Courses.Guarding

/-!
# The ledger is complete

Every operator node on the heap was stored as an object of its own, or the ledger tells of the
attempt that made it. Every frame is known.
-/

namespace Patchbay

variable {H : HostTypes} {env : Environment H} {code : HostCode H → Prop}

/-! ## Operator nodes stay operator nodes -/

lemma Kernel.isOperator_run {host : KernelHost H} {kernel : Kernel H.Kernel} {h : Heap H}
    {n : Node H}
    {inputs : Array Value} : (kernel.run host h n inputs).2.isOperator = kernel.isOperator := by
  cases kernel <;> rfl

lemma Node.kernel_send {n : Node H} {values : List Value} :
    (n.send values).2.kernel = n.kernel := by
  refine List.foldlRecOn (motive := fun acc : List Value × Node H => acc.2.kernel = n.kernel)
    _ _ rfl ?_
  rintro ⟨olds, n'⟩ hk ⟨i, w⟩ -
  dsimp only at hk ⊢
  split
  · exact hk
  · exact hk

lemma Node.isOperator_tick {host : KernelHost H} {h : Heap H} {n : Node H}
    {kernel : Kernel H.Kernel}
    {inputs : Array Value} : (n.tick host h kernel inputs).node.isOperator = kernel.isOperator := by
  unfold tick Node.isOperator
  dsimp only
  split
  · exact Kernel.isOperator_run
  · split
    · exact Kernel.isOperator_run
    · rw [kernel_send]
      exact Kernel.isOperator_run

namespace Heap

variable {h h' : Heap H} {x id : ObjectId} {host : KernelHost H}

lemma contains_of_isOperator (hx : h.isOperator x = true) : h.contains x = true := by
  unfold isOperator at hx
  split at hx
  · next ho => exact contains_of_object? ho
  · cases hx

lemma isOperator_of_object (ho : h'.object? x = h.object? x) :
    h'.isOperator x = h.isOperator x := by
  rw [isOperator, ho, isOperator]

/-- The kernel of a node does not depend on what the node is connected to. -/
lemma kernel_of_unplugged {n n' : Node H}
    (heq : (HeapObject.node n').unplugged = (HeapObject.node n).unplugged) :
    n'.kernel = n.kernel := by
  simp only [HeapObject.unplugged, HeapObject.node.injEq, Node.mk.injEq] at heq
  obtain ⟨-, -, -, -, -, hkernel, -⟩ := heq
  exact hkernel

lemma isOperator_of_plain (hp : h'.plain? x = h.plain? x) : h'.isOperator x = h.isOperator x := by
  unfold plain? at hp
  unfold isOperator
  cases ho : h.object? x with
  | none =>
    rw [ho, Option.map_none, Option.map_eq_none_iff] at hp
    rw [hp]
  | some o =>
    rw [ho, Option.map_some] at hp
    obtain ⟨o', ho', heq⟩ := Option.map_eq_some_iff.mp hp
    rw [ho']
    cases o with
    | node n =>
      cases o' with
      | node n' => exact congrArg (Option.any Kernel.isOperator) (kernel_of_unplugged heq)
      | _ => cases heq
    | _ =>
      cases o' with
      | node n' => cases heq
      | _ => rfl

lemma Evolved.isOperator (he : h.Evolved h') : h'.isOperator x = h.isOperator x := by
  unfold Heap.isOperator
  cases ho : h.object? x with
  | none =>
    cases ho' : h'.object? x with
    | none => rfl
    | some o' =>
      obtain ⟨o, hold, -⟩ := he.object_from ho'
      rw [ho] at hold
      cases hold
  | some o =>
    obtain ⟨o', ho', hevolves⟩ := he.object ho
    rw [ho']
    cases hevolves with
    | node _ _ _ _ _ _ hkernel => exact congrArg (Option.any Kernel.isOperator) hkernel
    | _ => rfl

lemma isOperator_pushElement {v : Value} :
    ((pushElement id v).leaves h).isOperator x = h.isOperator x := by
  refine HeapM.Ends.leaves (Q := fun h' => h'.isOperator x = h.isOperator x)
    (HeapM.ends_check_bind (fun items hitems => ?_) fun _ _ => rfl)
  rw [sequence_eq_ok] at hitems
  refine HeapM.ends_change.mpr ?_
  by_cases hx : x = id
  · unfold isOperator
    rw [object?_modifyObject, if_pos hx, hx, hitems]
    rfl
  · exact isOperator_of_object (object?_modifyObject_of_ne hx)

lemma isOperator_tickNode : ((tickNode host id).leaves h).isOperator x = h.isOperator x := by
  rw [leaves_tickNode]
  split
  · next t ht =>
    have hticked := tickedAt_put ht
    by_cases hx : x = id
    · subst hx
      obtain ⟨inputs, -, ht⟩ := bind_eq_ok.mp ht
      obtain ⟨kernel, hkernel, ht⟩ := bind_eq_ok.mp ht
      obtain ⟨n, hn, hk⟩ := idleKernel_eq_ok.mp hkernel
      rw [node_eq_ok.mpr hn] at ht
      cases ht
      have hput : (h.put x (n.busy.tick host (h.busy x) kernel inputs)).object? x =
          some (.node (n.busy.tick host (h.busy x) kernel inputs).node) := by
        rw [put, object?_releaseAll, object?_putNode_self (contains_of_object? hn)]
      rw [isOperator_of_node hput, isOperator_of_node hn, Node.isOperator_tick, Node.isOperator, hk,
        Option.any_some]
    · exact isOperator_of_object (hticked.object x hx)
  · rfl

end Heap

section Tame

open Heap

variable {host : KernelHost H} {root x : ObjectId} {h : Heap H} {l : Ledger} {op : Operation H}

/-- A tame operation makes no operator node of anything that was there. -/
lemma Operation.Tame.isOperator (hop : op.Tame host code root h l) (ht : h.Tidy)
    (hx : (op.after host h).isOperator x = true) :
    h.isOperator x = true ∨ ∃ o, op = .alloc o ∧ x = h.nextId := by
  have hevolved : ∀ {α : Type} {m : HeapM H α}, LeavesEvolved m h →
      (m.leaves h).isOperator x = h.isOperator x :=
    fun hm => Evolved.isOperator (HeapM.Ends.leaves hm)
  have hfilled : ∀ {α : Type} {m : HeapM H α}, LeavesFilled m h →
      (m.leaves h).isOperator x = h.isOperator x := fun hm => hevolved (LeavesFilled.evolved hm)
  -- a tame operation writes, wires, pins or allocates; only the last can make an operator appear
  cases op with
  | alloc o =>
    by_cases hnext : x = h.nextId
    · exact .inr ⟨o, rfl, hnext⟩
    · refine .inl (Eq.trans (isOperator_of_object ?_).symm hx)
      rw [after_alloc, object?_alloc ht, if_neg hnext]
  | define frame name v => exact .inl ((hfilled filled_define).symm.trans hx)
  | assign frame name v => exact .inl ((hfilled (HeapM.Ends.discard filled_assign)).symm.trans hx)
  | bind frame name v => exact .inl ((hfilled filled_bind).symm.trans hx)
  | setRef cell v => exact .inl ((hfilled filled_setRef).symm.trans hx)
  | setIndex target indices v => exact .inl ((hfilled filled_setIndex).symm.trans hx)
  | setParam p v => exact .inl ((hevolved evolved_setParam).symm.trans hx)
  | connect input output => exact .inl ((hevolved evolved_connect).symm.trans hx)
  | pushElement sequence v => exact .inl (isOperator_pushElement.symm.trans hx)
  | tick id => exact .inl (isOperator_tickNode.symm.trans hx)
  | pin id => exact .inl ((isOperator_of_object (spares_pin h)).symm.trans hx)
  | unpin id =>
    have hobj : (h.unpin id).object? x = h.object? x := object?_modifyEntry fun _ => rfl
    exact .inl ((isOperator_of_object hobj).symm.trans hx)
  | intern text =>
    exact .inl ((isOperator_of_object (HeapM.Spares.discard spares_internName h)).symm.trans hx)
  | _ => exact hop.elim

/-- What is live after a tame operation was there before, unless it is stored just now. -/
lemma Operation.Tame.shape (hop : op.Tame host code root h l) (ht : h.Tidy) {s : ObjectShape}
    (hs : (op.after host h).shape? x = some s) :
    h.shape? x = some s ∨ ∃ o, op = .alloc o ∧ x = h.nextId ∧ o.shape = s := by
  have he := effect_after host op h
  obtain ⟨o', ho', rfl⟩ := shape?_eq_some.mp hs
  -- by what the operation does to the heap, not by which operation it is
  generalize op.after host h = h' at he ho'
  cases he with
  | write hw =>
    obtain ⟨o, ho, hr⟩ := hw.object_from ho'
    exact .inl (shape?_eq_some.mpr ⟨o, ho, hr.1.shape.symm⟩)
  | alloc o =>
    rw [object?_alloc ht] at ho'
    split at ho'
    · next hx =>
      cases ho'
      exact .inr ⟨_, rfl, hx, rfl⟩
    · exact .inl (shape?_eq_some.mpr ⟨o', ho', rfl⟩)
  | connect =>
    obtain ⟨o, ho, hr⟩ := (rewired_unplug.trans rewired_plug).object_from ho'
    exact .inl (shape?_eq_some.mpr ⟨o, ho, hr.shape.symm⟩)
  | @pin id _ _ =>
    have hsame : (h.pinned id).object? x = h.object? x := object?_modifyEntry fun _ => rfl
    exact .inl (shape?_eq_some.mpr ⟨o', hsame.symm.trans ho', rfl⟩)
  | unpin id =>
    have hsame : (h.unpin id).object? x = h.object? x := object?_modifyEntry fun _ => rfl
    exact .inl (shape?_eq_some.mpr ⟨o', hsame.symm.trans ho', rfl⟩)
  | remove => exact hop.elim
  | unplug => exact hop.elim
  | collect => exact hop.elim

end Tame

/-! ## The ledger of a course -/

variable {h h' : Heap H} {l l' : Ledger}

/-- The ledger tells where every operator node comes from: it was stored as an object of its own, or
it was made in an attempt, and is the one that was to be made unless the attempt failed. All frames
are known. -/
structure Ledger.Accounts (l : Ledger) (h : Heap H) : Prop where
  operator : ∀ x, h.isOperator x = true →
    x ∈ l.stored ∨ ∃ c ∈ l.built, x ∈ c.made ∧ (c.node = none ∨ c.node = some x)
  frame : ∀ x, h.HasKind .frame x → l.knows (.frame x)

namespace Ledger.Accounts

lemma mono (ha : l.Accounts h)
    (hop : ∀ x, h'.isOperator x = true → h.isOperator x = true ∨ x ∈ l'.stored)
    (hframe : ∀ x, h'.HasKind .frame x → h.HasKind .frame x ∨ l'.knows (.frame x))
    (hstored : ∀ x ∈ l.stored, x ∈ l'.stored) (hknows : ∀ v, l.knows v → l'.knows v)
    (hbuilt : ∀ c ∈ l.built, c ∈ l'.built) : l'.Accounts h' where
  operator x hx := by
    rcases hop x hx with hold | hnew
    · rcases ha.operator x hold with hs | ⟨c, hc, hmade⟩
      · exact .inl (hstored x hs)
      · exact .inr ⟨c, hbuilt c hc, hmade⟩
    · exact .inl hnew
  frame x hx := (hframe x hx).elim (fun hold => hknows _ (ha.frame x hold)) id

/-- More may be known. -/
lemma learn (ha : l.Accounts h) (p : Value → Prop) : (l.learn p).Accounts h :=
  ha.mono (fun _ => .inl) (fun _ => .inl) (fun _ hx => hx) (fun _ => .inl) fun _ hc => hc

lemma tame {host : KernelHost H} {root : ObjectId} {op : Operation H} (ha : l.Accounts h)
    (hop : op.Tame host code root h l) (ht : h.Tidy) :
    (l.after h op).Accounts (op.after host h) := by
  refine ha.mono (fun x hx => ?_) (fun x hx => ?_) (fun x hx => ?_) (fun v => Ledger.knows_after)
    fun c hc => Ledger.built_after.symm ▸ hc
  · rcases hop.isOperator ht hx with hold | ⟨o, rfl, rfl⟩
    · exact .inl hold
    · exact .inr (List.mem_append_right _ (List.mem_singleton_self _))
  · obtain ⟨s, hs, hkind⟩ := hx
    rcases hop.shape ht hs with hold | ⟨o, rfl, rfl, rfl⟩
    · exact .inl ⟨s, hold, hkind⟩
    · rw [HeapObject.kind_shape] at hkind
      exact .inr (.inr (congrArg (Value.object · h.nextId) hkind.symm))
  · cases op with
    | alloc o => exact List.mem_append_left _ hx
    | _ => exact hx

lemma errand {a b : Heap H × Ledger}
    (he : (Customs.discreet env.host.toKernelHost code).Errand env.host.toKernelHost a b)
    (hg : Guarded env code a.1 a.2) (ha : a.2.Accounts a.1) : b.2.Accounts b.1 := by
  induction he with
  | refl => exact ha
  | @act h l op hbefore hmay ih =>
    have hbetween := hg.errand hbefore
    have htame : op.Tame env.host.toKernelHost code env.root h l := hbetween.covers.tame hmay
    exact ih.tame htame hbetween.sound.tidy
  | find _ _ ih => exact ih.learn _

/-- An attempt to make an operator node is recorded. -/
lemma record {make : String → Node H} {operands : List Value} {node : Option ObjectId}
    (ha : l.Accounts h) (hasm : h.Assembled make operands h') (hbuilt : l'.built = l.built)
    (hstored : l'.stored = l.stored) (hknows : ∀ v, l.knows v → l'.knows v)
    (hnode : node = none ∨ node = some h.nextId) :
    (l'.record ⟨operands, h.newcomers h', node⟩).Accounts h' := by
  refine ⟨fun x hx => ?_, fun x hx => hknows _ (ha.frame x (hasm.frame hx))⟩
  have hlive := Heap.contains_of_isOperator hx
  by_cases hold : h.contains x = true
  · rw [Heap.isOperator_of_plain (hasm.plain x hold)] at hx
    rcases ha.operator x hx with hs | ⟨c, hc, hmade⟩
    · exact .inl (by rwa [Ledger.record, hstored])
    · exact .inr ⟨c, by rw [Ledger.record, hbuilt]; exact List.mem_append_left _ hc, hmade⟩
  · have hnew : x ∈ h.newcomers h' := Heap.mem_newcomers.mpr ⟨hlive, by simpa using hold⟩
    refine .inr ⟨_, List.mem_append_right _ (List.mem_singleton_self _), hnew, ?_⟩
    rcases hasm.newcomer x hlive with hc | ⟨name, rfl, -⟩ | ⟨name, u, -, -, hplain⟩
    · exact absurd hc hold
    · exact hnode
    · -- constant nodes are no operators
      obtain ⟨o, ho, heq⟩ := Option.map_eq_some_iff.mp hplain
      cases o with
      | node n =>
        have hkernel : n.kernel = some .constant := Heap.kernel_of_unplugged heq
        rw [Heap.isOperator_of_node ho, Node.isOperator, hkernel] at hx
        cases hx
      | _ => cases heq

end Ledger.Accounts

/-- A step leaves the ledger complete. -/
lemma Step.accounts {a b : Heap H × Ledger}
    (hs : Step (.discreet env.host.toKernelHost code) env a b)
    (hg : Guarded env code a.1 a.2) (ha : a.2.Accounts a.1) : b.2.Accounts b.1 := by
  cases hs with
  | own hop => exact ha.tame hop.tame hg.sound.tidy
  | port => exact ha.learn _
  | names names => exact ⟨ha.operator, ha.frame⟩
  | native _ _ _ errand => exact .errand errand hg ha
  | factory _ _ _ errand => exact .errand errand hg ha
  | node _ _ _ errand => exact .errand errand hg ha
  | @built s s' l kind make operands id ho hv hrun =>
    have hguarded : Guarded env code s.heap l := hg
    have hasm := hguarded.leaves_assembled kind ho hv
    rw [hrun] at hasm
    have hresult := Lift.build_result hrun
    cases hresult
    exact Ledger.Accounts.record ha hasm rfl rfl (fun _ => .inl) (.inr rfl)
  | @abandoned s s' l kind make operands e ho hv hrun =>
    have hguarded : Guarded env code s.heap l := hg
    have hasm := hguarded.leaves_assembled kind ho hv
    rw [hrun] at hasm
    exact Ledger.Accounts.record ha hasm rfl rfl (fun _ hv => hv) (.inl rfl)

end Patchbay
