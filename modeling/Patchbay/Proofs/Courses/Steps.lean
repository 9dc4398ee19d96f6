import Mathlib.Logic.Relation
import Patchbay.Eval.Call
import Patchbay.Proofs.Evaluation.Builtins
import Patchbay.Proofs.Safety.Soundness

/-!
# The course of an evaluation

What an evaluation does to the heap is a course of small steps: it writes values, stores objects,
calls host code and builds operator nodes. A ledger goes along. It says which values are known, to
the program or to host code, and which operator nodes were built. A value becomes known when it is
the handle of an object that was stored just now, a port of a known node, something that host code
finds, or the output of a new operator node; that node itself stays unknown, and so do its
constants.

What host code does is left open here: `Customs` says which operations it may do and what it may
find.
-/

namespace Patchbay

variable {H : HostTypes}

/-! ## Ledgers -/

/-- An attempt to make an operator node. -/
structure Construction where
  operands : List Value
  /-- The nodes that were made, the constant nodes among them. -/
  made : List ObjectId
  /-- The operator node, if all operands were connected to it. -/
  node : Option ObjectId

/-- What is known, and what was made. -/
structure Ledger where
  knows : Value → Prop
  /-- The objects that were stored one by one. -/
  stored : List ObjectId
  /-- The attempts to make operator nodes. -/
  built : List Construction

namespace Ledger

/-- A ledger in which more is known. -/
def learn (l : Ledger) (p : Value → Prop) : Ledger := { l with knows := fun v => l.knows v ∨ p v }

/-- One more attempt to make an operator node. -/
def record (l : Ledger) (c : Construction) : Ledger := { l with built := l.built ++ [c] }

/-- What becomes known by an operation: the handle of an object that is stored. A node that ticks
may send a port of a known node. -/
def after (l : Ledger) (h : Heap H) : Operation H → Ledger
  | .alloc o => { l.learn (· = .object o.kind h.nextId) with stored := l.stored ++ [h.nextId] }
  | .tick _ =>
    l.learn fun v => ∃ kind p, v = .port kind p ∧ h.HasPort kind p ∧ l.knows (.node p.node)
  | _ => l

end Ledger

/-! ## Host code -/

/-- Whether the body of a function is of the language, or among the host code `code`. -/
def CallableBody.Within (code : HostCode H → Prop) : CallableBody H → Prop
  | .native fn => code (.native fn)
  | .nodeCreator create => code (.creator create)
  | .script _ | .builtin _ => True

/-- Whether all that an object refers to is known, wires apart, and its host code is among
`code`. -/
structure Ledger.Holds (code : HostCode H → Prop) (l : Ledger) (o : HeapObject H) : Prop where
  value : ∀ v ∈ o.values, l.knows v
  scope : ∀ x, o.scope? = some x → l.knows (.frame x)
  body : ∀ c, o.callable? = some c → c.body.Within code
  kernel : ∀ k, o.hostKernel? = some k → code (.kernel k)

/-- How host code behaves, and whether evaluations may run out of fuel. -/
structure Customs (H : HostTypes) where
  stalls : Prop
  /-- Whether all values count as known, so that nothing has to be traced. -/
  trusting : Prop
  /-- The host code that there is. -/
  code : HostCode H → Prop
  /-- The operations that host code does. -/
  may : Heap H → Ledger → Operation H → Prop
  /-- The values that host code may come by. -/
  finds : Heap H → Ledger → Value → Prop

namespace Customs

variable (K : Customs H)

/-- Whether the body of a function is of the language, or host code that there is. -/
abbrev Licensed (body : CallableBody H) : Prop := body.Within K.code

/-- Whether all that an object refers to is known, and host code that there is. -/
abbrev Holds (l : Ledger) (o : HeapObject H) : Prop := l.Holds K.code o

/-- Whether all that is stored in a heap is known, and what is known is valid. -/
structure Covers (h : Heap H) (l : Ledger) : Prop where
  tidy : h.Tidy
  object : ∀ id o, h.object? id = some o → K.Holds l o
  absent : l.knows .absent
  prim : ∀ p, l.knows (.prim p)
  all : K.trusting → ∀ v, l.knows v
  valid : ¬ K.trusting → ∀ v, l.knows v → v.ValidIn h

/-- What the language does to the heap by itself. It rewires no node that it does not know, and it
leaves the pins of the root frame alone. -/
def Own (root : ObjectId) (l : Ledger) : Operation H → Prop
  | .alloc o => K.Holds l o ∧ (o.kind = .node → ∃ name v, o = .node (.constant name v))
  | .define _ _ v | .assign _ _ v | .bind _ _ v | .setIndex _ _ v => l.knows v
  | .setParam p v => l.knows (.node p.node) ∧ l.knows v
  | .connect input output => l.knows (.node input.node) ∧ l.knows (.output output)
  | .pin id | .unpin id => K.trusting ∨ id ≠ root
  | _ => False

/-- What a call of host code does, one operation at a time. -/
inductive Errand (host : KernelHost H) : Heap H × Ledger → Heap H × Ledger → Prop where
  | refl (a : Heap H × Ledger) : Errand host a a
  | act {a h l op} : Errand host a (h, l) → K.may h l op →
      Errand host a (op.after host h, l.after h op)
  | find {a h l v} : Errand host a (h, l) → K.finds h l v → Errand host a (h, l.learn (· = v))

end Customs

/-! ## Steps -/

/-- The objects of a heap that were not in an earlier one. -/
def Heap.newcomers (h h' : Heap H) : List ObjectId := h'.liveIds.filter fun id => !h.contains id

@[simp] lemma Heap.mem_newcomers {h h' : Heap H} {id : ObjectId} :
    id ∈ h.newcomers h' ↔ h'.contains id = true ∧ h.contains id = false := by
  simp [newcomers]

/-- One step of an evaluation. -/
inductive Step (K : Customs H) (env : Environment H) :
    Heap H × Ledger → Heap H × Ledger → Prop where
  /-- The language does an operation. -/
  | own {h l op} : K.Own env.root l op →
      Step K env (h, l) (op.after env.host.toKernelHost h, l.after h op)
  /-- A port of a known node is looked at. -/
  | port {h l kind p} : l.knows (.node p.node) → h.HasPort kind p →
      Step K env (h, l) (h, l.learn (· = .port kind p))
  /-- A loader interns names. -/
  | names {h l} (names : Interner) : Step K env (h, l) ({ h with names := names }, l)
  /-- A native function is called. -/
  | native {h l h' l' fn args} : K.Licensed (.native fn) → (∀ v ∈ args, l.knows v) →
      (env.host.call fn args).leaves h = h' → K.Errand env.host.toKernelHost (h, l) (h', l') →
      Step K env (h, l) (h', l')
  /-- A plugin makes a function. -/
  | factory {h l h' l' plugin request} : plugin ∈ env.plugins.functions →
      l.knows (.frame request.frame) → (plugin.factory request).leaves h = h' →
      K.Errand env.host.toKernelHost (h, l) (h', l') → Step K env (h, l) (h', l')
  /-- A node creator makes a node. -/
  | node {h l l' request n n'} {create : NodeFactory H} : K.Licensed (.nodeCreator create) →
      create request = .ok n → (∃ library, n' = { n with library := library }) →
      K.Errand env.host.toKernelHost (h, l) ((h.alloc (.node n')).2, l') →
      Step K env (h, l) ((h.alloc (.node n')).2, l')
  /-- A builtin makes an operator node. -/
  | built {s s' : Session H} {l kind make operands id} : Operator make operands.length →
      (∀ v ∈ operands, l.knows v) →
      Lift.build kind make operands s = .ok (.output ⟨id, 0⟩) s' →
      Step K env (s.heap, l) (s'.heap, (l.learn (· = .output ⟨id, 0⟩)).record
        ⟨operands, s.heap.newcomers s'.heap, some id⟩)
  /-- A builtin fails to make an operator node. -/
  | abandoned {s s' : Session H} {l kind make operands e} : Operator make operands.length →
      (∀ v ∈ operands, l.knows v) → Lift.build kind make operands s = .error e s' →
      Step K env (s.heap, l) (s'.heap, l.record ⟨operands, s.heap.newcomers s'.heap, none⟩)

/-- A sequence of steps. -/
abbrev Course (K : Customs H) (env : Environment H) : Heap H × Ledger → Heap H × Ledger → Prop :=
  Relation.ReflTransGen (Step K env)

/-! ## What stays known -/

section Known

variable {K : Customs H} {env : Environment H} {a b : Heap H × Ledger} {v : Value}
  {h h' : Heap H} {l l' : Ledger} {o : HeapObject H} {op : Operation H} {host : KernelHost H}

lemma Ledger.knows_after (hv : l.knows v) : (l.after h op).knows v := by
  cases op with
  | alloc o => exact .inl hv
  | tick id => exact .inl hv
  | _ => exact hv

lemma Customs.Errand.knows (hc : K.Errand host a b) (hv : a.2.knows v) : b.2.knows v := by
  induction hc with
  | refl => exact hv
  | act _ _ ih => exact Ledger.knows_after ih
  | find _ _ ih => exact .inl ih

lemma Step.knows (hs : Step K env a b) (hv : a.2.knows v) : b.2.knows v := by
  cases hs with
  | own => exact Ledger.knows_after hv
  | port => exact .inl hv
  | names => exact hv
  | native _ _ _ errand => exact errand.knows hv
  | factory _ _ _ errand => exact errand.knows hv
  | node _ _ _ errand => exact errand.knows hv
  | built => exact .inl hv
  | abandoned => exact hv

lemma Course.trans {c : Heap H × Ledger} (h1 : Course K env a b) (h2 : Course K env b c) :
    Course K env a c := Relation.ReflTransGen.trans h1 h2

/-- Nothing is forgotten. -/
lemma Course.knows (hc : Course K env a b) (hv : a.2.knows v) : b.2.knows v := by
  induction hc with
  | refl => exact hv
  | tail _ step ih => exact step.knows ih

lemma Ledger.built_after : (l.after h op).built = l.built := by
  cases op <;> rfl

lemma Customs.Errand.built (hc : K.Errand host a b) : b.2.built = a.2.built := by
  induction hc with
  | refl => rfl
  | act _ _ ih => exact Ledger.built_after.trans ih
  | find _ _ ih => exact ih

/-- Nothing is crossed out. -/
lemma Course.built (hc : Course K env a b) : a.2.built <+: b.2.built := by
  induction hc with
  | refl => exact List.prefix_refl _
  | tail _ step ih =>
    refine ih.trans ?_
    cases step with
    | own => exact Ledger.built_after ▸ List.prefix_refl _
    | port => exact List.prefix_refl _
    | names => exact List.prefix_refl _
    | native _ _ _ errand => exact errand.built ▸ List.prefix_refl _
    | factory _ _ _ errand => exact errand.built ▸ List.prefix_refl _
    | node _ _ _ errand => exact errand.built ▸ List.prefix_refl _
    | built => exact List.prefix_append _ _
    | abandoned => exact List.prefix_append _ _

lemma Ledger.Holds.mono {code : HostCode H → Prop} (ho : l.Holds code o)
    (hl : ∀ v, l.knows v → l'.knows v) : l'.Holds code o :=
  ⟨fun v hv => hl _ (ho.value v hv), fun x hx => hl _ (ho.scope x hx), ho.body, ho.kernel⟩

/-- An object that does not refer to code. -/
lemma Customs.holds_data (hv : ∀ v ∈ o.values, l.knows v)
    (hs : ∀ x, o.scope? = some x → l.knows (.frame x)) (hc : o.callable? = none)
    (hk : o.hostKernel? = none) : K.Holds l o :=
  ⟨hv, hs, fun c h => (Option.some_ne_none c (h.symm.trans hc)).elim,
    fun k h => (Option.some_ne_none k (h.symm.trans hk)).elim⟩

end Known

/-! ## What stays valid -/

namespace Heap

variable {h h' h'' : Heap H} {v : Value} {o : HeapObject H} {id : ObjectId}

/-- Every live object stays and is of the same shape. -/
def Persists (h h' : Heap H) : Prop := ∀ id s, h.shape? id = some s → h'.shape? id = some s

namespace Persists

lemma trans (h1 : h.Persists h') (h2 : h'.Persists h'') : h.Persists h'' :=
  fun id s hs => h2 id s (h1 id s hs)

lemma of_shape (hs : ∀ id, h'.shape? id = h.shape? id) : h.Persists h' :=
  fun id _ hid => (hs id).trans hid

lemma hasPort {kind : PortKind} {p : PortRef} (hp : h.Persists h') (hport : h.HasPort kind p) :
    h'.HasPort kind p := by
  obtain ⟨s, hs, hport⟩ := hport
  exact ⟨s, hp _ _ hs, hport⟩

lemma valid (hp : h.Persists h') (hv : v.ValidIn h) : v.ValidIn h' := by
  cases v with
  | absent => trivial
  | prim p => trivial
  | object kind id =>
    obtain ⟨s, hs, hkind⟩ := hv
    exact ⟨s, hp _ _ hs, hkind⟩
  | port kind p => exact hp.hasPort hv

lemma contains (hp : h.Persists h') (hc : h.contains id = true) : h'.contains id = true := by
  obtain ⟨o, ho⟩ := exists_object? hc
  exact contains_of_shape (hp id _ (shape?_eq_some.mpr ⟨o, ho, rfl⟩))

lemma modifyEntry {f : Entry H → Entry H} (hf : ∀ e, (f e).object = e.object) :
    h.Persists (h.modifyEntry id f) :=
  of_shape fun x => by rw [shape?, object?_modifyEntry hf, shape?]

end Persists
end Heap

/-! ## All that is stored is known -/

namespace Customs.Covers

open Heap

variable {K : Customs H} {h h' : Heap H} {l l' : Ledger} {o : HeapObject H} {op : Operation H}
  {host : KernelHost H} {id root : ObjectId} {v : Value}

/-- More is known that is valid. -/
lemma learn (hc : K.Covers h l) {p : Value → Prop} (hp : ¬ K.trusting → ∀ v, p v → v.ValidIn h) :
    K.Covers h (l.learn p) where
  tidy := hc.tidy
  object id o ho := (hc.object id o ho).mono fun _ => .inl
  absent := .inl hc.absent
  prim p := .inl (hc.prim p)
  all ht v := .inl (hc.all ht v)
  valid ht v hv := hv.elim (hc.valid ht v) (hp ht v)

lemma record (hc : K.Covers h l) (c : Construction) : K.Covers h (l.record c) :=
  ⟨hc.tidy, fun id o ho => (hc.object id o ho).mono fun _ hv => hv, hc.absent, hc.prim, hc.all,
    hc.valid⟩

lemma forget {c : Construction} (hc : K.Covers h (l.record c)) : K.Covers h l :=
  ⟨hc.tidy, fun id o ho => (hc.object id o ho).mono fun _ hv => hv, hc.absent, hc.prim, hc.all,
    hc.valid⟩

/-- Known values were written, or wires were changed. -/
lemma rewritten (hc : K.Covers h l)
    (ht : Touched (HeapObject.Rewritten l.knows fun k => K.code (.kernel k)) h h') :
    K.Covers h' l where
  tidy := ht.sameSlots.tidy hc.tidy
  object id o' ho' := by
    obtain ⟨o, ho, hr⟩ := ht.object_from ho'
    have hold := hc.object id o ho
    exact ⟨fun v hv => (hr.value v hv).elim (hold.value v) fun hv => hv,
      fun x hx => hold.scope x (hr.scope ▸ hx), fun c hc => hold.body c (hr.callable ▸ hc),
      fun k hk => (hr.kernel k hk).elim (hold.kernel k) fun hk => hk⟩
  absent := hc.absent
  prim := hc.prim
  all := hc.all
  valid hnot v hv := (ht.extends fun _ _ hr => hr.shape).valid (hc.valid hnot v hv)

lemma stored (hc : K.Covers h l) (hs : Stored l.knows (fun k => K.code (.kernel k)) h h') :
    K.Covers h' l :=
  hc.rewritten (hs.mono fun _ _ hr => hr.1)

lemma rewired (hc : K.Covers h l) (hr : Rewired h h') : K.Covers h' l :=
  hc.rewritten (hr.mono fun _ _ hr => hr.mono (fun _ => False.elim) fun _ => False.elim)

/-- Only the bookkeeping of an object was changed. -/
lemma modifyEntry (hc : K.Covers h l) {f : Entry H → Entry H} (hf : ∀ e, (f e).object = e.object) :
    K.Covers (h.modifyEntry id f) l where
  tidy := sameSlots_modifyEntry.tidy hc.tidy
  object x o ho := hc.object x o (by rwa [object?_modifyEntry hf] at ho)
  absent := hc.absent
  prim := hc.prim
  all := hc.all
  valid hnot v hv := (Persists.modifyEntry hf).valid (hc.valid hnot v hv)

lemma pin (hc : K.Covers h l) : K.Covers ((Operation.pin id).after host h) l :=
  leaves_pin (P := fun h' => K.Covers h' l) hc fun _ => hc.modifyEntry fun _ => rfl

lemma alloc (hc : K.Covers h l) (ho : K.Holds l o) :
    K.Covers (h.alloc o).2 (l.after h (.alloc o)) where
  tidy := hc.tidy.alloc o
  object id o' ho' := by
    refine Ledger.Holds.mono ?_ fun v hv => Ledger.knows_after hv
    rcases object?_alloc_or ho' with rfl | hold
    · exact ho
    · exact hc.object id o' hold
  absent := .inl hc.absent
  prim p := .inl (hc.prim p)
  all ht v := .inl (hc.all ht v)
  valid hnot v hv := by
    rcases hv with hold | rfl
    · exact (extends_alloc hc.tidy).valid (hc.valid hnot v hold)
    · refine hasKind_of_object ?_
      rw [object?_alloc hc.tidy, if_pos rfl]

/-- An operation writes known values. -/
lemma written {α : Type} {m : HeapM H α} {fine : Prop} (hc : K.Covers h l)
    (hw : Writes l.knows (fun k => K.code (.kernel k)) fine m h) : K.Covers (m.leaves h) l :=
  HeapM.Ends.leaves (hw.mono (fun _ _ hs => hc.stored hs) fun _ _ he => hc.stored he.1)

/-- What the language does by itself stores only what is known. -/
lemma own (hc : K.Covers h l) (ho : K.Own root l op) :
    K.Covers (op.after host h) (l.after h op) := by
  cases op with
  | alloc o => exact hc.alloc ho.1
  | define frame name v => exact hc.written (writes_define ho)
  | assign frame name v =>
    have hw : Writes l.knows (fun k => K.code (.kernel k)) _ (assign frame name v) h :=
      writes_assign ho
    exact hc.written hw.discard
  | bind frame name v => exact hc.written (writes_bind ho)
  | setIndex target indices v => exact hc.written (writes_setIndex ho)
  | setParam p v => exact hc.written (writes_setParam ho.2)
  | connect input output =>
    exact leaves_connect (P := fun h' => K.Covers h' l) hc fun _ _ =>
      hc.rewired (rewired_unplug.trans rewired_plug)
  | pin id => exact hc.pin
  | unpin id => exact hc.modifyEntry fun _ => rfl
  | _ => exact ho.elim

end Customs.Covers

end Patchbay
