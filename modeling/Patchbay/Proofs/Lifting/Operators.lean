import Patchbay.Proofs.Evaluation.ComingBack
import Patchbay.Proofs.Lifting.Building

/-!
# The two implementations of each operator

An operator computes at once on plain values, and builds a node for signals. The kernel of that node
finds its operator again by a param of the node. This file puts both next to each other for binary
and unary operators, indexing and conversions.
-/

namespace Patchbay

variable {H : HostTypes}

/-- An operator with both implementations: what it computes, and the node that it builds instead if
there is a signal among its operands. -/
structure LiftedOperator (H : HostTypes) where
  builtin : Builtin
  /-- What the builtin takes before the operands. -/
  fixed : List Value
  /-- The number of operands. -/
  count : Nat
  kind : String
  make : String → Node H
  kernel : Kernel H.Kernel
  apply : Heap H → List Value → Except EvalError Value
  limit : count ≤ UInt16.size
  blank : ∀ name, Lift.Blank (make name) count
  made : ∀ name, (make name).kernel = some kernel
  compute : ∀ name (n : Node H) h ws, n.params = (make name).params → ws.length = count →
    kernel.compute h n ws = List.singleton <$> apply h ws
  stream : ∀ stuck us, us.length = count → us.any Value.isOutput = true →
    callBuiltin builtin (fixed ++ us) stuck = Lift.build kind make us
  plain : ∀ stuck us, us.length = count → us.any Value.isOutput = false → ∀ s v s',
    callBuiltin builtin (fixed ++ us) stuck s = .ok v s' ↔ apply s.heap us = .ok v ∧ s' = s
  congr : ∀ moved h h' ws, Heap.Keeps moved h h' → (∀ w ∈ ws, w.ValidIn h) →
    apply h' ws = apply h ws
  valid : ∀ (T : Trust H) h ws v, Heap.Sound T h → (∀ w ∈ ws, w.ValidIn h) → apply h ws = .ok v →
    v.ValidIn h

lemma ofExcept_eq_ok {r : Except EvalError Value} {s s' : Session H} {v : Value} :
    Eval.ofExcept r s = .ok v s' ↔ r = .ok v ∧ s' = s := by
  cases r with
  | ok w =>
    change Outcome.ok w s = .ok v s' ↔ _
    simp only [Outcome.ok.injEq, Except.ok.injEq, eq_comm]
  | error e => exact ⟨nofun, fun h => nomatch h.1⟩

lemma return_eq_singleton {r : Except EvalError Value} :
    (do return [← r] : Except EvalError (List Value)) = List.singleton <$> r := by
  cases r <;> rfl

lemma binarySymbol_symbol (op : BinaryOp) : Lift.binarySymbol (.text op.symbol) = .ok op := by
  unfold Lift.binarySymbol
  rw [Lift.symbolText, pure_bind, BinaryOp.ofSymbol?_symbol]
  rfl

lemma unarySymbol_symbol (op : UnaryOp) : Lift.unarySymbol (.text op.symbol) = .ok op := by
  unfold Lift.unarySymbol
  rw [Lift.symbolText, pure_bind, UnaryOp.ofSymbol?_symbol]
  rfl

/-- A param that a node was made with. -/
lemma param_congr {n n₀ : Node H} (hp : n.params = n₀.params) (key : String) :
    n.param? key = n₀.param? key := by
  unfold Node.param?
  rw [hp]

namespace LiftedOperator

/-- Binary operators; the node keeps the symbol. -/
def ofBinary (op : BinaryOp) : LiftedOperator H where
  builtin := .binaryOp
  fixed := [.text op.symbol]
  count := 2
  kind := "binaryOp"
  make name := .binaryOp name op
  kernel := .binaryOp
  apply _ ws :=
    match ws with
    | [a, b] => Value.binary op a b
    | _ => fail (.wrongOperandCount Builtin.binaryOp.reservedName 2 ws.length)
  limit := by decide
  blank name := ⟨HeapObject.unwired_binaryOp, rfl, rfl, rfl⟩
  made _ := rfl
  compute name n h ws hparams hlen := by
    obtain ⟨a, b, rfl⟩ := List.length_eq_two.mp hlen
    have hop : n.param? "op" = some (.text op.symbol) := param_congr hparams "op"
    simp only [Kernel.compute, Kernel.symbolParam, hop, pure_bind, BinaryOp.ofSymbol?_symbol]
    exact return_eq_singleton
  stream stuck us hlen hout := by
    obtain ⟨a, b, rfl⟩ := List.length_eq_two.mp hlen
    have hor : (a.isOutput || b.isOutput) = true := by simpa using hout
    change Eval.bind (Eval.ofExcept (Lift.binarySymbol (.text op.symbol))) _ = _
    rw [binarySymbol_symbol]
    change (if (a.isOutput || b.isOutput) = true then _ else _ : Eval H Value) = _
    rw [if_pos hor]
  plain stuck us hlen hout s v s' := by
    obtain ⟨a, b, rfl⟩ := List.length_eq_two.mp hlen
    have hor : (a.isOutput || b.isOutput) ≠ true := by simpa using hout
    change Eval.bind (Eval.ofExcept (Lift.binarySymbol (.text op.symbol))) _ s = _ ↔ _
    rw [binarySymbol_symbol]
    change (if (a.isOutput || b.isOutput) = true then _ else _ : Eval H Value) s = _ ↔ _
    rw [if_neg hor, ofExcept_eq_ok]
  congr moved h h' ws hk hws := rfl
  valid T h ws v hs hws hv := by
    split at hv
    · exact Value.valid_binary hv
    · cases hv

/-- Unary operators; the node keeps the symbol. -/
def ofUnary (op : UnaryOp) : LiftedOperator H where
  builtin := .unaryOp
  fixed := [.text op.symbol]
  count := 1
  kind := "unaryOp"
  make name := .unaryOp name op
  kernel := .unaryOp
  apply _ ws :=
    match ws with
    | [a] => Value.unary op a
    | _ => fail (.wrongOperandCount Builtin.unaryOp.reservedName 1 ws.length)
  limit := by decide
  blank name := ⟨HeapObject.unwired_unaryOp, rfl, rfl, rfl⟩
  made _ := rfl
  compute name n h ws hparams hlen := by
    obtain ⟨a, rfl⟩ := List.length_eq_one_iff.mp hlen
    have hop : n.param? "op" = some (.text op.symbol) := param_congr hparams "op"
    simp only [Kernel.compute, Kernel.symbolParam, hop, pure_bind, UnaryOp.ofSymbol?_symbol]
    exact return_eq_singleton
  stream stuck us hlen hout := by
    obtain ⟨a, rfl⟩ := List.length_eq_one_iff.mp hlen
    have ha : a.isOutput = true := by simpa using hout
    change Eval.bind (Eval.ofExcept (Lift.unarySymbol (.text op.symbol))) _ = _
    rw [unarySymbol_symbol]
    change (if a.isOutput = true then _ else _ : Eval H Value) = _
    rw [if_pos ha]
  plain stuck us hlen hout s v s' := by
    obtain ⟨a, rfl⟩ := List.length_eq_one_iff.mp hlen
    have ha : a.isOutput ≠ true := by simpa using hout
    change Eval.bind (Eval.ofExcept (Lift.unarySymbol (.text op.symbol))) _ s = _ ↔ _
    rw [unarySymbol_symbol]
    change (if a.isOutput = true then _ else _ : Eval H Value) s = _ ↔ _
    rw [if_neg ha, ofExcept_eq_ok]
  congr moved h h' ws hk hws := rfl
  valid T h ws v hs hws hv := by
    split at hv
    · exact Value.valid_unary hv
    · cases hv

/-- Indexing by a number of indices that the inputs of a node can be told apart for. -/
def ofIndex (indices : Nat) (hlimit : indices < UInt16.size) : LiftedOperator H where
  builtin := .index
  fixed := []
  count := indices + 1
  kind := "index"
  make name := .index name indices
  kernel := .index
  apply h ws :=
    match ws with
    | target :: indices => h.index target indices
    | [] => fail (.wrongOperandCount Builtin.index.reservedName 2 0)
  limit := hlimit
  blank name := ⟨HeapObject.unwired_index, by simp [Node.index, Nat.add_comm], rfl, rfl⟩
  made _ := rfl
  compute name n h ws hparams hlen := by
    cases ws with
    | nil => cases hlen
    | cons target rest => exact return_eq_singleton
  stream stuck us hlen hout := by
    cases us with
    | nil => cases hlen
    | cons target rest =>
      have hrest : rest.length = indices := Nat.succ.inj hlen
      change (if (target :: rest).any Value.isOutput = true then _ else _ : Eval H Value) = _
      rw [if_pos hout, hrest]
      rfl
  plain stuck us hlen hout s v s' := by
    cases us with
    | nil => cases hlen
    | cons target rest =>
      change (if (target :: rest).any Value.isOutput = true then _ else _ : Eval H Value) s = _ ↔ _
      rw [if_neg (by rw [hout]; exact Bool.false_ne_true), readIndex_eq_ok]
  congr moved h h' ws hk hws := by
    cases ws with
    | nil => rfl
    | cons target rest => exact hk.index (hws target List.mem_cons_self) rest
  valid T h ws v hs hws hv := by
    split at hv
    · exact Heap.valid_index hs hv
    · cases hv

/-- Conversions; the node keeps the name of the type. -/
def ofCast (type : PrimType) : LiftedOperator H where
  builtin := .cast type
  fixed := []
  count := 1
  kind := "cast"
  make name := .cast name type
  kernel := .cast
  apply _ ws :=
    match ws with
    | [a] => a.cast (.prim type)
    | _ => fail (.wrongOperandCount type.name 1 ws.length)
  limit := by decide
  blank name := ⟨HeapObject.unwired_cast, rfl, rfl, rfl⟩
  made _ := rfl
  compute name n h ws hparams hlen := by
    obtain ⟨a, rfl⟩ := List.length_eq_one_iff.mp hlen
    have hto : n.param? "to" = some (.text type.name) := param_congr hparams "to"
    simp only [Kernel.compute, Kernel.typeParam, hto, PrimType.ofName?_name, pure_bind]
    exact return_eq_singleton
  stream stuck us hlen hout := by
    obtain ⟨a, rfl⟩ := List.length_eq_one_iff.mp hlen
    have ha : a.isOutput = true := by simpa using hout
    change (if a.isOutput = true then _ else _ : Eval H Value) = _
    rw [if_pos ha]
  plain stuck us hlen hout s v s' := by
    obtain ⟨a, rfl⟩ := List.length_eq_one_iff.mp hlen
    have ha : a.isOutput ≠ true := by simpa using hout
    change (if a.isOutput = true then _ else _ : Eval H Value) s = _ ↔ _
    rw [if_neg ha, ofExcept_eq_ok]
  congr moved h h' ws hk hws := rfl
  valid T h ws v hs hws hv := by
    split at hv
    · exact Value.valid_cast (hws _ List.mem_cons_self) hv
    · cases hv

/-- The kernel of the node is one for an operator. -/
lemma operator (op : LiftedOperator H) : op.kernel.isOperator = true := by
  have hb := (op.blank "").operator
  rwa [Node.isOperator, op.made, Option.any_some] at hb

/-- Whatever a builtin does with its operands, older nodes stay as they are. -/
lemma grew (op : LiftedOperator H) {us : List Value} (hlen : us.length = op.count)
    {s s' : Session H} {v : Value} {stuck : Eval H Empty} (ht : s.heap.Tidy)
    (hrun : callBuiltin op.builtin (op.fixed ++ us) stuck s = .ok v s') :
    s.Grew s' := by
  cases hout : us.any Value.isOutput with
  | true =>
    rw [op.stream stuck us hlen hout] at hrun
    exact Lift.grew_build ht hrun
  | false =>
    obtain ⟨-, rfl⟩ := (op.plain stuck us hlen hout s v s').mp hrun
    exact .refl ht

end LiftedOperator
end Patchbay
