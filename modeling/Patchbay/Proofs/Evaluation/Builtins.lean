import Patchbay.Eval.Lift
import Patchbay.Proofs.Failures
import Patchbay.Proofs.Heap.Views

/-!
# What builtins do

Applying a builtin is one of three things: a computation on its operands alone, a look at the heap,
or the building of an operator node. What is computed refers to nothing that the operands do not
refer to.
-/

namespace Patchbay

variable {H : HostTypes}

/-! ## Computations on values -/

namespace Value

variable {v w : Value}

lemma exists_prim_of_map {r : Except EvalError Primitive} (hr : prim <$> r = .ok v) :
    ∃ p, v = .prim p := by
  obtain ⟨p, -, hv⟩ := map_eq_ok.mp hr
  exact ⟨p, hv.symm⟩

lemma exists_prim_of_binary {op : BinaryOp} {a b : Value} (hr : binary op a b = .ok v) :
    ∃ p, v = .prim p := by
  unfold binary at hr
  split at hr
  · exact exists_prim_of_map hr
  · split at hr <;> cases hr <;> exact ⟨_, rfl⟩

lemma exists_prim_of_unary {op : UnaryOp} {a : Value} (hr : unary op a = .ok v) :
    ∃ p, v = .prim p := by
  unfold unary at hr
  split at hr
  · exact exists_prim_of_map hr
  · cases hr

/-- A conversion gives a primitive, or back what it was given. -/
lemma eq_or_exists_prim_of_cast {t : Tag} (hr : w.cast t = .ok v) : v = w ∨ ∃ p, v = .prim p := by
  unfold cast at hr
  split at hr
  · cases hr
    exact .inl rfl
  · split at hr
    · exact .inr (exists_prim_of_map hr)
    · cases hr

lemma exists_prim_of_indexText {indices : List Value} (hr : w.indexText indices = .ok v) :
    ∃ p, v = .prim p := by
  unfold indexText at hr
  split at hr
  · split at hr
    · exact exists_prim_of_map hr
    · cases hr
  · cases hr

end Value

section Symbols

variable {v : Value}

lemma plain_symbolText : Plain (Lift.symbolText v) := by
  unfold Lift.symbolText
  split
  · exact .pure
  · exact .fail rfl

lemma plain_binarySymbol : Plain (Lift.binarySymbol v) := by
  refine plain_symbolText.bind fun symbol _ => ?_
  split
  · exact .pure
  · exact Plain.fail rfl

lemma plain_unarySymbol : Plain (Lift.unarySymbol v) := by
  refine plain_symbolText.bind fun symbol _ => ?_
  split
  · exact .pure
  · exact Plain.fail rfl

end Symbols

/-! ## Operator nodes -/

/-- The nodes that builtins make, with the number of their operands. -/
inductive Operator : (String → Node H) → Nat → Prop where
  | binary (op : BinaryOp) : Operator (fun name => .binaryOp name op) 2
  | unary (op : UnaryOp) : Operator (fun name => .unaryOp name op) 1
  | index (count : Nat) : Operator (fun name => .index name count) (count + 1)
  | cast (type : PrimType) : Operator (fun name => .cast name type) 1

namespace Operator

variable {make : String → Node H} {count : Nat} {name : String}

lemma unwired (ho : Operator make count) : (HeapObject.node (make name)).Unwired := by
  cases ho with
  | binary op => exact HeapObject.unwired_binaryOp
  | unary op => exact HeapObject.unwired_unaryOp
  | index count => exact HeapObject.unwired_index
  | cast type => exact HeapObject.unwired_cast

/-- An operator node has one output, which has sent nothing. -/
lemma outputs (ho : Operator make count) : (make name).outputs = #[⟨"out", none, #[]⟩] := by
  cases ho <;> rfl

/-- The params of an operator node are texts. -/
lemma values_prim (ho : Operator make count) {v : Value}
    (hv : v ∈ (HeapObject.node (make name)).values) : ∃ p, v = .prim p := by
  cases ho with
  | binary op =>
    have heq : v = .text op.symbol := by
      simpa [HeapObject.values, Node.binaryOp, Node.withOutput, Node.withParam, Node.withInput,
        Node.new] using hv
    exact ⟨_, heq⟩
  | unary op =>
    have heq : v = .text op.symbol := by
      simpa [HeapObject.values, Node.unaryOp, Node.withOutput, Node.withParam, Node.withInput,
        Node.new] using hv
    exact ⟨_, heq⟩
  | index count => simp [HeapObject.values, Node.index, Node.withOutput, Node.new] at hv
  | cast type =>
    have heq : v = .text type.name := by
      simpa [HeapObject.values, Node.cast, Node.withOutput, Node.withParam, Node.withInput,
        Node.new] using hv
    exact ⟨_, heq⟩

/-- Its kernel is one of the language. -/
lemma no_hostKernel (ho : Operator make count) :
    (HeapObject.node (make name)).hostKernel? = none := by
  cases ho <;> rfl

end Operator

/-! ## Builtins -/

/-- A result that refers to nothing that the operands do not refer to. -/
def Given (operands : List Value) (r : Except EvalError Value) : Prop :=
  ∀ v, r = .ok v → v ∈ operands ∨ ∃ p, v = .prim p

/-- What holds of the three things that applying a builtin can be holds of applying it. Two
evaluations are told apart only where a look at the heap does not come back. -/
theorem callBuiltin_cases {motive : Eval H Value → Eval H Value → Prop}
    (stuck stuck' : Eval H Empty) (b : Builtin) (operands : List Value)
    (computed : ∀ r, Plain r → Given operands r → motive (Eval.ofExcept r) (Eval.ofExcept r))
    (found : ∀ target indices, target ∈ operands →
      motive (readIndex stuck target indices) (readIndex stuck' target indices))
    (built : ∀ kind make vs, Operator make vs.length → (∀ v ∈ vs, v ∈ operands) →
      motive (Lift.build kind make vs) (Lift.build kind make vs)) :
    motive (callBuiltin b operands stuck) (callBuiltin b operands stuck') := by
  have failed : ∀ e : EvalError, e.IsNew ∧ e.isDead = false →
      motive (Eval.ofExcept (.error e)) (Eval.ofExcept (.error e)) := by
    intro e hplain
    refine computed (.error e) (fun e' he => ?_) fun v hv => ?_
    · cases he
      exact hplain
    · cases hv
  -- per built-in: a stream among the operands, plain operands, the wrong number of operands
  unfold callBuiltin
  dsimp only
  split
  · next symbol left right =>
    cases hsymbol : Lift.binarySymbol symbol with
    | error e => exact failed e (plain_binarySymbol e hsymbol)
    | ok op =>
      change motive (if left.isOutput || right.isOutput then _ else _)
        (if left.isOutput || right.isOutput then _ else _)
      split
      · exact built _ _ _ (.binary op) fun v hv => List.mem_cons_of_mem symbol hv
      · exact computed _ Value.plain_binary fun v hr => .inr (Value.exists_prim_of_binary hr)
  · exact failed _ ⟨rfl, rfl⟩
  · next symbol operand =>
    cases hsymbol : Lift.unarySymbol symbol with
    | error e => exact failed e (plain_unarySymbol e hsymbol)
    | ok op =>
      change motive (if operand.isOutput then _ else _) (if operand.isOutput then _ else _)
      split
      · exact built _ _ _ (.unary op) fun v hv => List.mem_cons_of_mem symbol hv
      · exact computed _ Value.plain_unary fun v hr => .inr (Value.exists_prim_of_unary hr)
  · exact failed _ ⟨rfl, rfl⟩
  · next target indices =>
    split
    · exact built _ _ _ (.index indices.length) fun _ => id
    · exact found target indices List.mem_cons_self
  · exact failed _ ⟨rfl, rfl⟩
  · next type operand =>
    split
    · exact built _ _ _ (.cast type) fun _ => id
    · refine computed _ Value.plain_cast fun v hr => ?_
      rcases Value.eq_or_exists_prim_of_cast hr with rfl | hprim
      · exact .inl List.mem_cons_self
      · exact .inr hprim
  · exact failed _ ⟨rfl, rfl⟩

end Patchbay
