import Mathlib.Data.List.Forall2
import Mathlib.Tactic.Common
import Patchbay.Grid
import Patchbay.Parameter
import Patchbay.Value.Operate

/-!
# Failures that blame no handle

Only the heap knows which objects are gone. What is computed from values alone may fail, but never
for a dead object; such results are called quiet. The errors of such failures are new: they tell a
cause, and no place.
-/

namespace Patchbay

variable {α β : Type}

/-- Whether the error reports a handle whose object is gone. -/
def EvalError.isDead (e : EvalError) : Bool :=
  match e.cause with
  | .deadObject _ => true
  | _ => false

lemma fail_eq {c : Cause} : (fail c : Except EvalError α) = .error (.of c) := rfl

lemma bind_eq_ok {r : Except EvalError α} {k : α → Except EvalError β} {b : β} :
    (r >>= k) = .ok b ↔ ∃ a, r = .ok a ∧ k a = .ok b := by
  cases r with
  | ok a => exact ⟨fun hk => ⟨a, rfl, hk⟩, fun ⟨_, ha, hk⟩ => by cases ha; exact hk⟩
  | error e => exact ⟨nofun, nofun⟩

lemma map_eq_ok {r : Except EvalError α} {f : α → β} {b : β} :
    f <$> r = .ok b ↔ ∃ a, r = .ok a ∧ f a = b := by
  cases r with
  | ok a =>
    exact ⟨fun hk => ⟨a, rfl, Except.ok.inj hk⟩, fun ⟨_, ha, hk⟩ => by
      cases ha; exact congrArg _ hk⟩
  | error e => exact ⟨nofun, nofun⟩

/-- A list of computations succeeds if each of them does. -/
lemma mapM_eq_ok {f : α → Except EvalError β} {l : List α} {bs : List β} :
    l.mapM f = .ok bs ↔ List.Forall₂ (fun a b => f a = .ok b) l bs := by
  constructor
  · intro hr
    induction l generalizing bs with
    | nil =>
      cases hr
      exact .nil
    | cons a l ih =>
      rw [List.mapM_cons] at hr
      obtain ⟨b, hb, hr⟩ := bind_eq_ok.mp hr
      obtain ⟨rest, hrest, hr⟩ := bind_eq_ok.mp hr
      cases hr
      exact .cons hb (ih hrest)
  · intro hf
    induction hf with
    | nil => rfl
    | cons hab _ ih =>
      rw [List.mapM_cons, hab, ih]
      rfl

/-- Every result of a list of computations comes from one of them. -/
lemma exists_of_mapM {f : α → Except EvalError β} {l : List α} {bs : List β}
    (hr : l.mapM f = .ok bs) {b : β} (hb : b ∈ bs) : ∃ a ∈ l, f a = .ok b := by
  obtain ⟨hlength, hget⟩ := List.forall₂_iff_get.mp (mapM_eq_ok.mp hr)
  obtain ⟨i, hi, rfl⟩ := List.mem_iff_getElem.mp hb
  exact ⟨l[i], List.getElem_mem _, hget i (hlength ▸ hi) hi⟩

/-! ## What failures tell -/

/-- If the result is a failure, `P` holds of the error. -/
def FailsAs (P : EvalError → Prop) (r : Except EvalError α) : Prop := ∀ e, r = .error e → P e

namespace FailsAs

variable {P Q : EvalError → Prop} {r : Except EvalError α} {k : α → Except EvalError β}

lemma ok {a : α} : FailsAs P (.ok a : Except EvalError α) := by
  intro e he
  cases he

lemma pure {a : α} : FailsAs P (Pure.pure a : Except EvalError α) := ok

lemma fail {c : Cause} (hc : P (.of c)) : FailsAs P (Patchbay.fail c : Except EvalError α) := by
  intro e he
  cases he
  exact hc

lemma mono (hr : FailsAs P r) (hPQ : ∀ e, P e → Q e) : FailsAs Q r := fun e he => hPQ e (hr e he)

lemma bind (hr : FailsAs P r) (hk : ∀ a, r = .ok a → FailsAs P (k a)) : FailsAs P (r >>= k) := by
  cases hx : r with
  | ok a => exact hk a hx
  | error e =>
    intro e' he
    cases he
    exact hr e hx

lemma map {f : α → β} (hr : FailsAs P r) : FailsAs P (f <$> r) := by
  cases hx : r with
  | ok a => exact ok
  | error e =>
    intro e' he
    cases he
    exact hr e hx

lemma mapM {f : α → Except EvalError β} {l : List α} (hf : ∀ a ∈ l, FailsAs P (f a)) :
    FailsAs P (l.mapM f) := by
  induction l with
  | nil => exact pure
  | cons a l ih =>
    rw [List.mapM_cons]
    refine (hf a List.mem_cons_self).bind fun b _ => ?_
    exact (ih fun x hx => hf x (List.mem_cons_of_mem a hx)).bind fun bs _ => pure

lemma array_mapM {f : α → Except EvalError β} {xs : Array α} (hf : ∀ a ∈ xs, FailsAs P (f a)) :
    FailsAs P (xs.mapM f) := by
  rw [Array.mapM_eq_mapM_toList]
  exact (mapM fun a ha => hf a (by simpa using ha)).map

end FailsAs

/-- If the result is a failure, it is not for a dead object. -/
def Quiet (r : Except EvalError α) : Prop := ∀ e, r = .error e → e.isDead = false

namespace Quiet

variable {r : Except EvalError α} {k : α → Except EvalError β}

lemma pure {a : α} : Quiet (Pure.pure a : Except EvalError α) := FailsAs.pure

lemma fail {c : Cause} (hc : (EvalError.of c).isDead = false) :
    Quiet (Patchbay.fail c : Except EvalError α) := FailsAs.fail hc

lemma bind (hr : Quiet r) (hk : ∀ a, r = .ok a → Quiet (k a)) : Quiet (r >>= k) :=
  FailsAs.bind hr hk

lemma map {f : α → β} (hr : Quiet r) : Quiet (f <$> r) := FailsAs.map hr

lemma array_mapM {f : α → Except EvalError β} {xs : Array α} (hf : ∀ a ∈ xs, Quiet (f a)) :
    Quiet (xs.mapM f) := FailsAs.array_mapM hf

end Quiet

/-- Whether the error has passed no place yet. -/
def EvalError.IsNew (e : EvalError) : Prop := e = .of e.cause

/-- If the result is a failure, it is a new one. -/
abbrev Fresh (r : Except EvalError α) : Prop := FailsAs EvalError.IsNew r

/-- If the result is a failure, it is a new one, and not for a dead object. -/
abbrev Plain (r : Except EvalError α) : Prop := FailsAs (fun e => e.IsNew ∧ e.isDead = false) r

namespace Plain

variable {r : Except EvalError α}

lemma fail {c : Cause} (hc : (EvalError.of c).isDead = false) :
    Plain (Patchbay.fail c : Except EvalError α) := FailsAs.fail ⟨rfl, hc⟩

lemma quiet (hr : Plain r) : Quiet r := fun e he => (hr e he).2

lemma fresh (hr : Plain r) : Fresh r := hr.mono fun _ he => he.1

end Plain

/-- If the result is a failure, it is a new one, and under the condition not for a dead object. -/
abbrev PlainIf (p : Prop) (r : Except EvalError α) : Prop :=
  FailsAs (fun e => e.IsNew ∧ (p → e.isDead = false)) r

namespace PlainIf

variable {r : Except EvalError α} {p q : Prop}

lemma fail {c : Cause} (hc : (EvalError.of c).isDead = false) :
    PlainIf p (Patchbay.fail c : Except EvalError α) := FailsAs.fail ⟨rfl, fun _ => hc⟩

lemma of_plain (hr : Plain r) : PlainIf p r := hr.mono fun _ he => ⟨he.1, fun _ => he.2⟩

lemma imp (hr : PlainIf p r) (hqp : q → p) : PlainIf q r :=
  hr.mono fun _ he => ⟨he.1, fun hq => he.2 (hqp hq)⟩

lemma quiet (hr : PlainIf p r) (hp : p) : Quiet r := fun e he => (hr e he).2 hp

lemma fresh (hr : PlainIf p r) : Fresh r := hr.mono fun _ he => he.1

end PlainIf

/-! ## Conversions -/

namespace Primitive

lemma plain_parse {s : String} {t : PrimType} : Plain (parse s t) := by
  unfold parse
  dsimp only
  split
  · exact .pure
  · split
    · exact .pure
    · exact .fail rfl

lemma plain_ofScalar {p : Primitive} {n : Scalar} {t : PrimType} : Plain (ofScalar p n t) := by
  unfold ofScalar
  dsimp only
  split
  · exact .pure
  · split
    · exact .pure
    · exact .fail rfl
  · split
    · exact .fail rfl
    · exact .pure
  · exact .pure
  · exact .pure

lemma plain_cast {p : Primitive} {t : PrimType} : Plain (p.cast t) := by
  unfold cast
  split
  · exact .pure
  · split
    · exact .pure
    · exact .fail rfl
    · exact plain_parse.bind fun _ _ => plain_ofScalar
    · split
      · exact plain_ofScalar
      · exact .fail rfl

/-! ## Operators -/

lemma plain_binaryInt {op : BinaryOp} {t : IntType} {a b : FixedInt t} {name : String} :
    Plain (binaryInt op a b name) := by
  unfold binaryInt
  dsimp only
  cases op with
  | add | sub | mul | shl | shr =>
    dsimp only
    split
    · exact .pure
    · exact .fail rfl
  | div | mod =>
    dsimp only
    split
    · exact .fail rfl
    · split
      · exact .pure
      · exact .fail rfl
  | _ => exact .pure

lemma plain_binaryReal {R : Type} {ops : RealOps R} {op : BinaryOp} {a b : R} {invalid : Cause}
    (hinvalid : (EvalError.of invalid).isDead = false) : Plain (binaryReal ops op a b invalid) := by
  unfold binaryReal
  dsimp only
  cases op with
  | bitAnd | bitOr | bitXor | shl | shr => exact .fail hinvalid
  | div | mod =>
    dsimp only
    split
    · exact .fail rfl
    · exact .pure
  | _ => exact .pure

lemma plain_binaryBool {op : BinaryOp} {a b : Bool} : Plain (binaryBool op a b) := by
  refine plain_binaryInt.bind fun r _ => ?_
  split <;> exact .pure

lemma plain_binarySame {op : BinaryOp} {a b : Primitive} {invalid : Cause}
    (hinvalid : (EvalError.of invalid).isDead = false) : Plain (binarySame op a b invalid) := by
  unfold binarySame
  split
  · exact plain_binaryBool
  · split
    · exact plain_binaryInt
    · exact .fail hinvalid
  · exact plain_binaryReal hinvalid
  · exact plain_binaryReal hinvalid
  · split
    · exact .pure
    · exact .fail hinvalid
  · exact .fail hinvalid

lemma plain_binary {op : BinaryOp} {a b : Primitive} : Plain (binary op a b) := by
  unfold binary
  dsimp only
  split
  · exact .pure
  · exact .pure
  · split
    · exact .pure
    · exact plain_cast.bind fun _ _ => plain_cast.bind fun _ _ => plain_binarySame rfl

lemma plain_unary {op : UnaryOp} {p : Primitive} : Plain (unary op p) := by
  unfold unary
  dsimp only
  split
  · exact .fail rfl
  · refine plain_cast.bind fun q _ => ?_
    split
    · exact .pure
    · exact Plain.fail rfl
  · split
    · exact .pure
    · exact .fail rfl
  · exact .pure
  · exact .pure
  · exact .pure
  · exact .pure
  · exact .fail rfl

lemma plain_charAt {s : String} {i : Int} : Plain (charAt s i) := by
  unfold charAt
  dsimp only
  split
  · exact .pure
  · exact .fail rfl

end Primitive

namespace Value

variable {v w : Value}

lemma plain_binary {op : BinaryOp} : Plain (binary op v w) := by
  unfold binary
  split
  · exact Primitive.plain_binary.map
  · split
    · exact .pure
    · exact .pure
    · exact .fail rfl

lemma plain_unary {op : UnaryOp} : Plain (unary op v) := by
  unfold unary
  split
  · exact Primitive.plain_unary.map
  · exact .fail rfl

lemma plain_cast {t : Tag} : Plain (v.cast t) := by
  unfold cast
  split
  · exact .pure
  · split
    · exact Primitive.plain_cast.map
    · exact .fail rfl

lemma plain_truthy : Plain v.truthy := by
  refine plain_cast.bind fun b _ => ?_
  split
  · exact .pure
  · exact Plain.fail rfl

lemma plain_indexText {indices : List Value} : Plain (v.indexText indices) := by
  unfold indexText
  split
  · split
    · exact Primitive.plain_charAt.map
    · exact .fail rfl
  · exact .fail rfl

end Value

/-! ## Grids and arguments -/

namespace Grid

variable {g : Grid}

lemma plain_offsetFrom {offset : Nat} {coords : List Int} {dims : List Nat} :
    Plain (offsetFrom offset coords dims) := by
  induction coords generalizing offset dims with
  | nil => exact .pure
  | cons coord coords ih =>
    cases dims with
    | nil => exact .pure
    | cons extent dims =>
      unfold offsetFrom
      split
      · exact ih
      · exact .fail rfl

lemma plain_offset {coords : List Int} : Plain (g.offset coords) := by
  unfold offset
  split
  · exact plain_offsetFrom
  · exact .fail rfl

lemma plain_get {coords : List Int} : Plain (g.get coords) := by
  refine plain_offset.bind fun i _ => ?_
  split
  · exact .pure
  · exact Plain.fail rfl

lemma plain_set {coords : List Int} {v : Value} : Plain (g.set coords v) := by
  unfold set
  split
  · refine plain_offset.bind fun i _ => ?_
    split
    · exact .pure
    · exact Plain.fail rfl
  · exact .fail rfl

lemma plain_primitives {values : Array Value} : Plain (primitives values) := by
  refine FailsAs.array_mapM fun v _ => ?_
  split
  · exact .pure
  · exact Plain.fail rfl

lemma plain_ofValues {dims : List Nat} {values : Array Value} : Plain (ofValues dims values) := by
  unfold ofValues
  split
  · exact .fail rfl
  · exact plain_primitives.bind fun _ _ => .pure

end Grid

namespace Parameter

variable {params : List Parameter} {names : Interner}

lemma plain_fillLabeled {slots : List (Option Value)} {call : List CallArg} :
    Plain (fillLabeled params names slots call) := by
  induction call generalizing slots with
  | nil => exact .pure
  | cons a rest ih =>
    obtain ⟨_ | label, value⟩ := a
    · exact ih
    · unfold fillLabeled
      split
      · exact .fail rfl
      · split
        · exact .fail rfl
        · exact ih

lemma plain_fillDefaults {slots : List (Option Value)} :
    Plain (fillDefaults names params slots) := by
  induction params generalizing slots with
  | nil => exact .pure
  | cons p params ih =>
    cases slots with
    | nil => exact .pure
    | cons slot slots =>
      unfold fillDefaults
      split
      · exact ih.bind fun _ _ => .pure
      · exact .fail rfl

lemma plain_bind {call : List CallArg} : Plain (bind params call names) := by
  unfold bind
  dsimp only
  split
  · exact .fail rfl
  · split
    · exact .fail rfl
    · exact plain_fillLabeled.bind fun _ _ => plain_fillDefaults

end Parameter
end Patchbay
