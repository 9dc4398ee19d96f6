import Mathlib.Data.List.Basic
import Mathlib.Data.List.Perm.Basic
import Mathlib.Data.List.TakeWhile
import Mathlib.Tactic.Lemma
import Patchbay.Parameter

/-!
# What binding arguments does

The meaning of a call is said without the table of slots that `Parameter.bind` fills. An argument
with a label targets the first parameter of that name. A call is `Bindable` when its positional
arguments come first and fit, and its labels target parameters that are free and distinct and leave
no parameter without a value. Otherwise the call has a `Fault`, which is the first one in the order
of the checks. Every call is either bound or at fault, and for one cause only.

The loop over the labeled arguments is described by `Filled`: a slot holds what the arguments so
far have given to its parameter.
-/

namespace Patchbay

namespace CallArg

variable {params : List Parameter} {a : CallArg} {i j : Nat}

/-- The argument has a label, and the parameter at position `i` is the first one of that name. -/
def Targets (params : List Parameter) (a : CallArg) (i : Nat) : Prop :=
  ∃ p, params[i]? = some p ∧ a.label = some p.name ∧
    ∀ k < i, ∀ q, params[k]? = some q → q.name ≠ p.name

lemma Targets.lt (h : a.Targets params i) : i < params.length := by
  obtain ⟨p, hi, -⟩ := h
  exact (List.getElem?_eq_some_iff.mp hi).1

lemma Targets.labeled (h : a.Targets params i) : a.isPositional = false := by
  obtain ⟨p, -, hlabel, -⟩ := h
  simp [isPositional, hlabel]

/-- A label targets one parameter at most. -/
lemma Targets.unique (h : a.Targets params i) (h' : a.Targets params j) : i = j := by
  obtain ⟨p, hi, hlabel, hfirst⟩ := h
  obtain ⟨q, hj, hlabel', hfirst'⟩ := h'
  have hsame : p.name = q.name := by simpa [hlabel] using hlabel'
  rcases Nat.lt_trichotomy i j with hlt | heq | hgt
  · exact absurd hsame (hfirst' i hlt p hi)
  · exact heq
  · exact absurd hsame.symm (hfirst j hgt q hj)

/-- The search by name finds what the label targets. -/
lemma targets_iff {label : Name} {v : Value} :
    Targets params ⟨some label, v⟩ i ↔ Parameter.position? params label = some i := by
  simp only [Parameter.position?, List.findIdx?_eq_some_iff_getElem, decide_eq_true_eq]
  constructor
  · rintro ⟨p, hi, hlabel, hfirst⟩
    obtain ⟨hlt, rfl⟩ := List.getElem?_eq_some_iff.mp hi
    obtain rfl : label = params[i].name := by simpa using hlabel
    refine ⟨hlt, rfl, fun k hbefore => ?_⟩
    exact hfirst k hbefore _ (List.getElem?_eq_getElem (by omega))
  · rintro ⟨hlt, rfl, hfirst⟩
    refine ⟨params[i], List.getElem?_eq_getElem hlt, rfl, fun k hbefore q hk => ?_⟩
    obtain ⟨_, rfl⟩ := List.getElem?_eq_some_iff.mp hk
    exact hfirst k hbefore

lemma not_targets_iff {label : Name} {v : Value} :
    (∀ i, ¬ Targets params ⟨some label, v⟩ i) ↔ Parameter.position? params label = none := by
  simp only [targets_iff, Option.eq_none_iff_forall_ne_some, ne_eq]

end CallArg

namespace Parameter

/-! ## Calls -/

/-- The number of arguments before the first label. -/
def leading (call : List CallArg) : Nat := (call.takeWhile CallArg.isPositional).length

/-- Argument `k` has no label but stands after a label. -/
def Late (call : List CallArg) (k : Nat) : Prop :=
  leading call ≤ k ∧ ∃ a, call[k]? = some a ∧ a.isPositional

/-- Parameter `i` has its value when the labeled argument `k` comes: from a positional argument, or
from a label before. -/
def Taken (params : List Parameter) (call : List CallArg) (k i : Nat) : Prop :=
  i < leading call ∨ ∃ j < k, ∃ a, call[j]? = some a ∧ a.Targets params i

/-- Argument `k` has a label that no parameter has. -/
def Unknown (params : List Parameter) (call : List CallArg) (k : Nat) (label : Name) : Prop :=
  ∃ a, call[k]? = some a ∧ a.label = some label ∧ ∀ i, ¬ a.Targets params i

/-- Argument `k` has a label whose parameter already has its value. -/
def Repeats (params : List Parameter) (call : List CallArg) (k : Nat) (label : Name) : Prop :=
  ∃ a i, call[k]? = some a ∧ a.label = some label ∧ a.Targets params i ∧ Taken params call k i

/-- Argument `k` has a label that cannot be bound. -/
def Offends (params : List Parameter) (call : List CallArg) (k : Nat) : Prop :=
  ∃ label, Unknown params call k label ∨ Repeats params call k label

/-- Parameter `i` has no value from the call and no default. -/
def Unfilled (params : List Parameter) (call : List CallArg) (i : Nat) : Prop :=
  leading call ≤ i ∧ (∀ a ∈ call, ¬ a.Targets params i) ∧
    ∃ p, params[i]? = some p ∧ p.default = none

/-- A call that binds. -/
structure Bindable (params : List Parameter) (call : List CallArg) : Prop where
  /-- No unlabeled argument follows a labeled one. -/
  ordered : ∀ k, ¬ Late call k
  /-- There are no more positional arguments than parameters. -/
  fits : leading call ≤ params.length
  /-- Every label targets a parameter. -/
  known : ∀ a ∈ call, a.label.isSome → ∃ i, a.Targets params i
  /-- No label targets what a positional argument fills. -/
  free : ∀ a ∈ call, ∀ i, a.Targets params i → leading call ≤ i
  /-- No two labels target the same parameter. -/
  apart : call.Pairwise fun a b => ∀ i, a.Targets params i → ¬ b.Targets params i
  /-- The parameters that the call leaves out have defaults. -/
  filled : ∀ i, ∀ p, params[i]? = some p → leading call ≤ i →
    (∀ a ∈ call, ¬ a.Targets params i) → p.default.isSome

/-- What parameter `i` receives. -/
inductive Receives (params : List Parameter) (call : List CallArg) (i : Nat) : Value → Prop
  | positional {a : CallArg} : i < leading call → call[i]? = some a →
      Receives params call i a.value
  | labeled {a : CallArg} : a ∈ call → a.Targets params i → Receives params call i a.value
  | default {p : Parameter} {v : Value} : leading call ≤ i → (∀ a ∈ call, ¬ a.Targets params i) →
      params[i]? = some p → p.default = some v → Receives params call i v

/-- Why a call does not bind. A cause is one only if none of the constructors before it applies,
and only for the first argument or parameter at fault. -/
inductive Fault (params : List Parameter) (call : List CallArg) (names : Interner) : Cause → Prop
  | late {k : Nat} : Late call k → (∀ j < k, ¬ Late call j) →
      Fault params call names (.positionalAfterKeyword k)
  | surplus : (∀ k, ¬ Late call k) → params.length < leading call →
      Fault params call names (.tooManyArguments params.length (leading call))
  | unknown {k : Nat} {label : Name} : (∀ k, ¬ Late call k) → leading call ≤ params.length →
      (∀ j < k, ¬ Offends params call j) → Unknown params call k label →
      Fault params call names (.unknownArgument (names.lookup label))
  | duplicate {k : Nat} {label : Name} : (∀ k, ¬ Late call k) → leading call ≤ params.length →
      (∀ j < k, ¬ Offends params call j) → Repeats params call k label →
      Fault params call names (.duplicateArgument (names.lookup label))
  | missing {i : Nat} {p : Parameter} : (∀ k, ¬ Late call k) → leading call ≤ params.length →
      (∀ k, ¬ Offends params call k) → (∀ j < i, ¬ Unfilled params call j) →
      Unfilled params call i → params[i]? = some p →
      Fault params call names (.missingArgument (names.lookup p.name))

variable {params : List Parameter} {call : List CallArg} {names : Interner} {cause cause' : Cause}

lemma leading_le : leading call ≤ call.length :=
  (List.takeWhile_prefix _).length_le

lemma getElem?_of_lt_leading {k : Nat} (hlt : k < leading call) :
    call[k]? = (call.takeWhile CallArg.isPositional)[k]? := by
  have hsplit : (call.takeWhile CallArg.isPositional ++ call.dropWhile CallArg.isPositional)[k]? =
      (call.takeWhile CallArg.isPositional)[k]? := List.getElem?_append_left hlt
  rwa [List.takeWhile_append_dropWhile] at hsplit

lemma drop_leading : call.drop (leading call) = call.dropWhile CallArg.isPositional := by
  have hsplit : (call.takeWhile CallArg.isPositional ++ call.dropWhile CallArg.isPositional).drop
      (leading call) = call.dropWhile CallArg.isPositional := List.drop_left' rfl
  rwa [List.takeWhile_append_dropWhile] at hsplit

/-- The arguments before the first label have none. -/
lemma positional_of_lt_leading {k : Nat} {a : CallArg} (hlt : k < leading call)
    (hk : call[k]? = some a) : a.isPositional := by
  rw [getElem?_of_lt_leading hlt] at hk
  exact List.mem_takeWhile_imp (List.mem_of_getElem? hk)

/-- What targets a parameter stands behind the positional arguments. -/
lemma leading_le_of_targets {k i : Nat} {a : CallArg} (hk : call[k]? = some a)
    (htargets : a.Targets params i) : leading call ≤ k := by
  by_contra hbefore
  have hpositional := positional_of_lt_leading (by omega) hk
  simp [htargets.labeled] at hpositional

/-- A call binds when nothing is at fault, and only then. -/
lemma bindable_iff : Bindable params call ↔
    (∀ k, ¬ Late call k) ∧ leading call ≤ params.length ∧ (∀ k, ¬ Offends params call k) ∧
      ∀ i, ¬ Unfilled params call i := by
  constructor
  · -- a labeled argument offends if its label is unknown, or if its parameter is taken before
    intro h
    refine ⟨h.ordered, h.fits, ?_, ?_⟩
    · rintro k ⟨label, ⟨a, hk, hlabel, hunknown⟩ | ⟨a, i, hk, hlabel, htargets, htaken⟩⟩
      · obtain ⟨i, htargets⟩ := h.known a (List.mem_of_getElem? hk) (by simp [hlabel])
        exact hunknown i htargets
      · rcases htaken with hbelow | ⟨j, hbefore, b, hj, hearlier⟩
        · have := h.free a (List.mem_of_getElem? hk) i htargets
          omega
        · obtain ⟨_, rfl⟩ := List.getElem?_eq_some_iff.mp hk
          obtain ⟨_, rfl⟩ := List.getElem?_eq_some_iff.mp hj
          exact List.pairwise_iff_getElem.mp h.apart j k _ _ hbefore i hearlier htargets
    · rintro i ⟨habove, hunnamed, p, hi, hnone⟩
      simpa [hnone] using h.filled i p hi habove hunnamed
  · rintro ⟨hordered, hfits, hsound, hfull⟩
    refine ⟨hordered, hfits, ?_, ?_, ?_, ?_⟩
    · intro a hmem hlabeled
      obtain ⟨label, hlabel⟩ := Option.isSome_iff_exists.mp hlabeled
      obtain ⟨k, hk⟩ := List.mem_iff_getElem?.mp hmem
      by_contra hunknown
      exact hsound k ⟨label, .inl ⟨a, hk, hlabel, not_exists.mp hunknown⟩⟩
    · intro a hmem i htargets
      obtain ⟨k, hk⟩ := List.mem_iff_getElem?.mp hmem
      obtain ⟨p, -, hlabel, -⟩ := id htargets
      by_contra hbelow
      exact hsound k ⟨p.name, .inr ⟨a, i, hk, hlabel, htargets, .inl (by omega)⟩⟩
    · rw [List.pairwise_iff_getElem]
      intro j k hjlt hklt hbefore i hearlier htargets
      obtain ⟨p, -, hlabel, -⟩ := id htargets
      have htaken : Taken params call k i :=
        .inr ⟨j, hbefore, call[j], List.getElem?_eq_getElem hjlt, hearlier⟩
      exact hsound k ⟨p.name, .inr ⟨call[k], i, List.getElem?_eq_getElem hklt, hlabel, htargets,
        htaken⟩⟩
    · intro i p hi habove hunnamed
      by_contra hnone
      exact hfull i ⟨habove, hunnamed, p, hi, by simpa using hnone⟩

/-! ## One fault -/

/-- A call at fault does not bind. -/
lemma Fault.not_bindable (h : Fault params call names cause) : ¬ Bindable params call := by
  intro hbindable
  obtain ⟨hordered, hfits, hsound, hfull⟩ := bindable_iff.mp hbindable
  cases h with
  | late hlate => exact hordered _ hlate
  | surplus _ hsurplus => omega
  | unknown _ _ _ hunknown => exact hsound _ ⟨_, .inl hunknown⟩
  | duplicate _ _ _ hrepeated => exact hsound _ ⟨_, .inr hrepeated⟩
  | missing _ _ _ _ hunfilled => exact hfull _ hunfilled

/-- The first of its kind is one. -/
lemma first_unique {P : Nat → Prop} {i j : Nat} (hi : P i) (hi' : ∀ k < i, ¬ P k)
    (hj : P j) (hj' : ∀ k < j, ¬ P k) : i = j := by
  rcases Nat.lt_trichotomy i j with hlt | heq | hgt
  · exact absurd hi (hj' i hlt)
  · exact heq
  · exact absurd hj (hi' j hgt)

/-- An argument is at fault for one reason. -/
lemma Unknown.not_repeats {k : Nat} {label label' : Name} (h : Unknown params call k label)
    (h' : Repeats params call k label') : False := by
  obtain ⟨a, hk, -, hunknown⟩ := h
  obtain ⟨b, i, hk', -, htargets, -⟩ := h'
  obtain rfl : a = b := by simpa [hk] using hk'
  exact hunknown i htargets

/-- A call has one fault at most. -/
theorem Fault.unique (h : Fault params call names cause) (h' : Fault params call names cause') :
    cause = cause' := by
  -- each fault says that those looked for before it are absent, and that it is the first one
  cases h with
  | late hlate hfirst =>
    cases h' with
    | late hlate' hfirst' => rw [first_unique hlate hfirst hlate' hfirst']
    | surplus hordered | unknown hordered | duplicate hordered | missing hordered =>
      exact absurd hlate (hordered _)
  | surplus hordered hsurplus =>
    cases h' with
    | late hlate' => exact absurd hlate' (hordered _)
    | surplus => rfl
    | unknown _ hfits | duplicate _ hfits | missing _ hfits => omega
  | unknown hordered hfits hfirst hunknown =>
    cases h' with
    | late hlate' => exact absurd hlate' (hordered _)
    | surplus _ hsurplus => omega
    | unknown _ _ hfirst' hunknown' =>
      obtain rfl := first_unique ⟨_, .inl hunknown⟩ hfirst ⟨_, .inl hunknown'⟩ hfirst'
      obtain ⟨a, hk, hlabel, -⟩ := hunknown
      obtain ⟨b, hk', hlabel', -⟩ := hunknown'
      simp_all
    | duplicate _ _ hfirst' hrepeated =>
      obtain rfl := first_unique ⟨_, .inl hunknown⟩ hfirst ⟨_, .inr hrepeated⟩ hfirst'
      exact (hunknown.not_repeats hrepeated).elim
    | missing _ _ hsound => exact absurd ⟨_, .inl hunknown⟩ (hsound _)
  | duplicate hordered hfits hfirst hrepeated =>
    cases h' with
    | late hlate' => exact absurd hlate' (hordered _)
    | surplus _ hsurplus => omega
    | unknown _ _ hfirst' hunknown' =>
      obtain rfl := first_unique ⟨_, .inr hrepeated⟩ hfirst ⟨_, .inl hunknown'⟩ hfirst'
      exact (hunknown'.not_repeats hrepeated).elim
    | duplicate _ _ hfirst' hrepeated' =>
      obtain rfl := first_unique ⟨_, .inr hrepeated⟩ hfirst ⟨_, .inr hrepeated'⟩ hfirst'
      obtain ⟨a, _, hk, hlabel, -⟩ := hrepeated
      obtain ⟨b, _, hk', hlabel', -⟩ := hrepeated'
      simp_all
    | missing _ _ hsound => exact absurd ⟨_, .inr hrepeated⟩ (hsound _)
  | missing hordered hfits hsound hfirst hunfilled hi =>
    cases h' with
    | late hlate' => exact absurd hlate' (hordered _)
    | surplus _ hsurplus => omega
    | unknown _ _ _ hunknown' => exact absurd ⟨_, .inl hunknown'⟩ (hsound _)
    | duplicate _ _ _ hrepeated => exact absurd ⟨_, .inr hrepeated⟩ (hsound _)
    | missing _ _ _ hfirst' hunfilled' hi' =>
      obtain rfl := first_unique hunfilled hfirst hunfilled' hfirst'
      simp_all

/-! ## The table of slots -/

/-- The first `k` arguments give parameter `i` a value: a positional argument of that place, or one
with a label. -/
def Given (params : List Parameter) (call : List CallArg) (k i : Nat) (v : Value) : Prop :=
  (i < leading call ∧ ∃ a, call[i]? = some a ∧ a.value = v) ∨
    ∃ j < k, ∃ a, call[j]? = some a ∧ a.Targets params i ∧ a.value = v

/-- The slots hold what the first `k` arguments give. -/
structure Filled (params : List Parameter) (call : List CallArg) (k : Nat)
    (slots : List (Option Value)) : Prop where
  length : slots.length = params.length
  holds : ∀ i v, slots[i]?.join = some v ↔ Given params call k i v

variable {slots : List (Option Value)} {k i : Nat}

lemma taken_iff_given : Taken params call k i ↔ ∃ v, Given params call k i v := by
  constructor
  · rintro (hbelow | ⟨j, hbefore, a, hj, htargets⟩)
    · have hlt : i < call.length := lt_of_lt_of_le hbelow leading_le
      exact ⟨call[i].value, .inl ⟨hbelow, call[i], List.getElem?_eq_getElem hlt, rfl⟩⟩
    · exact ⟨a.value, .inr ⟨j, hbefore, a, hj, htargets, rfl⟩⟩
  · rintro ⟨v, ⟨hbelow, -⟩ | ⟨j, hbefore, a, hj, htargets, -⟩⟩
    · exact .inl hbelow
    · exact .inr ⟨j, hbefore, a, hj, htargets⟩

/-- A slot is full when its parameter is taken. -/
lemma Filled.full_iff (hfilled : Filled params call k slots) :
    slots[i]?.join.isSome ↔ Taken params call k i := by
  rw [taken_iff_given, Option.isSome_iff_exists]
  exact exists_congr (hfilled.holds i)

/-- The slots start with the positional arguments. -/
lemma filled_leading (hfits : leading call ≤ params.length) :
    Filled params call (leading call)
      ((call.takeWhile CallArg.isPositional).map (fun a => some a.value) ++
        List.replicate (params.length - leading call) none) := by
  refine ⟨by simp only [List.length_append, List.length_map, List.length_replicate, leading] at *
             omega, fun i v => ?_⟩
  -- no label stands before the end of the leading arguments
  have hnothing : ¬ ∃ j < leading call, ∃ a, call[j]? = some a ∧ a.Targets params i ∧
      a.value = v := by
    rintro ⟨j, hbefore, a, hj, htargets, -⟩
    have := leading_le_of_targets hj htargets
    omega
  simp only [Given, hnothing, or_false]
  by_cases hbelow : i < leading call
  · rw [List.getElem?_append_left (by simpa [leading] using hbelow), getElem?_of_lt_leading hbelow]
    cases h : (call.takeWhile CallArg.isPositional)[i]? <;> simp [h, hbelow]
  · have habove : (call.takeWhile CallArg.isPositional).length ≤ i := by simpa [leading]
      using hbelow
    have hempty : ((List.replicate (params.length - leading call) (none : Option Value))[
        i - (call.takeWhile CallArg.isPositional).length]?).join = none := by
      rw [List.getElem?_replicate]
      split <;> rfl
    simp [List.getElem?_append_right, habove, hbelow, hempty]

/-- An argument without a label changes no slot. -/
lemma Filled.skip {a : CallArg} (hfilled : Filled params call k slots) (hk : call[k]? = some a)
    (hnolabel : a.label = none) : Filled params call (k + 1) slots := by
  refine ⟨hfilled.length, fun i v => (hfilled.holds i v).trans (or_congr_right ?_)⟩
  constructor
  · rintro ⟨j, hlt, hgiven⟩
    exact ⟨j, by omega, hgiven⟩
  · rintro ⟨j, hbefore, b, hj, htargets, hvalue⟩
    have hne : j ≠ k := by
      rintro rfl
      obtain rfl : a = b := by simpa [hk] using hj
      obtain ⟨p, -, hlabel, -⟩ := htargets
      simp [hnolabel] at hlabel
    exact ⟨j, by omega, b, hj, htargets, hvalue⟩

/-- A label puts its value into the slot of its parameter. -/
lemma Filled.put {a : CallArg} (hfilled : Filled params call k slots) (hk : call[k]? = some a)
    (htargets : a.Targets params i) (huntaken : ¬ Taken params call k i) :
    Filled params call (k + 1) (slots.set i (some a.value)) := by
  refine ⟨by simpa using hfilled.length, fun j v => ?_⟩
  by_cases hsame : j = i
  · -- the slot was empty, so only the new argument can have filled it
    subst hsame
    have hlt : j < slots.length := hfilled.length ▸ htargets.lt
    have hput : (slots.set j (some a.value))[j]?.join = some a.value := by simp [hlt]
    rw [hput, Option.some_inj]
    constructor
    · rintro rfl
      exact .inr ⟨k, by omega, a, hk, htargets, rfl⟩
    · rintro (⟨hbelow, -⟩ | ⟨m, hbefore, b, hm, hearlier, rfl⟩)
      · exact absurd (.inl hbelow) huntaken
      · rcases Nat.lt_succ_iff_lt_or_eq.mp hbefore with hlt | rfl
        · exact absurd (.inr ⟨m, hlt, b, hm, hearlier⟩) huntaken
        · obtain rfl : a = b := by simpa [hk] using hm
          rfl
  · -- the new argument has one target, so it fills no other slot
    have hkept : (slots.set i (some a.value))[j]? = slots[j]? := by simp [Ne.symm hsame]
    rw [hkept, hfilled.holds j v]
    refine or_congr_right ⟨?_, ?_⟩
    · rintro ⟨m, hlt, hgiven⟩
      exact ⟨m, by omega, hgiven⟩
    · rintro ⟨m, hbefore, b, hm, hearlier, hvalue⟩
      have hne : m ≠ k := by
        rintro rfl
        obtain rfl : a = b := by simpa [hk] using hm
        exact hsame (hearlier.unique htargets)
      exact ⟨m, by omega, b, hm, hearlier, hvalue⟩

/-- The loop over the labeled arguments ends at the first offence, or with every argument in its
slot. The arguments before `k` are done. -/
lemma fillLabeled_ends (names : Interner) (hordered : ∀ k, ¬ Late call k)
    (hfits : leading call ≤ params.length)
    (rest : List CallArg) (hsplit : call.drop k = rest) (hfilled : Filled params call k slots)
    (hsound : ∀ j < k, ¬ Offends params call j) :
    (∃ slots', fillLabeled params names slots rest = .ok slots' ∧
      Filled params call call.length slots' ∧ ∀ j, ¬ Offends params call j) ∨
    ∃ cause, fillLabeled params names slots rest = .error (.of cause) ∧
      Fault params call names cause := by
  induction rest generalizing k slots with
  | nil =>
    have hdone : call.length ≤ k := List.drop_eq_nil_iff.mp hsplit
    have hpast : ∀ j, call.length ≤ j → call[j]? = none := fun j => List.getElem?_eq_none
    refine .inl ⟨slots, rfl, ⟨hfilled.length, fun i v => (hfilled.holds i v).trans
      (or_congr_right ⟨?_, ?_⟩)⟩, fun j hoffends => ?_⟩
    · rintro ⟨j, -, a, hj, hgiven⟩
      exact ⟨j, (List.getElem?_eq_some_iff.mp hj).1, a, hj, hgiven⟩
    · rintro ⟨j, hbefore, hgiven⟩
      exact ⟨j, by omega, hgiven⟩
    · by_cases hbefore : j < k
      · exact hsound j hbefore hoffends
      · obtain ⟨label, ⟨a, hj, -⟩ | ⟨a, _, hj, -⟩⟩ := hoffends <;>
          simp [hpast j (by omega)] at hj
  | cons a rest ih =>
    have hk : call[k]? = some a := by
      rw [← List.head?_drop, hsplit, List.head?_cons]
    have hsplit' : call.drop (k + 1) = rest := by
      rw [← List.tail_drop, hsplit, List.tail_cons]
    -- the arguments up to and including `k` are sound once `k` is
    have hsound' : ¬ Offends params call k → ∀ j < k + 1, ¬ Offends params call j := by
      intro hhere j hbefore
      rcases Nat.lt_succ_iff_lt_or_eq.mp hbefore with hlt | rfl
      exacts [hsound j hlt, hhere]
    rcases a with ⟨_ | label, v⟩
    · have hhere : ¬ Offends params call k := by
        rintro ⟨label, ⟨a, hk', hlabel, -⟩ | ⟨a, _, hk', hlabel, -⟩⟩ <;>
          (obtain rfl : ⟨none, v⟩ = a := by simpa [hk] using hk'
           simp at hlabel)
      exact ih hsplit' (hfilled.skip hk rfl) (hsound' hhere)
    · rw [fillLabeled]
      cases hpos : position? params label with
      | none =>
        exact .inr ⟨_, rfl, .unknown hordered hfits hsound
          ⟨_, hk, rfl, CallArg.not_targets_iff.mpr hpos⟩⟩
      | some i =>
        have htargets : CallArg.Targets params ⟨some label, v⟩ i := CallArg.targets_iff.mpr hpos
        by_cases hfull : slots[i]?.join.isSome
        · simp only [hfull, if_true]
          exact .inr ⟨_, rfl, .duplicate hordered hfits hsound
            ⟨_, i, hk, rfl, htargets, hfilled.full_iff.mp hfull⟩⟩
        · simp only [hfull]
          have huntaken : ¬ Taken params call k i := fun htaken =>
            hfull (hfilled.full_iff.mpr htaken)
          have hhere : ¬ Offends params call k := by
            rintro ⟨label', ⟨b, hk', -, hunknown⟩ | ⟨b, i', hk', -, htargets', htaken⟩⟩
            · obtain rfl : ⟨some label, v⟩ = b := by simpa [hk] using hk'
              exact hunknown i htargets
            · obtain rfl : ⟨some label, v⟩ = b := by simpa [hk] using hk'
              exact huntaken (htargets.unique htargets' ▸ htaken)
          exact ih hsplit' (hfilled.put hk htargets huntaken) (hsound' hhere)

/-- The defaults end at the first empty slot without one, or with a value for every parameter. -/
lemma fillDefaults_ends (names : Interner) (ps : List Parameter) (slots : List (Option Value))
    (hsame : slots.length = ps.length) :
    (∃ bound, fillDefaults names ps slots = .ok bound ∧
      bound.map Prod.fst = ps.map Parameter.name ∧
      ∀ i : Nat, bound[i]?.map Prod.snd = (slots[i]?.join <|> ps[i]?.bind Parameter.default)) ∨
    ∃ (i : Nat), ∃ p : Parameter,
      fillDefaults names ps slots = .error (.of (.missingArgument (names.lookup p.name))) ∧
      ps[i]? = some p ∧ slots[i]?.join = none ∧ p.default = none ∧
      ∀ j : Nat, j < i → (slots[j]?.join <|> ps[j]?.bind Parameter.default).isSome := by
  induction ps generalizing slots with
  | nil =>
    obtain rfl : slots = [] := List.length_eq_zero_iff.mp hsame
    exact .inl ⟨[], rfl, rfl, by simp⟩
  | cons p ps ih =>
    rcases slots with _ | ⟨slot, slots⟩
    · simp at hsame
    · rw [fillDefaults]
      cases hvalue : slot <|> p.default with
      | none =>
        -- neither given nor with a default: the first parameter that is missing
        obtain ⟨rfl, hnone⟩ : slot = none ∧ p.default = none := by
          cases slot <;> simp_all
        exact .inr ⟨0, p, rfl, rfl, rfl, hnone, by simp⟩
      | some v =>
        rcases ih slots (by simpa using hsame) with ⟨bound, hends, hnamed, hholds⟩ |
          ⟨i, q, hends, hi, hempty, hnone, hbefore⟩
        · refine .inl ⟨(p.name, v) :: bound, by simp [hends], by simp [hnamed], ?_⟩
          rintro (_ | i)
          · simpa using hvalue.symm
          · simpa using hholds i
        · refine .inr ⟨i + 1, q, by simp [hends], by simpa using hi, by simpa using hempty,
            hnone, ?_⟩
          rintro (_ | j) hlt
          · simpa using Option.isSome_of_eq_some hvalue
          · simpa using hbefore j (by omega)

/-- What a full table and the defaults say is what the parameters receive. -/
lemma Filled.receives_iff (hfilled : Filled params call call.length slots) {v : Value} :
    (slots[i]?.join <|> params[i]?.bind Parameter.default) = some v ↔
      Receives params call i v := by
  have htargeted : ∀ {a}, a ∈ call → a.Targets params i → Taken params call call.length i := by
    intro a hmem htargets
    obtain ⟨j, hj⟩ := List.mem_iff_getElem?.mp hmem
    exact .inr ⟨j, (List.getElem?_eq_some_iff.mp hj).1, a, hj, htargets⟩
  -- an empty slot leaves the default, and a full one holds what was given
  cases slot : slots[i]?.join with
  | none =>
    have huntaken : ¬ Taken params call call.length i := by
      simp [← hfilled.full_iff, slot]
    constructor
    · intro hvalue
      obtain ⟨p, hi, hdefault⟩ : ∃ p, params[i]? = some p ∧ p.default = some v := by
        simpa [Option.bind_eq_some_iff] using hvalue
      refine .default ?_ (fun a hmem htargets => huntaken (htargeted hmem htargets)) hi hdefault
      exact Nat.le_of_not_lt fun hbelow => huntaken (.inl hbelow)
    · rintro (⟨hbelow, -⟩ | ⟨hmem, htargets⟩ | ⟨-, -, hi, hdefault⟩)
      · exact absurd (.inl hbelow) huntaken
      · exact absurd (htargeted hmem htargets) huntaken
      · simp [hi, hdefault]
  | some w =>
    have hgiven := (hfilled.holds i w).mp slot
    have hvalue : (some w <|> params[i]?.bind Parameter.default) = some v ↔ w = v := by simp
    rw [hvalue]
    constructor
    · rintro rfl
      rcases hgiven with ⟨hbelow, a, hi, rfl⟩ | ⟨j, -, a, hj, htargets, rfl⟩
      · exact .positional hbelow hi
      · exact .labeled (List.mem_of_getElem? hj) htargets
    · intro hreceives
      suffices Given params call call.length i v from
        Option.some_inj.mp (slot.symm.trans ((hfilled.holds i v).mpr this))
      rcases hreceives with ⟨hbelow, hi⟩ | ⟨hmem, htargets⟩ | ⟨habove, hunnamed, -, -⟩
      · exact .inl ⟨hbelow, _, hi, rfl⟩
      · obtain ⟨j, hj⟩ := List.mem_iff_getElem?.mp hmem
        exact .inr ⟨j, (List.getElem?_eq_some_iff.mp hj).1, _, hj, htargets, rfl⟩
      · rcases hgiven with ⟨hbelow, -⟩ | ⟨j, -, a, hj, htargets, -⟩
        · omega
        · exact absurd htargets (hunnamed a (List.mem_of_getElem? hj))

/-- A parameter without slot and default is unfilled. -/
lemma Filled.unfilled_iff (hfilled : Filled params call call.length slots) :
    Unfilled params call i ↔
      slots[i]?.join = none ∧ ∃ p, params[i]? = some p ∧ p.default = none := by
  have empty_iff : slots[i]?.join = none ↔ ¬ Taken params call call.length i := by
    rw [← hfilled.full_iff, Option.not_isSome_iff_eq_none]
  rw [empty_iff]
  constructor
  · rintro ⟨habove, hunnamed, hmissing⟩
    refine ⟨?_, hmissing⟩
    rintro (hbelow | ⟨j, -, a, hj, htargets⟩)
    · omega
    · exact hunnamed a (List.mem_of_getElem? hj) htargets
  · rintro ⟨huntaken, hmissing⟩
    refine ⟨Nat.le_of_not_lt fun hbelow => huntaken (.inl hbelow), fun a hmem htargets => ?_,
      hmissing⟩
    obtain ⟨j, hj⟩ := List.mem_iff_getElem?.mp hmem
    exact huntaken (.inr ⟨j, (List.getElem?_eq_some_iff.mp hj).1, a, hj, htargets⟩)

/-! ## Binding -/

/-- Every parameter is listed with what it receives. -/
structure Lists (params : List Parameter) (call : List CallArg) (bound : List (Name × Value)) :
    Prop where
  names : bound.map Prod.fst = params.map Parameter.name
  values : ∀ i v, bound[i]?.map Prod.snd = some v ↔ Receives params call i v

/-- The search for a late argument finds the first one. -/
lemma late_search (call : List CallArg) :
    match (call.dropWhile CallArg.isPositional).findIdx? CallArg.isPositional with
    | some m => Late call (leading call + m) ∧ ∀ j < leading call + m, ¬ Late call j
    | none => ∀ k, ¬ Late call k := by
  have hdrop : ∀ m, (call.dropWhile CallArg.isPositional)[m]? = call[leading call + m]? := by
    intro m
    rw [← drop_leading, List.getElem?_drop]
  split
  · rename_i m hfound
    obtain ⟨hlt, hpositional, hfirst⟩ := List.findIdx?_eq_some_iff_getElem.mp hfound
    refine ⟨⟨by omega, _, (hdrop m).symm.trans (List.getElem?_eq_getElem hlt), hpositional⟩, ?_⟩
    rintro j hbefore ⟨habove, a, hj, hlate⟩
    have hrest : (call.dropWhile CallArg.isPositional)[j - leading call]? = some a := by
      rw [hdrop, Nat.add_sub_cancel' habove, hj]
    obtain ⟨_, rfl⟩ := List.getElem?_eq_some_iff.mp hrest
    exact hfirst (j - leading call) (by omega) hlate
  · rename_i hfound
    rintro k ⟨habove, a, hk, hlate⟩
    have hmem : a ∈ call.dropWhile CallArg.isPositional := by
      refine List.mem_of_getElem? (i := k - leading call) ?_
      rw [hdrop, Nat.add_sub_cancel' habove, hk]
    simpa [hlate] using List.findIdx?_eq_none_iff.mp hfound a hmem

/-- A call is bound as the parameters receive their values, or it is at fault. -/
lemma bind_ends (params : List Parameter) (call : List CallArg) (names : Interner) :
    (∃ bound, bind params call names = .ok bound ∧ Bindable params call ∧
      Lists params call bound) ∨
    ∃ cause, bind params call names = .error (.of cause) ∧ Fault params call names cause := by
  have hsearch := late_search call
  rw [bind]
  cases hfound : (call.dropWhile CallArg.isPositional).findIdx? CallArg.isPositional with
  | some m =>
    rw [hfound] at hsearch
    exact .inr ⟨_, rfl, .late hsearch.1 hsearch.2⟩
  | none =>
    rw [hfound] at hsearch
    -- no late argument: leading ones are counted, then labels are placed and defaults are taken
    by_cases hsurplus : params.length < leading call
    · refine .inr ⟨_, ?_, .surplus hsearch hsurplus⟩
      simp only [← leading.eq_def, hsurplus, if_true]
      rfl
    · have hfits : leading call ≤ params.length := by omega
      have hbefore : ∀ j < leading call, ¬ Offends params call j := by
        rintro j hbefore ⟨label, ⟨a, hj, hlabeled, -⟩ | ⟨a, _, hj, hlabeled, -⟩⟩ <;>
          simpa [CallArg.isPositional, hlabeled] using positional_of_lt_leading hbefore hj
      simp only [← leading.eq_def, hsurplus, if_false]
      rcases fillLabeled_ends names hsearch hfits _ drop_leading (filled_leading hfits)
        hbefore with ⟨slots, hends, hfilled, hsound⟩ | ⟨cause, hends, hfault⟩
      · rcases fillDefaults_ends names params slots hfilled.length with
          ⟨bound, hends', hnamed, hholds⟩ | ⟨i, p, hends', hi, hempty, hnone, hbefore⟩
        · have hvalues : ∀ i v, bound[i]?.map Prod.snd = some v ↔ Receives params call i v := by
            intro i v
            rw [hholds, hfilled.receives_iff]
          have hfull : ∀ i, ¬ Unfilled params call i := by
            intro i hunfilled
            obtain ⟨hempty, p, hi, hnodefault⟩ := hfilled.unfilled_iff.mp hunfilled
            have hpast : bound[i]? = none := by simpa [hempty, hi, hnodefault] using hholds i
            have hlength : bound.length = params.length := by
              simpa using congrArg List.length hnamed
            have hbelow := (List.getElem?_eq_some_iff.mp hi).1
            have habove := List.getElem?_eq_none_iff.mp hpast
            omega
          exact .inl ⟨bound, by simp only [hends]; exact hends',
            bindable_iff.mpr ⟨hsearch, hfits, hsound, hfull⟩, hnamed, hvalues⟩
        · refine .inr ⟨_, by simp only [hends]; exact hends',
            .missing hsearch hfits hsound ?_ ?_ hi⟩
          · intro j hlt hunfilled
            obtain ⟨hempty', q, hj, hnone'⟩ := hfilled.unfilled_iff.mp hunfilled
            simpa [hempty', hj, hnone'] using hbefore j hlt
          · exact hfilled.unfilled_iff.mpr ⟨hempty, p, hi, hnone⟩
      · exact .inr ⟨cause, by simp only [hends]; rfl, hfault⟩

/-! ## The order of the labeled arguments -/

section Permuted

variable {rest : List CallArg}

/-- Behind the positional arguments of a bindable call, all have labels. -/
lemma Bindable.labeled (h : Bindable params call) {a : CallArg}
    (hmem : a ∈ call.dropWhile CallArg.isPositional) : a.isPositional = false := by
  rw [← drop_leading] at hmem
  obtain ⟨k, hk⟩ := List.mem_iff_getElem?.mp hmem
  rw [List.getElem?_drop] at hk
  by_contra hpositional
  exact h.ordered (leading call + k) ⟨by omega, a, hk, by simpa using hpositional⟩

lemma perm_of_labeled (hperm : rest.Perm (call.dropWhile CallArg.isPositional)) :
    (call.takeWhile CallArg.isPositional ++ rest).Perm call := by
  have := hperm.append_left (call.takeWhile CallArg.isPositional)
  rwa [List.takeWhile_append_dropWhile] at this

lemma takeWhile_of_labeled (h : Bindable params call)
    (hperm : rest.Perm (call.dropWhile CallArg.isPositional)) :
    (call.takeWhile CallArg.isPositional ++ rest).takeWhile CallArg.isPositional =
      call.takeWhile CallArg.isPositional := by
  have hpositional : ∀ a ∈ call.takeWhile CallArg.isPositional, a.isPositional :=
    fun a hmem => List.mem_takeWhile_imp hmem
  have hlabeled : rest.takeWhile CallArg.isPositional = [] := by
    rcases rest with _ | ⟨a, rest⟩
    · rfl
    · have := h.labeled (hperm.subset List.mem_cons_self)
      simp [this]
  rw [List.takeWhile_append_of_pos hpositional, hlabeled, List.append_nil]

/-- Labeled arguments in another order leave a call bindable. -/
lemma Bindable.permuted (h : Bindable params call)
    (hperm : rest.Perm (call.dropWhile CallArg.isPositional)) :
    Bindable params (call.takeWhile CallArg.isPositional ++ rest) := by
  have hsame := takeWhile_of_labeled h hperm
  have hlead : leading (call.takeWhile CallArg.isPositional ++ rest) = leading call :=
    congrArg List.length hsame
  have hiff : ∀ a, a ∈ call.takeWhile CallArg.isPositional ++ rest ↔ a ∈ call :=
    fun a => (perm_of_labeled hperm).mem_iff
  refine ⟨?_, ?_, ?_, ?_, ?_, ?_⟩
  · rintro k ⟨habove, a, hk, hpositional⟩
    rw [hlead, leading] at habove
    rw [List.getElem?_append_right habove] at hk
    have hlabeled := h.labeled (hperm.subset (List.mem_of_getElem? hk))
    simp [hlabeled] at hpositional
  · simpa only [hlead] using h.fits
  · simpa only [hiff] using h.known
  · simpa only [hiff, hlead] using h.free
  · refine ((perm_of_labeled hperm).pairwise_iff ?_).mpr h.apart
    intro a b happart i htargets htargets'
    exact happart i htargets' htargets
  · simpa only [hiff, hlead] using h.filled

/-- Labeled arguments in another order give the parameters the same values. -/
lemma receives_permuted (h : Bindable params call)
    (hperm : rest.Perm (call.dropWhile CallArg.isPositional)) {v : Value} :
    Receives params (call.takeWhile CallArg.isPositional ++ rest) i v ↔
      Receives params call i v := by
  have hsame := takeWhile_of_labeled h hperm
  have hlead : leading (call.takeWhile CallArg.isPositional ++ rest) = leading call :=
    congrArg List.length hsame
  have hiff : ∀ a, a ∈ call.takeWhile CallArg.isPositional ++ rest ↔ a ∈ call :=
    fun a => (perm_of_labeled hperm).mem_iff
  have hat : i < leading call →
      (call.takeWhile CallArg.isPositional ++ rest)[i]? = call[i]? := by
    intro hbelow
    rw [getElem?_of_lt_leading (hlead ▸ hbelow), hsame, getElem?_of_lt_leading hbelow]
  -- the two calls agree on the positional prefix entry by entry, and beyond it on what they contain
  constructor
  · rintro (⟨hbelow, hi⟩ | ⟨hmem, htargets⟩ | ⟨habove, hunnamed, hi, hdefault⟩)
    · rw [hlead] at hbelow
      exact .positional hbelow (hat hbelow ▸ hi)
    · exact .labeled ((hiff _).mp hmem) htargets
    · exact .default (hlead ▸ habove) (fun a hmem => hunnamed a ((hiff a).mpr hmem)) hi hdefault
  · rintro (⟨hbelow, hi⟩ | ⟨hmem, htargets⟩ | ⟨habove, hunnamed, hi, hdefault⟩)
    · exact .positional (hlead ▸ hbelow) ((hat hbelow).trans hi)
    · exact .labeled ((hiff _).mpr hmem) htargets
    · exact .default (hlead ▸ habove) (fun a hmem => hunnamed a ((hiff a).mp hmem)) hi hdefault

end Permuted

/-- A list of bindings is given by what the parameters receive. -/
lemma Lists.unique {bound bound' : List (Name × Value)} (h : Lists params call bound)
    (hnames : bound'.map Prod.fst = params.map Parameter.name)
    (hvalues : ∀ i v, bound'[i]?.map Prod.snd = some v ↔ Receives params call i v) :
    bound' = bound := by
  have hfirsts : bound'.map Prod.fst = bound.map Prod.fst := hnames.trans h.names.symm
  have hseconds : bound'.map Prod.snd = bound.map Prod.snd := by
    refine List.ext_getElem? fun i => ?_
    rw [List.getElem?_map, List.getElem?_map]
    refine Option.ext fun v => ?_
    rw [hvalues, h.values]
  rw [← List.zip_unzip bound', ← List.zip_unzip bound, List.unzip_eq_map,
    List.unzip_eq_map, hfirsts, hseconds]

/-- Binding meets its specification: the calls that bind are the bindable ones, they list every
parameter with what it receives whatever the order of the labels, and all other calls end with
their fault. -/
theorem bind_meets_specification (params : List Parameter) (call : List CallArg)
    (names : Interner) :
    ((∃ bound, bind params call names = .ok bound) ↔ Bindable params call) ∧
    (∀ bound, bind params call names = .ok bound →
      bound.map Prod.fst = params.map Parameter.name ∧
      (∀ i v, bound[i]?.map Prod.snd = some v ↔ Receives params call i v) ∧
      ∀ rest, rest.Perm (call.dropWhile CallArg.isPositional) →
        bind params (call.takeWhile CallArg.isPositional ++ rest) names = .ok bound) ∧
    ∀ e, bind params call names = .error e ↔ ∃ cause, Fault params call names cause ∧
    e = .of cause := by
  -- `bind_ends` says how binding ends, and what it says of values and of faults leaves no choice
  refine ⟨⟨?_, ?_⟩, ?_, ?_⟩
  · rintro ⟨bound, hends⟩
    rcases bind_ends params call names with ⟨_, -, hbindable, -⟩ | ⟨cause, hends', -⟩
    · exact hbindable
    · simp [hends] at hends'
  · intro hbindable
    rcases bind_ends params call names with ⟨bound, hends, -⟩ | ⟨cause, -, hfault⟩
    · exact ⟨bound, hends⟩
    · exact absurd hbindable hfault.not_bindable
  · intro bound hends
    rcases bind_ends params call names with ⟨bound', hends', hbindable, hlists⟩ | ⟨cause, hends', -⟩
    · obtain rfl : bound = bound' := by simpa [hends] using hends'
      refine ⟨hlists.names, hlists.values, fun rest hperm => ?_⟩
      rcases bind_ends params (call.takeWhile CallArg.isPositional ++ rest) names with
        ⟨other, hends'', -, hlists'⟩ | ⟨cause, -, hfault⟩
      · have hsame : other = bound := hlists.unique hlists'.names fun i v =>
          (hlists'.values i v).trans (receives_permuted hbindable hperm)
        rw [hends'', hsame]
      · exact absurd (hbindable.permuted hperm) hfault.not_bindable
    · simp [hends] at hends'
  · intro e
    rcases bind_ends params call names with ⟨bound, hends, hbindable, -⟩ | ⟨cause, hends, hfault⟩
    · simp only [hends, reduceCtorEq, false_iff, not_exists, not_and]
      exact fun cause hfault _ => hfault.not_bindable hbindable
    · rw [hends, Except.error.injEq]
      constructor
      · rintro rfl
        exact ⟨cause, hfault, rfl⟩
      · rintro ⟨cause', hfault', rfl⟩
        rw [hfault.unique hfault']

end Parameter
end Patchbay
