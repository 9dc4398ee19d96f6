import Patchbay.Value.Basic
import Patchbay.Error

/-!
# Parameters and argument binding

A function declares its parameters in order, each with or without a default. The arguments of a call
are positional or labeled. Positional arguments come first and fill the parameters from the left,
labeled ones fill the parameter of their name, and defaults fill what is left.
-/

namespace Patchbay

/-- A declared parameter. -/
structure Parameter where
  name : Name
  /-- The value for calls that do not give one. It was computed at the declaration. -/
  default : Option Value
deriving DecidableEq

/-- An argument of a call, computed. -/
structure CallArg where
  label : Option Name
  value : Value
deriving DecidableEq

namespace CallArg

/-- An argument without a label. -/
def positional (v : Value) : CallArg := ⟨none, v⟩

def isPositional (a : CallArg) : Bool := a.label.isNone

end CallArg

namespace Parameter

/-- The position of the first parameter with a given name. -/
def position? (params : List Parameter) (name : Name) : Option Nat :=
  params.findIdx? fun p => p.name = name

/-- Put labeled arguments into the slots of their parameters, one after the other. -/
def fillLabeled (params : List Parameter) (names : Interner) :
    List (Option Value) → List CallArg → Except EvalError (List (Option Value))
  | slots, [] => return slots
  | slots, ⟨none, _⟩ :: rest => fillLabeled params names slots rest
  | slots, ⟨some label, value⟩ :: rest =>
    match position? params label with
    | none => fail (.unknownArgument (names.lookup label))
    | some i =>
      if (slots[i]?.join).isSome then fail (.duplicateArgument (names.lookup label))
      else fillLabeled params names (slots.set i (some value)) rest

/-- Give the empty slots their defaults. -/
def fillDefaults (names : Interner) :
    List Parameter → List (Option Value) → Except EvalError (List (Name × Value))
  | p :: params, slot :: slots =>
    match slot <|> p.default with
    | some v => do return (p.name, v) :: (← fillDefaults names params slots)
    | none => fail (.missingArgument (names.lookup p.name))
  | _, _ => return []

/-- Bind the arguments of a call to the declared parameters, in the order of the declaration. -/
def bind (params : List Parameter) (call : List CallArg) (names : Interner) :
    Except EvalError (List (Name × Value)) := do
  let leading := call.takeWhile CallArg.isPositional
  let labeled := call.dropWhile CallArg.isPositional
  match labeled.findIdx? CallArg.isPositional with
  | some late => fail (.positionalAfterKeyword (leading.length + late))
  | none =>
    if params.length < leading.length then fail (.tooManyArguments params.length leading.length)
    else
      let slots := leading.map (fun a => some a.value) ++
        List.replicate (params.length - leading.length) none
      fillDefaults names params (← fillLabeled params names slots labeled)

end Parameter
end Patchbay
