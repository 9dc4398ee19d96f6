import Patchbay.Location
import Patchbay.Value.Tag

/-!
# Evaluation errors

An error is a cause together with the places that it passed: the innermost expression or statement
that failed, then the call sites, innermost first, and notes in between. The wording of a cause is
in `Cause.message`. Operator failures name the reserved builtin and the types of the operands.
-/

namespace Patchbay

/-- Failures of node ports. -/
inductive PortFault where
  | inputNotConnected (node port : String)
  | outputUninitialized (node port : String)
  | noSuchPort (node : String) (kind : PortKind) (port : String)
deriving DecidableEq, Repr

/-- Why an evaluation failed. -/
inductive Cause where
  | divisionByZero (builtin typeName : String)
  | moduloByZero (builtin typeName : String)
  | integerOverflow (builtin operation typeName : String)
  | cast (source target : String)
  | castOutOfRange (value target : String)
  | typeMismatch (expected got : String)
  | invalidBinaryOp (builtin op left right : String)
  | invalidUnaryOp (builtin op operand : String)
  | unknownOperator (builtin symbol : String)
  | wrongOperandCount (builtin : String) (expected got : Nat)
  | notIndexable (builtin typeName index : String)
  | indexOutOfBounds (index : Int) (len : Nat)
  | undefinedVariable (name : String)
  | duplicateBinding (name : String)
  | undefinedMember (typeName member : String)
  | notAssignable (typeName member : String)
  | thisOutsideFrame
  | notCallable (typeName : String)
  | tooManyArguments (expected got : Nat)
  | positionalAfterKeyword (position : Nat)
  | unknownArgument (name : String)
  | duplicateArgument (name : String)
  | missingArgument (name : String)
  | unlabeledNodeArgument (position : Nat)
  | unknownParam (node param : String)
  | recursionLimit (depth : Nat)
  | deadObject (what : String)
  | port (fault : PortFault)
  | pluginLoad (symbol message : String)
  | scriptLoad (path message : String)
  /-- A message of a host or a plugin, or one with no cause of its own. -/
  | custom (message : String)
deriving DecidableEq, Repr

/-- A word as messages quote it. -/
def inTicks (s : String) : String := "`" ++ s ++ "`"

namespace PortFault

def message : PortFault → String
  | inputNotConnected node port =>
    "input " ++ inTicks port ++ " of node " ++ inTicks node ++ " is not connected"
  | outputUninitialized node port =>
    "output " ++ inTicks port ++ " of node " ++ inTicks node ++ " has no value yet"
  | noSuchPort node kind port =>
    "node " ++ inTicks node ++ " has no " ++ kind.name ++ " port " ++ inTicks port

end PortFault

namespace Cause

/-- The wording of a cause. -/
def message : Cause → String
  | divisionByZero builtin typeName =>
      inTicks builtin ++ ": division by zero on " ++ inTicks typeName
  | moduloByZero builtin typeName => inTicks builtin ++ ": modulo by zero on " ++ inTicks typeName
  | integerOverflow builtin operation typeName =>
    inTicks builtin ++ ": " ++ inTicks typeName ++ " overflow in " ++ operation
  | cast source target => "cannot cast " ++ source ++ " to " ++ target
  | castOutOfRange value target => "value " ++ value ++ " is not representable as " ++ target
  | typeMismatch expected got => "type mismatch: expected " ++ expected ++ ", got " ++ got
  | invalidBinaryOp builtin op left right =>
    inTicks builtin ++ ": operator " ++ inTicks op ++ " cannot be applied to " ++ inTicks left ++
    " and " ++ inTicks right
  | invalidUnaryOp builtin op operand =>
    inTicks builtin ++ ": operator " ++ inTicks op ++ " cannot be applied to " ++ inTicks operand
  | unknownOperator builtin symbol => inTicks builtin ++ ": unknown operator " ++ inTicks symbol
  | wrongOperandCount builtin expected got =>
    inTicks builtin ++ " expects " ++ toString expected ++ " operands, got " ++ toString got
  | notIndexable builtin typeName index =>
    inTicks builtin ++ ": " ++ inTicks typeName ++ " cannot be indexed with " ++ index
  | indexOutOfBounds index len =>
    "index " ++ toString index ++ " out of bounds for length " ++ toString len
  | undefinedVariable name => "undefined variable: " ++ name
  | duplicateBinding name => inTicks name ++ " is already defined in this scope"
  | undefinedMember typeName member => inTicks typeName ++ " has no member " ++ inTicks member
  | notAssignable typeName member =>
    "cannot assign to member " ++ inTicks member ++ " of " ++ inTicks typeName
  | thisOutsideFrame => inTicks "this" ++ " used outside of a frame literal"
  | notCallable typeName => inTicks typeName ++ " is not callable"
  | tooManyArguments expected got =>
    "too many arguments: expected at most " ++ toString expected ++ ", got " ++ toString got
  | positionalAfterKeyword position =>
    "positional argument " ++ toString position ++ " follows a labeled argument"
  | unknownArgument name => "no parameter named " ++ inTicks name
  | duplicateArgument name => "argument " ++ inTicks name ++ " is bound more than once"
  | missingArgument name => "missing argument " ++ inTicks name
  | unlabeledNodeArgument position =>
    "node arguments must be labeled; argument " ++ toString position ++ " has no label"
  | unknownParam node param => "node " ++ inTicks node ++ " has no param " ++ inTicks param
  | recursionLimit depth => "maximum recursion depth exceeded (limit: " ++ toString depth ++ ")"
  | deadObject what => "use of " ++ what ++ " after it was collected"
  | port fault => fault.message
  | pluginLoad symbol message => "plugin " ++ inTicks symbol ++ " failed: " ++ message
  | scriptLoad path message => "cannot load script " ++ inTicks path ++ ": " ++ message
  | custom message => message

end Cause

/-- A failed evaluation. -/
structure EvalError where
  cause : Cause
  /-- The innermost node that failed. -/
  location : Option Location
  /-- The calls that the error left, innermost first. -/
  callSites : List Location
  notes : List String
deriving DecidableEq, Repr

namespace EvalError

/-- An error that has passed no place yet. -/
def of (cause : Cause) : EvalError := ⟨cause, none, [], []⟩

/-- An error with a message of its own. -/
def custom (message : String) : EvalError := of (.custom message)

def message (e : EvalError) : String := e.cause.message

/-- Attach the place of the failing node, unless a deeper node did so before. -/
def locatedAt (e : EvalError) (loc : Location) : EvalError :=
  if e.location.isNone && !loc.isBuiltin then { e with location := some loc } else e

/-- Record a call that the error leaves. -/
def withCallSite (e : EvalError) (site : Location) : EvalError :=
  if site.isBuiltin then e else { e with callSites := e.callSites ++ [site] }

def withNote (e : EvalError) (note : String) : EvalError :=
  { e with notes := e.notes ++ [note] }

/-- The message with its place, call sites and notes, a line for each of the latter. -/
def render (e : EvalError) (names : Interner) : String :=
  let head :=
    match e.location with
    | some loc => loc.display names ++ ": error: " ++ e.message
    | none => "error: " ++ e.message
  let sites := e.callSites.map fun site => "\n  called from " ++ site.display names
  let notes := e.notes.map fun note => "\n  note: " ++ note
  String.join (head :: sites ++ notes)

end EvalError

/-- Fail for a cause. -/
def fail {m : Type → Type} [MonadExceptOf EvalError m] {α : Type} (cause : Cause) : m α :=
  throw (.of cause)

end Patchbay
