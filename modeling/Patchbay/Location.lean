import Patchbay.Names

/-!
# Source locations

Where an expression or statement stands. Lines count from one; line zero marks things that no
program text made.
-/

namespace Patchbay

/-- A place in a source file. -/
structure Location where
  file : Name
  line : Nat
  column : Nat
deriving DecidableEq, Repr, Inhabited

namespace Location

/-- The place of things that no program text made. -/
def builtin : Location := ⟨Name.empty, 0, 0⟩

def isBuiltin (l : Location) : Bool := l.line = 0

/-- The place as messages show it. -/
def display (l : Location) (names : Interner) : String :=
  if l.isBuiltin then "<builtin>"
  else names.lookup l.file ++ ":" ++ toString l.line ++ ":" ++ toString l.column

/-- The place with its file as a bare name. -/
def toText (l : Location) : String :=
  l.file.toText ++ "@" ++ toString l.line ++ ":" ++ toString l.column

end Location
end Patchbay
