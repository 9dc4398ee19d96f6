import Patchbay.Path
import Patchbay.Number.Numeral
import Patchbay.Text.Blank

/-!
# Configuration

The settings of an evaluation, their defaults, and how two of them are read from the environment of
the process.
-/

namespace Patchbay

/-- The settings that all evaluations on one heap share. -/
structure Config where
  /-- How deep evaluations may nest. -/
  maxDepth : Nat
  /-- The extension of script files, without the dot. -/
  scriptExtension : String
  /-- The directory in which the root frame resolves names. -/
  rootDir : Option Path
  /-- The number of allocations between the collections of a running program. -/
  gcThreshold : Nat
  /-- The age bound of those collections. -/
  gcGeneration : UInt8
deriving DecidableEq

namespace Config

def default : Config := ⟨10000, "rill", none, 10000, 255⟩

/-- The number that a text writes, with an optional plus sign, if 64 bits hold it. -/
def word? (cs : List Char) : Option Nat :=
  let digits :=
    match cs with
    | '+' :: rest => rest
    | cs => cs
  (Number.natural? digits).filter (· < Nat.pow 2 64)

/-- The default settings with a depth limit and a root directory that were given as texts. A limit
that is no positive number does not count, and neither does an empty directory. -/
def ofTexts (maxDepth rootDir : Option String) : Config :=
  let limit := maxDepth.bind fun raw => (word? (Text.trim raw.toList)).filter (0 < ·)
  { default with
    maxDepth := limit.getD default.maxDepth
    rootDir := (rootDir.filter (· ≠ "")).map Path.mk }

/-- The settings that an environment of named texts asks for. -/
def ofEnvironment (value? : String → Option String) : Config :=
  ofTexts (value? "RILL_MAX_DEPTH") (value? "RILL_PATH")

def withMaxDepth (c : Config) (maxDepth : Nat) : Config := { c with maxDepth := maxDepth }

def withRootDir (c : Config) (dir : Path) : Config := { c with rootDir := some dir }

def withScriptExtension (c : Config) (extension : String) : Config :=
  { c with scriptExtension := extension }

def withGcThreshold (c : Config) (threshold : Nat) : Config := { c with gcThreshold := threshold }

end Config
end Patchbay
