import Std.Data.TreeMap

/-!
# Interned names

Identifiers are interned: a `Name` is a position in a table of texts that only grows, so names
compare as fast as numbers. The table keeps its texts in a row and finds a text again by a search
tree from texts to names. The empty text is in every table, at position zero.
-/

namespace Patchbay

/-- An interned identifier. -/
structure Name where
  /-- The position of its text in the table. -/
  slot : Nat
deriving DecidableEq, Repr, Inhabited

namespace Name

/-- The name of the empty text. -/
def empty : Name := ⟨0⟩

instance : Ord Name := ⟨fun a b => compare a.slot b.slot⟩

theorem compare_def (a b : Name) : compare a b = compare a.slot b.slot := rfl

instance : Std.LawfulEqOrd Name where
  eq_of_compare {a b} h := by
    cases a
    cases b
    simpa [compare_def] using h
  compare_self {a} := by simp [compare_def]

instance : Std.TransOrd Name where
  eq_swap {a b} := by simpa [compare_def] using Std.OrientedOrd.eq_swap (a := a.slot) (b := b.slot)
  isLE_trans {a b c} h h' := by
    rw [compare_def] at *
    exact Std.TransOrd.isLE_trans h h'

/-- A name without its table. -/
def toText (n : Name) : String := "Name#" ++ toString n.slot

end Name

/-- A table of interned texts. -/
structure Interner where
  /-- Where each text is found. -/
  slots : Std.TreeMap String Name
  /-- The texts in the order of their first use. -/
  strings : Array String

namespace Interner

/-- The table of the empty text alone. -/
def new : Interner where
  slots := (∅ : Std.TreeMap String Name).insert "" Name.empty
  strings := #[""]

instance : Inhabited Interner := ⟨new⟩

/-- The name of a text that is in the table. -/
def get? (names : Interner) (s : String) : Option Name := names.slots[s]?

/-- The name of a text, which enters the table if it is new. -/
def intern (names : Interner) (s : String) : Name × Interner :=
  match names.get? s with
  | some name => (name, names)
  | none =>
    let name : Name := ⟨names.strings.size⟩
    (name, { slots := names.slots.insert s name, strings := names.strings.push s })

/-- The text of a name. A name of another table may have none here. -/
def lookup (names : Interner) (name : Name) : String :=
  names.strings[name.slot]?.getD "<unknown>"

/-- The number of texts, the empty one included. -/
def size (names : Interner) : Nat := names.strings.size

/-- Whether no text but the empty one was interned. -/
def isEmpty (names : Interner) : Bool := names.size ≤ 1

end Interner
end Patchbay
