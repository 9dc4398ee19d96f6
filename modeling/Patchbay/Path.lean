/-!
# Paths and directory trees

A path is its text; two paths are the same when their components are, so doubled and trailing
slashes do not count, and neither do single dots after the first component. A directory tree says
which paths are directories and which are files.
-/

namespace Patchbay

/-- A path in a directory tree. -/
structure Path where
  text : String
deriving DecidableEq, Repr, Inhabited

namespace Path

/-- A part of a path. -/
inductive Component where
  /-- The slash at the start of an absolute path. -/
  | root
  /-- The dot at the start of a relative path. -/
  | here
  | up
  | entry (name : String)
deriving DecidableEq, Repr

/-- Split a text at the slashes. -/
def pieces : List Char → List (List Char)
  | [] => [[]]
  | c :: rest =>
    match pieces rest with
    | piece :: more => if c = '/' then [] :: piece :: more else (c :: piece) :: more
    | [] => [[c]]

/-- The component that a piece stands for, unless it is empty or a dot. -/
def component? (piece : List Char) : Option Component :=
  if piece = [] ∨ piece = ['.'] then none
  else if piece = ['.', '.'] then some .up
  else some (.entry (String.ofList piece))

/-- The components of a path. -/
def components (p : Path) : List Component :=
  let ps := pieces p.text.toList
  let first :=
    match ps with
    | [] :: _ :: _ => [.root]
    | ['.'] :: _ => [.here]
    | _ => []
  first ++ ps.filterMap component?

/-- Whether two paths have the same components. -/
def same (p q : Path) : Bool := p.components = q.components

def isAbsolute (p : Path) : Bool := p.text.toList.head? = some '/'

/-- Append a path to a directory. An absolute path replaces the directory. -/
def join (dir : Path) (rest : Path) : Path :=
  if rest.isAbsolute ∨ dir.text = "" then rest
  else if dir.text.toList.getLast? = some '/' then ⟨dir.text ++ rest.text⟩
  else ⟨dir.text ++ "/" ++ rest.text⟩

end Path

/-- Which paths are directories and which are files. -/
structure DirectoryTree where
  isDir : Path → Bool
  isFile : Path → Bool

namespace DirectoryTree

/-- The tree without entries. -/
def empty : DirectoryTree := ⟨fun _ => false, fun _ => false⟩

/-- Where a path leads, seen from the working directory. -/
inductive Place where
  /-- A directory around the working directory. Nothing else is known about it. -/
  | above
  /-- The entry with the given names, outermost first; the working directory itself has none. -/
  | at (names : List String)
deriving DecidableEq

/-- Follow one component. Every step starts from a directory, so `dirs` lists the known ones. -/
def Place.step (dirs : List (List String)) : Place → Path.Component → Option Place
  | _, .root => some .above
  | p, .here => some p
  | .above, .up | .at [], .up => some .above
  | .above, .entry _ => none
  | .at names, .up => if dirs.contains names then some (.at names.dropLast) else none
  | .at names, .entry name => if dirs.contains names then some (.at (names ++ [name])) else none

/-- Follow a path from the working directory. The empty text leads nowhere. -/
def Place.follow (dirs : List (List String)) (p : Path) : Option Place :=
  if p.text = "" then none else p.components.foldlM (Place.step dirs) (.at [])

/-- The names of an entry that is written as a path. -/
def entryNames (entry : String) : List String :=
  ((Path.pieces entry.toList).filter (· ≠ [])).map String.ofList

/-- The tree in which the directory `root` of the working directory holds the given entries and no
others. An entry that ends with a slash is a directory, any other one is a file; the directories
that lead to an entry exist too. -/
def ofEntries (root : String) (entries : List String) : DirectoryTree :=
  let isDirectory := fun (entry : String) => entry.toList.getLast? = some '/'
  let leading := fun (entry : String) =>
    let names := entryNames entry
    (List.range (if isDirectory entry then names.length + 1 else names.length)).map fun n =>
      root :: names.take n
  let dirs := [] :: [root] :: entries.flatMap leading
  let files := (entries.filter fun e => !isDirectory e).map fun e => root :: entryNames e
  { isDir := fun p =>
      match Place.follow dirs p with
      | some .above => true
      | some (.at names) => dirs.contains names
      | none => false
    isFile := fun p =>
      match Place.follow dirs p, (Path.pieces p.text.toList).getLast? with
      | some (.at names), some last => last ≠ [] && last ≠ ['.'] && files.contains names
      | _, _ => false }

end DirectoryTree
end Patchbay
