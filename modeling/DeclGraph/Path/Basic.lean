import DeclGraph.Name.Basic
import DeclGraph.Violation

/-!
# Paths

A path leads from the root through containers by their names. It has no names at
all when it stays at the root.

The written form joins the names by dots. The root is written `_root_`, and a
path whose first name happens to be that word has it between backticks, so that
the two stay apart.

Main results:

- `Path.segments_child`, `Path.parent_child` and `Path.name_child` relate a path
  to the one it extends.
-/

namespace DeclGraph

/-- The names on the way from the root, outermost first. -/
structure Path where
  /-- The names of the path. -/
  segments : List Name
deriving DecidableEq, Inhabited

namespace Path

/-! ## Making paths and taking them apart -/

/-- The path that stays at the root. -/
def root : Path := ⟨[]⟩

/-- The path of a single name. -/
def single (name : Name) : Path := ⟨[name]⟩

/-- One step further down. -/
def child (path : Path) (name : Name) : Path :=
  ⟨path.segments ++ [name]⟩

/-- The number of names. -/
def length (path : Path) : Nat :=
  path.segments.length

/-- Does the path stay at the root? -/
def isRoot (path : Path) : Bool :=
  path.segments.isEmpty

/-- The path without its last name. -/
def parent (path : Path) : Except Violation Path :=
  if path.isRoot then .error .parentOfRoot else .ok ⟨path.segments.dropLast⟩

/-- The last name of the path. -/
def name (path : Path) : Except Violation Name :=
  match path.segments.getLast? with
  | none => .error .nameOfRoot
  | some name => .ok name

@[simp]
theorem segments_root : root.segments = [] :=
  rfl

@[simp]
theorem segments_child (path : Path) (name : Name) :
    (path.child name).segments = path.segments ++ [name] :=
  rfl

/-- Going down and up again leads back. -/
@[simp]
theorem parent_child (path : Path) (name : Name) : (path.child name).parent = .ok path := by
  simp [parent, isRoot]

/-- The last name of an extended path is the one it was extended by. -/
@[simp]
theorem name_child (path : Path) (name : Name) : (path.child name).name = .ok name := by
  simp [Path.name]

/-! ## Written form -/

/-- The written root. -/
def rootLiteral : String := "_root_"

/-- The first name of a path as written: it is quoted when it could pass for the root. -/
def leadingText (name : Name) : String :=
  if name.raw = rootLiteral then name.quoted else name.text

/-- The written names of a path that is not the root. -/
def segmentTexts : List Name → List String
  | [] => []
  | first :: rest => leadingText first :: rest.map Name.text

/-- The path as emitted. -/
def text (path : Path) : String :=
  if path.isRoot then rootLiteral else ".".intercalate (segmentTexts path.segments)

/-! ## Order -/

/-- Paths are ordered name by name, and a path comes before every extension of it. -/
def order (a b : Path) : Ordering :=
  List.compareLex Name.order a.segments b.segments

end Path
end DeclGraph
