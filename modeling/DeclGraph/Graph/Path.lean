import DeclGraph.Graph.Basic
import DeclGraph.Path.Basic

/-!
# Paths in a graph

The path of a declaration is read upwards, from owner to owner. A path is
resolved downwards, from the root through the scopes. Where a scope has several
containers of one name, a package is taken before a class and a class before an
object.

Main results:

- `Graph.lineage_root` and `Graph.path_root` say that the root is nowhere below
  itself.
- `Graph.resolve?_root` and `Graph.resolve?_child` resolve a path name by name.
-/

namespace DeclGraph
namespace Graph

/-! ## Upwards -/

/-- The declarations from below the root down to `id`. A declaration without an owner stands
alone. -/
def lineage (g : Graph) (id : DeclId) : List DeclId :=
  if id = root then []
  else
    match g.owner? id with
    | none => [id]
    | some owner => if owner.index < id.index then g.lineage owner ++ [id] else [id]
termination_by id.index

/-- The path of a declaration. A comment has no name and yields the path of its container. -/
def path (g : Graph) (id : DeclId) : Path :=
  ⟨(g.lineage id).filterMap fun entry => (g.get? entry).bind Decl.name?⟩

@[simp]
theorem lineage_root (g : Graph) : g.lineage root = [] := by
  rw [lineage, if_pos rfl]

@[simp]
theorem path_root (g : Graph) : g.path root = Path.root := by
  simp [path, Path.root]

/-! ## Downwards -/

/-- The container of this name in a scope, whatever its kind. -/
def resolveIn? (scope : Scope) (name : Name) : Option DeclId :=
  scope.find? .package name <|> scope.find? .klass name <|> scope.find? .object name

/-- One step down from a container. -/
def enter? (g : Graph) (container : DeclId) (name : Name) : Option DeclId :=
  (g.scope? container).bind fun scope => resolveIn? scope name

/-- The container that a path leads to. -/
def resolve? (g : Graph) (path : Path) : Option DeclId :=
  path.segments.foldlM g.enter? root

@[simp]
theorem resolve?_root (g : Graph) : g.resolve? Path.root = some root :=
  rfl

/-- An extended path leads one step further down. -/
@[simp]
theorem resolve?_child (g : Graph) (path : Path) (name : Name) :
    g.resolve? (path.child name) = (g.resolve? path).bind (g.enter? · name) := by
  simp [resolve?, List.foldlM_append]

end Graph
end DeclGraph
