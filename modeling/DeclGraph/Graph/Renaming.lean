import DeclGraph.Decl.Types
import DeclGraph.Graph.Forest

/-!
# Renamings

Two graphs may both have issued `anon$1` for types of their own in one container.
When the declarations of one graph are brought into another, the anonymous classes
and objects that come into such a container are renamed: their numbers are shifted
by as many names as the container had issued already. Paths that lead to or
through a renamed container follow.

All renamings are chosen before anything is written.

Main results:

- `Renamings.nameOf_nil` and `Renamings.follow_nil` say that nothing changes where
  nothing is renamed.
-/

namespace DeclGraph

/-- A container that gets another name on its way into a graph. -/
structure Renaming where
  /-- The container, by its id in the graph it comes from. -/
  source : DeclId
  /-- The name it gets. -/
  name : Name
  /-- Its path in the graph it comes from. -/
  fromPath : Path
  /-- Its path in the graph it goes to. -/
  toPath : Path
deriving DecidableEq

/-- The renamings of one graph. -/
abbrev Renamings := List Renaming

namespace Renamings

/-! ## Following renamings -/

/-- The name under which a container goes into the graph. -/
def nameOf (renamings : Renamings) (source : DeclId) (name : Name) : Name :=
  ((renamings.find? fun entry => entry.source = source).map Renaming.name).getD name

/-- The longer of two renamed paths, the second one where they are of one length. -/
def longer (best : Option Renaming) (entry : Renaming) : Option Renaming :=
  match best with
  | none => some entry
  | some other =>
    if other.fromPath.length ≤ entry.fromPath.length then some entry else some other

/-- The innermost renamed container that a path leads to or through. Where several have one path,
the last of them counts. -/
def innermost (renamings : Renamings) (path : Path) : Option Renaming :=
  (List.filter (fun entry => entry.fromPath.segments.isPrefixOf path.segments)
    renamings).foldl longer none

/-- The path with the innermost renamed container on it exchanged for its new path. -/
def follow (renamings : Renamings) (path : Path) : Path :=
  match renamings.innermost path with
  | none => path
  | some entry => ⟨entry.toPath.segments ++ path.segments.drop entry.fromPath.length⟩

/-- The type with every path in it following the renamings. -/
def redirect (renamings : Renamings) (type : TypeExpr) : TypeExpr :=
  type.mapPaths renamings.follow

/-- A declaration under its name in the graph it goes to, with every type in it redirected. -/
def rename (renamings : Renamings) (id : DeclId) : Decl → Decl
  | .klass k => .klass { k.mapTypes renamings.redirect with name := renamings.nameOf id k.name }
  | .object o => .object { o with name := renamings.nameOf id o.name }
  | decl => decl.mapTypes renamings.redirect

@[simp]
theorem nameOf_nil (source : DeclId) (name : Name) : nameOf [] source name = name :=
  rfl

@[simp]
theorem follow_nil (path : Path) : follow [] path = path :=
  rfl

@[simp]
theorem kind_rename (renamings : Renamings) (id : DeclId) (decl : Decl) :
    (renamings.rename id decl).kind = decl.kind := by
  cases decl <;> rfl

@[simp]
theorem scope?_rename (renamings : Renamings) (id : DeclId) (decl : Decl) :
    (renamings.rename id decl).scope? = decl.scope? := by
  cases decl <;> rfl

end Renamings

/-! ## Choosing renamings -/

/-- The name that an anonymous class or object gets in a container that has issued `issued` names
already. Nothing else is renamed, and nothing where no name was issued. -/
def Name.shifted? (issued : UInt32) (kind : Kind) (name : Name) : Option Name :=
  if issued = 0 || kind = .package then none
  else name.anonymousIndex?.map fun index => Name.anonymous (Name.shiftIndex index issued)

/-- The scope of a container in `g`, or no scope where there is no container yet. -/
def Graph.scopeOf (g : Graph) : Option DeclId → Except Violation (Option Scope)
  | none => .ok none
  | some container => (g.scope container).map some

/-- The renamings of a forest that goes into `g`. The forest stands at the path `here` in the graph
it comes from and is to stand at the path `there`; `into` is the scope there, if there is one
yet. -/
def Forest.renamings (g : Graph) :
    Forest → Option Scope → Path → Path → Except Violation Renamings
  | .nil, _, _, _ => .ok []
  | .cons id decl below rest, into, here, there =>
    match decl.key? with
    | none => rest.renamings g into here there
    | some (kind, name) => do
      let shifted := name.shifted? (into.elim 0 Scope.issued) kind
      let merged := shifted.getD name
      let inner ← g.scopeOf (into.bind fun scope => scope.find? kind merged)
      let own := shifted.map fun new => Renaming.mk id new (here.child name) (there.child new)
      let deeper ← below.renamings g inner (here.child name) (there.child merged)
      let further ← rest.renamings g into here there
      return own.toList ++ deeper ++ further

end DeclGraph
