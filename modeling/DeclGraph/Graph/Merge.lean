import DeclGraph.Graph.Build
import DeclGraph.Graph.Renaming

/-!
# Merging graphs

The declarations of one graph can be brought into another. Packages, classes and
objects come together by kind and name. Fields and comments are copied, and so are
methods, except that a method is left out when the container had one like it
before the merge; methods that were beside each other in the incoming graph stay
beside each other. A class that was there keeps its own header and gains the
parents that it lacks. Counts of issued names add up.

Graphs that were built independently of each other are put together by merging
them one by one into an empty graph.

Main results:

- `Graph.mergeAll_nil` and `Graph.mergeAll_cons` merge the first graph first.
-/

namespace DeclGraph

/-! ## Classes -/

/-- Add the parents that a class lacks. -/
def ClassDecl.gainParents (klass : ClassDecl) (parents : List TypeExpr) : ClassDecl :=
  { klass with
    parents := parents.foldl
      (fun known parent => if parent ∈ known then known else known ++ [parent]) klass.parents }

/-- Take over what an incoming class declares: its parents in any case, and the rest of its header
if the class was made for it. -/
def ClassDecl.absorb (klass incoming : ClassDecl) (fresh : Bool) : ClassDecl :=
  if fresh then
    { klass with isTrait := incoming.isTrait, tparams := incoming.tparams }.gainParents
      incoming.parents
  else
    klass.gainParents incoming.parents

/-! ## Requests that merging makes -/

namespace Build

/-- Ask the graph something. -/
def read {answer : Type} (query : Graph → Except Violation answer) : Build answer :=
  checked query fun answer g => (answer, g)

/-- Change the graph in a way that cannot be refused. -/
def update (change : Graph → Graph) : Build Unit := fun g =>
  .ok () (change g)

end Build

namespace Graph

/-- Did a container have a method like this one when the graph had only `oldSize` slots? -/
def hadAlike (g : Graph) (oldSize : Nat) (container : DeclId) (method : MethodDecl) :
    Except Violation Bool :=
  (g.members container).map fun ids =>
    ids.any fun id => id.index < oldSize && (g.method? id).any fun other => other.Alike method

/-- Bring a class into a container and answer with the class that it became. -/
def adoptClass (into : DeclId) (incoming : ClassDecl) : Build DeclId := do
  let found ← Build.read (find? · .klass into incoming.name)
  let id ← ensureClass into incoming.name
  Build.update (modifyClass · id (ClassDecl.absorb · incoming found.isNone))
  return id

/-- Bring a method into a container, unless it had one like it before the merge. -/
def adoptMethod (oldSize : Nat) (into : DeclId) (method : MethodDecl) : Build Unit := do
  if ← Build.read (hadAlike · oldSize into method) then
    return ()
  else
    discard <| addMember into (.method method)

/-- Bring a declaration into a container; `adoptBelow` brings what is below it into the container
that it became. -/
def adoptDecl (oldSize : Nat) (adoptBelow : DeclId → Build Unit) (decl : Decl)
    (into : DeclId) : Build Unit := do
  match decl with
  | .package package =>
    let target ← ensurePackage into package.name
    raiseIssued target package.scope.issued
    adoptBelow target
  | .klass klass =>
    let target ← adoptClass into klass
    raiseIssued target klass.scope.issued
    adoptBelow target
  | .object object =>
    let target ← ensureObject into object.name
    raiseIssued target object.scope.issued
    adoptBelow target
  | .method method => adoptMethod oldSize into method
  | other => discard <| addMember into other

/-- Bring a forest into a container. -/
def adopt (oldSize : Nat) : Forest → DeclId → Build Unit
  | .nil, _ => return ()
  | .cons _ decl below rest, into => do
    adoptDecl oldSize (fun target => adopt oldSize below target) decl into
    adopt oldSize rest into

/-! ## Merging -/

/-- What goes into a graph, settled before anything is written. -/
structure Intake where
  /-- The declarations, under the names that they get. -/
  forest : Forest
  /-- How many names their root has issued. -/
  issued : UInt32
  /-- The number of slots of the graph before the merge. -/
  oldSize : Nat

/-- What goes from `other` into `g`. -/
def intake (g other : Graph) : Except Violation Intake := do
  let into ← g.scope root
  let source ← other.scope root
  let forest ← other.forest (root.index + 1) source.members
  let renamings ← forest.renamings g (some into) Path.root Path.root
  return { forest := forest.map renamings.rename, issued := source.issued, oldSize := g.size }

/-- Bring the declarations of another graph into this one. -/
def merge (other : Graph) : Build Unit := do
  let intake ← Build.read (intake · other)
  raiseIssued root intake.issued
  adopt intake.oldSize intake.forest root

/-- Bring the declarations of several graphs into this one, one graph after the other. -/
def mergeAll : List Graph → Build Unit
  | [] => return ()
  | part :: parts => do
    merge part
    mergeAll parts

/-- The graph that holds the declarations of all parts. -/
def ofParts (parts : List Graph) : Except Violation Graph :=
  match mergeAll parts empty with
  | .ok _ g => .ok g
  | .error violation _ => .error violation

@[simp]
theorem mergeAll_nil : mergeAll [] = pure () :=
  rfl

/-- The first graph is merged first. -/
theorem mergeAll_cons (part : Graph) (parts : List Graph) :
    mergeAll (part :: parts) = (do merge part; mergeAll parts) :=
  rfl

end Graph
end DeclGraph
