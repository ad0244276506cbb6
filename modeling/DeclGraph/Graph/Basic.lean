import DeclGraph.Decl.Signature
import DeclGraph.Violation

/-!
# Declaration graphs

A graph keeps its declarations in numbered slots. A slot that is filled is never
given up, so an id stays good for the life of the graph. Containers list their
members by id, and beside that each slot has an owner: the container it was
declared in, or nothing for the root and for a method that was taken out again.

The root is the unnamed package in the first slot.

Main results:

- `Graph.get?_append_next` and `Graph.get?_append_old` read a graph that has one
  slot more.
- `Graph.get?_modify` reads a graph in which one declaration was changed.
-/

namespace DeclGraph

/-- Declarations in numbered slots, and the owner of each. -/
structure Graph where
  /-- The declaration in each slot. -/
  decls : Array Decl
  /-- The container that owns each slot. -/
  owners : Array (Option DeclId)
deriving DecidableEq

namespace Graph

/-- The id of the root package. -/
def root : DeclId := DeclId.ofIndex 0

/-- The graph of the root package alone. -/
def empty : Graph where
  decls := #[.package { name := Name.empty }]
  owners := #[none]

instance : Inhabited Graph := ⟨empty⟩

/-- The number of slots. -/
def size (g : Graph) : Nat :=
  g.decls.size

/-- The id of the next slot to be filled. -/
def nextId (g : Graph) : DeclId :=
  DeclId.ofIndex g.size

/-! ## Reading a slot -/

/-- The declaration in a slot, if there is such a slot. -/
def get? (g : Graph) (id : DeclId) : Option Decl :=
  g.decls[id.index]?

/-- The declaration of an id that has to belong to the graph. -/
def decl (g : Graph) (id : DeclId) : Except Violation Decl :=
  match g.get? id with
  | none => .error (.unknownDecl id)
  | some decl => .ok decl

/-- The scope of an id that has to be that of a container. -/
def scope (g : Graph) (id : DeclId) : Except Violation Scope :=
  match g.get? id with
  | none => .error (.unknownDecl id)
  | some decl =>
    match decl.scope? with
    | none => .error (.notContainer id)
    | some scope => .ok scope

/-- The scope of an id, if it is that of a container. -/
def scope? (g : Graph) (id : DeclId) : Option Scope :=
  (g.get? id).bind Decl.scope?

/-- The members of a container in the order they were declared in. -/
def members (g : Graph) (container : DeclId) : Except Violation (List DeclId) :=
  (g.scope container).map Scope.members

/-- The package in a slot. -/
def package? (g : Graph) (id : DeclId) : Option PackageDecl :=
  (g.get? id).bind Decl.package?

/-- The class in a slot. -/
def klass? (g : Graph) (id : DeclId) : Option ClassDecl :=
  (g.get? id).bind Decl.klass?

/-- The object in a slot. -/
def object? (g : Graph) (id : DeclId) : Option ObjectDecl :=
  (g.get? id).bind Decl.object?

/-- The field in a slot. -/
def field? (g : Graph) (id : DeclId) : Option FieldDecl :=
  (g.get? id).bind Decl.field?

/-- The method in a slot. -/
def method? (g : Graph) (id : DeclId) : Option MethodDecl :=
  (g.get? id).bind Decl.method?

/-- The companion of a class or object. -/
def companion? (g : Graph) (id : DeclId) : Option DeclId :=
  (g.get? id).bind Decl.companion?

/-- The container that owns a slot. -/
def owner? (g : Graph) (id : DeclId) : Option DeclId :=
  (g.owners[id.index]?).join

/-- Is the declaration the root, or owned by a container? -/
def isAttached (g : Graph) (id : DeclId) : Bool :=
  id = root || (g.owner? id).isSome

/-- All slots in order, each with its id. -/
def slots (g : Graph) : List (DeclId × Decl) :=
  g.decls.toList.zipIdx.map fun (decl, index) => (DeclId.ofIndex index, decl)

/-- The attached declarations in the order of their slots. -/
def attached (g : Graph) : List (DeclId × Decl) :=
  g.slots.filter fun slot => g.isAttached slot.1

/-- The container of this kind and name among the members of `container`. -/
def find? (g : Graph) (kind : Kind) (container : DeclId) (name : Name) :
    Except Violation (Option DeclId) :=
  (g.scope container).map fun scope => scope.find? kind name

/-! ## Writing a slot -/

/-- Change the declaration in a slot, if there is such a slot. -/
def modify (g : Graph) (id : DeclId) (change : Decl → Decl) : Graph :=
  { g with decls := g.decls.modify id.index change }

/-- Fill the next slot. -/
def append (g : Graph) (owner : DeclId) (decl : Decl) : Graph where
  decls := g.decls.push decl
  owners := g.owners.push (some owner)

/-- Fill the next slot with a new member of a container. -/
def attach (g : Graph) (container : DeclId) (decl : Decl) : Graph :=
  (g.append container decl).modify container (Decl.mapScope (Scope.add · decl.key? g.nextId))

/-- Take a member out of its container. Its slot stays filled. -/
def detach (g : Graph) (container member : DeclId) : Graph :=
  { g.modify container (Decl.mapScope (Scope.drop · member)) with
    owners := g.owners.modify member.index fun _ => none }

/-- Put another declaration into a slot. Whatever refers to the slot goes on to do so. -/
def replace (g : Graph) (id : DeclId) (decl : Decl) : Graph :=
  g.modify id fun _ => decl

/-- Change a class in place. -/
def modifyClass (g : Graph) (id : DeclId) (change : ClassDecl → ClassDecl) : Graph :=
  g.modify id (Decl.mapClass change)

/-- Change an object in place. -/
def modifyObject (g : Graph) (id : DeclId) (change : ObjectDecl → ObjectDecl) : Graph :=
  g.modify id (Decl.mapObject change)

/-- Change a field in place. -/
def modifyField (g : Graph) (id : DeclId) (change : FieldDecl → FieldDecl) : Graph :=
  g.modify id (Decl.mapField change)

/-- Change a method in place. -/
def modifyMethod (g : Graph) (id : DeclId) (change : MethodDecl → MethodDecl) : Graph :=
  g.modify id (Decl.mapMethod change)

/-! ## Reading what was written -/

@[simp]
theorem size_modify (g : Graph) (id : DeclId) (change : Decl → Decl) :
    (g.modify id change).size = g.size := by
  simp [size, modify]

@[simp]
theorem owners_modify (g : Graph) (id : DeclId) (change : Decl → Decl) :
    (g.modify id change).owners = g.owners :=
  rfl

/-- A change to one slot is seen in that slot only. -/
theorem get?_modify (g : Graph) (id other : DeclId) (change : Decl → Decl) :
    (g.modify id change).get? other =
      if other = id then (g.get? other).map change else g.get? other := by
  by_cases same : other = id
  · simp [get?, modify, same, Array.getElem?_modify]
  · have differ : id.index ≠ other.index := fun h => same (by
      rw [← DeclId.ofIndex_index other, ← h, DeclId.ofIndex_index])
    simp [get?, modify, same, Array.getElem?_modify, differ]

@[simp]
theorem size_append (g : Graph) (owner : DeclId) (decl : Decl) :
    (g.append owner decl).size = g.size + 1 := by
  simp [size, append]

/-- The new slot holds the new declaration, as long as its number fits in an id. -/
theorem get?_append_next (g : Graph) (owner : DeclId) (decl : Decl) (h : g.size < UInt32.size) :
    (g.append owner decl).get? g.nextId = some decl := by
  have index : g.nextId.index = g.decls.size := by
    simpa [nextId, size] using Nat.mod_eq_of_lt h
  simp [get?, append, index]

/-- The slots before the new one are as they were. -/
theorem get?_append_old (g : Graph) (owner id : DeclId) (decl : Decl) (h : id.index < g.size) :
    (g.append owner decl).get? id = g.get? id := by
  simp [get?, append, Array.getElem?_push_lt h, Array.getElem?_eq_getElem h]

@[simp]
theorem size_attach (g : Graph) (container : DeclId) (decl : Decl) :
    (g.attach container decl).size = g.size + 1 := by
  simp [attach]

end Graph
end DeclGraph
