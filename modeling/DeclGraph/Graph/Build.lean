import DeclGraph.Graph.Basic

/-!
# Building graphs

A graph grows by requests. Packages, classes and objects are made on the first
request for their name and found on every later one; a class and an object of
one name in one container become companions as soon as both exist. Fields,
methods and comments are always new, and a duplicate method is taken out by a
request of its own.

Every request checks first and writes afterwards, so a request that is refused
leaves the graph as it was.

Main results:

- `Build.checked_of_error` and `Build.checked_of_ok` are the two outcomes of a
  request.
-/

namespace DeclGraph

/-- A computation that changes a graph and may break off. What was done before it broke off stays
done. -/
abbrev Build := EStateM Violation Graph

namespace Build

/-- A request: `check` may refuse it, and `act` carries it out with what the check found. -/
def checked {found answer : Type} (check : Graph → Except Violation found)
    (act : found → Graph → answer × Graph) : Build answer := fun g =>
  match check g with
  | .error violation => .error violation g
  | .ok found => let (answer, next) := act found g; .ok answer next

/-- A refused request leaves the graph as it was. -/
theorem checked_of_error {found answer : Type} {check : Graph → Except Violation found}
    {act : found → Graph → answer × Graph} {g : Graph} {violation : Violation}
    (h : check g = .error violation) : checked check act g = .error violation g := by
  simp [checked, h]

/-- A granted request is carried out. -/
theorem checked_of_ok {found answer : Type} {check : Graph → Except Violation found}
    {act : found → Graph → answer × Graph} {g : Graph} {value : found}
    (h : check g = .ok value) :
    checked check act g = .ok (act value g).1 (act value g).2 := by
  simp [checked, h]

end Build

namespace Graph

/-! ## Containers -/

/-- The scope of a container that is about to get a package. -/
def packageScope (g : Graph) (container : DeclId) : Except Violation Scope :=
  match g.package? container with
  | none => .error (.notPackage container)
  | some package => .ok package.scope

/-- Give a class or object its companion, if there is one to give. -/
def linkBack (g : Graph) (companion : Option DeclId) (id : DeclId) : Graph :=
  match companion with
  | none => g
  | some other => g.modify other (Decl.withCompanion id)

/-- The package of this name, made if there is none yet. -/
def ensurePackage (container : DeclId) (name : Name) : Build DeclId :=
  Build.checked (packageScope · container) fun scope g =>
    match scope.find? .package name with
    | some existing => (existing, g)
    | none => (g.nextId, g.attach container (.package { name }))

/-- The class of this name, made if there is none yet. -/
def ensureClass (container : DeclId) (name : Name) : Build DeclId :=
  Build.checked (Graph.scope · container) fun scope g =>
    match scope.find? .klass name with
    | some existing => (existing, g)
    | none =>
      let companion := scope.find? .object name
      (g.nextId, (g.attach container (.klass { name, companion })).linkBack companion g.nextId)

/-- The object of this name, made if there is none yet. -/
def ensureObject (container : DeclId) (name : Name) : Build DeclId :=
  Build.checked (Graph.scope · container) fun scope g =>
    match scope.find? .object name with
    | some existing => (existing, g)
    | none =>
      let companion := scope.find? .klass name
      (g.nextId, (g.attach container (.object { name, companion })).linkBack companion g.nextId)

/-! ## Other members -/

/-- A new member at the end of a container. -/
def addMember (container : DeclId) (decl : Decl) : Build DeclId :=
  Build.checked (Graph.scope · container) fun _ g => (g.nextId, g.attach container decl)

/-- A new field. -/
def addField (container : DeclId) (name : Name) : Build DeclId :=
  addMember container (.field { name })

/-- A new method. Methods of one name overload each other. -/
def addMethod (container : DeclId) (name : Name) : Build DeclId :=
  addMember container (.method { name })

/-- A new comment. -/
def addComment (container : DeclId) (text : String) : Build DeclId :=
  addMember container (.comment text)

/-! ## Anonymous names -/

/-- The scope of a container that is about to change its count of issued names. -/
def issuingScope (g : Graph) (container : DeclId) : Except Violation Scope :=
  match g.scope? container with
  | none => .error (.notContainer container)
  | some scope => .ok scope

/-- The scope of a container that has an anonymous name left to issue. -/
def unspentScope (g : Graph) (container : DeclId) : Except Violation Scope :=
  match g.issuingScope container with
  | .error violation => .error violation
  | .ok scope =>
    if scope.issued.toNat + 1 < UInt32.size then .ok scope else .error .namesExhausted

/-- A name for a structural type that has none. -/
def issueName (container : DeclId) : Build Name :=
  Build.checked (unspentScope · container) fun scope g =>
    (Name.anonymous scope.issue.issued, g.modify container (Decl.mapScope Scope.issue))

/-- Count names as issued that were issued elsewhere. -/
def raiseIssued (container : DeclId) (n : UInt32) : Build Unit :=
  Build.checked (issuingScope · container) fun _ g =>
    ((), g.modify container (Decl.mapScope (Scope.raise · n)))

/-! ## Duplicate methods -/

/-- Does one of `ids`, and not `id` itself, stand for a method like this one? -/
def anyAlike (g : Graph) (ids : List DeclId) (id : DeclId) (method : MethodDecl) : Bool :=
  ids.any fun other => other ≠ id && (g.method? other).any fun found => found.Alike method

/-- Is `id` a method of `container` that another member of it is like? Of an id that is no method
nothing is asked. -/
def isDuplicate (g : Graph) (container id : DeclId) : Except Violation Bool :=
  match g.method? id with
  | none => .ok false
  | some method =>
    (g.members container).map fun ids => ids.contains id && g.anyAlike ids id method

/-- Take a method out of its container if another member is like it, and tell whether it was
taken out. -/
def dropDuplicate (container id : DeclId) : Build Bool :=
  Build.checked (isDuplicate · container id) fun duplicate g =>
    (duplicate, if duplicate then g.detach container id else g)

end Graph
end DeclGraph
