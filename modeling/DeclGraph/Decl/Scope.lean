import DeclGraph.DeclId
import DeclGraph.Name.Anonymous

/-!
# Scopes

A scope is what a container keeps about its members: their order, an index of
the containers among them by kind and name, and how many anonymous names were
issued. Fields and methods are not indexed, because several of them may share a
name.

Main results:

- `Scope.find?_add_self` and `Scope.find?_add_other` say what a new member
  changes about lookups.
-/

namespace DeclGraph

/-! ## Kinds of declarations -/

/-- What a declaration declares. Classes and traits are of one kind. -/
inductive Kind
  | comment
  | package
  | klass
  | object
  | field
  | method
  | typeParam
  | param
deriving DecidableEq

namespace Kind

/-- Do declarations of this kind have members? -/
def isContainer : Kind → Bool
  | package | klass | object => true
  | comment | field | method | typeParam | param => false

/-- The kind as it appears in listings. -/
def word : Kind → String
  | comment => "Comment"
  | package => "Package"
  | klass => "Class"
  | object => "Module"
  | field => "Field"
  | method => "Method"
  | typeParam => "TypeParam"
  | param => "Param"

end Kind

/-! ## Scopes -/

/-- What a member is looked up by. -/
abbrev Key := Kind × Name

/-- The members of a container. -/
structure Scope where
  /-- The members in the order they were declared in. -/
  members : List DeclId := []
  /-- The containers among the members by kind and name, the last declared first. -/
  index : List (Key × DeclId) := []
  /-- How many anonymous names were issued. -/
  issued : UInt32 := 0
deriving DecidableEq, Inhabited

namespace Scope

/-- The member that is indexed under a kind and a name. -/
def find? (scope : Scope) (kind : Kind) (name : Name) : Option DeclId :=
  scope.index.lookup (kind, name)

/-- Add a member at the end, and index it if it has a key. -/
def add (scope : Scope) (key : Option Key) (id : DeclId) : Scope :=
  { scope with
    members := scope.members ++ [id]
    index := (key.map fun key => (key, id)).toList ++ scope.index }

/-- Take the first occurrence of a member out of the order. The index is left alone, so this is
for members that are not indexed. -/
def drop (scope : Scope) (id : DeclId) : Scope :=
  { scope with members := scope.members.erase id }

/-- Count one more issued name. -/
def issue (scope : Scope) : Scope :=
  { scope with issued := scope.issued + 1 }

/-- Count `n` more issued names, as far as 32 bits can count. -/
def raise (scope : Scope) (n : UInt32) : Scope :=
  { scope with issued := Name.shiftIndex scope.issued n }

@[simp]
theorem find?_empty (kind : Kind) (name : Name) : ({} : Scope).find? kind name = none :=
  rfl

@[simp]
theorem members_add (scope : Scope) (key : Option Key) (id : DeclId) :
    (scope.add key id).members = scope.members ++ [id] :=
  rfl

@[simp]
theorem find?_add_none (scope : Scope) (id : DeclId) (kind : Kind) (name : Name) :
    (scope.add none id).find? kind name = scope.find? kind name :=
  rfl

/-- A new member is found under its own key. -/
@[simp]
theorem find?_add_self (scope : Scope) (id : DeclId) (kind : Kind) (name : Name) :
    (scope.add (some (kind, name)) id).find? kind name = some id := by
  simp [add, find?]

/-- A new member changes no lookup under another key. -/
theorem find?_add_other (scope : Scope) (id : DeclId) {key : Key} {kind : Kind} {name : Name}
    (h : key ≠ (kind, name)) :
    (scope.add (some key) id).find? kind name = scope.find? kind name := by
  have differs : ((kind, name) == key) = false := by
    simpa using fun same => h same.symm
  simp [add, find?, List.lookup_cons, differs]

@[simp]
theorem issued_raise (scope : Scope) (n : UInt32) :
    (scope.raise n).issued = Name.shiftIndex scope.issued n :=
  rfl

end Scope
end DeclGraph
