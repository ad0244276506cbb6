import DeclGraph.Decl.Scope
import DeclGraph.TypeExpr.Builtin

/-!
# Declarations

The entries of a declaration graph. Packages, classes and objects contain other
declarations; fields, methods and comments do not. A class is a trait until it
turns out that it can be constructed, and a class and an object of one name are
each other's companions.

Main results:

- `Decl.scope?_mapScope` and `Decl.kind_mapScope` say that a change to the
  members of a declaration is a change to nothing else.
-/

namespace DeclGraph

/-! ## Parts of declarations -/

/-- A type parameter. -/
structure TypeParam where
  /-- The name of the parameter. -/
  name : Name
  /-- The type that every argument has to conform to. -/
  bound : Option TypeExpr := none
deriving DecidableEq, Inhabited

/-- A value parameter. -/
structure Param where
  /-- The name of the parameter. -/
  name : Name
  /-- The type of its values. -/
  type : TypeExpr := TypeExpr.any
  /-- May the argument be left out? -/
  optional : Bool := false
deriving DecidableEq, Inhabited

/-- Does the parameter take any number of arguments? -/
def Param.isRepeated (param : Param) : Bool :=
  param.type.isRepeated

/-! ## Kinds of declarations -/

/-- A package. -/
structure PackageDecl where
  /-- The name of the package. -/
  name : Name
  /-- Its members. -/
  scope : Scope := {}
deriving DecidableEq, Inhabited

/-- A class or trait. -/
structure ClassDecl where
  /-- The name of the class. -/
  name : Name
  /-- Is it a trait? -/
  isTrait : Bool := true
  /-- Its type parameters. -/
  tparams : List TypeParam := []
  /-- The types it extends. -/
  parents : List TypeExpr := []
  /-- Its members. -/
  scope : Scope := {}
  /-- The object of the same name beside it. -/
  companion : Option DeclId := none
deriving DecidableEq, Inhabited

/-- A singleton object. -/
structure ObjectDecl where
  /-- The name of the object. -/
  name : Name
  /-- Its members. -/
  scope : Scope := {}
  /-- The class of the same name beside it. -/
  companion : Option DeclId := none
deriving DecidableEq, Inhabited

/-- A field. -/
structure FieldDecl where
  /-- The name of the field. -/
  name : Name
  /-- The type of its value. -/
  type : TypeExpr := TypeExpr.any
deriving DecidableEq, Inhabited

/-- A method or constructor. -/
structure MethodDecl where
  /-- The name of the method. -/
  name : Name
  /-- Its type parameters. -/
  tparams : List TypeParam := []
  /-- Its value parameters. -/
  params : List Param := []
  /-- The type of its result. -/
  result : TypeExpr := TypeExpr.dynamic
  /-- The native name, where it differs from `name`. -/
  nativeName : Option String := none
  /-- Is it the bracket access of a native object? -/
  bracket : Bool := false
deriving DecidableEq, Inhabited

/-- Is the method a constructor? -/
def MethodDecl.isConstructor (method : MethodDecl) : Bool :=
  method.name.isConstructor

/-- An entry of a declaration graph. -/
inductive Decl
  /-- Running text that is carried along. -/
  | comment (text : String)
  /-- A package. -/
  | package (package : PackageDecl)
  /-- A class or trait. -/
  | klass (klass : ClassDecl)
  /-- A singleton object. -/
  | object (object : ObjectDecl)
  /-- A field. -/
  | field (field : FieldDecl)
  /-- A method or constructor. -/
  | method (method : MethodDecl)
  /-- A type parameter that stands alone. -/
  | typeParam (tparam : TypeParam)
  /-- A parameter that stands alone. -/
  | param (param : Param)
deriving DecidableEq

namespace Decl

instance : Inhabited Decl := ⟨comment ""⟩

/-! ## What every declaration has -/

/-- The kind of a declaration. -/
def kind : Decl → Kind
  | comment _ => .comment
  | package _ => .package
  | klass _ => .klass
  | object _ => .object
  | field _ => .field
  | method _ => .method
  | typeParam _ => .typeParam
  | param _ => .param

/-- The name of a declaration. Comments have none. -/
def name? : Decl → Option Name
  | comment _ => none
  | package p => some p.name
  | klass k => some k.name
  | object o => some o.name
  | field f => some f.name
  | method m => some m.name
  | typeParam t => some t.name
  | param p => some p.name

/-- Does the declaration have members? -/
def isContainer (decl : Decl) : Bool :=
  decl.kind.isContainer

/-- The members of a container. -/
def scope? : Decl → Option Scope
  | package p => some p.scope
  | klass k => some k.scope
  | object o => some o.scope
  | comment _ | field _ | method _ | typeParam _ | param _ => none

/-- The ids of the members; a declaration that is no container has none. -/
def memberIds (decl : Decl) : List DeclId :=
  (decl.scope?.map Scope.members).getD []

/-- The companion of a class or object. -/
def companion? : Decl → Option DeclId
  | klass k => k.companion
  | object o => o.companion
  | comment _ | package _ | field _ | method _ | typeParam _ | param _ => none

/-- What the declaration is indexed by in the scope that holds it. Only containers are indexed. -/
def key? : Decl → Option Key
  | package p => some (.package, p.name)
  | klass k => some (.klass, k.name)
  | object o => some (.object, o.name)
  | comment _ | field _ | method _ | typeParam _ | param _ => none

/-! ## One kind of declaration -/

/-- The package that this declaration is. -/
def package? : Decl → Option PackageDecl
  | package p => some p
  | _ => none

/-- The class that this declaration is. -/
def klass? : Decl → Option ClassDecl
  | klass k => some k
  | _ => none

/-- The object that this declaration is. -/
def object? : Decl → Option ObjectDecl
  | object o => some o
  | _ => none

/-- The field that this declaration is. -/
def field? : Decl → Option FieldDecl
  | field f => some f
  | _ => none

/-- The method that this declaration is. -/
def method? : Decl → Option MethodDecl
  | method m => some m
  | _ => none

/-! ## Changes -/

/-- Change the members of a container. -/
def mapScope (change : Scope → Scope) : Decl → Decl
  | package p => package { p with scope := change p.scope }
  | klass k => klass { k with scope := change k.scope }
  | object o => object { o with scope := change o.scope }
  | decl => decl

/-- Give a class or object a companion. -/
def withCompanion (id : DeclId) : Decl → Decl
  | klass k => klass { k with companion := some id }
  | object o => object { o with companion := some id }
  | decl => decl

/-- Change a class. -/
def mapClass (change : ClassDecl → ClassDecl) : Decl → Decl
  | klass k => klass (change k)
  | decl => decl

/-- Change an object. -/
def mapObject (change : ObjectDecl → ObjectDecl) : Decl → Decl
  | object o => object (change o)
  | decl => decl

/-- Change a field. -/
def mapField (change : FieldDecl → FieldDecl) : Decl → Decl
  | field f => field (change f)
  | decl => decl

/-- Change a method. -/
def mapMethod (change : MethodDecl → MethodDecl) : Decl → Decl
  | method m => method (change m)
  | decl => decl

/-- The containers are the declarations that have a scope. -/
theorem isSome_scope? (decl : Decl) : decl.scope?.isSome = decl.isContainer := by
  cases decl <;> rfl

/-- The containers are the declarations that have a key. -/
theorem isSome_key? (decl : Decl) : decl.key?.isSome = decl.isContainer := by
  cases decl <;> rfl

@[simp]
theorem scope?_mapScope (change : Scope → Scope) (decl : Decl) :
    (decl.mapScope change).scope? = decl.scope?.map change := by
  cases decl <;> rfl

@[simp]
theorem kind_mapScope (change : Scope → Scope) (decl : Decl) :
    (decl.mapScope change).kind = decl.kind := by
  cases decl <;> rfl

@[simp]
theorem name?_mapScope (change : Scope → Scope) (decl : Decl) :
    (decl.mapScope change).name? = decl.name? := by
  cases decl <;> rfl

@[simp]
theorem scope?_withCompanion (id : DeclId) (decl : Decl) :
    (decl.withCompanion id).scope? = decl.scope? := by
  cases decl <;> rfl

@[simp]
theorem kind_withCompanion (id : DeclId) (decl : Decl) :
    (decl.withCompanion id).kind = decl.kind := by
  cases decl <;> rfl

end Decl
end DeclGraph
