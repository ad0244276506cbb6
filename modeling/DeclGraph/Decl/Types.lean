import DeclGraph.Decl.Basic

/-!
# Types in declarations

A declaration mentions types: the bounds of its type parameters, the types of its
parameters, its result, its parents. All of them can be changed at once.
-/

namespace DeclGraph

/-- Change the bound of a type parameter. -/
def TypeParam.mapTypes (change : TypeExpr → TypeExpr) (tparam : TypeParam) : TypeParam :=
  { tparam with bound := tparam.bound.map change }

/-- Change the type of a parameter. -/
def Param.mapTypes (change : TypeExpr → TypeExpr) (param : Param) : Param :=
  { param with type := change param.type }

/-- Change the bounds and parents of a class. -/
def ClassDecl.mapTypes (change : TypeExpr → TypeExpr) (klass : ClassDecl) : ClassDecl :=
  { klass with
    tparams := klass.tparams.map (TypeParam.mapTypes change)
    parents := klass.parents.map change }

/-- Change the type of a field. -/
def FieldDecl.mapTypes (change : TypeExpr → TypeExpr) (field : FieldDecl) : FieldDecl :=
  { field with type := change field.type }

/-- Change the bounds, the parameter types and the result of a method. -/
def MethodDecl.mapTypes (change : TypeExpr → TypeExpr) (method : MethodDecl) : MethodDecl :=
  { method with
    tparams := method.tparams.map (TypeParam.mapTypes change)
    params := method.params.map (Param.mapTypes change)
    result := change method.result }

/-- Change every type that a declaration mentions. -/
def Decl.mapTypes (change : TypeExpr → TypeExpr) : Decl → Decl
  | .comment text => .comment text
  | .package p => .package p
  | .klass k => .klass (k.mapTypes change)
  | .object o => .object o
  | .field f => .field (f.mapTypes change)
  | .method m => .method (m.mapTypes change)
  | .typeParam t => .typeParam (t.mapTypes change)
  | .param p => .param (p.mapTypes change)

@[simp]
theorem Decl.kind_mapTypes (change : TypeExpr → TypeExpr) (decl : Decl) :
    (decl.mapTypes change).kind = decl.kind := by
  cases decl <;> rfl

@[simp]
theorem Decl.scope?_mapTypes (change : TypeExpr → TypeExpr) (decl : Decl) :
    (decl.mapTypes change).scope? = decl.scope? := by
  cases decl <;> rfl

end DeclGraph
