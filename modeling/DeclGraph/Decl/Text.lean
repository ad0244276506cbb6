import DeclGraph.Decl.Basic
import DeclGraph.Text.Quoted

/-!
# Declarations in writing

Each declaration has a one-line form without its members. It serves messages and
the outline of a graph.
-/

namespace DeclGraph

/-- The type parameter as emitted, with its bound if it has one. -/
def TypeParam.text (tparam : TypeParam) : String :=
  match tparam.bound with
  | none => tparam.name.text
  | some bound => tparam.name.text ++ " <: " ++ bound.text

/-- A list of type parameters between angle brackets, and nothing where there are none. -/
def TypeParam.listText (tparams : List TypeParam) : String :=
  if tparams.isEmpty then "" else "<" ++ ", ".intercalate (tparams.map TypeParam.text) ++ ">"

/-- The parameter as emitted; one that may be left out gets a default. -/
def Param.text (param : Param) : String :=
  param.name.text ++ ": " ++ param.type.text ++ if param.optional then " = _" else ""

/-- The line of a package. -/
def PackageDecl.text (package : PackageDecl) : String :=
  "package " ++ package.name.text

/-- The line of a class. -/
def ClassDecl.text (klass : ClassDecl) : String :=
  (if klass.isTrait then "trait " else "class ") ++ klass.name.text ++
    TypeParam.listText klass.tparams

/-- The line of an object. -/
def ObjectDecl.text (object : ObjectDecl) : String :=
  "object " ++ object.name.text

/-- The line of a field. -/
def FieldDecl.text (field : FieldDecl) : String :=
  "var " ++ field.name.text ++ ": " ++ field.type.text

/-- The annotation that gives the native name of a method. -/
def MethodDecl.nativeNameText (method : MethodDecl) : String :=
  match method.nativeName with
  | none => ""
  | some native => "@JSName(" ++ Text.quoted native ++ ") "

/-- The line of a method. -/
def MethodDecl.text (method : MethodDecl) : String :=
  method.nativeNameText ++ (if method.bracket then "@JSBracketAccess " else "") ++
    "def " ++ method.name.text ++ TypeParam.listText method.tparams ++
    "(" ++ ", ".intercalate (method.params.map Param.text) ++ "): " ++ method.result.text

/-- The line of a declaration. -/
def Decl.text : Decl → String
  | .comment text => "/* " ++ text ++ " */"
  | .package p => p.text
  | .klass k => k.text
  | .object o => o.text
  | .field f => f.text
  | .method m => m.text
  | .typeParam t => t.text
  | .param p => p.text

end DeclGraph
