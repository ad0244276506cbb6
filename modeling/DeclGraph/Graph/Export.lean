import DeclGraph.Graph.Basic
import DeclGraph.Json.Printer

/-!
# Exporting graphs

A graph is exported as a JSON text that shows every slot with everything that is
declared there, the owner of every slot, and the root. Only the index of a scope
is left out, as it follows from the members.

Main results:

- `Graph.json` is the exported text.
-/

namespace DeclGraph

/-! ## Parts of declarations -/

/-- A name is exported as its raw text. -/
def Name.toJson (name : Name) : Json :=
  .string name.raw

/-- A path is exported as its names. -/
def Path.toJson (path : Path) : Json :=
  .ofList Name.toJson path.segments

/-- An id is exported as its number. -/
def DeclId.toJson (id : DeclId) : Json :=
  .number id.index

mutual

/-- A type is exported as its path and its arguments. -/
def TypeExpr.toJson : TypeExpr → Json
  | ⟨head, args⟩ => .object [("type_name", head.toJson), ("targs", .array (TypeExpr.listToJson args))]

/-- Several types are exported one by one. -/
def TypeExpr.listToJson : List TypeExpr → List Json
  | [] => []
  | type :: rest => TypeExpr.toJson type :: TypeExpr.listToJson rest

end

/-- Several types are exported one by one. -/
@[simp]
theorem TypeExpr.listToJson_eq_map (types : List TypeExpr) :
    TypeExpr.listToJson types = types.map TypeExpr.toJson := by
  induction types with
  | nil => rfl
  | cons type rest ih => simp [TypeExpr.listToJson, ih]

/-- The fields of a type parameter. -/
def TypeParam.fields (tparam : TypeParam) : List (String × Json) :=
  [("name", tparam.name.toJson), ("upper_bound", .ofOption TypeExpr.toJson tparam.bound)]

/-- The fields of a parameter. -/
def Param.fields (param : Param) : List (String × Json) :=
  [("name", param.name.toJson), ("tpe", param.type.toJson), ("optional", .bool param.optional)]

/-- A scope is exported as its members and its count of issued names. -/
def Scope.toJson (scope : Scope) : Json :=
  .object [
    ("ids", .ofList DeclId.toJson scope.members),
    ("anon_counter", .number scope.issued.toNat)]

/-! ## Declarations -/

/-- The fields of a declaration after its kind. -/
def Decl.fields : Decl → List (String × Json)
  | .comment text => [("text", .string text)]
  | .package p => [("name", p.name.toJson), ("members", p.scope.toJson)]
  | .klass k => [
      ("name", k.name.toJson),
      ("is_trait", .bool k.isTrait),
      ("tparams", .ofList (fun tparam => .object tparam.fields) k.tparams),
      ("parents", .ofList TypeExpr.toJson k.parents),
      ("members", k.scope.toJson),
      ("companion", .ofOption DeclId.toJson k.companion)]
  | .object o => [
      ("name", o.name.toJson),
      ("members", o.scope.toJson),
      ("companion", .ofOption DeclId.toJson o.companion)]
  | .field f => [("name", f.name.toJson), ("tpe", f.type.toJson)]
  | .method m => [
      ("name", m.name.toJson),
      ("tparams", .ofList (fun tparam => .object tparam.fields) m.tparams),
      ("params", .ofList (fun param => .object param.fields) m.params),
      ("result_type", m.result.toJson),
      ("js_name", .ofOption Json.string m.nativeName),
      ("is_bracket_access", .bool m.bracket)]
  | .typeParam t => t.fields
  | .param p => p.fields

/-- A declaration is exported as its kind and its fields. -/
def Decl.toJson (decl : Decl) : Json :=
  .object (("kind", .string decl.kind.word) :: decl.fields)

/-! ## Graphs -/

/-- A graph is exported slot by slot. -/
def Graph.toJson (g : Graph) : Json :=
  .object [
    ("arena", .ofList Decl.toJson g.decls.toList),
    ("owners", .ofList (.ofOption DeclId.toJson) g.owners.toList),
    ("root", Graph.root.toJson)]

/-- The exported text of a graph. -/
def Graph.json (g : Graph) : String :=
  g.toJson.pretty

end DeclGraph
