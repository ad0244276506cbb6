import DeclGraph.Graph.Export
import DeclGraph.Proofs.JsonReader

/-!
# Reading exported graphs

An exported graph is read back slot by slot.  The fields of an object are known by
their place, since they are always written in one order; the kind comes first and says
which fields follow.  All that is not in the text is the index of each scope, and so
what is read is the graph without its indexes.

Main results:

- Theorem `Decl.ofJson_toJson`: every declaration is read back, but for its index.
- Theorem `Graph.ofText_json`: so is every graph, whatever is in it.
-/

namespace DeclGraph

/-! ## Values -/

namespace Json

/-- The text that a value is. -/
def string? : Json → Option String
  | string text => some text
  | _ => none

/-- The truth value that a value is. -/
def bool? : Json → Option Bool
  | bool value => some value
  | _ => none

/-- The number that a value is. -/
def number? : Json → Option Nat
  | number n => some n
  | _ => none

/-- Something that may be absent. -/
def option? {α : Type} (decode : Json → Option α) : Json → Option (Option α)
  | null => some none
  | json => (decode json).map some

/-- The elements of an array. -/
def list? {α : Type} (decode : Json → Option α) : Json → Option (List α)
  | array items => items.mapM decode
  | _ => none

/-- Something that is known by the fields of an object. -/
def fields? {α : Type} (decode : List (String × Json) → Option α) : Json → Option α
  | object fields => decode fields
  | _ => none

/-- What may be absent is read back if it is read back where it is present. -/
theorem option?_ofOption {α : Type} {encode : α → Json} {decode : Json → Option α}
    (hdecode : ∀ a, decode (encode a) = some a) (hnull : ∀ a, encode a ≠ null) (a : Option α) :
    (ofOption encode a).option? decode = some a := by
  cases a with
  | none => rfl
  | some a => simp [ofOption, option?, hnull a, hdecode a]

/-- A list is read back if its elements are, and where they lose something, each does so. -/
theorem list?_ofList {α : Type} {encode : α → Json} {decode : Json → Option α} (lossy : α → α)
    (hdecode : ∀ a, decode (encode a) = some (lossy a)) (items : List α) :
    (ofList encode items).list? decode = some (items.map lossy) := by
  have hmap : ∀ items : List α, (items.map encode).mapM decode = some (items.map lossy) := by
    intro items
    induction items with
    | nil => rfl
    | cons a rest ih => simp [List.mapM_cons, hdecode a, ih]
  exact hmap items

/-- A list is read back if its elements are. -/
theorem list?_ofList_id {α : Type} {encode : α → Json} {decode : Json → Option α}
    (hdecode : ∀ a, decode (encode a) = some a) (items : List α) :
    (ofList encode items).list? decode = some items := by
  simpa using list?_ofList id hdecode items

end Json

open Json

/-! ## Parts of declarations -/

/-- The name that was exported. -/
def Name.ofJson (json : Json) : Option Name :=
  json.string?.map Name.mk

/-- The path that was exported. -/
def Path.ofJson (json : Json) : Option Path :=
  (json.list? Name.ofJson).map Path.mk

/-- The id that was exported. -/
def DeclId.ofJson (json : Json) : Option DeclId :=
  json.number?.map DeclId.ofIndex

mutual

/-- The type that was exported. -/
def TypeExpr.ofJson : Json → Option TypeExpr
  | .object [(_, head), (_, .array args)] => do
      return ⟨← Path.ofJson head, ← TypeExpr.listOfJson args⟩
  | _ => none

/-- The types that were exported one by one. -/
def TypeExpr.listOfJson : List Json → Option (List TypeExpr)
  | [] => some []
  | json :: rest => do return (← TypeExpr.ofJson json) :: (← TypeExpr.listOfJson rest)

end

/-- The type parameter that was exported with these fields. -/
def TypeParam.ofFields : List (String × Json) → Option TypeParam
  | [(_, name), (_, bound)] => do
      return ⟨← Name.ofJson name, ← bound.option? TypeExpr.ofJson⟩
  | _ => none

/-- The parameter that was exported with these fields. -/
def Param.ofFields : List (String × Json) → Option Param
  | [(_, name), (_, type), (_, optional)] => do
      return ⟨← Name.ofJson name, ← TypeExpr.ofJson type, ← optional.bool?⟩
  | _ => none

/-- The scope that was exported, without its index. -/
def Scope.ofJson : Json → Option Scope
  | .object [(_, members), (_, issued)] => do
      return ⟨← members.list? DeclId.ofJson, [], UInt32.ofNat (← issued.number?)⟩
  | _ => none

@[simp]
theorem Name.ofJson_toJson (name : Name) : Name.ofJson name.toJson = some name :=
  rfl

@[simp]
theorem Path.ofJson_toJson (path : Path) : Path.ofJson path.toJson = some path := by
  simp [Path.ofJson, Path.toJson, list?_ofList_id Name.ofJson_toJson]

@[simp]
theorem DeclId.ofJson_toJson (id : DeclId) : DeclId.ofJson id.toJson = some id := by
  simp [DeclId.ofJson, DeclId.toJson, number?]

mutual

/-- Types are read back at every depth. -/
@[simp]
theorem TypeExpr.ofJson_toJson : ∀ type : TypeExpr, TypeExpr.ofJson type.toJson = some type
  | ⟨head, args⟩ => by
      rw [TypeExpr.toJson, TypeExpr.ofJson, Path.ofJson_toJson, TypeExpr.listOfJson_listToJson args]
      rfl

/-- So are lists of types. -/
theorem TypeExpr.listOfJson_listToJson : ∀ types : List TypeExpr,
    TypeExpr.listOfJson (TypeExpr.listToJson types) = some types
  | [] => rfl
  | type :: rest => by
      rw [TypeExpr.listToJson, TypeExpr.listOfJson, TypeExpr.ofJson_toJson type,
        TypeExpr.listOfJson_listToJson rest]
      rfl

end

theorem TypeExpr.toJson_ne_null (type : TypeExpr) : type.toJson ≠ .null := by
  cases type
  simp [TypeExpr.toJson]

@[simp]
theorem TypeParam.ofFields_fields (tparam : TypeParam) :
    TypeParam.ofFields tparam.fields = some tparam := by
  simp [TypeParam.ofFields, TypeParam.fields,
    option?_ofOption TypeExpr.ofJson_toJson TypeExpr.toJson_ne_null]

@[simp]
theorem Param.ofFields_fields (param : Param) : Param.ofFields param.fields = some param := by
  simp [Param.ofFields, Param.fields, bool?]

/-- A scope without its index. -/
def Scope.unindexed (scope : Scope) : Scope :=
  { scope with index := [] }

@[simp]
theorem Scope.ofJson_toJson (scope : Scope) : Scope.ofJson scope.toJson = some scope.unindexed := by
  simp [Scope.ofJson, Scope.toJson, list?_ofList_id DeclId.ofJson_toJson, number?, Scope.unindexed]

/-! ## Declarations -/

/-- The kind that appears as this word. -/
def Kind.ofWord (word : String) : Option Kind :=
  [Kind.comment, .package, .klass, .object, .field, .method, .typeParam, .param].find? fun kind =>
    kind.word = word

@[simp]
theorem Kind.ofWord_word (kind : Kind) : Kind.ofWord kind.word = some kind := by
  cases kind <;> decide

/-- The declaration of this kind that was exported with these fields. -/
def Decl.ofFields : Kind → List (String × Json) → Option Decl
  | .comment, [(_, text)] => text.string?.map .comment
  | .package, [(_, name), (_, scope)] => do
      return .package ⟨← Name.ofJson name, ← Scope.ofJson scope⟩
  | .klass, [(_, name), (_, isTrait), (_, tparams), (_, parents), (_, scope), (_, companion)] => do
      return .klass ⟨← Name.ofJson name, ← isTrait.bool?,
        ← tparams.list? (fields? TypeParam.ofFields), ← parents.list? TypeExpr.ofJson,
        ← Scope.ofJson scope, ← companion.option? DeclId.ofJson⟩
  | .object, [(_, name), (_, scope), (_, companion)] => do
      return .object ⟨← Name.ofJson name, ← Scope.ofJson scope, ← companion.option? DeclId.ofJson⟩
  | .field, [(_, name), (_, type)] => do
      return .field ⟨← Name.ofJson name, ← TypeExpr.ofJson type⟩
  | .method, [(_, name), (_, tparams), (_, params), (_, result), (_, native), (_, bracket)] => do
      return .method ⟨← Name.ofJson name, ← tparams.list? (fields? TypeParam.ofFields),
        ← params.list? (fields? Param.ofFields), ← TypeExpr.ofJson result,
        ← native.option? string?, ← bracket.bool?⟩
  | .typeParam, fields => (TypeParam.ofFields fields).map .typeParam
  | .param, fields => (Param.ofFields fields).map .param
  | _, _ => none

/-- The declaration that was exported. -/
def Decl.ofJson : Json → Option Decl
  | .object ((_, word) :: fields) => do
      Decl.ofFields (← Kind.ofWord (← word.string?)) fields
  | _ => none

/-- A declaration without the index of its members. -/
def Decl.unindexed (decl : Decl) : Decl :=
  decl.mapScope Scope.unindexed

/-- Every declaration is read back, but for its index. -/
theorem Decl.ofJson_toJson (decl : Decl) : Decl.ofJson decl.toJson = some decl.unindexed := by
  have htparams : ∀ tparams : List TypeParam,
      (ofList (fun tparam => .object tparam.fields) tparams).list? (fields? TypeParam.ofFields) =
        some tparams := list?_ofList_id TypeParam.ofFields_fields
  have hparams : ∀ params : List Param,
      (ofList (fun param => .object param.fields) params).list? (fields? Param.ofFields) =
        some params := list?_ofList_id Param.ofFields_fields
  have hparents := list?_ofList_id TypeExpr.ofJson_toJson
  have hcompanion := option?_ofOption DeclId.ofJson_toJson fun _ => Json.noConfusion
  have hnative : ∀ native : Option String,
      (ofOption Json.string native).option? string? = some native :=
    option?_ofOption (fun _ => rfl) fun _ => Json.noConfusion
  cases decl <;>
    simp [Decl.ofJson, Decl.toJson, string?, Decl.kind, Decl.ofFields, Decl.fields, bool?,
      htparams, hparams, hparents, hcompanion, hnative, Decl.unindexed, Decl.mapScope]

/-! ## Graphs -/

/-- A graph without the indexes of its scopes. -/
def Graph.unindexed (g : Graph) : Graph :=
  { g with decls := g.decls.map Decl.unindexed }

/-- The graph that was exported, without its indexes, and the id of its root. -/
def Graph.ofJson : Json → Option (Graph × DeclId)
  | .object [(_, arena), (_, owners), (_, root)] => do
      return (⟨(← arena.list? Decl.ofJson).toArray,
        (← owners.list? (option? DeclId.ofJson)).toArray⟩, ← DeclId.ofJson root)
  | _ => none

/-- The graph that a text was exported from, without its indexes, and the id of its root. -/
def Graph.ofText (text : String) : Option (Graph × DeclId) :=
  (Json.read text).bind Graph.ofJson

/-- Every graph is read back from its text, but for its indexes. -/
theorem Graph.ofText_json (g : Graph) : Graph.ofText g.json = some (g.unindexed, Graph.root) := by
  have harena := list?_ofList Decl.unindexed Decl.ofJson_toJson g.decls.toList
  have howners := list?_ofList_id
    (option?_ofOption DeclId.ofJson_toJson fun _ => Json.noConfusion) g.owners.toList
  rw [Graph.ofText, Graph.json, Json.read_pretty, Option.bind_some]
  simp [Graph.toJson, Graph.ofJson, harena, howners, Graph.unindexed, ← Array.toList_map]

end DeclGraph
