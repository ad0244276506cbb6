import DeclGraph.Path.Basic

/-!
# Type expressions

A type is named by a path and applied to any number of types. Nothing checks
that the path leads anywhere or that the number of arguments suits it.

Equality of types is decided by comparing the two trees, and is the equality
that duplicate methods are found by.
-/

namespace DeclGraph

/-- A path applied to type arguments. -/
structure TypeExpr where
  /-- The type that is applied. -/
  head : Path
  /-- The types that it is applied to. -/
  args : List TypeExpr
deriving Inhabited

namespace TypeExpr

/-! ## Equality -/

mutual

/-- Do two types agree in path and arguments? -/
def same : TypeExpr → TypeExpr → Bool
  | ⟨head, args⟩, ⟨head', args'⟩ => head = head' && sameList args args'

/-- Do two lists of types agree one by one? -/
def sameList : List TypeExpr → List TypeExpr → Bool
  | [], [] => true
  | type :: rest, type' :: rest' => same type type' && sameList rest rest'
  | _, _ => false

end

mutual

/-- Types that agree are equal. -/
theorem same_iff : ∀ {a b : TypeExpr}, same a b = true ↔ a = b
  | ⟨head, args⟩, ⟨head', args'⟩ => by
    simp [same, sameList_iff (a := args) (b := args')]

/-- Lists of types that agree one by one are equal. -/
theorem sameList_iff : ∀ {a b : List TypeExpr}, sameList a b = true ↔ a = b
  | [], [] => by simp [sameList]
  | [], _ :: _ => by simp [sameList]
  | _ :: _, [] => by simp [sameList]
  | t :: rest, t' :: rest' => by
    simp [sameList, same_iff (a := t) (b := t'), sameList_iff (a := rest) (b := rest')]

end

instance : DecidableEq TypeExpr := fun a b =>
  decidable_of_iff (same a b = true) same_iff

/-! ## Trees -/

mutual

/-- The nodes of a type in pre-order, each with its path and its number of arguments. -/
def nodes : TypeExpr → List (Path × Nat)
  | ⟨head, args⟩ => (head, args.length) :: nodesOfList args

/-- The nodes of several types, one type after the other. -/
def nodesOfList : List TypeExpr → List (Path × Nat)
  | [] => []
  | type :: rest => nodes type ++ nodesOfList rest

end

mutual

/-- Put another path wherever a type names one. -/
def mapPaths (change : Path → Path) : TypeExpr → TypeExpr
  | ⟨head, args⟩ => ⟨change head, mapPathsOfList change args⟩

/-- Put another path wherever one of several types names one. -/
def mapPathsOfList (change : Path → Path) : List TypeExpr → List TypeExpr
  | [] => []
  | type :: rest => mapPaths change type :: mapPathsOfList change rest

end

/-- Several types are changed one by one. -/
@[simp]
theorem mapPathsOfList_eq_map (change : Path → Path) (types : List TypeExpr) :
    mapPathsOfList change types = types.map (mapPaths change) := by
  induction types with
  | nil => rfl
  | cons type rest ih => simp [mapPathsOfList, ih]

/-! ## Written form -/

mutual

/-- The type as emitted: its path, and its arguments between brackets, which are written even
when they are empty. -/
def text : TypeExpr → String
  | ⟨head, args⟩ => head.text ++ "[" ++ ", ".intercalate (texts args) ++ "]"

/-- The written forms of several types. -/
def texts : List TypeExpr → List String
  | [] => []
  | type :: rest => text type :: texts rest

end

/-- The written forms of several types are those of each. -/
@[simp]
theorem texts_eq_map (types : List TypeExpr) : texts types = types.map text := by
  induction types with
  | nil => rfl
  | cons type rest ih => simp [texts, ih]

end TypeExpr
end DeclGraph
