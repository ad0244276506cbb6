import DeclGraph.Path.Builtin
import DeclGraph.TypeExpr.Basic

/-!
# Built-in types

The types that every program can refer to, and the mark of a repeated parameter.
A parameter that takes any number of values has the path `*` applied to the type
of one value; the mark has no other encoding.

Main results:

- `TypeExpr.repeated?_repeated` reads back the type under the mark.
- `TypeExpr.eq_repeated_of_repeated?` shows that only marked types are read.
-/

namespace DeclGraph
namespace TypeExpr

/-- A path without arguments. -/
def ofPath (head : Path) : TypeExpr := ⟨head, []⟩

/-! ## Types without arguments -/

/-- Any native value. -/
def any : TypeExpr := ofPath (Path.scalaJs.child ⟨"Any"⟩)

/-- A native value whose members are looked up when it is used. -/
def dynamic : TypeExpr := ofPath (Path.scalaJs.child ⟨"Dynamic"⟩)

/-- Numbers. -/
def number : TypeExpr := ofPath (Path.scala.child ⟨"Double"⟩)

/-- Truth values. -/
def boolean : TypeExpr := ofPath (Path.scala.child ⟨"Boolean"⟩)

/-- Texts. Their type is always in scope, so it stands without a package. -/
def string : TypeExpr := ofPath (Path.single ⟨"String"⟩)

/-- Native objects. -/
def object : TypeExpr := ofPath (Path.scalaJs.child ⟨"Object"⟩)

/-- Functions of any number of parameters. -/
def anyFunction : TypeExpr := ofPath Path.anyFunction

/-- The type of no value worth having. -/
def unit : TypeExpr := ofPath (Path.scala.child ⟨"Unit"⟩)

/-! ## Types with arguments -/

/-- Arrays of elements of one type. -/
def array (element : TypeExpr) : TypeExpr := ⟨Path.array, [element]⟩

/-- Maps from texts to values of one type. -/
def dictionary (value : TypeExpr) : TypeExpr := ⟨Path.dictionary, [value]⟩

/-- Functions with these parameters. The result comes last among the arguments. -/
def function (params : List TypeExpr) (result : TypeExpr) : TypeExpr :=
  ⟨Path.function params.length, params ++ [result]⟩

/-- Tuples of these elements. -/
def tuple (elements : List TypeExpr) : TypeExpr := ⟨Path.tuple elements.length, elements⟩

/-- Values of either of two types. -/
def union (left right : TypeExpr) : TypeExpr := ⟨Path.union, [left, right]⟩

/-! ## Repeated parameters -/

/-- Any number of values of one type. -/
def repeated (element : TypeExpr) : TypeExpr := ⟨Path.repeated, [element]⟩

/-- The type of one value, if the type is marked as repeated. -/
def repeated? : TypeExpr → Option TypeExpr
  | ⟨head, [element]⟩ => if head = Path.repeated then some element else none
  | _ => none

/-- Is the type marked as repeated? -/
def isRepeated (type : TypeExpr) : Bool :=
  type.repeated?.isSome

/-- The type under the mark reads back. -/
@[simp]
theorem repeated?_repeated (element : TypeExpr) : (repeated element).repeated? = some element := by
  simp [repeated, repeated?]

/-- Only a marked type has a type under the mark. -/
theorem eq_repeated_of_repeated? {type element : TypeExpr}
    (h : type.repeated? = some element) : type = repeated element := by
  unfold repeated? at h
  split at h
  · split at h
    · next marked =>
      simp_all [repeated]
    · cases h
  · cases h

end TypeExpr
end DeclGraph
