import DeclGraph.Path.Basic

/-!
# Paths of the built-in types

Where the types live that the emitted language provides. Functions and tuples
have one type for each number of arguments, with that number in its name.
-/

namespace DeclGraph
namespace Path

/-- The standard library. -/
def scala : Path := root.child Name.scala

/-- The package of the native types. -/
def scalaJs : Path := (scala.child Name.scalajs).child Name.js

/-- Arrays of native values. -/
def array : Path := scalaJs.child ⟨"Array"⟩

/-- Objects used as maps from texts. -/
def dictionary : Path := scalaJs.child ⟨"Dictionary"⟩

/-- Functions of any number of parameters. -/
def anyFunction : Path := scalaJs.child ⟨"Function"⟩

/-- Functions of `arity` parameters. -/
def function (arity : Nat) : Path := scalaJs.child ⟨"Function" ++ Nat.repr arity⟩

/-- Tuples of `arity` elements. -/
def tuple (arity : Nat) : Path := scalaJs.child ⟨"Tuple" ++ Nat.repr arity⟩

/-- Values of either of two types. -/
def union : Path := scalaJs.child ⟨"|"⟩

/-- The mark of a repeated parameter, which is a path of one name. -/
def repeated : Path := single Name.repeated

end Path
end DeclGraph
