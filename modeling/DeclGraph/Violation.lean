import DeclGraph.DeclId

/-!
# Broken preconditions

Building and reading a graph cannot fail for reasons of content: any name, any
type and any order of declarations is accepted. What can go wrong is that the
caller asks for something that has no meaning, such as the members of a field.
-/

namespace DeclGraph

/-- A request that the caller had no right to make. -/
inductive Violation
  /-- The id belongs to no slot of the graph. -/
  | unknownDecl (id : DeclId)
  /-- Members were asked of, or given to, a declaration that has none. -/
  | notContainer (id : DeclId)
  /-- A package was to be put into something else than a package. -/
  | notPackage (id : DeclId)
  /-- A declaration is listed below one that was made after it. -/
  | listedTooEarly (id : DeclId)
  /-- The root path has no parent. -/
  | parentOfRoot
  /-- The root path has no last name. -/
  | nameOfRoot
  /-- A container has issued every anonymous name there is. -/
  | namesExhausted
deriving DecidableEq

namespace Violation

/-- The wording of a violation. -/
def message : Violation → String
  | unknownDecl id => "symbol " ++ id.text ++ " does not belong to this graph"
  | notContainer id => "symbol " ++ id.text ++ " is not a container"
  | notPackage id => "packages can only be nested in packages, " ++ id.text ++ " is not one"
  | listedTooEarly id => "symbol " ++ id.text ++ " is listed below a later one"
  | parentOfRoot => "init of empty qualified name"
  | nameOfRoot => "last of empty qualified name"
  | namesExhausted => "attempt to add with overflow"

end Violation
end DeclGraph
