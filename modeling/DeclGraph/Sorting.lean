import DeclGraph.Path.Basic

/-!
# Sorted names and paths

Names and paths can be put in order, each value once.
-/

namespace DeclGraph

/-- The values of a list in ascending order, each once. -/
def sortDistinct {α : Type} (order : α → α → Ordering) (values : List α) : List α :=
  (values.mergeSort fun a b => (order a b).isLE).eraseRepsBy fun a b => order a b = .eq

/-- The names of a list in ascending order, each once. -/
def Name.sorted (names : List Name) : List Name :=
  sortDistinct Name.order names

/-- The paths of a list in ascending order, each once. -/
def Path.sorted (paths : List Path) : List Path :=
  sortDistinct Path.order paths

end DeclGraph
