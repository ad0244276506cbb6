import DeclGraph.Decl.Text
import DeclGraph.Graph.Basic

/-!
# Traversals

Everything below a container can be listed in pre-order: each container before
its members, and members in their order. The listing goes step by step; what is
still to come stands on a stack. The outline of a container is that listing with
one line per declaration.

Main results:

- `Traversal.next?_nil` and `Traversal.next?_cons` are the two cases of one step.
-/

namespace DeclGraph

/-- A traversal that is under way: what is still to come, each declaration with its depth. -/
structure Traversal where
  /-- The declarations to come, the next one first. -/
  pending : List (Nat × DeclId)
deriving DecidableEq

namespace Traversal

/-- The members of a declaration as they are put on the stack. -/
def below (g : Graph) (depth : Nat) (id : DeclId) : List (Nat × DeclId) :=
  (((g.get? id).map Decl.memberIds).getD []).map fun member => (depth + 1, member)

/-- The next declaration, and the traversal that remains after it. -/
def next? (g : Graph) : Traversal → Option ((Nat × DeclId) × Traversal)
  | ⟨[]⟩ => none
  | ⟨(depth, id) :: rest⟩ => some ((depth, id), ⟨below g depth id ++ rest⟩)

/-- What the first `count` steps of a traversal list. -/
def take (g : Graph) : Nat → Traversal → List (Nat × DeclId)
  | 0, _ => []
  | count + 1, traversal =>
    match traversal.next? g with
    | none => []
    | some (entry, rest) => entry :: take g count rest

@[simp]
theorem next?_nil (g : Graph) : (⟨[]⟩ : Traversal).next? g = none :=
  rfl

@[simp]
theorem next?_cons (g : Graph) (depth : Nat) (id : DeclId) (rest : List (Nat × DeclId)) :
    (⟨(depth, id) :: rest⟩ : Traversal).next? g = some ((depth, id), ⟨below g depth id ++ rest⟩) :=
  rfl

end Traversal

namespace Graph

/-- Everything below a container with its depth, the members of the container at depth 0. A slot
has one place in the tree, so a traversal has no more steps than there are slots. -/
def preorder (g : Graph) (container : DeclId) : Except Violation (List (Nat × DeclId)) :=
  (g.members container).map fun ids => Traversal.take g g.size ⟨ids.map fun id => (0, id)⟩

/-- The line of a declaration in an outline: two spaces for every level, and a remark where there
is a companion. -/
def outlineLine (depth : Nat) (decl : Decl) : String :=
  String.ofList (List.replicate (2 * depth) ' ') ++ decl.text ++
    (if decl.companion?.isSome then " // companion" else "") ++ "\n"

/-- Everything below a container, one declaration a line. -/
def outline (g : Graph) (container : DeclId) : Except Violation String := do
  let entries ← g.preorder container
  let lines ← entries.mapM fun (depth, id) => (g.decl id).map (outlineLine depth)
  return String.join lines

end Graph
end DeclGraph
