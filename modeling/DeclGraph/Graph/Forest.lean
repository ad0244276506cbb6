import DeclGraph.Graph.Basic

/-!
# Forests

The declarations below a container form a forest. A forest is read off a graph by
following the member lists; a member comes after its container in the numbering
of the slots, and so the reading ends.

The events of a forest are what a printer sees that opens a body when it comes to
a container and closes it when it leaves.

Main results:

- `Graph.forest_nil` and `Graph.forest_cons` read a list of members.
- `Forest.ids_events` says that opening and leaf events list the forest.
-/

namespace DeclGraph

/-- Declarations in their order, each with what is below it. -/
inductive Forest
  /-- No declarations. -/
  | nil
  /-- A declaration, what is `below` it, and the `rest` beside it. -/
  | cons (id : DeclId) (decl : Decl) (below rest : Forest)
deriving DecidableEq

namespace Forest

/-- The forest of several declarations, when it is known how to `read` each of them and what is
below it. -/
def gather (read : DeclId → Except Violation (Decl × Forest)) :
    List DeclId → Except Violation Forest
  | [] => .ok .nil
  | id :: siblings => do
    let (decl, below) ← read id
    let rest ← gather read siblings
    return .cons id decl below rest

/-- Change every declaration of a forest. -/
def map (change : DeclId → Decl → Decl) : Forest → Forest
  | nil => nil
  | cons id decl below rest => cons id (change id decl) (below.map change) (rest.map change)

end Forest

/-! ## Events -/

/-- What happens in a traversal. -/
inductive Event
  /-- A container is opened. -/
  | enter (id : DeclId) (decl : Decl)
  /-- A container is closed. -/
  | leave (id : DeclId) (decl : Decl)
  /-- Something that is no container is passed. -/
  | leaf (id : DeclId) (decl : Decl)
deriving DecidableEq

namespace Event

/-- The declaration that a traversal comes to, if the event is not a departure. -/
def arrival? : Event → Option DeclId
  | enter id _ => some id
  | leave _ _ => none
  | leaf id _ => some id

end Event

namespace Forest

/-- The ids of a forest in pre-order. -/
def ids : Forest → List DeclId
  | nil => []
  | cons id _ below rest => id :: (below.ids ++ rest.ids)

/-- Changed declarations stay where they are. -/
@[simp]
theorem ids_map (change : DeclId → Decl → Decl) (forest : Forest) :
    (forest.map change).ids = forest.ids := by
  induction forest with
  | nil => rfl
  | cons id decl below rest inner outer => simp [map, ids, inner, outer]

/-- The traversal of one declaration, given that of what is below it. -/
def around (id : DeclId) (decl : Decl) (inner : List Event) : List Event :=
  if decl.isContainer then .enter id decl :: (inner ++ [.leave id decl]) else .leaf id decl :: inner

/-- The traversal of a forest. -/
def events : Forest → List Event
  | nil => []
  | cons id decl below rest => around id decl below.events ++ rest.events

/-- A traversal arrives at every declaration of a forest once, in pre-order. -/
theorem ids_events (forest : Forest) : forest.events.filterMap Event.arrival? = forest.ids := by
  induction forest with
  | nil => rfl
  | cons id decl below rest inner outer =>
    rw [events, List.filterMap_append, outer, ids, ← inner, ← List.cons_append]
    congr 1
    unfold around
    split
    · simp [Event.arrival?, List.filterMap_append]
    · simp [Event.arrival?]

end Forest

namespace Graph

/-! ## Reading forests -/

/-- The forest of these members, which may have no ids below `least`. -/
def forest (g : Graph) (least : Nat) (ids : List DeclId) : Except Violation Forest :=
  Forest.gather (fun id =>
    if id.index < least then .error (.listedTooEarly id)
    else
      match found : g.get? id with
      | none => .error (.unknownDecl id)
      | some decl => do return (decl, ← g.forest (id.index + 1) decl.memberIds)) ids
termination_by g.size - least
decreasing_by
  have bound : id.index < g.size := (Array.getElem?_eq_some_iff.mp found).1
  omega

/-- What a traversal of a declaration meets. -/
def events (g : Graph) (id : DeclId) : Except Violation (List Event) :=
  (g.forest 0 [id]).map Forest.events

@[simp]
theorem forest_nil (g : Graph) (least : Nat) : g.forest least [] = .ok .nil := by
  rw [forest, Forest.gather]

/-- Reading a member reads what is below it and then its siblings. -/
theorem forest_cons {g : Graph} {least : Nat} {id : DeclId} {siblings : List DeclId} {decl : Decl}
    (later : least ≤ id.index) (found : g.get? id = some decl) :
    g.forest least (id :: siblings) = (do
      let below ← g.forest (id.index + 1) decl.memberIds
      let rest ← g.forest least siblings
      return .cons id decl below rest) := by
  rw [forest, Forest.gather, if_neg (Nat.not_lt.mpr later)]
  split
  · next missing => simp [missing] at found
  · next other same =>
    obtain rfl : other = decl := by simpa [same] using found
    rw [← forest]
    cases g.forest (id.index + 1) other.memberIds <;> rfl

end Graph
end DeclGraph
