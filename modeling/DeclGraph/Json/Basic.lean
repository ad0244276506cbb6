/-!
# JSON values

The values that a graph is exported as. Numbers are natural numbers, since ids
and counters are all that is ever counted, and the fields of an object keep the
order they are given in.
-/

namespace DeclGraph

/-- A JSON value. -/
inductive Json
  /-- The absent value. -/
  | null
  /-- A truth value. -/
  | bool (value : Bool)
  /-- A natural number. -/
  | number (value : Nat)
  /-- A text. -/
  | string (value : String)
  /-- A list of values. -/
  | array (items : List Json)
  /-- Values under keys, in the order they are written in. -/
  | object (fields : List (String × Json))

namespace Json

/-- The value of something that may be absent. -/
def ofOption {α : Type} (encode : α → Json) : Option α → Json
  | none => null
  | some a => encode a

/-- The array of the values of a list. -/
def ofList {α : Type} (encode : α → Json) (items : List α) : Json :=
  array (items.map encode)

end Json
end DeclGraph
