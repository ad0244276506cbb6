/-!
# Declaration ids

A declaration is named within its graph by the number of its slot, which fits in
32 bits.
-/

namespace DeclGraph

/-- The number of a slot in a graph. -/
structure DeclId where
  /-- The slot number. -/
  val : UInt32
deriving DecidableEq, Inhabited

namespace DeclId

/-- The id of a slot. Of a number that needs more than 32 bits the low 32 are kept. -/
def ofIndex (index : Nat) : DeclId :=
  ⟨UInt32.ofNat index⟩

/-- The slot an id stands for. -/
def index (id : DeclId) : Nat :=
  id.val.toNat

/-- The slot of an id that was made from a slot number is that number in 32 bits. -/
@[simp]
theorem index_ofIndex (n : Nat) : (ofIndex n).index = n % UInt32.size :=
  UInt32.toNat_ofNat

/-- An id is determined by its slot. -/
@[simp]
theorem ofIndex_index (id : DeclId) : ofIndex id.index = id := by
  simp [ofIndex, index]

/-- The id as it appears in messages. -/
def text (id : DeclId) : String :=
  "#" ++ Nat.repr id.index

/-- Ids are ordered as their slots are. -/
def order (a b : DeclId) : Ordering :=
  compareOfLessAndEq a.index b.index

end DeclId
end DeclGraph
