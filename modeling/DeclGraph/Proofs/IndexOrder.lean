import DeclGraph.Proofs.Protocol

/-!
# The order of an index

A container indexes the packages, classes and objects among its members.  In a graph
that is built the index holds them in the order in which they were declared, the last
one first, and nothing else.  So it tells nothing that the members do not tell.

Main results:

- Theorem `Graph.Indexed.enlist`: a new member keeps the index in order.
- Theorem `Graph.Log.indexed`: so does a merge.
- Theorem `Built.indexed`: every index of a built graph is that of the members.
-/

namespace DeclGraph
namespace Graph

/-! ## Indexes in the order of the members -/

/-- The index of these members: those of them that have a key, the last one first. -/
def indexOf (g : Graph) (ids : List DeclId) : List (Key × DeclId) :=
  (ids.filterMap fun id => (g.key? id).map fun key => (key, id)).reverse

/-- Every index is that of the members. -/
def Indexed (g : Graph) : Prop :=
  ∀ id, g.index id = g.indexOf (g.memberIds id)

/-- A member at the end comes first in the index, if it has a key. -/
theorem indexOf_concat (g : Graph) (ids : List DeclId) (id : DeclId) :
    g.indexOf (ids ++ [id]) =
      ((g.key? id).map fun key => (key, id)).toList ++ g.indexOf ids := by
  cases hkey : g.key? id <;> simp [indexOf, List.filterMap_append, hkey]

/-- An index tells of the keys of the members only. -/
theorem indexOf_congr {g h : Graph} {ids : List DeclId}
    (hkeys : ∀ id ∈ ids, h.key? id = g.key? id) : h.indexOf ids = g.indexOf ids := by
  have hfilter : ids.filterMap (fun id => (h.key? id).map fun key => (key, id)) =
      ids.filterMap fun id => (g.key? id).map fun key => (key, id) :=
    List.filterMap_congr fun id hid => by rw [hkeys id hid]
  rw [indexOf, hfilter, indexOf]

/-- What has no key can be taken out without the index. -/
theorem indexOf_erase {g : Graph} {id : DeclId} (hkey : g.key? id = none) (ids : List DeclId) :
    g.indexOf (ids.erase id) = g.indexOf ids := by
  have hfilter : (ids.erase id).filterMap (fun id => (g.key? id).map fun key => (key, id)) =
      ids.filterMap fun id => (g.key? id).map fun key => (key, id) := by
    induction ids with
    | nil => rfl
    | cons first rest ih =>
        by_cases hfirst : first = id
        · subst hfirst
          simp [hkey]
        · rw [List.erase_cons_tail (by simpa using hfirst), List.filterMap_cons,
            List.filterMap_cons, ih]
  rw [indexOf, hfilter, indexOf]

namespace Indexed

variable {g h : Graph}

theorem empty : Indexed Graph.empty := by
  intro id
  rw [memberIds_empty]
  by_cases hid : id = root
  · subst hid
    rfl
  · rw [index, get?_empty hid]
    rfl

theorem of_sameTree (hsame : SameTree g h) (hg : Indexed g) : Indexed h := by
  intro id
  rw [hsame.index, hsame.memberIds, hg id, indexOf_congr fun id _ => hsame.key? id]

/-- A new member comes to the end of the members and to the front of the index. -/
theorem enlist {container : DeclId} {decl : Decl} (hg : Indexed g) (hcoherent : Coherent g)
    (hfits : Fits g container decl) : Indexed (g.enlist container decl) := by
  -- The members that were there have the keys that they had.
  have hold : ∀ id, (g.enlist container decl).indexOf (g.memberIds id) = g.index id := by
    intro id
    rw [hg id]
    refine indexOf_congr fun member hmember => ?_
    have hne : member ≠ g.nextId := by
      rintro rfl
      have howner := hcoherent.mem_memberIds.mp hmember
      rw [hcoherent.owner?_nextId] at howner
      contradiction
    rw [hfits.key? hcoherent, if_neg hne]
  intro id
  rw [index_enlist hcoherent.size_lt hfits.isContainer (hfits.exists_partner hcoherent)
    hfits.index, hfits.mem_memberIds hcoherent]
  by_cases hid : id = container
  · rw [if_pos hid, if_pos hid, indexOf_concat, hold, hfits.key? hcoherent, if_pos rfl]
  · rw [if_neg hid, if_neg hid, hold]

/-- A method that is taken out was not indexed. -/
theorem detach {container member : DeclId} (hg : Indexed g)
    (hkind : g.kind? member = some .method) : Indexed (g.detach container member) := by
  intro id
  rw [index_detach, memberIds_detach, indexOf_congr fun id _ => key?_detach g container member id,
    hg id]
  split
  · rw [indexOf_erase (key?_of_method hkind)]
  · rfl

/-- An arrival comes to the end of the members and to the front of the index. -/
theorem step {oldSize : Nat} {a : Arrival} (hg : Indexed g) (hcoherent : Coherent g)
    (hstep : Step oldSize g a h) : Indexed h := by
  cases hstep with
  | joined hkey hfound => exact hg.of_sameTree (sameTree_absorb g _ _ false)
  | founded hkey hnew hcontainer hpackage =>
      have hfits := fits_newcomer hcontainer (isContainer_of_key? hkey) hnew hpackage
      exact (hg.enlist hcoherent hfits).of_sameTree (sameTree_absorb _ g.nextId _ true)
  | copied hleaf hcontainer hnew => exact hg.enlist hcoherent (fits_leaf hcontainer hleaf)
  | dropped hleaf hold => exact hg

end Indexed

/-- A merge keeps every index in the order of the members. -/
theorem Log.indexed {g other h : Graph} {plan : Renamings} {log : List Arrival}
    (hcoherent : Coherent g) (hg : Indexed g) (hlog : Log g other plan log h) : Indexed h := by
  induction hlog with
  | start => exact hg.of_sameTree (sameTree_absorb g root _ false)
  | arrive hlog hparent htarget howner hdecl hrenamed hnew hstep hsize ih =>
      exact ih.step (hlog.coherent hcoherent) hstep

end Graph

open DeclGraph.Graph

/-- A request keeps every index in the order of the members. -/
theorem Outcome.indexed {naming : Naming} {record record' : Record} {g g' : Graph}
    (h : Outcome naming record g record' g') (hcoherent : Coherent g) (hg : Indexed g) :
    Indexed g' := by
  cases h with
  | found => exact hg
  | enlisted hfits => exact hg.enlist hcoherent hfits
  | edited hplace => exact hg.of_sameTree (sameTree_modify fun decl _ => hplace decl)
  | issued =>
      exact hg.of_sameTree (sameTree_modify fun decl _ => samePlace_mapScope_issue decl)
  | removed howner hkind => exact hg.detach hkind

/-- Every index of a built graph is in the order of the members. -/
theorem Built.indexed {naming : Naming} {record : Record} {g : Graph}
    (h : Built naming record g) : Indexed g := by
  induction h with
  | new => exact Indexed.empty
  | request hbuilt hadmitted hrun hsize ih =>
      exact (Request.outcome hbuilt.coherent hadmitted hrun).indexed hbuilt.coherent ih
  | merge hbuilt hother hrun hsize ih ihOther =>
      rcases hbuilt.exists_log hother hrun hsize with ⟨forest, log, -, hlog, -⟩
      exact hlog.indexed hbuilt.coherent ih

end DeclGraph
