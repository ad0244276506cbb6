import DeclGraph.Proofs.Union

/-!
# Copies

A merge makes a slot of its own for whatever meets nothing.  What ends up in that
slot is a copy: the declaration under its new name, with every reference redirected,
and with each parent of a class mentioned once.  Where a container had no members,
all members of what comes into it are copied.

Main results:

- Theorem `ClassDecl.gainParents_eq`: the parents that a class has after it gained
  some, as a list.
- Theorems `Graph.Merging.header?_fresh` and `Graph.Merging.header?_of_new`: a slot
  of its own holds a copy.
- Theorem `Graph.Merging.memberIds_of_bare`: the members of what came into a
  container without members are the images of its members.
-/

namespace DeclGraph

/-! ## Parents at their first mention -/

namespace ClassDecl

/-- The class with each parent at its first mention only. -/
def distinctParents (k : ClassDecl) : ClassDecl :=
  { k with parents := k.parents.eraseDups }

/-- A class gains, in order and at their first mention, the parents that it lacks. -/
theorem gainParents_eq (k : ClassDecl) (incoming : List TypeExpr) :
    k.gainParents incoming = { k with
      parents := k.parents ++ (incoming.filter fun parent => parent ∉ k.parents).eraseDups } := by
  unfold gainParents
  congr 1
  induction incoming generalizing k with
  | nil => simp
  | cons parent rest ih =>
      rw [List.foldl_cons]
      by_cases hknown : parent ∈ k.parents
      · rw [if_pos hknown, ih k, List.filter_cons_of_neg (by simpa using hknown)]
      · have hlater : (rest.filter fun other => other ∉ k.parents ++ [parent]) =
            (rest.filter fun other => other ∉ k.parents).filter fun other => !other == parent := by
          rw [List.filter_filter]
          congr 1
          funext other
          rw [Bool.eq_iff_iff]
          simp [and_comm]
        rw [if_neg hknown, ih { k with parents := k.parents ++ [parent] },
          List.filter_cons_of_pos (by simpa using hknown), List.eraseDups_cons, hlater,
          List.append_assoc, List.singleton_append]

end ClassDecl

namespace Decl

/-- The declaration with each parent at its first mention only. -/
def distinctParents (decl : Decl) : Decl :=
  decl.mapClass ClassDecl.distinctParents

/-- What is no class has no parents to mention twice. -/
theorem distinctParents_of_key?_eq_none {decl : Decl} (h : decl.key? = none) :
    decl.distinctParents = decl := by
  cases decl <;> first | rfl | simp [key?] at h

@[simp]
theorem key?_distinctParents (decl : Decl) : decl.distinctParents.key? = decl.key? := by
  cases decl <;> rfl

/-- A container that is made for an incoming one takes over everything that this one declares of
itself. -/
theorem absorb_bare {decl : Decl} {key : Key} (h : decl.key? = some key) :
    decl.absorb true (Graph.bare key none) = decl.header.distinctParents := by
  cases decl <;> simp [key?] at h <;> subst h <;>
    simp [absorb, Graph.bare, mapScope, Scope.raise, issued, scope?, header, distinctParents,
      mapClass, ClassDecl.absorb, ClassDecl.gainParents_eq, ClassDecl.distinctParents,
      Name.zero_shiftIndex]

end Decl

/-! ## What is in a slot of its own -/

namespace Graph
namespace Merging

variable {g other merged : Graph} {forest : Forest} {log : List Arrival}
  (hm : Merging g other merged forest log) (hapart : KeysApart g other)

include hm hapart

/-- A slot of its own holds a copy of what it was made for. -/
theorem header?_fresh {a : Arrival} (ha : a ∈ log) (hfresh : a.fresh = true) {e : DeclId}
    (he : a.target = some e) : merged.header? e = some a.decl.header.distinctParents := by
  cases hkey : a.decl.key? with
  | none =>
      have hkept : a.decl.header.distinctParents = a.decl.header :=
        Decl.distinctParents_of_key?_eq_none (by rw [Decl.key?_header, hkey])
      rw [header?, hm.logged.get?_leaf hm.coherent hm.other_coherent ha hkey he, Option.map_some,
        hkept]
  | some key =>
      have hsome : a.decl.key?.isSome := by rw [hkey, Option.isSome_some]
      rw [hm.logged.header?_target hm.coherent hm.other_coherent hm.keys hapart ha hsome he,
        Arrival.settled, hkey]
      simp [hfresh, Decl.absorb_bare hkey]

/-- A container that gets a slot of its own is copied into it. -/
theorem header?_of_new {d : DeclId} (hd : (other.key? d).isSome)
    (hnew : g.size ≤ (imageIn log d).index) :
    merged.header? (imageIn log d) = (other.get? d).map fun decl =>
      ((g.planned other forest).rename d decl).header.distinctParents := by
  rcases Option.isSome_iff_exists.mp hd with ⟨key, hkey⟩
  rcases Option.bind_eq_some_iff.mp hkey with ⟨decl, hdecl, hdeclKey⟩
  rcases hm.header?_image hapart hdecl (by rw [hdeclKey, Option.isSome_some]) with
    ⟨mergedKey, fresh, hmergedKey, hfresh, hheader⟩
  rw [hheader, hfresh.mpr hnew, hdecl]
  simp [Decl.absorb_bare hmergedKey]

/-- What comes into a container without members meets nothing, and so the members of that container
are then the images of what came in. -/
theorem memberIds_of_bare {d : DeclId} (hd : (other.key? d).isSome)
    (hbare : g.memberIds (imageIn log d) = []) :
    merged.memberIds (imageIn log d) = (other.memberIds d).map (imageIn log) := by
  have hnew : newMembers g other (g.planned other forest) (imageIn log d) d =
      other.memberIds d := by
    rw [newMembers, List.filter_eq_self]
    intro id hid
    rcases exists_get? (hm.other_coherent.index_lt_of_owner?
      (hm.other_coherent.mem_memberIds.mp hid)) with ⟨decl, hdecl⟩
    simp [hdecl, lacks, hbare]
  rw [hm.memberIds_image hapart hd, hbare, hnew, List.nil_append]

/-- What comes into a container without members is copied into a slot of its own. -/
theorem copied_of_bare {d id : DeclId} (hbare : g.memberIds (imageIn log d) = [])
    (howner : other.owner? id = some d) : g.size ≤ (imageIn log id).index ∧
      merged.owner? (imageIn log id) = some (imageIn log d) ∧
      merged.header? (imageIn log id) = (other.get? id).map fun decl =>
        ((g.planned other forest).rename id decl).header.distinctParents := by
  rcases hm.exists_arrival howner with ⟨a, ha, rfl⟩
  rcases hm.logged.exists_decl ha with ⟨decl, hdecl, hrenamed⟩
  have hfresh : a.fresh = true := by
    rw [hm.fresh_eq_lacks hapart ha howner]
    simp [lacks, hbare]
  rcases hm.logged.size_le_of_fresh hm.coherent ha hfresh with ⟨e, he, hle⟩
  have hne := hm.other_coherent.ne_root_of_owner? howner
  rw [hm.image_eq ha he]
  refine ⟨hle, ?_, ?_⟩
  · rw [hm.logged.owner?_target hm.coherent ha hne he, hm.container_eq ha howner]
  · rw [hm.header?_fresh hapart ha hfresh he, hdecl, hrenamed, Option.map_some]

end Merging

end Graph
end DeclGraph
