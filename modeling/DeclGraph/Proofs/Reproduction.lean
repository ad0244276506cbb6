import Mathlib.Data.Set.Function
import DeclGraph.Proofs.Copies

/-!
# Merging into the empty graph

Into the graph of the root alone everything comes anew: no name is shifted, no
reference redirected, no method dropped.  The result reproduces what was merged,
slot by slot, with the methods that were taken out left behind.  One thing is not
kept: a class gains the parents that it lacks, and so a parent that it mentions
again is not mentioned again in the copy.

Main results:

- Theorem `Renamings.rename_nil`: an empty plan changes no declaration.
- Theorem `Graph.Merging.bijOn_image`: the attached declarations fill all slots of
  the result.
- Theorem `Built.merge_empty`: merging any built graph into the empty graph goes
  through and reproduces it.
-/

namespace DeclGraph

/-! ## Nothing to redirect -/

namespace TypeExpr

mutual

/-- Where no path is exchanged, a type stays what it is. -/
theorem mapPaths_id : ∀ type : TypeExpr, type.mapPaths id = type
  | ⟨head, args⟩ => by rw [mapPaths, mapPathsOfList_id args, id_eq]

theorem mapPathsOfList_id : ∀ types : List TypeExpr, mapPathsOfList id types = types
  | [] => rfl
  | type :: rest => by rw [mapPathsOfList, mapPaths_id type, mapPathsOfList_id rest]

end

end TypeExpr

theorem TypeParam.mapTypes_id (tparam : TypeParam) : tparam.mapTypes id = tparam := by
  simp [TypeParam.mapTypes]

theorem Param.mapTypes_id (param : Param) : param.mapTypes id = param :=
  rfl

/-- Where no type is changed, a declaration stays what it is. -/
theorem Decl.mapTypes_id (decl : Decl) : decl.mapTypes id = decl := by
  have htparam : TypeParam.mapTypes id = id := funext TypeParam.mapTypes_id
  have hparam : Param.mapTypes id = id := funext Param.mapTypes_id
  cases decl <;>
    simp [Decl.mapTypes, ClassDecl.mapTypes, FieldDecl.mapTypes, MethodDecl.mapTypes, htparam,
      hparam]

/-- An empty plan changes no declaration. -/
theorem Renamings.rename_nil (source : DeclId) (decl : Decl) : rename [] source decl = decl := by
  have hfollow : follow [] = id := funext follow_nil
  have hredirect : redirect [] = id := by
    funext type
    rw [redirect, hfollow, TypeExpr.mapPaths_id, id_eq]
  have hkept : rename [] source decl = decl.mapTypes id := by
    rw [← hredirect]
    cases decl <;> rfl
  rw [hkept, decl.mapTypes_id]

namespace Graph

/-! ## What a reproduction is -/

/-- The graph `h` holds what is attached in `g`: `image` tells in which slot. -/
structure Reproduction (g h : Graph) (image : DeclId → DeclId) : Prop where
  /-- The root becomes the root. -/
  root : image root = root
  /-- The attached declarations fill all slots, one each. -/
  bijOn : Set.BijOn image {d | g.isAttached d} {e | e.index < h.size}
  /-- Every declaration keeps its kind, its name, its count of issued names and all its attributes,
  except that a parent is not mentioned again. -/
  header : ∀ {d}, g.isAttached d → h.header? (image d) = (g.header? d).map Decl.distinctParents
  /-- Members keep their order. -/
  members : ∀ {d}, g.isAttached d → h.memberIds (image d) = (g.memberIds d).map image
  /-- Companions stay companions. -/
  companion : ∀ {d}, g.isAttached d → h.companion? (image d) = (g.companion? d).map image

/-! ## Nothing meets anything in the empty graph -/

section Empty

variable {other : Graph}

theorem offset_empty (container : DeclId) : Graph.empty.offset other container = 0 := by
  unfold offset
  cases Graph.empty.site other container with
  | none => rfl
  | some e => exact issued_empty e

theorem mergedKey?_empty (id : DeclId) : Graph.empty.mergedKey? other id = other.key? id := by
  have hoffset : (other.owner? id).elim 0 (Graph.empty.offset other) = 0 := by
    cases other.owner? id with
    | none => rfl
    | some container => exact offset_empty container
  simp [mergedKey?, hoffset]

/-- Where no name is shifted, keys stay apart. -/
theorem keysApart_empty (hother : Coherent other) : KeysApart Graph.empty other := by
  intro container a b key ha hb haKey hbKey
  rw [mergedKey?_empty] at haKey hbKey
  exact hother.eq_of_key?_eq ha hb haKey hbKey

/-- Where no names were issued, nothing is renamed. -/
theorem planned_empty (forest : Forest) : Graph.empty.planned other forest = [] := by
  rw [planned, List.filterMap_eq_nil_iff]
  intro id hid
  simp [renaming?, offset_empty, Name.shifted?]

end Empty

namespace Merging

variable {other merged : Graph} {forest : Forest} {log : List Arrival}
  (hm : Merging Graph.empty other merged forest log)

include hm

/-- What has an owner is copied into the image of that owner. -/
theorem copied_into_empty {c d : DeclId} (howner : other.owner? d = some c) :
    imageIn log d ≠ root ∧ merged.owner? (imageIn log d) = some (imageIn log c) ∧
      merged.header? (imageIn log d) = (other.header? d).map Decl.distinctParents := by
  rcases hm.copied_of_bare (keysApart_empty hm.other_coherent) (memberIds_empty _) howner with
    ⟨hnew, howned, hheader⟩
  refine ⟨?_, howned, ?_⟩
  · intro hroot
    rw [hroot] at hnew
    contradiction
  · rw [hheader, planned_empty, header?, Option.map_map]
    congr 1
    funext decl
    rw [Renamings.rename_nil]
    rfl

/-- The root takes over the count of issued names. -/
theorem header?_root_of_empty :
    merged.header? root = (other.header? root).map Decl.distinctParents := by
  rcases exists_get? (index_lt_of_key? hm.other_coherent.key?_root) with ⟨decl, hdecl⟩
  have hkey : decl.key? = some (.package, Name.empty) := by
    rw [← hm.other_coherent.key?_root, Graph.key?, hdecl, Option.bind_some]
  rcases hm.header?_image (keysApart_empty hm.other_coherent) hdecl
    (by rw [hkey, Option.isSome_some]) with ⟨key, fresh, -, hfresh, hheader⟩
  rw [hm.image_root] at hfresh hheader
  have hjoined : fresh = false := by
    rw [← Bool.not_eq_true, hfresh]
    decide
  have hroot : Graph.empty.header? root = some (bare (.package, Name.empty) none) := rfl
  have habsorb : decl.absorb false (bare (.package, Name.empty) none) =
      decl.absorb true (bare (.package, Name.empty) none) := by
    cases decl <;> rfl
  rw [hheader, hjoined, planned_empty, Renamings.rename_nil, hroot]
  simp [habsorb, Decl.absorb_bare hkey, Graph.header?, hdecl]

/-- Whatever is attached keeps its header, with every parent mentioned once. -/
theorem header?_of_empty {d : DeclId} (hd : other.isAttached d) :
    merged.header? (imageIn log d) = (other.header? d).map Decl.distinctParents := by
  rcases isAttached_iff_owned.mp hd with rfl | ⟨c, howner⟩
  · rw [hm.image_root, hm.header?_root_of_empty]
  · exact (hm.copied_into_empty howner).2.2

/-- Whatever is attached keeps its key. -/
theorem key?_of_empty {d : DeclId} (hd : other.isAttached d) :
    merged.key? (imageIn log d) = other.key? d := by
  rw [key?_eq_header?, hm.header?_of_empty hd, key?_eq_header?]
  cases other.header? d <;> simp

/-! ### The slots -/

theorem mapsTo_image :
    Set.MapsTo (imageIn log) {d | other.isAttached d} {e | e.index < merged.size} := by
  intro d hd
  rcases isAttached_iff_owned.mp hd with rfl | ⟨c, howner⟩
  · rw [hm.image_root]
    exact index_lt_of_key? hm.merged_coherent.key?_root
  · exact hm.merged_coherent.index_lt_of_owner? (hm.copied_into_empty howner).2.1

theorem injOn_image : Set.InjOn (imageIn log) {d | other.isAttached d} := by
  intro a ha b hb hsame
  rcases isAttached_iff_owned.mp ha with rfl | ⟨c, haOwner⟩ <;>
    rcases isAttached_iff_owned.mp hb with rfl | ⟨c', hbOwner⟩
  · rfl
  · rw [hm.image_root] at hsame
    exact absurd hsame.symm (hm.copied_into_empty hbOwner).1
  · rw [hm.image_root] at hsame
    exact absurd hsame (hm.copied_into_empty haOwner).1
  · rcases hm.exists_arrival haOwner with ⟨x, hx, rfl⟩
    rcases hm.exists_arrival hbOwner with ⟨y, hy, rfl⟩
    have hfresh : ∀ {z : Arrival} {c : DeclId}, z ∈ log → other.owner? z.source = some c →
        z.fresh = true := by
      intro z c hz howner
      rw [hm.fresh_eq_lacks (keysApart_empty hm.other_coherent) hz howner]
      simp [lacks, memberIds_empty]
    have hxFresh := hfresh hx haOwner
    have hyFresh := hfresh hy hbOwner
    rcases hm.logged.size_le_of_fresh hm.coherent hx hxFresh with ⟨e, he, -⟩
    rcases hm.logged.size_le_of_fresh hm.coherent hy hyFresh with ⟨e', he', -⟩
    rw [hm.image_eq hx he, hm.image_eq hy he'] at hsame
    rw [hm.logged.eq_of_fresh hm.coherent hm.other_coherent hx hy hxFresh hyFresh
      (by rw [he, he', hsame])]

theorem surjOn_image :
    Set.SurjOn (imageIn log) {d | other.isAttached d} {e | e.index < merged.size} := by
  intro e he
  by_cases hold : e.index < Graph.empty.size
  · have hroot : e = root := DeclId.eq_of_index_eq (Nat.lt_one_iff.mp hold)
    exact ⟨root, isAttached_iff_owned.mpr (Or.inl rfl), by rw [hm.image_root, hroot]⟩
  · rcases hm.logged.exists_fresh hm.coherent (Nat.le_of_not_lt hold) he with
      ⟨a, ha, hfresh, htarget⟩
    rcases hm.logged.cases_arrival hm.other_coherent ha with
      ⟨-, -, hjoined⟩ | ⟨-, parent, -, -, howner⟩
    · rw [hjoined] at hfresh
      contradiction
    · exact ⟨a.source, isAttached_iff_owned.mpr (Or.inr ⟨_, howner⟩), hm.image_eq ha htarget⟩

/-- The attached declarations fill all slots of the result, one each. -/
theorem bijOn_image :
    Set.BijOn (imageIn log) {d | other.isAttached d} {e | e.index < merged.size} :=
  ⟨hm.mapsTo_image, hm.injOn_image, hm.surjOn_image⟩

/-! ### Members and companions -/

theorem memberIds_of_empty {d : DeclId} (hd : other.isAttached d) :
    merged.memberIds (imageIn log d) = (other.memberIds d).map (imageIn log) := by
  cases hkey : other.key? d with
  | some key =>
      exact hm.memberIds_of_bare (keysApart_empty hm.other_coherent)
        (by rw [hkey, Option.isSome_some]) (memberIds_empty _)
  | none =>
      rw [memberIds_of_key?_eq_none hkey,
        memberIds_of_key?_eq_none ((hm.key?_of_empty hd).trans hkey), List.map_nil]

/-- Companions stay companions: they are found by owner and key, and both are kept. -/
theorem companion?_of_empty {d : DeclId} (hd : other.isAttached d) :
    merged.companion? (imageIn log d) = (other.companion? d).map (imageIn log) := by
  have hmerged := hm.merged_coherent
  have hother := hm.other_coherent
  ext e
  rw [hmerged.companion?_eq_some, Option.map_eq_some_iff]
  constructor
  · intro hgiven
    rcases hgiven with ⟨container, key, partner, howner, heOwner, hkey, hpartner, heKey⟩
    rcases hm.surjOn_image (hmerged.index_lt_of_owner? heOwner) with ⟨mate, hmate, rfl⟩
    rw [hm.key?_of_empty hd] at hkey
    rw [hm.key?_of_empty hmate] at heKey
    refine ⟨mate, hother.companion?_eq_some.mpr ?_, rfl⟩
    -- Neither of the two is the root, which has no owner.
    rcases isAttached_iff_owned.mp hd with rfl | ⟨c, hdOwner⟩
    · rw [hm.image_root, hmerged.owner?_root] at howner
      contradiction
    · rcases isAttached_iff_owned.mp hmate with rfl | ⟨c', hmateOwner⟩
      · rw [hm.image_root, hmerged.owner?_root] at heOwner
        contradiction
      · have hsame : imageIn log c' = imageIn log c := by
          rw [(hm.copied_into_empty hdOwner).2.1] at howner
          rw [(hm.copied_into_empty hmateOwner).2.1] at heOwner
          exact Option.some.inj (heOwner.trans howner.symm)
        have hcontainers := hm.image_injective (keysApart_empty hother)
          (hother.isSome_key?_of_owner? hmateOwner) (hother.isSome_key?_of_owner? hdOwner) hsame
        exact ⟨c, key, partner, hdOwner, hcontainers ▸ hmateOwner, hkey, hpartner, heKey⟩
  · intro hgiven
    rcases hgiven with ⟨mate, hmate, rfl⟩
    rcases hother.companion?_eq_some.mp hmate with
      ⟨c, key, partner, howner, hmateOwner, hkey, hpartner, hmateKey⟩
    refine ⟨imageIn log c, key, partner, (hm.copied_into_empty howner).2.1,
      (hm.copied_into_empty hmateOwner).2.1, ?_, hpartner, ?_⟩
    · rw [hm.key?_of_empty hd, hkey]
    · rw [hm.key?_of_empty (isAttached_iff_owned.mpr (Or.inr ⟨c, hmateOwner⟩)), hmateKey]

theorem reproduction : Reproduction other merged (imageIn log) where
  root := hm.image_root
  bijOn := hm.bijOn_image
  header := hm.header?_of_empty
  members := hm.memberIds_of_empty
  companion := hm.companion?_of_empty

end Merging

end Graph

open DeclGraph.Graph

/-- Merging a built graph into the graph of the root alone goes through and reproduces it. -/
theorem Built.merge_empty {naming : Naming} {record : Record} {other : Graph}
    (hother : Built naming record other) : ∃ merged image,
      Graph.merge other Graph.empty = .ok () merged ∧ Reproduction other merged image := by
  have hsize : ((Graph.merge other).final Graph.empty).size < UInt32.size := by
    have hfilled := size_merge_lt Coherent.empty hother.coherent
    have hslots := hother.coherent.size_lt
    have hroot : Graph.empty.size = 1 := rfl
    omega
  rcases Built.new.exists_merging hother hsize with ⟨merged, forest, log, hmerge, hm⟩
  exact ⟨merged, imageIn log, hmerge, hm.reproduction⟩

/-- A class with its companion, an anonymous class in it, and a method that was taken out. -/
theorem merge_empty_of_companions : ∃ record other, Built issuedName record other ∧
    record.removed = [⟨6⟩] ∧ other.companion? ⟨1⟩ = some ⟨2⟩ ∧ ∃ merged image,
      Graph.merge other Graph.empty = .ok () merged ∧ Reproduction other merged image := by
  have hother := built_played [.klass root ⟨"C"⟩, .object root ⟨"C"⟩, .issueName ⟨1⟩,
    .klass ⟨1⟩ ⟨"anon$1"⟩, .field ⟨3⟩ ⟨"f"⟩, .method ⟨2⟩ ⟨"m"⟩, .method ⟨2⟩ ⟨"m"⟩,
    .dropDuplicate ⟨2⟩ ⟨6⟩, .comment ⟨2⟩ "last"] rfl
  exact ⟨_, _, hother, rfl, rfl, Built.merge_empty hother⟩

/-- A class that mentions a parent twice: in the result no class has its parents. -/
theorem parents_of_no_reproduction : ∃ record other merged, Built issuedName record other ∧
    Graph.merge other Graph.empty = .ok () merged ∧ ¬ ∃ image : DeclId → DeclId,
      ∀ d k, other.isAttached d = true → other.klass? d = some k →
        ∃ k', merged.klass? (image d) = some k' ∧ k'.parents = k.parents := by
  have hmade := built_played [.klass root ⟨"C"⟩] rfl
  have hadmitted : ∀ record g, Request.Admitted issuedName record g (.editClass ⟨1⟩ fun k =>
      { k with parents := [TypeExpr.any, TypeExpr.any] }) := fun _ _ _ => ⟨rfl, rfl, rfl⟩
  have hother := Built.request hmade (hadmitted _ _) rfl (by decide +kernel)
  rcases Built.new.exists_merging hother (by decide +kernel) with ⟨merged, forest, log, hmerge, -⟩
  refine ⟨_, _, merged, hother, hmerge, ?_⟩
  rintro ⟨image, himage⟩
  rcases himage ⟨1⟩ _ (by decide +kernel) rfl with ⟨k', hk', hparents⟩
  have hslot : Decl.klass k' ∈ merged.decls.toList := by
    rw [Array.mem_toList_iff]
    exact Array.mem_of_getElem? (klass?_eq_some_iff.mp hk')
  have hnone : ∀ decl ∈ merged.decls.toList, decl.klass?.map ClassDecl.parents ≠
      some [TypeExpr.any, TypeExpr.any] := by
    rw [← Build.final_of_ok hmerge]
    decide +kernel
  exact hnone _ hslot (by simpa [Decl.klass?] using hparents)

end DeclGraph
